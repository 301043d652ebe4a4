/-
Files of desired records.

A file holds a list of rows, in YAML if its name says so and in JSON otherwise.  What is
wrong inside a file is not told; which file it was, and how it was read, is.
-/
import ZoneKeeper.Row
import ZoneKeeper.Json.Parser
import ZoneKeeper.Yaml.Parser

namespace ZoneKeeper

open Text

/-- How a file of rows is written. -/
inductive RowFormat
  | json
  | yaml
deriving DecidableEq, Repr

namespace RowFormat

/-- The word for a format. -/
def label : RowFormat → String
  | json => "json"
  | yaml => "yaml"

/-- The name of the file at the end of a path, if the path ends in one. -/
def fileName? (path : String) : Option (List Char) :=
  let parts := (cutAt '/' path.toList).filter fun part => part ≠ [] ∧ part ≠ ['.']
  parts.getLast?.filter (· ≠ ['.', '.'])

/-- The part of a file's name after its last dot, unless that dot begins the name. -/
def extension? (path : String) : Option String := do
  let pieces := cutAt '.' (← fileName? path)
  if pieces.length < 2 ∨ pieces.dropLast = [[]] then none
  else pieces.getLast?.map String.ofList

/-- The format that the name of a file tells. -/
def ofPath (path : String) : RowFormat :=
  if (extension? path).any fun e => sameLetters e "yaml" || sameLetters e "yml" then yaml
  else json

/-- The rows that a text in this format holds. -/
def rows? (format : RowFormat) (contents : String) : Option (List Row) :=
  match format with
  | json => (Json.parse? contents).bind ofJson?
  | yaml => (Yaml.parse? contents).bind ofYaml?

end RowFormat

/-- Why a file yields no rows. -/
inductive RowFileError
  /-- The file cannot be read as text. -/
  | unreadable (path : String)
  /-- The text holds no list of rows. -/
  | malformed (path : String)
deriving DecidableEq, Repr

/-- The failure in words. -/
def RowFileError.message : RowFileError → String
  | unreadable path => s!"read records file: {path}"
  | malformed path => s!"parse records {(RowFormat.ofPath path).label}: {path}"

/-- The rows of a file with these contents. -/
def rowsOfFile (path contents : String) : Except RowFileError (List Row) :=
  match (RowFormat.ofPath path).rows? contents with
  | some rows => .ok rows
  | none => .error (.malformed path)

end ZoneKeeper
