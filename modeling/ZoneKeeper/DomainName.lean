/-
Domain names.

A name is text.  Its absolute form ends in exactly one dot, its relative form in none;
zones are compared and stored by the relative form, so every spelling of a zone that
differs only in trailing dots means the same zone.
-/
import ZoneKeeper.Text

namespace ZoneKeeper.DomainName

open Text

/-- The name without any trailing dot. -/
def relative (name : String) : String :=
  String.ofList (dropEndWhile (· == '.') name.toList)

/-- The name with exactly one trailing dot. -/
def absolute (name : String) : String :=
  relative name ++ "."

/-- The label that means the apex of a zone. -/
def apexLabel : String := "@"

/-- The absolute owner name of a label in a zone.  The empty label and the apex label
mean the zone itself; any other label is put in front of the zone's name. -/
def ofLabel (zone label : String) : String :=
  let label := trim label
  if label = "" ∨ label = apexLabel then absolute zone else label ++ "." ++ absolute zone

/-- The texts between the dots. -/
def labels (name : String) : List String :=
  (cutAt '.' name.toList).map String.ofList

/-- The name with these labels. -/
def ofLabels (labels : List String) : String :=
  String.ofList (joinWith '.' (labels.map String.toList))

end ZoneKeeper.DomainName
