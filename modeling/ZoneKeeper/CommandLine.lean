/-
What the command line asks for.

There are three commands.  A plan shows what applying desired records would send, an apply
sends it, and the history shows what earlier runs changed.
-/
import ZoneKeeper.RRType

namespace ZoneKeeper

/-- What a plan and an apply are told. -/
structure RunOptions where
  zone : String
  /-- The file of the desired records. -/
  records : String
  /-- Who asks, for the audit history. -/
  actor : String
  /-- The serial that the records were written for. -/
  serial : Option UInt32
  /-- The metrics are printed after everything else. -/
  printMetrics : Bool
deriving DecidableEq, Repr

/-- What the history is told. -/
structure HistoryOptions where
  /-- Show only the records of this zone. -/
  zone : Option String
  /-- Show only what happened to one owner name and type. -/
  only : Option (String × RRType)
deriving DecidableEq, Repr

/-- What the command line asks for. -/
inductive Command
  | plan (options : RunOptions)
  | apply (options : RunOptions)
  | history (options : HistoryOptions)
deriving DecidableEq, Repr

/-- The words that begin a command line. -/
inductive CommandWord
  | plan
  | apply
  | history
  | help
deriving DecidableEq, Repr

/-- The command that a word means. -/
def CommandWord.ofString? : String → Option CommandWord
  | "plan" => some plan
  | "apply" => some apply
  | "history" => some history
  | "help" => some help
  | _ => none

/-- Why arguments make no command. -/
inductive UsageError
  /-- Help is asked for, about a command or about all of them. -/
  | help (topic : Option CommandWord)
  /-- The version is asked for. -/
  | version
  /-- Nothing is asked for. -/
  | nothing
  /-- What a command needs is not given. -/
  | missingArgument
  | unknownArgument (argument : String)
  | unknownCommand (word : String)
  /-- An option or a flag is given twice. -/
  | repeatedArgument (name : String)
  /-- The value of an option means nothing. -/
  | refusedValue (name value : String)
  /-- An option has no value, or an empty one where that cannot be. -/
  | emptyValue (name : String)
  /-- A flag has a value. -/
  | unneededValue (name : String)
deriving DecidableEq, Repr

namespace UsageError

/-- The program has done what was asked for when it has said this. -/
def isAnswer : UsageError → Bool
  | help _ | version => true
  | _ => false

/-- What is wrong, in words. -/
def message : UsageError → String
  | help _ | nothing => "no command was given"
  | version => "zonesync 0.1.0"
  | missingArgument => "a required argument was not provided"
  | unknownArgument argument => s!"unexpected argument '{argument}' found"
  | unknownCommand word => s!"unrecognized subcommand '{word}'"
  | repeatedArgument name => s!"the argument '--{name}' cannot be used multiple times"
  | refusedValue name value => s!"invalid value '{value}' for '--{name}'"
  | emptyValue name => s!"a value is required for '--{name}' but none was supplied"
  | unneededValue name => s!"unexpected value for '--{name}' found; no more were expected"

end UsageError
end ZoneKeeper
