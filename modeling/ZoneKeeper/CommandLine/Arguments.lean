/-
Reading the arguments of a command line.

Arguments are read from left to right.  An option is settled as soon as its value is known
for certain, which is when the next option begins or the arguments end; only then is it
looked at whether the option was given before and whether its value means something.  So
of two mistakes the one that is settled first is reported, but an argument that nobody
knows is reported at once.
-/
import ZoneKeeper.CommandLine
import ZoneKeeper.Table

namespace ZoneKeeper.CommandLine

open Text Numeral

/-! ### Single arguments -/

/-- The forms of an argument. -/
inductive Argument
  /-- Two dashes and a name, with a value after an equals sign or without one. -/
  | long (name : String) (value : Option String)
  /-- One dash and letters. -/
  | short (letters : List Char)
  /-- Two dashes alone: everything after them is a word. -/
  | terminator
  | word (text : String)
deriving DecidableEq, Repr

/-- The form of an argument.  A dash alone is a word. -/
def Argument.ofString (s : String) : Argument :=
  match s.toList with
  | ['-', '-'] => .terminator
  | '-' :: '-' :: cs =>
    match breakOn? ['='] cs with
    | some (name, value) => .long (String.ofList name) (some (String.ofList value))
    | none => .long (String.ofList cs) none
  | '-' :: c :: cs => .short (c :: cs)
  | _ => .word s

/-! ### Values -/

/-- What an option takes. -/
inductive Parameter
  /-- No value. -/
  | flag
  | text
  /-- A path, which is never empty. -/
  | path
  /-- The serial of a zone. -/
  | serial
  /-- A record type. -/
  | type
deriving DecidableEq, Repr

/-- The serial that a value writes: digits that may have a sign. -/
def serial? (s : String) : Option UInt32 :=
  let value :=
    match s.toList with
    | '-' :: cs => (decimal? cs).filter (· == 0)
    | cs => unsigned? (UInt32.size - 1) cs
  value.map UInt32.ofNat

/-- Why the value of an option is refused, if it is. -/
def Parameter.refusal? (parameter : Parameter) (name value : String) : Option UsageError :=
  match parameter with
  | flag | text => none
  | path => if value.isEmpty then some (.emptyValue name) else none
  | serial => if (serial? value).isSome then none else some (.refusedValue name value)
  | type => if (RRType.ofString? value).isSome then none else some (.refusedValue name value)

/-! ### Options -/

/-- An option whose value is not certain yet. -/
structure Pending where
  name : String
  parameter : Parameter
  value : Option String
deriving DecidableEq, Repr

/-- What has been read so far. -/
structure Reading where
  /-- The options that are settled, with their values. -/
  given : Table String String
  pending : Option Pending
deriving DecidableEq, Repr

namespace Reading

/-- The reading with nothing pending. -/
def settle (reading : Reading) : Except UsageError Reading :=
  match reading.pending with
  | none => .ok reading
  | some ⟨name, _, none⟩ => .error (.emptyValue name)
  | some ⟨name, parameter, some value⟩ =>
    if (reading.given.lookup name).isSome then .error (.repeatedArgument name)
    else
      match parameter.refusal? name value with
      | some e => .error e
      | none => .ok ⟨Table.put name value reading.given, none⟩

/-- The reading after an option by name. -/
def start (reading : Reading) (name : String) (parameter : Parameter) (value : Option String) :
    Except UsageError Reading := do
  match parameter, value with
  | .flag, some _ => throw (.unneededValue name)
  | .flag, none =>
    let reading ← reading.settle
    settle { reading with pending := some ⟨name, parameter, some ""⟩ }
  | _, some value =>
    let reading ← reading.settle
    settle { reading with pending := some ⟨name, parameter, some value⟩ }
  | _, none =>
    let reading ← reading.settle
    return { reading with pending := some ⟨name, parameter, none⟩ }

/-- The reading after a word, which is the value of the option before it or nothing. -/
def takeWord (reading : Reading) (text : String) : Except UsageError Reading :=
  match reading.pending with
  | some ⟨name, parameter, none⟩ =>
    .ok { reading with pending := some ⟨name, parameter, some text⟩ }
  | _ => .error (.unknownArgument text)

/-- The reading after help is asked for: there is none. -/
def askHelp (reading : Reading) (topic : CommandWord) : Except UsageError Reading := do
  let _ ← reading.settle
  throw (.help (some topic))

/-- The reading after one more argument of a command with these options. -/
def step (topic : CommandWord) (options : List (String × Parameter)) (reading : Reading) :
    Argument → Except UsageError Reading
  | .terminator => .ok reading
  | .word text => reading.takeWord text
  | .short letters =>
    if letters.head? = some 'h' then reading.askHelp topic
    else .error (.unknownArgument ("-" ++ String.ofList letters))
  | .long "help" none => reading.askHelp topic
  | .long "help" (some _) => .error (.unneededValue "help")
  | .long name value =>
    match options.lookup name with
    | some parameter => reading.start name parameter value
    | none => .error (.unknownArgument ("--" ++ name))

end Reading

/-- The options given to a command, with their values. -/
def readOptions (topic : CommandWord) (options : List (String × Parameter)) (reading : Reading) :
    List Argument → Except UsageError (Table String String)
  | [] => reading.settle.map Reading.given
  | [.terminator] => reading.settle.map Reading.given
  | .terminator :: _ :: _ => .error (.unknownArgument "--")
  | argument :: arguments => do
    readOptions topic options (← reading.step topic options argument) arguments

/-! ### Commands -/

/-- The options of a plan and of an apply. -/
def runParameters : List (String × Parameter) :=
  [("zone", .text), ("records", .path), ("actor", .text), ("serial", .serial),
    ("print-metrics", .flag)]

/-- The options of the history. -/
def historyParameters : List (String × Parameter) :=
  [("zone", .text), ("name", .text), ("type", .type)]

/-- What a plan or an apply is told by the options given. -/
def runOptions (given : Table String String) : Except UsageError RunOptions :=
  match given.lookup "zone", given.lookup "records" with
  | some zone, some records => .ok {
      zone, records
      actor := (given.lookup "actor").getD "zonesync"
      serial := (given.lookup "serial").bind serial?
      printMetrics := (given.lookup "print-metrics").isSome }
  | _, _ => .error .missingArgument

/-- What the history is told by the options given.  A name and a type go together. -/
def historyOptions (given : Table String String) : Except UsageError HistoryOptions :=
  let zone := given.lookup "zone"
  match given.lookup "name", (given.lookup "type").bind RRType.ofString? with
  | some name, some type => .ok ⟨zone, some (name, type)⟩
  | none, none => .ok ⟨zone, none⟩
  | _, _ => .error .missingArgument

/-- What the words after the word for help ask for. -/
def helpOn : List String → UsageError
  | [] => .help none
  | word :: words =>
    match CommandWord.ofString? word, words with
    | some topic, [] => .help (some topic)
    | some _, next :: _ => .unknownCommand next
    | none, _ => .unknownCommand word

/-- The command that a word and the arguments after it make. -/
def commandOf (word : CommandWord) (arguments : List String) : Except UsageError Command := do
  let options (parameters : List (String × Parameter)) : Except UsageError (Table String String) :=
    readOptions word parameters ⟨[], none⟩ (arguments.map Argument.ofString)
  match word with
  | .plan => return .plan (← runOptions (← options runParameters))
  | .apply => return .apply (← runOptions (← options runParameters))
  | .history => return .history (← historyOptions (← options historyParameters))
  | .help => throw (helpOn arguments)

/-- The command that arguments make. -/
def parse (arguments : List String) : Except UsageError Command :=
  match arguments with
  | [] => .error .nothing
  | first :: rest =>
    match Argument.ofString first with
    | .word text =>
      match CommandWord.ofString? text with
      | some word => commandOf word rest
      | none => .error (.unknownCommand text)
    | .terminator =>
      match rest with
      | [] => .error .nothing
      | next :: _ =>
        if (CommandWord.ofString? next).isSome then .error (.unknownArgument next)
        else .error (.unknownCommand next)
    | .long name value =>
      match name, value with
      | "help", none => .error (.help none)
      | "version", none => .error .version
      | "help", some _ | "version", some _ => .error (.unneededValue name)
      | _, _ => .error (.unknownArgument first)
    | .short letters =>
      match letters.head? with
      | some 'h' => .error (.help none)
      | some 'V' => .error .version
      | _ => .error (.unknownArgument first)

end ZoneKeeper.CommandLine
