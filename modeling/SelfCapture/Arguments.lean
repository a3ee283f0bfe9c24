import SelfCapture.Report

/-! # Command line arguments

  The arguments are read from left to right.  An option whose value follows
  as an argument of its own, and the path, are *pending* until the next
  argument shows that they are complete; only then is the value examined.
  So of two faults the one that is settled first is reported.
-/

namespace SelfCapture

/-- How reports are shown. -/
inductive OutputFormat where
  /-- One report on each line. -/
  | lines
  /-- One JSON list of all reports. -/
  | json
  deriving DecidableEq, Repr

/-- What the command line asks for. -/
structure Arguments where
  /-- File or directory to check. -/
  path : Option String := none
  severity : Option Severity := none
  /-- Whether files are checked without a line for each. -/
  silent : Bool := false
  /-- The settings file. -/
  config : Option String := none
  /-- The symbol index. -/
  index : Option String := none
  format : OutputFormat := .lines
  /-- Whether severities are coloured. -/
  pretty : Bool := false
  /-- Number of files checked at a time. -/
  jobs : Option Nat := none
  deriving DecidableEq, Repr

/-- Why the command line is not carried out. -/
inductive ArgumentFault where
  | unknownArgument
  /-- A value is missing, empty, or not one of the possible ones. -/
  | invalidValue
  /-- A value is not a number. -/
  | notANumber
  /-- An option is given twice. -/
  | repeated
  /-- A switch is given a value. -/
  | unexpectedValue
  | helpWanted
  | versionWanted
  deriving DecidableEq, Repr

namespace Arguments

/-! ## Section 1: Options and switches -/

/-- Something that takes a value. -/
inductive Slot where
  | path | severity | config | index | format | jobs
  deriving DecidableEq, Repr

/-- Something that takes no value. -/
inductive Switch where
  | silent | pretty | help | version
  deriving DecidableEq, Repr

/-- An option or a switch. -/
inductive Key where
  | slot (slot : Slot)
  | switch (switch : Switch)
  deriving DecidableEq, Repr

/-- The option with a long name. -/
def ofLongName? : String → Option Key
  | "report-type" => some (.slot .severity)
  | "silent" => some (.switch .silent)
  | "config" => some (.slot .config)
  | "index-store-path" => some (.slot .index)
  | "format" => some (.slot .format)
  | "pretty" => some (.switch .pretty)
  | "jobs" => some (.slot .jobs)
  | "help" => some (.switch .help)
  | "version" => some (.switch .version)
  | _ => none

/-- The option with a short name. -/
def ofShortName? : Char → Option Key
  | 'j' => some (.slot .jobs)
  | 'h' => some (.switch .help)
  | 'V' => some (.switch .version)
  | _ => none

/-! ## Section 2: Values -/

/-- A text in lower case; only letters of ASCII change. -/
def lowered (text : String) : String := String.ofList (text.toList.map Char.toLower)

/-- The severity with a name in any case. -/
def severityOf? (text : String) : Option Severity := Severity.ofName? (lowered text)

/-- The output format with a name in any case. -/
def formatOf? (text : String) : Option OutputFormat :=
  match lowered text with
  | "xcode" => some .lines
  | "json" => some .json
  | _ => none

/-- Bound of the number of jobs. -/
def jobsBound : Nat := 0x10000000000000000

/-- The value of a row of decimal digits, if there are any and nothing else. -/
def decimal? (digits : List Char) : Option Nat :=
  if digits.isEmpty || !digits.all Char.isDigit then none
  else some (digits.foldl (fun value c => value * 10 + (c.toNat - '0'.toNat)) 0)

/-- A number of jobs, with an optional plus sign. -/
def jobsOf? (text : String) : Option Nat :=
  let digits := match text.toList with
    | '+' :: digits => digits
    | digits => digits
  (decimal? digits).filter (· < jobsBound)

/-- A path, which is not empty. -/
def pathOf? (text : String) : Option String := if text.isEmpty then none else some text

/-- A result, or a fault when there is none. -/
def orFault {α : Type} (fault : ArgumentFault) : Option α → Except ArgumentFault α
  | some value => .ok value
  | none => .error fault

/-- Takes the value of an option. -/
def assign (arguments : Arguments) (slot : Slot) (value : String) :
    Except ArgumentFault Arguments := do
  match slot with
  | .path => return { arguments with path := some (← orFault .invalidValue (pathOf? value)) }
  | .severity =>
    return { arguments with severity := some (← orFault .invalidValue (severityOf? value)) }
  | .config => return { arguments with config := some (← orFault .invalidValue (pathOf? value)) }
  | .index => return { arguments with index := some (← orFault .invalidValue (pathOf? value)) }
  | .format => return { arguments with format := ← orFault .invalidValue (formatOf? value) }
  | .jobs => return { arguments with jobs := some (← orFault .notANumber (jobsOf? value)) }

/-! ## Section 3: Reading -/

/-- What has been read of the command line. -/
structure Progress where
  arguments : Arguments := {}
  /-- The options and switches that are complete. -/
  given : List Key := []
  /-- An option that is not complete, with its value if that has been read. -/
  pending : Option (Slot × Option String) := none
  /-- Whether `--` has been read: only the path can follow. -/
  onlyPath : Bool := false
  /-- Whether the path has been read. -/
  hasPath : Bool := false

namespace Progress

/-- Takes an option with its value, which must be there and the first one. -/
def complete (progress : Progress) (slot : Slot) (value : Option String) :
    Except ArgumentFault Progress := do
  let value ← orFault .invalidValue value
  if progress.given.contains (.slot slot) then throw .repeated
  return { progress with
    arguments := ← progress.arguments.assign slot value
    given := .slot slot :: progress.given }

/-- Completes what is pending. -/
def settle (progress : Progress) : Except ArgumentFault Progress :=
  match progress.pending with
  | some (slot, value) => complete { progress with pending := none } slot value
  | none => .ok progress

/-- Takes a switch. -/
def turnOn (progress : Progress) (switch : Switch) : Except ArgumentFault Progress := do
  let progress ← progress.settle
  if progress.given.contains (.switch switch) then throw .repeated
  let given := .switch switch :: progress.given
  match switch with
  | .silent => return { progress with given, arguments.silent := true }
  | .pretty => return { progress with given, arguments.pretty := true }
  | .help => throw .helpWanted
  | .version => throw .versionWanted

/-- Takes an option with the value attached to it, if there is one. -/
def openSlot (progress : Progress) (slot : Slot) (attached : Option String) :
    Except ArgumentFault Progress := do
  let progress ← progress.settle
  match attached with
  | some value => progress.complete slot (some value)
  | none => return { progress with pending := some (slot, none) }

/-- Splits a text at its first equals sign. -/
def splitEquals (text : List Char) : List Char × Option String :=
  let name := text.takeWhile (· != '=')
  match text.drop name.length with
  | [] => (name, none)
  | _ :: value => (name, some (String.ofList value))

/-- Reads an argument that starts with two dashes, given without them. -/
def readLong (progress : Progress) (text : List Char) : Except ArgumentFault Progress :=
  let (name, value) := splitEquals text
  match ofLongName? (String.ofList name), value with
  | none, _ => .error .unknownArgument
  | some (.slot slot), value => progress.openSlot slot value
  | some (.switch _), some _ => .error .unexpectedValue
  | some (.switch switch), none => progress.turnOn switch

/-- The value attached to a short option: what follows it, after an equals
    sign or not. -/
def attachedValue : List Char → Option String
  | [] => none
  | '=' :: value => some (String.ofList value)
  | value => some (String.ofList value)

/-- Reads an argument that starts with one dash, given without it: switches,
    then at most one option with its value. -/
def readShort (progress : Progress) : List Char → Except ArgumentFault Progress
  | [] => .ok progress
  | c :: rest =>
    match ofShortName? c with
    | none => .error .unknownArgument
    | some (.slot slot) => progress.openSlot slot (attachedValue rest)
    | some (.switch switch) =>
      match progress.turnOn switch with
      | .ok progress => readShort progress rest
      | .error fault => .error fault

/-- Reads an argument that is no option: the value that is waited for, or the path. -/
def readPlain (progress : Progress) (text : String) : Except ArgumentFault Progress :=
  match progress.onlyPath, progress.pending with
  | false, some (slot, none) => .ok { progress with pending := some (slot, some text) }
  | _, _ =>
    if progress.hasPath then .error .unknownArgument
    else do
      let progress ← progress.settle
      return { progress with pending := some (.path, some text), hasPath := true }

/-- Reads one argument. -/
def read (progress : Progress) (text : String) : Except ArgumentFault Progress :=
  if progress.onlyPath then progress.readPlain text
  else
    match text.toList with
    | ['-', '-'] => .ok { progress with onlyPath := true }
    | '-' :: '-' :: rest => progress.readLong rest
    | ['-'] => progress.readPlain text
    | '-' :: rest => progress.readShort rest
    | _ => progress.readPlain text

end Progress

/-- Reads the command line. -/
def parse (texts : List String) : Except ArgumentFault Arguments := do
  let progress ← texts.foldlM Progress.read {}
  return (← progress.settle).arguments

end Arguments
end SelfCapture
