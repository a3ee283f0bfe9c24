import SelfCapture.Run

/-! # The command

  What the program answers when it is started: text for the two outputs and
  an exit status, which is 0 if nothing was found, 1 if there are errors or
  files that could not be read, and 2 if nothing was checked.
-/

namespace SelfCapture

/-- What the program is told when it is started, apart from its arguments. -/
structure Environment where
  /-- The directory in which the program is started. -/
  directory : String
  /-- The variables that matter. -/
  values : List (String × String) := []
  /-- Whether the output is a terminal. -/
  terminal : Bool := false

/-- What the program answers. -/
structure Reply where
  status : Nat
  out : String := ""
  err : String := ""
  deriving DecidableEq, Repr

namespace Environment

/-- The names of the variables that matter. -/
def variableNames : List String := ["BUILD_DIR", "NO_COLOR", "CLICOLOR", "CLICOLOR_FORCE"]

/-- The value of a variable. -/
def value? (env : Environment) (name : String) : Option String := env.values.lookup name

/-- Whether colours are shown: if they are forced, else if they are not
    unwanted and the output is a terminal. -/
def colour (env : Environment) : Bool :=
  if (env.value? "CLICOLOR_FORCE").any (· != "0") then true
  else if (env.value? "NO_COLOR").isSome then false
  else (env.value? "CLICOLOR").all (· != "0") && env.terminal

/-- The surroundings of a run. -/
def surroundings (env : Environment) : Surroundings where
  directory := env.directory
  buildDirectory := env.value? "BUILD_DIR"
  colour := env.colour

end Environment

/-! ## Section 1: Texts -/

/-- Name of the program. -/
def programName : String := "weak-self-check"

/-- Version of the program. -/
def programVersion : String := "0.1.0"

/-- The text that explains the program. -/
def helpText : String := "\n".intercalate [
  "Check whether `self` is captured by weak reference in closures.",
  "",
  "Usage: " ++ programName ++ " [OPTIONS] [PATH]",
  "",
  "Arguments:",
  "  [PATH]  File or directory to check. Defaults to the current directory",
  "",
  "Options:",
  "      --report-type <warning|error>  Report findings as errors or as warnings",
  "      --silent                       Do not print a line for every checked file",
  "      --config <FILE>                Path to the YAML config file",
  "      --index-store-path <PATH>      Symbol index dump used to resolve types and callees",
  "      --format <xcode|json>          How reports are printed",
  "      --pretty                       Color report severities",
  "  -j, --jobs <JOBS>                  Number of files checked at a time",
  "  -h, --help                         Print help",
  "  -V, --version                      Print version",
  ""]

/-- Wording of a fault of the command line. -/
def ArgumentFault.message : ArgumentFault → String
  | .unknownArgument => "unexpected argument"
  | .invalidValue => "invalid value"
  | .notANumber => "invalid number"
  | .repeated => "argument used more than once"
  | .unexpectedValue => "unexpected value for a switch"
  | .helpWanted => helpText
  | .versionWanted => programName ++ " " ++ programVersion

/-! ## Section 2: Replies -/

/-- The reply to a command line that is not carried out. -/
def Reply.ofFault : ArgumentFault → Reply
  | .helpWanted => { status := 0, out := helpText }
  | .versionWanted => { status := 0, out := programName ++ " " ++ programVersion ++ "\n" }
  | fault => { status := 2, err := "error: " ++ fault.message ++ "\n" }

/-- The reply of a run. -/
def Reply.ofRun : Except RunFailure Output → Reply
  | .error failure => { status := 2, err := "error: " ++ failure.message ++ "\n" }
  | .ok output =>
    { status := if output.summary.isClean then 0 else 1
      out := output.out
      err := output.err }

/-- Carries out a command line. -/
def command {m : Type → Type} [Monad m] (fs : FileSystem m) (env : Environment)
    (texts : List String) : m Reply := do
  match Arguments.parse texts with
  | .error fault => return Reply.ofFault fault
  | .ok arguments => return Reply.ofRun (← run fs arguments env.surroundings)

end SelfCapture
