import SelfCapture.Check.Inspection
import SelfCapture.Files.Sources
import SelfCapture.Glob.Reader
import SelfCapture.Index.Opening
import SelfCapture.Output
import SelfCapture.Settings

/-! # Runs

  A run settles its plan from the command line and the settings file, finds
  the files to check, checks each of them and shows what came of it.  All
  faults of the settings are found before any file is checked.  An index
  that cannot be opened counts as no index.
-/

namespace SelfCapture

/-- Why a run checks nothing. -/
inductive RunFailure where
  | unreadableSettings (path : String)
  | malformedSettings (path : String)
  /-- A pattern of a rule is invalid. -/
  | invalidRule
  /-- A glob is invalid. -/
  | invalidExclusion (glob : String)
  | missingPath (path : String)
  deriving DecidableEq, Repr

/-- Wording of a failure. -/
def RunFailure.message : RunFailure → String
  | .unreadableSettings path => "failed to read config: " ++ path
  | .malformedSettings path => "failed to parse config: " ++ path
  | .invalidRule => "invalid whiteList entry"
  | .invalidExclusion glob => "invalid excludedFiles pattern '" ++ glob ++ "'"
  | .missingPath path => "path does not exist: " ++ path

/-- Where a run takes place. -/
structure Surroundings where
  /-- The directory from which paths are seen. -/
  directory : String
  /-- The build directory of a surrounding build. -/
  buildDirectory : Option String := none
  /-- Whether severities can be coloured. -/
  colour : Bool := false

/-- What a run is going to do. -/
structure Plan where
  policy : Policy
  excluded : List Glob
  silent : Bool

variable {m : Type → Type} [Monad m]

/-! ## Section 1: Plans -/

/-- Name of the settings file that is used when none is given. -/
def defaultSettingsName : String := ".swift-weak-self-check.yml"

/-- Reads the settings file at a path. -/
def readSettings (fs : FileSystem m) (path : String) : m (Except RunFailure Settings) :=
  return match ← fs.read path with
    | .error _ => .error (.unreadableSettings path)
    | .ok text =>
      match Settings.ofText? text with
      | some settings => .ok settings
      | none => .error (.malformedSettings path)

/-- The settings of a run.  A file that is asked for has to be there; the
    default one need not. -/
def findSettings (fs : FileSystem m) (directory : String) (config : Option String) :
    m (Except RunFailure Settings) := do
  match config with
  | some path => readSettings fs (Path.join directory path)
  | none =>
    let path := Path.join directory defaultSettingsName
    if ← fs.isFile path then readSettings fs path else pure (.ok {})

/-- Reads globs, up to the first that is invalid. -/
def compileExclusions (globs : List String) : Except RunFailure (List Glob) :=
  globs.mapM fun glob =>
    match Glob.parse? glob with
    | some compiled => .ok compiled
    | none => .error (.invalidExclusion glob)

/-- The plan of a run.  The command line goes before the settings. -/
def Plan.make (arguments : Arguments) (settings : Settings) : Except RunFailure Plan := do
  let rules ← (compileRules settings.rules).mapError fun _ => RunFailure.invalidRule
  let excluded ← compileExclusions settings.excluded
  return {
    policy :=
      { severity := (arguments.severity <|> settings.severity).getD .error
        rules }
    excluded
    silent := arguments.silent || settings.silent.getD false }

/-! ## Section 2: The index -/

/-- The place of the index that belongs to a build directory. -/
def buildIndexPath? (buildDirectory : String) : Option String := do
  let products ← Path.parent? buildDirectory
  let build ← Path.parent? products
  return Path.join (Path.join build "Index.noindex") "DataStore"

/-- The path of the index of a run: the one asked for, or the one of the
    build directory if it is there. -/
def findIndex (fs : FileSystem m) (surroundings : Surroundings) (index : Option String) :
    m (Option String) := do
  match index with
  | some path => return some (Path.join surroundings.directory path)
  | none =>
    let some path := surroundings.buildDirectory.bind buildIndexPath? | return none
    return if ← fs.hasEntry path then some path else none

/-- Opens the index of a run. -/
def openIndex (fs : FileSystem m) (path : Option String) : m (Option Index.Store) := do
  let some path := path | return none
  return (← Index.openAt fs path).toOption

/-! ## Section 3: Files -/

/-- Checks a file. -/
def checkFile (fs : FileSystem m) (policy : Policy) (store : Option Index.Store) (path : String) :
    m Outcome := do
  match ← fs.read path with
  | .error failure => return { path, result := .error (.unreadable path failure) }
  | .ok text =>
    let canonical ← fs.canonical? path
    let index := match store with
      | some store => store.lookup fun _ => canonical
      | none => Index.Lookup.absent
    let findings := inspect policy index path text
    return { path, reports := findings.reports, result := .ok findings.statistics }

/-- Checks what the plan says. -/
def Plan.carryOut (plan : Plan) (fs : FileSystem m) (arguments : Arguments)
    (surroundings : Surroundings) (root : String) : m Output := do
  let store ← openIndex fs (← findIndex fs surroundings arguments.index)
  let files ← sourceFiles fs plan.excluded root
  let outcomes ← files.mapM (checkFile fs plan.policy store)
  let layout : Layout :=
    { format := arguments.format
      silent := plan.silent
      colour := arguments.pretty && surroundings.colour }
  return Output.ofOutcomes layout surroundings.directory outcomes

/-- A whole run. -/
def run (fs : FileSystem m) (arguments : Arguments) (surroundings : Surroundings) :
    m (Except RunFailure Output) := do
  match ← findSettings fs surroundings.directory arguments.config with
  | .error failure => return .error failure
  | .ok settings =>
    match Plan.make arguments settings with
    | .error failure => return .error failure
    | .ok plan =>
      let root := (arguments.path.map (Path.join surroundings.directory)).getD
        surroundings.directory
      if ← fs.hasEntry root then
        return .ok (← plan.carryOut fs arguments surroundings root)
      else
        return .error (.missingPath root)

end SelfCapture
