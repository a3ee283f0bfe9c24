import SelfCapture.Command

/-! # The program

  Connects the command to the file system, the environment and the outputs.
-/

namespace SelfCapture

/-- Runs an action; there is no result if it fails. -/
def attempt? {α : Type} (action : IO α) : IO (Option α) :=
  try return some (← action) catch _ => return none

/-- The real file system. -/
def realFileSystem : FileSystem IO where
  kind? path := attempt? do
    let place ← IO.FS.realPath path
    return match (← place.metadata).type with
      | .file => .file
      | .dir => .directory
      | _ => .other
  read path := do
    try
      match String.fromUTF8? (← IO.FS.readBinFile path) with
      | some text => return .ok text
      | none => return .error .notText
    catch failure => return .error (.refused (toString failure))
  names? path := attempt? do
    let place ← IO.FS.realPath path
    return (← place.readDir).toList.map (·.fileName)
  canonical? path := attempt? do return (← IO.FS.realPath path).toString
  depthLimit := 4096

/-- The real environment. -/
def realEnvironment : IO Environment := do
  let values ← Environment.variableNames.filterMapM fun name => do
    return (← IO.getEnv name).map fun value => (name, value)
  return {
    directory := (← IO.currentDir).toString
    values
    terminal := ← (← IO.getStdout).isTty }

end SelfCapture

/-- Starts the program. -/
def main (texts : List String) : IO UInt32 := do
  let reply ← SelfCapture.command SelfCapture.realFileSystem (← SelfCapture.realEnvironment) texts
  IO.print reply.out
  IO.eprint reply.err
  return reply.status.toUInt32
