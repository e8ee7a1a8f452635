import BasicOutline.CommandLine.Run

/-! The program: runs the command that its arguments ask for on the files of the machine. -/

namespace BasicOutline.Program

partial def readTree (path : String) : IO Node := do
  let there := (← IO.currentDir) / path
  if ← there.isDir then
    let nodes ← (← there.readDir).toList.mapM fun entry =>
      return (entry.fileName.toList, ← readTree entry.path.toString)
    return .directory nodes
  else
    return .file (← IO.FS.readBinFile path).toList

/-- The absolute path of the names passed so far, the last one first. -/
def pathOf (passed : List Text) : Text := '/' :: Path.ofComponents passed.reverse

def place (fs : FileSystem) (passed : List Text) (node : Node) : FileSystem :=
  (fs.put (pathOf passed) node).toOption.getD fs

/-- Copies into `fs` what a path leads through, `passed` being the names so far, the last one
first. A directory at its end is copied with all that is below it if `deep` is set. -/
def copy (fs : FileSystem) (deep : Bool) (passed : List Text) : List Text → IO FileSystem
  | [] => return fs
  | name :: rest => do
    let passed := Path.pass true passed name
    let path := String.ofList (pathOf passed)
    let there := (← IO.currentDir) / path
    if !(← there.pathExists) then return fs
    else if (← there.isDir) && !(deep && rest.isEmpty) then
      copy (place fs passed (.directory [])) deep passed rest
    else return place fs passed (← readTree path)

def copyPath (fs : FileSystem) (deep : Bool) (path : Text) : IO FileSystem :=
  copy fs deep [] (FileSystem.steps (Path.join fs.workingDirectory path))

def filesFor (fs : FileSystem) : CommandLine.Command → IO FileSystem
  | .outline path _ settings => do
    copyPath (← copyPath fs false path) false (settings.file.getD [])
  | .scan path settings => do
    copyPath (← copyPath fs true (fs.absolute path)) false (settings.file.getD [])
  | .serve _ => return fs

end BasicOutline.Program

def main (arguments : List String) : IO UInt32 := do
  let arguments := arguments.map String.toList
  let directory ← IO.currentDir
  let fs : BasicOutline.FileSystem := { workingDirectory := directory.toString.toList }
  let fs ← match BasicOutline.CommandLine.invocation arguments with
    | .ok invocation => BasicOutline.Program.filesFor fs invocation.command
    | .error _ => pure fs
  let outcome := BasicOutline.CommandLine.run fs arguments
  (← IO.getStdout).putStr (String.ofList outcome.output)
  (← IO.getStderr).putStr (String.ofList outcome.errors)
  return UInt32.ofNat outcome.exitCode
