import CallbackLint.CommandLine.Run
import CallbackLint.Report.Layout
/-!
# The program

Reads the target of a request from disk and prints the outcome of the request. What is
read, reported and answered is decided by `CommandLine.parse` and `Request.run`.
-/

namespace CallbackLint

/-- The bytes of a Java file; others are not looked at. A file that cannot be read is taken
for an empty one, and so has no findings. -/
def readBytes (e : IO.FS.DirEntry) : IO Bytes := do
  if Path.isJavaName e.fileName then
    try
      return (← IO.FS.readBinFile e.path).toList
    catch _ =>
      return []
  else
    return []

/-- The entry on disk with all that is below it. Links are kept, but not where they lead to,
since a target is walked without following any. -/
partial def readEntry (e : IO.FS.DirEntry) : IO Entry := do
  match (← e.path.symlinkMetadata).type with
  | .file => return .file e.fileName (← readBytes e)
  | .dir =>
    try
      return .folder e.fileName true (← (← e.path.readDir).toList.mapM readEntry)
    catch _ =>
      return .folder e.fileName false []
  | .symlink => return .link e.fileName ""
  | .other => return .special e.fileName

/-- The target of a request: where it really is, and what is there. -/
def readTarget (target : String) : IO (Path × Option Entry) := do
  try
    let path ← IO.FS.realPath target
    let place : IO.FS.DirEntry :=
      { root := path.parent.getD path, fileName := path.fileName.getD "" }
    return (Path.ofString path.toString, some (← readEntry place))
  catch _ =>
    return (Path.ofString target, none)

/-- Tells the user why a command line was refused. -/
def refuse (fault : UsageFault) : IO UInt32 := do
  IO.eprintln fault.message
  return CommandLine.refused.exit.toUInt32

end CallbackLint

open CallbackLint in
/-- Runs the command line. -/
def main (args : List String) : IO UInt32 := do
  match CommandLine.parse args with
  | .error fault => refuse fault
  | .ok request =>
    let (path, target) ← readTarget request.target
    match request.run path target with
    | .error fault => refuse fault
    | .ok outcome =>
      IO.print outcome.output
      for p in outcome.prints do
        for l in p.lines do
          IO.println l
      return outcome.exit.toUInt32
