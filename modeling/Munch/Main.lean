import Munch.CommandLine

/-!
# The program

Reads the file that the command line opens, if it opens one, and prints what `CommandLine.run` makes
of it. That looks at no other path (`CommandLine.run_congr`).
-/

open Munch

/-- What kept the system from opening or reading a file. Code 21 says that it is a directory, where
the same kind of error otherwise says that a name on the way to it is none. -/
def faultOf : IO.Error → Fault
  | .noFileOrDirectory _ _ _ => .noSuchFile
  | .inappropriateType _ code _ => if code = 21 then .isDirectory else .notDirectory
  | .permissionDenied _ _ _ => .permissionDenied
  | .invalidArgument _ _ _ => .nameTooLong
  | _ => .inputOutput

/-- The file system as far as one path goes. A device that opens may still fail to be read. -/
def readPath (path : String) : IO FileSystem := do
  let opened : Except Fault Contents ←
    try pure (.ok (.ok (← IO.FS.readBinFile path).toList))
    catch e =>
      match faultOf e with
      | .inputOutput => pure (.ok (.error .inputOutput))
      | fault => pure (.error fault)
  return fun p => if p = path then opened else .error .noSuchFile

def main (args : List String) : IO UInt32 := do
  let fs ← match CommandLine.opened? args with
    | some source => readPath source
    | none => pure fun _ => .error .noSuchFile
  let outcome := CommandLine.run fs args
  IO.print outcome.stdout
  IO.eprint outcome.stderr
  match outcome.status with
  | .ok status => return status.toUInt32
  | .error e => do
    IO.eprintln e.message
    return 1
