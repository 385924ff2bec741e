import WriteBehind.CommandLine.Run

/-!
# Main — the command line on real files

The outer layer: it finds out what is met at the one path that a request names, and prints what
`CommandLine.respond` answers.
-/

namespace WriteBehind
namespace CommandLine

/-- The failure of a system call. -/
def osError : IO.Error → OsError
  | .noFileOrDirectory .. => .notFound
  | .inappropriateType (some _) 20 _ | .inappropriateType none 20 _ => .notDirectory
  | .inappropriateType _ 21 _ => .isDirectory
  | .invalidArgument (some _) 36 _ | .invalidArgument none 36 _ => .nameTooLong
  | .permissionDenied _ code _ => .other code.toNat "Permission denied"
  | e => .other 5 (toString e)

/-- Whether somebody else holds a lock that excludes readers. -/
def isLocked (h : IO.FS.Handle) : IO Bool := do
  if ← h.tryLock false then
    h.unlock
    return false
  else
    return true

/-- What is met at a path. -/
def lookAt (path : String) : IO Disk.Access := do
  match ← (IO.FS.Handle.mk path .read).toBaseIO with
  | .error e =>
    let fault := osError e
    return { opened := .error fault, inUse := false, content := .error fault }
  | .ok h =>
    let inUse ← isLocked h
    match ← h.readBinToEnd.toBaseIO with
    | .error e => return { opened := .ok (), inUse, content := .error (osError e) }
    | .ok bytes => return { opened := .ok (), inUse, content := .ok (.ofBytes bytes.toList) }

/-- What is met where there is nothing to look at. -/
def nothingThere : Disk.Access where
  opened := .error .notFound
  inUse := false
  content := .error .notFound

/-- Prints an outcome, and gives its exit code. -/
def Outcome.emit (o : Outcome) : IO UInt32 := do
  (← IO.getStdout).putStr o.stdout
  (← IO.getStderr).putStr o.stderr
  return UInt32.ofNat o.exit

end CommandLine
end WriteBehind

/-- Runs the program. -/
def main (args : List String) : IO UInt32 := do
  match WriteBehind.CommandLine.parse args with
  | .error complaint => (WriteBehind.CommandLine.Outcome.ofReport "" complaint.report).emit
  | .ok request =>
    let access ← match request.file? with
      | some path => WriteBehind.CommandLine.lookAt path
      | none => pure WriteBehind.CommandLine.nothingThere
    (WriteBehind.CommandLine.respond (fun _ => access) request).emit
