import BitmapText.CommandLine.Run

/-!
# The program

Everything that touches the system: the files, the environment, the arguments and the standard
streams.

## Main definitions

* `main`: the program.
-/

namespace BitmapText

/-- The reason for which the system refused an operation. -/
def FileError.ofSystem : IO.Error → FileError
  | .noFileOrDirectory .. => .notFound
  | .inappropriateType _ 20 _ => .notDirectory
  | .inappropriateType _ 21 _ => .isDirectory
  | .permissionDenied _ code details => .other (details ++ " (os error " ++ toString code ++ ")")
  | e => .other (toString e)

def attempt {α : Type} (path : Path) (operation : IO α) : IO (Except FileError α) :=
  if path.text.toList.contains '\x00' then return .error .unusableName
  else try return .ok (← operation) catch e => return .error (.ofSystem e)

instance : Files IO where
  read path := attempt path do
    let file ← IO.FS.Handle.mk path.text .read
    return (← file.readBinToEnd).data
  write path bytes := attempt path (IO.FS.writeBinFile path.text ⟨bytes⟩)
  append path bytes := attempt path do
    let file ← IO.FS.Handle.mk path.text .append
    file.write ⟨bytes⟩
  reaches path := do
    match ← attempt path (IO.FS.Handle.mk path.text .read) with
    | .error .notFound | .error .notDirectory | .error .unusableName => return false
    | _ => return true

end BitmapText

open BitmapText in
def main (arguments : List String) : IO UInt32 := do
  let environment : Environment := ⟨← IO.getEnv "XDG_CONFIG_HOME", ← IO.getEnv "HOME"⟩
  let program : Path := ⟨toString (← IO.appPath)⟩
  let output ← CommandLine.run environment (CommandLine.logFileBeside program) arguments
  IO.print output.stdout
  IO.eprint output.stderr
  return UInt32.ofNat output.code
