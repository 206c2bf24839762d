import BitmapText.Path

/-!
# Files

What the library asks of files: to read one, to write one, to append to one, and whether something
is there. Everything that works on files is written for any monad that offers these four operations,
so that it runs on files in memory as well as on those of the system.

## Main definitions

* `FileError`: why an operation on a file failed.
* `Files`: the operations.
-/

namespace BitmapText

/-- Why an operation on a file failed. -/
inductive FileError where
  | notFound
  | notDirectory
  | isDirectory
  | unusableName
  | other (reason : String)
deriving Repr, DecidableEq

def FileError.message : FileError → String
  | notFound => "No such file or directory (os error 2)"
  | notDirectory => "Not a directory (os error 20)"
  | isDirectory => "Is a directory (os error 21)"
  | unusableName => "file name contained an unexpected NUL byte"
  | other reason => reason

/-- Files can be reached from `m`. -/
class Files (m : Type → Type) where
  read : Path → m (Except FileError (Array UInt8))
  /-- Make a file of the given bytes, or replace what one holds. -/
  write : Path → Array UInt8 → m (Except FileError Unit)
  /-- Put bytes at the end of a file, which is made if it is missing. -/
  append : Path → Array UInt8 → m (Except FileError Unit)
  reaches : Path → m Bool

end BitmapText
