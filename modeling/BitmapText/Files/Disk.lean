import BitmapText.Files

/-!
# Files in memory

Files and directories by the names that lead to them from the root. A path is followed name by name:
whatever it goes through has to be a directory, and a slash at its end asks for one. Only the last
name of a path may be missing where a file is written.

## Main definitions

* `Disk`: files, directories and the directory where relative paths start.
* `Disk.read`, `Disk.write`, `Disk.append`, `Disk.reaches`: the operations.
-/

namespace BitmapText

/-- Where a file or a directory is: the names that lead there from the root. -/
abbrev Place := List String

/-- Files in memory. -/
structure Disk where
  files : List (Place × Array UInt8) := []
  /-- Directories that exist even if nothing is in them. -/
  directories : List Place := []
  /-- Where relative paths start. -/
  current : Place := []
deriving Repr

namespace Disk

/-- What is at a place. -/
inductive Entry where
  | file (bytes : Array UInt8)
  | directory
deriving Repr, DecidableEq

/-- What is at a place. A place above a file or a directory is a directory. -/
def entry? (d : Disk) (place : Place) : Option Entry :=
  match d.files.lookup place with
  | some bytes => some (.file bytes)
  | none =>
    let below (other : Place) : Bool := place.isPrefixOf other
    if place = [] ∨ below d.current ∨ d.directories.any below ∨ d.files.any (below ·.1) then
      some .directory
    else none

/-- The place that a piece of a path leads to. -/
def stepTo (place : Place) (piece : String) : Place :=
  if piece = "" ∨ piece = "." then place
  else if piece = ".." then place.dropLast
  else place ++ [piece]

/-- Follow the pieces of a path, all from directories on. -/
def follow (d : Disk) (place : Place) : List String → Except FileError Place
  | [] => .ok place
  | piece :: rest =>
    match d.entry? place with
    | none => .error .notFound
    | some (.file _) => .error .notDirectory
    | some .directory => d.follow (stepTo place piece) rest

def piecesOf (path : Path) : List String := (Path.pieces path.text.toList).map String.ofList

def origin (d : Disk) (path : Path) : Place :=
  if path.text.toList.head? = some '/' then [] else d.current

def locate (d : Disk) (path : Path) : Except FileError Place :=
  if path.text.toList.contains '\x00' then .error .unusableName
  else if path.text = "" then .error .notFound
  else d.follow (d.origin path) (piecesOf path)

def find (d : Disk) (path : Path) : Except FileError Entry :=
  match d.locate path with
  | .error e => .error e
  | .ok place =>
    match d.entry? place with
    | none => .error .notFound
    | some entry => .ok entry

def read (d : Disk) (path : Path) : Except FileError (Array UInt8) :=
  match d.find path with
  | .error e => .error e
  | .ok .directory => .error .isDirectory
  | .ok (.file bytes) => .ok bytes

def reaches (d : Disk) (path : Path) : Bool := (d.find path).isOk

/-- The place of a file that may be made. A path that ends in a slash asks for a directory. -/
def locateNew (d : Disk) (path : Path) : Except FileError Place :=
  if path.text.toList.contains '\x00' then .error .unusableName
  else if path.text = "" then .error .notFound
  else
    let named := ((piecesOf path).reverse.dropWhile (· = "")).reverse
    match d.follow (d.origin path) named with
    | .error e => .error e
    | .ok place =>
      if named.length < (piecesOf path).length ∨ d.entry? place = some .directory then
        .error .isDirectory
      else .ok place

/-- Change the bytes of a file, which has none before it is made. -/
def update (d : Disk) (path : Path) (f : Array UInt8 → Array UInt8) :
    Except FileError Unit × Disk :=
  match d.locateNew path with
  | .error e => (.error e, d)
  | .ok place =>
    let bytes := f ((d.files.lookup place).getD #[])
    (.ok (), { d with files := (place, bytes) :: d.files.filter (·.1 ≠ place) })

/-- Make a file of the given bytes, or replace what one holds. -/
def write (d : Disk) (path : Path) (bytes : Array UInt8) : Except FileError Unit × Disk :=
  d.update path fun _ => bytes

def append (d : Disk) (path : Path) (bytes : Array UInt8) : Except FileError Unit × Disk :=
  d.update path (· ++ bytes)

instance : Files (StateM Disk) where
  read path := do return (← get).read path
  write path bytes := modifyGet (·.write path bytes)
  append path bytes := modifyGet (·.append path bytes)
  reaches path := do return (← get).reaches path

end Disk

end BitmapText
