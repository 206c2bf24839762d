/-!
# Font data

The bytes of a font file, in which numbers have their high byte first, and the directory of tables
at its start. A collection holds several fonts; the first one is meant.

Nothing is checked beforehand: each number is read where it is needed, and reading past the end
gives nothing.

## Main definitions

* `OpenType.u16?`, `OpenType.i16?`, `OpenType.u32?`: the number at a position.
* `OpenType.directory?`: where the directory of tables starts.
* `OpenType.table?`: where a table lies.
-/

namespace BitmapText

namespace OpenType

/-- The bytes of a font file. -/
abbrev Data := Array UInt8

def u8? (d : Data) (pos : Nat) : Option Nat := d[pos]?.map UInt8.toNat

def u16? (d : Data) (pos : Nat) : Option Nat :=
  match u8? d pos, u8? d (pos + 1) with
  | some high, some low => some (high * 256 + low)
  | _, _ => none

def i16? (d : Data) (pos : Nat) : Option Int :=
  (u16? d pos).map fun n => if n < 32768 then (n : Int) else n - 65536

def u32? (d : Data) (pos : Nat) : Option Nat :=
  match u16? d pos, u16? d (pos + 2) with
  | some high, some low => some (high * 65536 + low)
  | _, _ => none

/-! ## The directory of tables -/

/-- The number that a tag of four letters is. -/
def tag (name : String) : Nat := name.toList.foldl (fun n c => n * 256 + c.toNat) 0

/-- A font starts at a position: there stands one of the three version numbers. -/
def startsFont (d : Data) (pos : Nat) : Bool :=
  match u32? d pos with
  | none => false
  | some version => version = 0x00010000 || version = tag "OTTO" || version = tag "true"

/-- Where the directory of tables starts, if this is a font or a collection of fonts. -/
def directory? (d : Data) : Option Nat :=
  if startsFont d 0 then some 0
  else if u32? d 0 = some (tag "ttcf") then
    match u32? d 8, u32? d 12 with
    | some count, some first => if 0 < count ∧ startsFont d first then some first else none
    | _, _ => none
  else none

/-- Where a table lies. -/
structure Table where
  start : Nat
  length : Nat
deriving Repr, DecidableEq

/-- Look for a tag among the records from `low` up to, and without, `high`, which are in the order
of their tags. -/
def searchTable (d : Data) (records name low high : Nat) : Option Table :=
  if low < high then
    let middle := (low + high) / 2
    let record := records + middle * 16
    match u32? d record with
    | none => none
    | some found =>
      if name < found then searchTable d records name low middle
      else if found < name then searchTable d records name (middle + 1) high
      else
        match u32? d (record + 8), u32? d (record + 12) with
        | some start, some length => some ⟨start, length⟩
        | _, _ => none
  else none
termination_by high - low

def table? (d : Data) (directory : Nat) (name : String) : Option Table :=
  match u16? d (directory + 4) with
  | none => none
  | some count => searchTable d (directory + 12) (tag name) 0 count

/-- Where the table of a tag lies, if it has `size` bytes at least and the file has all of them. -/
def wholeTable? (d : Data) (directory : Nat) (name : String) (size : Nat) : Option Nat :=
  match table? d directory name with
  | some table =>
    if size ≤ table.length ∧ table.start + table.length ≤ d.size then some table.start else none
  | none => none

end OpenType

end BitmapText
