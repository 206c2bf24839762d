import BitmapText.Glyph
import BitmapText.OpenType.Data
import BitmapText.Single

/-!
# Measures of a font

Lengths in a font file are in font units, of which an em has a number that the file tells. An em is
so many pixels as a size and a resolution ask for.

## Main definitions

* `OpenType.pixelsPerEm?`: the scale for a size and a resolution.
* `OpenType.unitsPerEm`: the font units of an em.
* `OpenType.advanceUnits`, `OpenType.advanceWidth`: how far a glyph moves the pen.
* `OpenType.soundUnitsPerEm?`: the font units of an em in a file whose basic tables are whole.
-/

namespace BitmapText

namespace OpenType

/-! ## Scale -/

/-- The pixels of an em, for a size in quarter points and a resolution in dots per inch. There is no
scale if nothing is left of it. -/
def pixelsPerEm? (size dpi : UInt32) : Option Float32 :=
  let scale := size.toFloat32 * dpi.toFloat32 / 288
  if scale.isFinite && 0 < scale then some scale else none

/-! ## Advances -/

/-- The font units of an em, as the file tells them; `0` if it does not. -/
def unitsPerEm (d : Data) (directory : Nat) : Nat :=
  match wholeTable? d directory "head" 0 with
  | some start => (u16? d (start + 18)).getD 0
  | none => 0

/-- The number of glyphs with an advance of their own. The glyphs after them share the last one. In
a file that does not tell, all glyphs share one. -/
def advanceCount (d : Data) (directory : Nat) : Nat :=
  match wholeTable? d directory "hhea" 0 with
  | some start => (u16? d (start + 34)).getD 0
  | none => 1

/-- How far a glyph moves the pen, in font units. -/
def advanceUnits (d : Data) (directory glyph : Nat) : Nat :=
  match advanceCount d directory, table? d directory "hmtx" with
  | last + 1, some table => (u16? d (table.start + 4 * min glyph last)).getD 0
  | _, _ => 0

/-- How far a glyph moves the pen, in pixels. A font without an em is not scaled. -/
def advanceWidth (d : Data) (directory : Nat) (scale : Float32) (glyph : Nat) : Float32 :=
  let em := unitsPerEm d directory
  let ratio := if em = 0 then 1 else scale / Single.ofInt em
  Single.ofInt (advanceUnits d directory glyph) * ratio

/-! ## Whole files -/

/-- The file has all records of the directory, and in a collection the list of fonts ends before
it. -/
def isWholeDirectory (d : Data) (directory : Nat) : Bool :=
  let within (count : Nat) : Bool := directory + 12 + 16 * count ≤ d.size
  let afterOffsets : Bool :=
    if directory = 0 then true
    else (u32? d 8).any fun fonts => 12 + 4 * fonts ≤ directory
  (u16? d (directory + 4)).any within && afterOffsets

/-- The font units of an em. The basic tables have to be whole: the numbers of the first must make
sense, and there must be glyphs. -/
def soundUnitsPerEm? (d : Data) (directory : Nat) : Option Nat :=
  match wholeTable? d directory "head" 54, wholeTable? d directory "hhea" 36,
      wholeTable? d directory "maxp" 6 with
  | some head, some _, some maxp =>
    match u16? d (head + 18), u16? d (head + 50), u32? d maxp, u16? d (maxp + 4) with
    | some em, some locations, some version, some glyphs =>
      if isWholeDirectory d directory ∧ 16 ≤ em ∧ em ≤ 16384 ∧ locations ≤ 1 ∧
          (version = 0x00005000 ∨ version = 0x00010000) ∧ glyphs ≠ 0 then some em
      else none
    | _, _, _, _ => none
  | _, _, _ => none

end OpenType

end BitmapText
