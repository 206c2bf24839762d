import BitmapText.Glyph
import BitmapText.OpenType.Data

/-!
# Libraries for font files

Font files are read by libraries: one finds the font in a file, knows its character map and draws
its glyphs, and another one parses its tables for the sake of kerning. What is done with their
answers is the same whatever these are, so the libraries are a parameter: everything that is proved
about the faces of font files is proved for all of them. The scaling of kerning, which is computed
in single precision, is given in the same way.

## Main definitions

* `OpenType.Kerning.Subtable`, `OpenType.Kerning.units`: kerning tables, and looking a pair up.
* `OpenType.Tables`: what the parser finds in a file.
* `OpenType.Image`: a drawn glyph.
* `OpenType.Library`: what is asked of the libraries.
-/

namespace BitmapText

namespace OpenType

/-! ## Kerning tables -/

namespace Kerning

/-- A part of a kerning table. -/
structure Subtable where
  /-- The subtable is for horizontal text. -/
  horizontal : Bool
  /-- The values vary with the axes of the font. -/
  variation : Bool
  /-- The kerning of a pair that the subtable lists, in font units. -/
  units? : GlyphIndex → GlyphIndex → Option Int

/-- A subtable is used: it is for horizontal text and does not vary. -/
def Subtable.isUsed (s : Subtable) : Bool := s.horizontal && !s.variation

def isPresent (subtables : List Subtable) : Bool := subtables.any Subtable.isUsed

/-- The kerning of a pair: that of the first used subtable which lists it, else none. -/
def units (subtables : List Subtable) (left right : GlyphIndex) : Int :=
  ((subtables.filter Subtable.isUsed).findSome? fun s => s.units? left right).getD 0

end Kerning

/-- What the parser finds in a file whose basic tables are whole. -/
structure Tables where
  /-- The font units of an em. -/
  unitsPerEm : Nat
  /-- The kerning table, if there is one. -/
  kern? : Option (List Kerning.Subtable)

/-! ## Drawn glyphs -/

/-- What the bytes of a drawn glyph are. -/
inductive Image.Content where
  | mask
  | subpixelMask
  | color
deriving Repr, DecidableEq

/-- The layout of a bitmap with such bytes. -/
def Image.Content.format : Image.Content → PixelFormat
  | mask => .alpha8
  | subpixelMask => .subpixelMask
  | color => .rgba8

/-- A drawn glyph. Its rows follow each other without gaps. -/
structure Image where
  content : Image.Content
  width : Nat
  height : Nat
  /-- Distance from the pen to the left edge. -/
  left : Int
  /-- Distance from the baseline up to the top edge. -/
  top : Int
  data : Array UInt8

/-! ## Libraries -/

/-- What is asked of the libraries. A font is known by its file and by the place of its directory of
tables there, and it is drawn with so many pixels to an em. -/
structure Library where
  /-- The place of the directory of tables, if this is the file of a font. -/
  directory? : Data → Option Nat
  /-- The glyph of a code point, `0` if there is none. -/
  charIndex : Data → Nat → Nat → GlyphIndex
  /-- How far a glyph moves the pen, in pixels. -/
  advanceWidth : Data → Nat → Float32 → GlyphIndex → Float32
  render? : Data → Nat → Float32 → GlyphIndex → Option Image
  tables? : Data → Option Tables
  /-- The whole pixels of a number of font units, from the pixels and the font units of an em. -/
  kerningPixels : Int → Float32 → Nat → Int

end OpenType

end BitmapText
