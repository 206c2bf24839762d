import BitmapText.Coord

/-!
# Rasterized glyphs

What a face makes of one glyph: a bitmap in one of three pixel layouts, where it stands relative to
the pen, and how far it moves the pen. A bitmap may come with padded rows, or with fewer bytes than
its size asks for; rows that are not wholly there do not exist. Where a row starts is computed in
words: a product of sizes that does not fit into one loses its high part, and the row is looked up
where that leads.

## Main definitions

* `GlyphIndex`: the number of a glyph within its face.
* `PixelFormat`: the layout of a pixel.
* `Extents`: the vertical range of a glyph.
* `RasterGlyph`: a bitmap with its placement.
-/

namespace BitmapText

/-- The number of a glyph within its face. Number `0` stands for a missing glyph. -/
abbrev GlyphIndex := UInt16

/-- The layout of one pixel. -/
inductive PixelFormat where
  /-- One byte of coverage. The only layout that is composited. -/
  | alpha8
  | subpixelMask
  | rgba8
deriving Repr, DecidableEq

namespace PixelFormat

/-- The number of bytes of one pixel. -/
def bytesPerPixel : PixelFormat → Nat
  | alpha8 => 1
  | subpixelMask => 4
  | rgba8 => 4

/-- The name of a layout, as messages show it. -/
def label : PixelFormat → String
  | alpha8 => "Alpha8"
  | subpixelMask => "SubpixelMask"
  | rgba8 => "Rgba8"

end PixelFormat

/-- A vertical range relative to the baseline, growing upwards. -/
structure Extents where
  yMin : Int
  yMax : Int
deriving Repr, DecidableEq

def Extents.union (a b : Extents) : Extents :=
  ⟨min a.yMin b.yMin, max a.yMax b.yMax⟩

/-- One rendered glyph. -/
structure RasterGlyph where
  /-- Bitmap width in pixels. -/
  width : Nat
  height : Nat
  /-- Bytes from the start of one row to the start of the next. -/
  pitch : Nat
  /-- Distance from the pen to the left edge of the bitmap. -/
  left : Int
  /-- Distance from the baseline up to the top edge of the bitmap. -/
  top : Int
  advance : Int
  format : PixelFormat
  data : Array UInt8
deriving Repr, DecidableEq

namespace RasterGlyph

def extents (g : RasterGlyph) : Extents :=
  ⟨g.top - Coord.ofSize g.height, g.top⟩

/-- The place of the first byte of row `y`. -/
def rowStart (g : RasterGlyph) (y : Nat) : Nat := Size.wrap (y * g.pitch)

/-- The number of bytes of a row. -/
def rowLength (g : RasterGlyph) : Nat := Size.wrap (g.width * g.format.bytesPerPixel)

/-- Row `y` lies in the bitmap and all its bytes are there. -/
def HasRow (g : RasterGlyph) (y : Nat) : Prop :=
  y < g.height ∧ g.rowStart y + g.rowLength ≤ g.data.size

instance (g : RasterGlyph) (y : Nat) : Decidable (g.HasRow y) :=
  inferInstanceAs (Decidable (_ ∧ _))

/-- The bytes of row `y`, if it has them all. -/
def row? (g : RasterGlyph) (y : Nat) : Option (Array UInt8) :=
  if g.HasRow y then some (g.data.extract (g.rowStart y) (g.rowStart y + g.rowLength)) else none

end RasterGlyph

end BitmapText
