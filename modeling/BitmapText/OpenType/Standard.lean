import BitmapText.OpenType.CharMap
import BitmapText.OpenType.Fill
import BitmapText.OpenType.Kerning
import BitmapText.OpenType.Metrics

/-!
# The library that programs run with

A small library for font files, for the programs of this project: it draws contours that are upright
rectangles, and it reads kerning tables with lists of pairs. It stands in for libraries that do
more, and no result about faces or strings depends on it.

## Main definitions

* `OpenType.Library.standard`: the library.

## Main statements

* `OpenType.Library.standard_rendersWhole`: its bitmaps have all their bytes.
-/

namespace BitmapText

namespace OpenType

/-- The contours of a glyph together with what they are drawn as: those of its layers, if it is
coloured, and else its own. -/
def contours? (d : Data) (directory glyph : Nat) : Option (Image.Content × List Contour) :=
  let colored := (layers? d directory glyph).bind fun layers => layers.mapM (outline? d directory)
  match colored with
  | some outlines => some (.color, outlines.flatten)
  | none => (outline? d directory glyph).map fun contours => (.mask, contours)

/-- The bytes of drawn contours. The colours of a coloured glyph are not worked out, since such a
glyph is not composited. -/
def imageBytes (content : Image.Content) (box : PixelBox) (scale : Scale)
    (contours : List Contour) : Array UInt8 :=
  match content with
  | .mask => box.fill scale contours
  | .subpixelMask | .color =>
    Array.replicate (box.width * box.height * content.format.bytesPerPixel) 0

/-- Draw contours with so many pixels to an em of so many font units. -/
def draw (perEm : Float32) (em : Nat) (content : Image.Content) (contours : List Contour) : Image :=
  let scale := Scale.ofEm perEm em
  let box := PixelBox.ofContours scale contours
  { content
    width := box.width
    height := box.height
    left := box.left
    top := box.top
    data := imageBytes content box scale contours }

namespace Library

def standard : Library where
  directory? := OpenType.directory?
  charIndex d directory codePoint :=
    match CharMap.find? d directory with
    | some m => m.glyph d codePoint
    | none => 0
  advanceWidth d directory scale glyph := OpenType.advanceWidth d directory scale glyph.toNat
  render? d directory scale glyph :=
    (contours? d directory glyph.toNat).map fun (content, contours) =>
      draw scale (unitsPerEm d directory) content contours
  tables? d :=
    (OpenType.directory? d).bind fun directory =>
      (soundUnitsPerEm? d directory).map fun em => ⟨em, Kerning.subtables? d directory⟩
  kerningPixels units scale em :=
    Single.floor (Single.ofInt units * scale / Single.ofInt em)

/-- Every drawn glyph has as many bytes as its size and its layout ask for. -/
def RendersWhole (lib : Library) : Prop :=
  ∀ d directory scale glyph image, lib.render? d directory scale glyph = some image →
    image.data.size = image.width * image.height * image.content.format.bytesPerPixel

theorem standard_rendersWhole : standard.RendersWhole := by
  intro d directory scale glyph image h
  obtain ⟨⟨content, contours⟩, -, rfl⟩ := Option.map_eq_some_iff.1 h
  cases content with
  | mask => simp [draw, imageBytes, PixelBox.fill, Image.Content.format, PixelFormat.bytesPerPixel]
  | subpixelMask => simp [draw, imageBytes]
  | color => simp [draw, imageBytes]

end Library

end OpenType

end BitmapText
