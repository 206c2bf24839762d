import BitmapText.FontError
import BitmapText.FontKey
import BitmapText.Log

/-!
# Faces and the libraries that open them

A face turns code points into glyphs and glyphs into bitmaps, at one size. The rest of the library
knows a face only through five questions. A face may keep notes while it answers, and may answer the
same question differently later, so every question but the first and the fourth gives back the face
as it is afterwards.

Faces are opened by a rasterizer library. It is started once and opens faces from then on, and it
hears when a face that it opened is given back.

## Main definitions

* `Face`: the questions that a face answers.
* `Backend`: what is asked of a rasterizer library.
-/

namespace BitmapText

/-- Values of `σ` are opened faces. -/
class Face (σ : Type) where
  /-- The glyph of a code point; `0` when the face has none. -/
  charIndex : σ → Nat → GlyphIndex
  rasterize : σ → GlyphIndex → Except FontError RasterGlyph × σ
  /-- The vertical range of a glyph. A face without a shorter way renders the glyph for it. -/
  probe : σ → GlyphIndex → Except FontError Extents × σ := fun face glyph =>
    match rasterize face glyph with
    | (result, face) => (result.map RasterGlyph.extents, face)
  /-- The face adjusts the distance of some pairs of glyphs. -/
  hasKerning : σ → Bool
  /-- The adjustment between two glyphs that follow each other, in pixels. -/
  kerning : σ → GlyphIndex → GlyphIndex → Int × σ

/-- Values of `β` are rasterizer libraries whose faces are values of `σ`. -/
class Backend (β : Type) (σ : outParam Type) where
  /-- Start the library. This happens before the first face is opened, and again after a failure. -/
  start : β → Except FontError Unit × β
  /-- Open the face that a key asks for, with the records of the attempt. -/
  openFace : β → FontKey → Except FontError σ × Array Log.Record × β
  /-- Take back a face that is no longer used. -/
  closeFace : β → σ → β := fun backend _ => backend

end BitmapText
