import Std.Data.HashMap
import BitmapText.Face
import BitmapText.OpenType.Standard

/-!
# Faces from font files

A face of a font file at one scale, for any libraries that read font files. Kerning is worked out
pair by pair when it is first asked for, and kept.

## Main definitions

* `ScaledFont`: a font file at a scale, with the kerning found so far.
* `ScaledFont.ofFont`: open the font of a file.
* `ScaledFont.rasterize`, `ScaledFont.kerning`: what it answers.
* `OpenTypeFace`: a font file that is read by the standard library.
-/

namespace BitmapText

/-- A font file at a scale. -/
structure ScaledFont (lib : OpenType.Library) where
  data : OpenType.Data
  /-- The place of the directory of tables in the file. -/
  directory : Nat
  /-- The pixels of an em. -/
  scale : Float32
  /-- The font units of an em for kerning; `0` if the file cannot be parsed. -/
  kerningUnits : Nat
  hasKerning : Bool
  /-- The kerning of every pair asked for so far, in pixels. -/
  pairs : Std.HashMap (GlyphIndex × GlyphIndex) Int := ∅

namespace ScaledFont

variable {lib : OpenType.Library}

/-- Open the font that starts at a place of a file. It is kerned if some subtable is used. -/
def ofFont (data : OpenType.Data) (directory : Nat) (scale : Float32) : ScaledFont lib :=
  let tables := lib.tables? data
  { data, directory, scale
    kerningUnits := tables.elim 0 OpenType.Tables.unitsPerEm
    hasKerning := (tables.bind OpenType.Tables.kern?).any OpenType.Kerning.isPresent }

/-- The glyph of a code point. -/
def charIndex (face : ScaledFont lib) (codePoint : Nat) : GlyphIndex :=
  lib.charIndex face.data face.directory codePoint

def rasterize (face : ScaledFont lib) (glyph : GlyphIndex) : Except FontError RasterGlyph :=
  let advance := Single.round (lib.advanceWidth face.data face.directory face.scale glyph)
  match lib.render? face.data face.directory face.scale glyph with
  | none => .error (.glyphLoad glyph)
  | some image =>
    let format := image.content.format
    .ok
      { width := image.width
        height := image.height
        pitch := image.width * format.bytesPerPixel
        left := image.left
        top := image.top
        advance, format
        data := image.data }

/-! ## Kerning -/

/-- The kerning of a pair in pixels, looked up in the file. -/
def lookupKerning (face : ScaledFont lib) (left right : GlyphIndex) : Int :=
  match lib.tables? face.data with
  | none => 0
  | some tables =>
    match tables.kern? with
    | none => 0
    | some subtables =>
      lib.kerningPixels (OpenType.Kerning.units subtables left right) face.scale face.kerningUnits

/-- The kerning of a pair in pixels. -/
def kerning (face : ScaledFont lib) (left right : GlyphIndex) : Int × ScaledFont lib :=
  if ¬ face.hasKerning ∨ face.kerningUnits = 0 then (0, face)
  else
    match face.pairs[(left, right)]? with
    | some pixels => (pixels, face)
    | none =>
      let pixels := face.lookupKerning left right
      (pixels, { face with pairs := face.pairs.insert (left, right) pixels })

instance : Face (ScaledFont lib) where
  charIndex := charIndex
  rasterize face glyph := (face.rasterize glyph, face)
  hasKerning face := face.hasKerning
  kerning := kerning

end ScaledFont

/-- A face of a font file as programs open it. -/
abbrev OpenTypeFace := ScaledFont .standard

end BitmapText
