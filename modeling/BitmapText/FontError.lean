import BitmapText.Glyph
import BitmapText.Path

/-!
# Font errors

Why a font could not be opened, a glyph could not be drawn, or a string could not be composited.

## Main definitions

* `FontError`: the causes.
* `FontError.message`: what a reader is told.
-/

namespace BitmapText

/-- Why an operation on a font failed. -/
inductive FontError where
  | rasterizerInit (reason : String)
  /-- The font file could not be read, or holds no usable face. -/
  | faceOpen (path : Path) (reason : String)
  /-- The face cannot be scaled to the requested size and resolution. -/
  | sizeRejected (size dpi : UInt32)
  | glyphLoad (glyph : GlyphIndex)
  /-- A glyph was rendered in a layout that is not composited. -/
  | unsupportedFormat (glyph : GlyphIndex) (format : PixelFormat)
  /-- The font has no height, so nothing can be composited. -/
  | metricsUnavailable
deriving Repr, DecidableEq

def FontError.message : FontError → String
  | rasterizerInit reason => "failed to initialize rasterizer: " ++ reason
  | faceOpen path reason => "failed to load face " ++ path.text ++ ": " ++ reason
  | sizeRejected size dpi =>
    "failed to set face size to " ++ toString size.toNat ++ ", dpi " ++ toString dpi.toNat
  | glyphLoad glyph => "failed to load glyph idx " ++ toString glyph.toNat
  | unsupportedFormat glyph format =>
    "unsupported pixel format " ++ format.label ++ " for glyph idx " ++ toString glyph.toNat
  | metricsUnavailable => "font metrics unavailable"

end BitmapText
