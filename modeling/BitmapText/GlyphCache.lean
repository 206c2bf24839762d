import Std.Data.HashMap
import BitmapText.Face

/-!
# Glyph cache

The rendered glyphs of one face. A glyph is rendered when it is first asked for and then kept for
as long as the face; a glyph that could not be rendered is not kept, so the next request asks the
face again.

## Main definitions

* `GlyphCache`: the rendered glyphs by number.
* `GlyphCache.getOrRasterize`: the glyph, from the cache or from the face.
-/

namespace BitmapText

/-- Rendered glyphs of one face. -/
structure GlyphCache where
  entries : Std.HashMap GlyphIndex RasterGlyph := ∅

namespace GlyphCache

def empty : GlyphCache := {}

instance : Inhabited GlyphCache := ⟨empty⟩

/-- The entry of `glyph`, without asking a face. -/
def peek? (cache : GlyphCache) (glyph : GlyphIndex) : Option RasterGlyph :=
  cache.entries[glyph]?

def size (cache : GlyphCache) : Nat := cache.entries.size

def isEmpty (cache : GlyphCache) : Bool := cache.entries.isEmpty

def bitmapBytes (cache : GlyphCache) : Nat :=
  cache.entries.toList.foldr (fun entry total => entry.2.data.size + total) 0

variable {σ : Type} [Face σ]

/-- The rendered form of `glyph`: its entry if there is one, else what `face` makes of it, which
becomes the entry. -/
def getOrRasterize (cache : GlyphCache) (face : σ) (glyph : GlyphIndex) :
    Except FontError RasterGlyph × GlyphCache × σ :=
  match cache.peek? glyph with
  | some entry => (.ok entry, cache, face)
  | none =>
    match Face.rasterize face glyph with
    | (.ok entry, face) => (.ok entry, ⟨cache.entries.insert glyph entry⟩, face)
    | (.error e, face) => (.error e, cache, face)

end GlyphCache

end BitmapText
