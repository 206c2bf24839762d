import BitmapText.GlyphCache
import BitmapText.StringCache
import BitmapText.Text.CodePoints

/-!
# Shaping

From a text to a bitmap: the glyphs of its code points, how many of them fit into a width, the
vertical measures of the font, and the composited string. One code point makes one glyph, and glyphs
stand from left to right, each moved by the advance of the one before it and by the kerning between
the two.

A glyph that cannot be rendered leaves no trace but a record: it takes no room and still counts.

## Main definitions

* `Bench`: a face, the glyphs it has rendered, and the records made on the way.
* `Shaping.fit`: the longest run of leading glyphs that stays within a width.
* `Shaping.composite`: the glyphs as one bitmap.
* `Shaping.measureFont`: the height and the baseline that all strings of a font share.
* `Shaping.render`: all of it, for one text.
-/

namespace BitmapText

/-- How much of a text fits into a width. -/
structure Fit where
  glyphs : Nat
  width : Int
deriving Repr, DecidableEq

/-- The vertical measures that all strings of a font share. -/
structure FontMetrics where
  maxHeight : Int
  /-- The distance from the top of a composited string down to the baseline. -/
  baseline : Int
deriving Repr, DecidableEq

/-- What shaping works with. -/
structure Bench (σ : Type) where
  face : σ
  glyphs : GlyphCache
  log : Array Log.Record := #[]

namespace Bench

variable {σ : Type}

def warn (bench : Bench σ) (e : FontError) : Bench σ :=
  match bench with
  | { face, glyphs, log } =>
    { face, glyphs, log := log.push ⟨.warn, "ori_text::shaper", "shaper: " ++ e.message⟩ }

variable [Face σ]

/-- The rendered form of a glyph, from the cache or from the face. -/
def rasterize (bench : Bench σ) (glyph : GlyphIndex) : Except FontError RasterGlyph × Bench σ :=
  match bench with
  | { face, glyphs, log } =>
    match glyphs.getOrRasterize face glyph with
    | (result, glyphs, face) => (result, { face, glyphs, log })

/-- The kerning between two glyphs that follow each other. Missing glyphs are not kerned. -/
def kerning (bench : Bench σ) (left right : GlyphIndex) : Int × Bench σ :=
  if left ≠ 0 ∧ right ≠ 0 ∧ Face.hasKerning bench.face then
    match bench with
    | { face, glyphs, log } =>
      match Face.kerning face left right with
      | (delta, face) => (delta, { face, glyphs, log })
  else (0, bench)

end Bench

namespace Shaping

variable {σ : Type} [Face σ]

def glyphIndices (face : σ) (text : String) : List GlyphIndex :=
  (CodePoints.ofText text).map (Face.charIndex face)

/-! ## Fitting -/

/-- Continue a fit: `previous` is the glyph before, `sofar` what fits up to it. -/
def fitFrom (budget : Option Int) (bench : Bench σ) (previous : GlyphIndex) (sofar : Fit) :
    List GlyphIndex → Fit × Bench σ
  | [] => (sofar, bench)
  | glyph :: rest =>
    match bench.rasterize glyph with
    | (.error e, bench) =>
      fitFrom budget (bench.warn e) glyph ⟨sofar.glyphs + 1, sofar.width⟩ rest
    | (.ok entry, bench) =>
      match bench.kerning previous glyph with
      | (delta, bench) =>
        let width := Coord.add sofar.width (Coord.add entry.advance delta)
        if budget.any (· < width) then (sofar, bench)
        else fitFrom budget bench glyph ⟨sofar.glyphs + 1, width⟩ rest

/-- The leading glyphs that stay within `budget`, up to the first one that passes it. Without a
budget all of them fit. -/
def fit (budget : Option Int) (bench : Bench σ) (glyphs : List GlyphIndex) : Fit × Bench σ :=
  fitFrom budget bench 0 ⟨0, 0⟩ glyphs

/-! ## Compositing -/

/-- The first column of a bitmap that lies on a surface, when its left edge is at `left`. -/
def firstColumn (left : Int) : Int := max (-left) 0

/-- The column behind the last one that lies on a surface. -/
def endColumn (entry : RasterGlyph) (surfaceWidth : Nat) (left : Int) : Int :=
  min (Coord.ofSize entry.width) (Coord.ofSize surfaceWidth - left)

/-- Put row `y` of a bitmap on a surface, with its left edge at `left` and the top edge of the
bitmap at `top`. A row that is not wholly there, or that lies off the surface, changes nothing. -/
def placeRow (entry : RasterGlyph) (left top : Int) (surface : Bitmap) (y : Nat) : Bitmap :=
  let row := top + Coord.ofSize y
  if row < 0 then surface
  else
    match entry.row? y with
    | none => surface
    | some bytes =>
      let first := firstColumn left
      surface.write (left + first).toNat row.toNat
        (bytes.extract first.toNat (endColumn entry surface.width left).toNat)

/-- Put a rendered glyph on a surface, row by row. Its values replace those of the surface, and what
would lie outside is cut off. -/
def place (surface : Bitmap) (entry : RasterGlyph) (pen baseline : Int) : Bitmap :=
  let left := pen + entry.left
  let top := baseline - entry.top
  if endColumn entry surface.width left ≤ firstColumn left then surface
  else (List.range entry.height).foldl (placeRow entry left top) surface

/-- Putting a row on a surface does not change its size. -/
theorem size_placeRow (entry : RasterGlyph) (left top : Int) (surface : Bitmap) (y : Nat) :
    (placeRow entry left top surface y).width = surface.width ∧
      (placeRow entry left top surface y).height = surface.height := by
  rw [placeRow]
  dsimp only
  split
  · exact ⟨rfl, rfl⟩
  · split <;> exact ⟨rfl, rfl⟩

theorem size_foldl_placeRow (entry : RasterGlyph) (left top : Int) (surface : Bitmap)
    (rows : List Nat) :
    (rows.foldl (placeRow entry left top) surface).width = surface.width ∧
      (rows.foldl (placeRow entry left top) surface).height = surface.height := by
  induction rows generalizing surface with
  | nil => exact ⟨rfl, rfl⟩
  | cons y rest ih =>
    obtain ⟨hw, hh⟩ := size_placeRow entry left top surface y
    rw [List.foldl_cons, ← hw, ← hh]
    exact ih _

theorem size_place (surface : Bitmap) (entry : RasterGlyph) (pen baseline : Int) :
    (place surface entry pen baseline).width = surface.width ∧
      (place surface entry pen baseline).height = surface.height := by
  rw [place]
  split
  · exact ⟨rfl, rfl⟩
  · exact size_foldl_placeRow ..

@[simp] theorem width_place (surface : Bitmap) (entry : RasterGlyph) (pen baseline : Int) :
    (place surface entry pen baseline).width = surface.width :=
  (size_place surface entry pen baseline).1

@[simp] theorem height_place (surface : Bitmap) (entry : RasterGlyph) (pen baseline : Int) :
    (place surface entry pen baseline).height = surface.height :=
  (size_place surface entry pen baseline).2

/-- Continue a composition with the pen at `pen` after the glyph `previous`. -/
def compositeFrom (baseline : Int) (bench : Bench σ) (previous : GlyphIndex) (pen : Int)
    (surface : Bitmap) : List GlyphIndex → Bitmap × Bench σ
  | [] => (surface, bench)
  | glyph :: rest =>
    match bench.kerning previous glyph with
    | (delta, bench) =>
      let pen := Coord.add pen delta
      match bench.rasterize glyph with
      | (.error e, bench) => compositeFrom baseline (bench.warn e) glyph pen surface rest
      | (.ok entry, bench) =>
        if entry.format = .alpha8 then
          compositeFrom baseline bench glyph (Coord.add pen entry.advance)
            (place surface entry pen baseline) rest
        else
          compositeFrom baseline (bench.warn (.unsupportedFormat glyph entry.format)) glyph
            (Coord.add pen entry.advance) surface rest

/-- The glyphs side by side on a surface of the given width and of the font's height. -/
def composite (bench : Bench σ) (glyphs : List GlyphIndex) (width : Int) (metrics : FontMetrics) :
    Bitmap × Bench σ :=
  compositeFrom metrics.baseline bench 0 0 (.blank width.toNat metrics.maxHeight.toNat) glyphs

/-! ## Measures of the font -/

/-- The code points whose glyphs decide the measures of a font: printable ASCII without the
space. -/
def measuredCodePoints : List Nat := List.range' 0x21 94

/-- The range that covers an optional range and another one. -/
def widen (bounds : Option Extents) (extents : Extents) : Extents :=
  match bounds with
  | none => extents
  | some bounds => bounds.union extents

/-- Widen `bounds` by the glyphs of some code points, measured from the cache where it has them and
by the face elsewhere. Glyphs that cannot be measured are passed over. -/
def boundsFrom (glyphs : GlyphCache) (face : σ) (bounds : Option Extents) :
    List Nat → Option Extents × σ
  | [] => (bounds, face)
  | codePoint :: rest =>
    let glyph := Face.charIndex face codePoint
    match glyphs.peek? glyph with
    | some entry => boundsFrom glyphs face (some (widen bounds entry.extents)) rest
    | none =>
      match Face.probe face glyph with
      | (.ok extents, face) => boundsFrom glyphs face (some (widen bounds extents)) rest
      | (.error _, face) => boundsFrom glyphs face bounds rest

/-- The measures of a font whose glyphs have the given vertical range. A quarter of the size is
added above the glyphs. -/
def metricsOf (bounds : Option Extents) (size : UInt32) : FontMetrics :=
  let bounds := bounds.getD ⟨0, 0⟩
  let padding : Int := (size.toNat / 4 : Nat)
  { maxHeight := bounds.yMax - bounds.yMin + padding
    baseline := bounds.yMax + padding }

/-- The measures of a font. Glyphs that are measured do not enter the cache. -/
def measureFont (bench : Bench σ) (size : UInt32) : FontMetrics × Bench σ :=
  match bench with
  | { face, glyphs, log } =>
    match boundsFrom glyphs face none measuredCodePoints with
    | (bounds, face) => (metricsOf bounds size, { face, glyphs, log })

/-- The measures of a font, kept from the first time on. -/
def keptMetrics (bench : Bench σ) (kept : Option FontMetrics) (size : UInt32) :
    FontMetrics × Bench σ :=
  match kept with
  | some metrics => (metrics, bench)
  | none => measureFont bench size

/-! ## Rendering -/

/-- The bitmap of a text, or of as much of it as fits into a width. `kept` holds the measures of the
font once they are known. -/
def render (size : UInt32) (text : String) (budget : Option Int) :
    Bench σ × Option FontMetrics → Except FontError RenderedString × Bench σ × Option FontMetrics
  | (bench, kept) =>
    let glyphs := glyphIndices bench.face text
    match fit budget bench glyphs with
    | (fitted, bench) =>
      match keptMetrics bench kept size with
      | (metrics, bench) =>
        if metrics.maxHeight ≤ 0 then (.error .metricsUnavailable, bench, some metrics)
        else
          match composite bench (glyphs.take fitted.glyphs) fitted.width metrics with
          | (surface, bench) =>
            (.ok { surface, glyphCount := fitted.glyphs }, bench, some metrics)

end Shaping

end BitmapText
