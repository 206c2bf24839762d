import BitmapText.Proofs.Shaping.Clipping
import BitmapText.Proofs.Shaping.Strings

/-!
# Where the rows of a glyph land

The measures of a font cover every glyph that decides them, and the top of each of these glyphs
stays a quarter of the size below the top edge of a surface. So a surface of the font's height has
all the rows of such a glyph, and placing it there cuts none of them off.

Nothing is needed for this but that glyphs always look the same. Where a glyph stands from left to
right may change with the kerning.

## Main definitions

* `Extents.Covers`: one vertical range contains another.
* `Shaping.entriesOf`: the rendered glyphs of a list.
* `Shaping.Drawn`: a string is made of the rendered glyphs of its text.

## Main statements

* `Shaping.covers_boundsOf_of_mem`: the bounds of a face cover each glyph that decides them.
* `Shaping.rows_within_height`: where the rows of such a glyph land.
* `Bench.Follows.render_drawn`: a rendered string is made of the rendered glyphs of its text.
-/

namespace BitmapText

/-! ## Vertical ranges -/

/-- The range contains another one. -/
structure Extents.Covers (a b : Extents) : Prop where
  yMin : a.yMin ≤ b.yMin
  yMax : b.yMax ≤ a.yMax

namespace Shaping

variable {e : Extents}

theorem widen_covers (bounds : Option Extents) (e : Extents) : (widen bounds e).Covers e := by
  cases bounds with
  | none => exact ⟨Int.le_refl _, Int.le_refl _⟩
  | some b => exact ⟨Int.min_le_right .., Int.le_max_right ..⟩

theorem covers_widen {b : Extents} (h : b.Covers e) (e' : Extents) :
    (widen (some b) e').Covers e :=
  ⟨Int.le_trans (Int.min_le_left ..) h.yMin, Int.le_trans h.yMax (Int.le_max_left ..)⟩

variable {σ : Type} [Face σ]

/-- Bounds only grow. -/
theorem covers_boundsOf (face : σ) {b : Extents} (h : b.Covers e) (codePoints : List Nat) :
    ∃ b', boundsOf face (some b) codePoints = some b' ∧ b'.Covers e := by
  induction codePoints generalizing b with
  | nil => exact ⟨b, rfl, h⟩
  | cons codePoint rest ih =>
    rw [boundsOf]
    cases (Face.rasterize face (Face.charIndex face codePoint)).1 with
    | error _ => exact ih h
    | ok entry => exact ih (covers_widen h entry.extents)

/-- Bounds cover the glyph of every code point in the list that has one. -/
theorem covers_boundsOf_of_mem {face : σ} {codePoint : Nat} {entry : RasterGlyph}
    (he : (Face.rasterize face (Face.charIndex face codePoint)).1 = .ok entry)
    (bounds : Option Extents) {codePoints : List Nat} (hmem : codePoint ∈ codePoints) :
    ∃ b, boundsOf face bounds codePoints = some b ∧ b.Covers entry.extents := by
  induction codePoints generalizing bounds with
  | nil => exact absurd hmem List.not_mem_nil
  | cons first rest ih =>
    rcases List.mem_cons.1 hmem with rfl | hrest
    · rw [boundsOf, he]
      exact covers_boundsOf face (widen_covers bounds entry.extents) rest
    · rw [boundsOf]
      split
      · exact ih bounds hrest
      · exact ih _ hrest

theorem mem_measuredCodePoints {codePoint : Nat} :
    codePoint ∈ measuredCodePoints ↔ 0x21 ≤ codePoint ∧ codePoint ≤ 0x7e := by
  rw [measuredCodePoints, List.mem_range'_1]
  omega

/-- Under the measures of its face, the rows of a glyph that decides them begin a quarter of the
size below the top edge, or lower, and end above the bottom edge. -/
theorem rows_within_height {face : σ} {codePoint : Nat} {entry : RasterGlyph}
    (he : (Face.rasterize face (Face.charIndex face codePoint)).1 = .ok entry)
    (hmem : codePoint ∈ measuredCodePoints) (hheight : (entry.height : Int) ≤ Coord.highest)
    (size : UInt32) :
    ((size.toNat / 4 : Nat) : Int) ≤ (metricsOfFace face size).baseline - entry.top ∧
      (metricsOfFace face size).baseline - entry.top + entry.height ≤
        (metricsOfFace face size).maxHeight := by
  obtain ⟨b, hb, hlow, hhigh⟩ := covers_boundsOf_of_mem he none hmem
  simp only [RasterGlyph.extents, Coord.ofSize_of_le hheight] at hlow hhigh
  simp only [metricsOfFace, hb, metricsOf, Option.getD_some]
  omega

/-! ## Strings made of glyphs -/

/-- The rendered glyphs of a list, without those that cannot be rendered. -/
def entriesOf (face : σ) (glyphs : List GlyphIndex) : List RasterGlyph :=
  glyphs.filterMap fun glyph => (Face.rasterize face glyph).1.toOption

/-- The string has the height of the font, and the rendered glyphs of as much of its text as it
counts, in order, at some pen positions. -/
structure Drawn (face : σ) (text : String) (metrics : FontMetrics) (s : RenderedString) : Prop where
  height : (s.surface.height : Int) = metrics.maxHeight
  placed : ∃ placed : List (RasterGlyph × Int),
    placed.map Prod.fst = entriesOf face ((glyphIndices face text).take s.glyphCount) ∧
      s.surface = placed.foldl (placeAlpha8 metrics.baseline)
        (.blank s.surface.width s.surface.height)

end Shaping

namespace Bench.Follows

variable {σ : Type} [Face σ] {first : σ} {bench : Bench σ}

/-- Compositing places the rendered glyphs in order, wherever the kerning puts them. -/
theorem composited (hs : Face.SteadyRendering first) (h : bench.Follows first) (baseline : Int)
    (previous : GlyphIndex) (pen : Int) (surface : Bitmap) (glyphs : List GlyphIndex) :
    (Shaping.compositeFrom baseline bench previous pen surface glyphs).2.Follows first ∧
      ∃ placed : List (RasterGlyph × Int),
        placed.map Prod.fst = Shaping.entriesOf first glyphs ∧
          (Shaping.compositeFrom baseline bench previous pen surface glyphs).1 =
            placed.foldl (Shaping.placeAlpha8 baseline) surface := by
  induction glyphs generalizing bench previous pen surface with
  | nil => exact ⟨h, [], rfl, rfl⟩
  | cons glyph rest ih =>
    have hk := h.after hs (.kerning previous glyph)
    rw [Bench.after] at hk
    rw [Shaping.compositeFrom]
    cases hkern : bench.kerning previous glyph with
    | mk delta bench₁ =>
      rw [hkern] at hk
      obtain ⟨hfirst, hr⟩ := hk.rasterize hs glyph
      dsimp only at hfirst hr ⊢
      cases hb : bench₁.rasterize glyph with
      | mk result bench₂ =>
        rw [hb] at hfirst hr
        dsimp only at hfirst hr
        cases result with
        | error e =>
          have hnone : Shaping.entriesOf first (glyph :: rest) = Shaping.entriesOf first rest := by
            simp only [Shaping.entriesOf, List.filterMap_cons, ← hfirst, Except.toOption]
          rw [hnone]
          exact ih (hr.warn e) glyph _ _
        | ok entry =>
          have hsome : Shaping.entriesOf first (glyph :: rest) =
              entry :: Shaping.entriesOf first rest := by
            simp only [Shaping.entriesOf, List.filterMap_cons, ← hfirst, Except.toOption]
          rw [hsome]
          have hnext {after : Bench σ} (ha : after.Follows first) {drawn : Bitmap}
              (hdrawn : Shaping.placeAlpha8 baseline surface (entry, Coord.add pen delta) = drawn) :
              let composed := Shaping.compositeFrom baseline after glyph
                (Coord.add (Coord.add pen delta) entry.advance) drawn rest
              composed.2.Follows first ∧ ∃ placed : List (RasterGlyph × Int),
                placed.map Prod.fst = entry :: Shaping.entriesOf first rest ∧
                  composed.1 = placed.foldl (Shaping.placeAlpha8 baseline) surface := by
            obtain ⟨hlast, placed, hentries, hsurface⟩ :=
              ih ha glyph (Coord.add (Coord.add pen delta) entry.advance) drawn
            refine ⟨hlast, (entry, Coord.add pen delta) :: placed,
              by rw [List.map_cons, hentries], ?_⟩
            rw [List.foldl_cons, hdrawn]
            exact hsurface
          -- A glyph of another layout takes its turn, and leaves the surface as it is.
          dsimp only
          split
          · next hformat => exact hnext hr (if_pos hformat)
          · next hformat =>
            exact hnext (hr.warn (.unsupportedFormat glyph entry.format)) (if_neg hformat)

/-- A text is rendered from the rendered glyphs of the face, under the measures of the face. -/
theorem render_drawn (hs : Face.SteadyLooks first) (hp : Face.ProbesByRendering first)
    (h : bench.Follows first) {kept : Option FontMetrics} {size : UInt32}
    (hkept : ∀ known, kept = some known → known = Shaping.metricsOfFace first size) (text : String)
    (budget : Option Int) :
    let rendering := Shaping.render size text budget (bench, kept)
    rendering.2.1.Follows first ∧
      rendering.2.2 = some (Shaping.metricsOfFace first size) ∧
      ∀ s, rendering.1 = .ok s → Shaping.Drawn first text (Shaping.metricsOfFace first size) s := by
  intro rendering
  let glyphs := Shaping.glyphIndices first text
  let fitting := Shaping.fit budget bench glyphs
  let measuring := Shaping.keptMetrics fitting.2 kept size
  let drawing := Shaping.composite measuring.2 (glyphs.take fitting.1.glyphs) fitting.1.width
    measuring.1
  have hrendering : rendering =
      if measuring.1.maxHeight ≤ 0 then
        (.error .metricsUnavailable, measuring.2, some measuring.1)
      else
        (.ok { surface := drawing.1, glyphCount := fitting.1.glyphs }, drawing.2,
          some measuring.1) := by
    simp only [rendering, Shaping.render_eq, h.glyphIndices hs]
    rfl
  have hfitted : fitting.2.Follows first :=
    h.consulted hs.rendering (Shaping.fit_consults budget bench glyphs)
  obtain ⟨hmeasured, huses⟩ := hfitted.keptMetrics hs kept size
  have hmetrics : measuring.1 = Shaping.metricsOfFace first size := by
    cases hk : kept with
    | none => exact huses.eq_of_taken hp hk
    | some known => exact (huses.eq_of_kept known hk).trans (hkept known hk)
  by_cases hheight : measuring.1.maxHeight ≤ 0
  · rw [hrendering, if_pos hheight]
    exact ⟨hmeasured, congrArg some hmetrics, fun s hs => by cases hs⟩
  · obtain ⟨hdrawn, placed, hplaced, hsurface⟩ := hmeasured.composited hs.rendering
      measuring.1.baseline 0 0 (.blank fitting.1.width.toNat measuring.1.maxHeight.toNat)
      (glyphs.take fitting.1.glyphs)
    obtain ⟨hw, hh⟩ := Shaping.size_composite measuring.2 (glyphs.take fitting.1.glyphs)
      fitting.1.width measuring.1
    rw [hrendering, if_neg hheight]
    refine ⟨hdrawn, congrArg some hmetrics, fun s hs => ?_⟩
    obtain rfl := Except.ok.inj hs
    rw [← hmetrics]
    refine ⟨?_, placed, hplaced, ?_⟩
    · change (drawing.1.height : Int) = measuring.1.maxHeight
      rw [hh]
      omega
    · change drawing.1 = _
      rw [hw, hh]
      exact hsurface

end Bench.Follows

end BitmapText
