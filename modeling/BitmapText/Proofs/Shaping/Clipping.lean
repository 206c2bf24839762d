import BitmapText.Shaping

/-!
# The shape of a rendered text

Whatever a face answers, and however its answers change while it is asked, what is rendered for a
text stays within that text and within its budget, and it is as high as the measures say. Nothing
else is known of a face that is not steady.

## Main definitions

* `Shaping.Shaped`: a rendered string is within its text, its budget and the measures.

## Main statements

* `Shaping.width_fit_le`, `Shaping.glyphs_fit_le`: a fit stays within its bounds.
* `Shaping.render_spec`: a rendering is shaped, and the measures are known afterwards.
-/

namespace BitmapText

namespace Shaping

variable {σ : Type} [Face σ]

/-! ## Fits -/

/-- A fit that goes on counts some of the glyphs that follow; without a budget it counts all. -/
theorem glyphs_fitFrom (budget : Option Int) (bench : Bench σ) (previous : GlyphIndex)
    (sofar : Fit) (glyphs : List GlyphIndex) :
    (fitFrom budget bench previous sofar glyphs).1.glyphs ≤ sofar.glyphs + glyphs.length ∧
      (budget = none →
        (fitFrom budget bench previous sofar glyphs).1.glyphs = sofar.glyphs + glyphs.length) := by
  induction glyphs generalizing bench previous sofar with
  | nil => exact ⟨Nat.le_refl _, fun _ => rfl⟩
  | cons glyph rest ih =>
    have hsum : sofar.glyphs + (glyph :: rest).length = sofar.glyphs + 1 + rest.length := by
      rw [List.length_cons]
      omega
    rw [hsum]
    have hnext (after : Bench σ) (width : Int) := ih after glyph ⟨sofar.glyphs + 1, width⟩
    rw [fitFrom]
    split
    · exact hnext _ _
    · dsimp only
      split
      · next hover =>
        -- Only a budget can stop a fit, and then it stops before the glyph.
        exact ⟨by dsimp only; omega, fun hb => by simp [hb] at hover⟩
      · exact hnext _ _

theorem glyphs_fit_le (budget : Option Int) (bench : Bench σ) (glyphs : List GlyphIndex) :
    (fit budget bench glyphs).1.glyphs ≤ glyphs.length :=
  Nat.le_trans (glyphs_fitFrom budget bench 0 ⟨0, 0⟩ glyphs).1 (Nat.le_of_eq (Nat.zero_add _))

theorem glyphs_fit_none (bench : Bench σ) (glyphs : List GlyphIndex) :
    (fit none bench glyphs).1.glyphs = glyphs.length :=
  ((glyphs_fitFrom none bench 0 ⟨0, 0⟩ glyphs).2 rfl).trans (Nat.zero_add _)

/-- A fit does not pass a bound that its budget and its start do not pass. -/
theorem width_fitFrom_le {limit bound : Int} (hlimit : limit ≤ bound) (bench : Bench σ)
    (previous : GlyphIndex) {sofar : Fit} (h : sofar.width ≤ bound) (glyphs : List GlyphIndex) :
    (fitFrom (some limit) bench previous sofar glyphs).1.width ≤ bound := by
  induction glyphs generalizing bench previous sofar with
  | nil => exact h
  | cons glyph rest ih =>
    rw [fitFrom]
    split
    · exact ih _ _ h
    · dsimp only
      split
      · exact h
      · next hroom => exact ih _ _ (Int.le_trans (by simpa using hroom) hlimit)

theorem width_fit_le {limit : Int} (h : 0 ≤ limit) (bench : Bench σ) (glyphs : List GlyphIndex) :
    (fit (some limit) bench glyphs).1.width ≤ limit :=
  width_fitFrom_le (Int.le_refl limit) bench 0 h glyphs

/-- Without room nothing takes any. -/
theorem width_fit_nonpos {limit : Int} (h : limit ≤ 0) (bench : Bench σ)
    (glyphs : List GlyphIndex) : (fit (some limit) bench glyphs).1.width ≤ 0 :=
  width_fitFrom_le h bench 0 (Int.le_refl 0) glyphs

/-! ## Compositions -/

/-- Placing glyphs does not change the size of a surface. -/
theorem size_compositeFrom (baseline : Int) (bench : Bench σ) (previous : GlyphIndex) (pen : Int)
    (surface : Bitmap) (glyphs : List GlyphIndex) :
    (compositeFrom baseline bench previous pen surface glyphs).1.width = surface.width ∧
      (compositeFrom baseline bench previous pen surface glyphs).1.height = surface.height := by
  induction glyphs generalizing bench previous pen surface with
  | nil => exact ⟨rfl, rfl⟩
  | cons glyph rest ih =>
    rw [compositeFrom]
    dsimp only
    split
    · exact ih ..
    · next entry drawn _ =>
      split
      · obtain ⟨hw, hh⟩ := ih drawn glyph
          (Coord.add (Coord.add pen (bench.kerning previous glyph).1) entry.advance)
          (place surface entry (Coord.add pen (bench.kerning previous glyph).1) baseline)
        exact ⟨hw.trans (width_place ..), hh.trans (height_place ..)⟩
      · exact ih ..

theorem size_composite (bench : Bench σ) (glyphs : List GlyphIndex) (width : Int)
    (metrics : FontMetrics) :
    (composite bench glyphs width metrics).1.width = width.toNat ∧
      (composite bench glyphs width metrics).1.height = metrics.maxHeight.toNat :=
  size_compositeFrom ..

/-! ## Renderings -/

/-- A rendering fits the text, looks up the measures or takes them, and composites what fits if
there is some height for it. -/
theorem render_eq (size : UInt32) (text : String) (budget : Option Int) (bench : Bench σ)
    (kept : Option FontMetrics) :
    render size text budget (bench, kept) =
      let glyphs := glyphIndices bench.face text
      let fitting := fit budget bench glyphs
      let measuring := keptMetrics fitting.2 kept size
      let drawing := composite measuring.2 (glyphs.take fitting.1.glyphs) fitting.1.width
        measuring.1
      if measuring.1.maxHeight ≤ 0 then
        (.error .metricsUnavailable, measuring.2, some measuring.1)
      else
        (.ok { surface := drawing.1, glyphCount := fitting.1.glyphs }, drawing.2,
          some measuring.1) := rfl

/-- A string rendered under `metrics` is as high as these say, has no more glyphs than the text, all
of them if there is no budget, and is no wider than its budget. -/
structure Shaped (text : String) (budget : Option Int) (metrics : FontMetrics)
    (s : RenderedString) : Prop where
  maxHeight_pos : 0 < metrics.maxHeight
  height : (s.surface.height : Int) = metrics.maxHeight
  glyphCount_le : s.glyphCount ≤ (CodePoints.ofText text).length
  glyphCount_eq : budget = none → s.glyphCount = (CodePoints.ofText text).length
  width_le : ∀ limit, budget = some limit → 0 ≤ limit → (s.surface.width : Int) ≤ limit

theorem length_glyphIndices (face : σ) (text : String) :
    (glyphIndices face text).length = (CodePoints.ofText text).length := List.length_map _

/-- After a rendering the measures are known; they stay the same if they were known before. What is
rendered is shaped under them. -/
theorem render_spec (size : UInt32) (text : String) (budget : Option Int) (bench : Bench σ)
    (kept : Option FontMetrics) :
    let rendering := render size text budget (bench, kept)
    ∃ metrics, rendering.2.2 = some metrics ∧ (∀ known, kept = some known → metrics = known) ∧
      ∀ s, rendering.1 = .ok s → Shaped text budget metrics s := by
  intro rendering
  let glyphs := glyphIndices bench.face text
  let fitting := fit budget bench glyphs
  let measuring := keptMetrics fitting.2 kept size
  have hlength : glyphs.length = (CodePoints.ofText text).length :=
    length_glyphIndices bench.face text
  refine ⟨measuring.1, ?_, ?_, fun s hs => ?_⟩
  · simp only [rendering, render_eq]
    split <;> rfl
  · rintro known rfl
    rfl
  · simp only [rendering, render_eq] at hs
    split at hs
    · cases hs
    · next hpos =>
      obtain rfl := Except.ok.inj hs
      obtain ⟨hw, hh⟩ := size_composite measuring.2 (glyphs.take fitting.1.glyphs)
        fitting.1.width measuring.1
      exact
        { maxHeight_pos := Int.not_le.1 hpos
          height := by
            rw [hh]
            exact Int.toNat_of_nonneg (Int.le_of_lt (Int.not_le.1 hpos))
          glyphCount_le := hlength ▸ glyphs_fit_le budget bench glyphs
          glyphCount_eq := by
            rintro rfl
            exact (glyphs_fit_none bench glyphs).trans hlength
          width_le := by
            rintro limit rfl hlimit
            rw [hw]
            have hfits : fitting.1.width ≤ limit := width_fit_le hlimit bench glyphs
            omega }

end Shaping

end BitmapText
