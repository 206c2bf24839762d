import BitmapText.Proofs.Font.Transparency
import BitmapText.Proofs.Shaping.Clipping

/-!
# The glyphs of a drawing

How many glyphs of a text are drawn left of an edge can be known beforehand: it is the number that a
bounded measure gives for the room there is, at any time and whether the text is cached or not. The
drawn bitmap is as wide as those glyphs are when nothing limits them.

## Main statements

* `Shaping.fitOf_take`: the glyphs that fit are as wide without a budget.
* `Font.answer_render_of_lt`: where there is room, a drawing is that of the string of a text.
* `Font.Reached.render_glyphs_eq_boundedMeasure`: what is drawn is what was measured.
-/

namespace BitmapText

/-! ## Glyphs that fit -/

theorem Fit.glyphs_le_ofMoves (budget : Option Int) (sofar : Fit) (moves : List (Option Int)) :
    sofar.glyphs ≤ (Fit.ofMoves budget sofar moves).glyphs := by
  induction moves generalizing sofar with
  | nil => exact Nat.le_refl _
  | cons first rest ih =>
    cases first with
    | none => exact Nat.le_of_succ_le (ih ⟨sofar.glyphs + 1, sofar.width⟩)
    | some move =>
      rw [Fit.ofMoves]
      split
      · exact Nat.le_refl _
      · exact Nat.le_of_succ_le (ih ⟨sofar.glyphs + 1, Coord.add sofar.width move⟩)

/-- The moves that fit come to the same without a budget. -/
theorem Fit.ofMoves_take (budget : Option Int) (sofar : Fit) (moves : List (Option Int)) :
    Fit.ofMoves none sofar
        (moves.take ((Fit.ofMoves budget sofar moves).glyphs - sofar.glyphs)) =
      Fit.ofMoves budget sofar moves := by
  induction moves generalizing sofar with
  | nil => rw [List.take_nil]; rfl
  | cons first rest ih =>
    have htake (width : Int) :
        (first :: rest).take
            ((Fit.ofMoves budget ⟨sofar.glyphs + 1, width⟩ rest).glyphs - sofar.glyphs) =
          first :: rest.take
            ((Fit.ofMoves budget ⟨sofar.glyphs + 1, width⟩ rest).glyphs - (sofar.glyphs + 1)) := by
      have hle := Fit.glyphs_le_ofMoves budget ⟨sofar.glyphs + 1, width⟩ rest
      dsimp only at hle
      rw [← List.take_succ_cons]
      congr 1
      omega
    cases first with
    | none =>
      rw [Fit.ofMoves, htake, Fit.ofMoves]
      exact ih ⟨sofar.glyphs + 1, sofar.width⟩
    | some move =>
      rw [Fit.ofMoves]
      split
      · simp [Fit.ofMoves]
      · rw [htake, Fit.ofMoves, Option.any_none, if_neg Bool.false_ne_true]
        exact ih ⟨sofar.glyphs + 1, Coord.add sofar.width move⟩

variable {σ : Type} [Face σ]

namespace Shaping

theorem moves_take (face : σ) (previous : GlyphIndex) (glyphs : List GlyphIndex) (n : Nat) :
    moves face previous (glyphs.take n) = (moves face previous glyphs).take n := by
  induction glyphs generalizing previous n with
  | nil => simp [moves]
  | cons glyph rest ih =>
    cases n with
    | zero => rfl
    | succ n => rw [List.take_succ_cons, moves, moves, List.take_succ_cons, ih]

/-- The glyphs that fit are as wide without a budget. -/
theorem fitOf_take (face : σ) (budget : Option Int) (glyphs : List GlyphIndex) :
    fitOf face none (glyphs.take (fitOf face budget glyphs).glyphs) =
      fitOf face budget glyphs := by
  rw [fitOf, moves_take]
  exact Fit.ofMoves_take budget ⟨0, 0⟩ (moves face 0 glyphs)

/-- A bench that has no glyphs yet fits what the face fits. -/
theorem fit_eq_fitOf {face : σ} (hs : Face.SteadyGlyphs face) (budget : Option Int)
    (glyphs : List GlyphIndex) :
    (fit budget { face, glyphs := .empty } glyphs).1 = fitOf face budget glyphs :=
  ((Bench.Follows.opened face #[]).fit hs budget glyphs).1

/-- The composited form of a text is as wide as its glyphs are on their own. -/
theorem width_stringOf_eq_fit {face : σ} (hs : Face.SteadyGlyphs face) (text : String)
    (budget : Option Int) (metrics : FontMetrics) :
    ((stringOf face text budget metrics).surface.width : Int) =
      max 0 (fit none { face, glyphs := .empty } ((glyphIndices face text).take
        (stringOf face text budget metrics).glyphCount)).1.width := by
  have htake : fitOf face none ((glyphIndices face text).take
      (stringOf face text budget metrics).glyphCount) = textFit face text budget :=
    fitOf_take face budget (glyphIndices face text)
  rw [fit_eq_fitOf hs, htake, width_stringOf]
  omega

theorem width_stringOf_le {face : σ} (hs : Face.SteadyGlyphs face) (text : String) {limit : Int}
    (h : 0 ≤ limit) (metrics : FontMetrics) :
    ((stringOf face text (some limit) metrics).surface.width : Int) ≤ limit := by
  have hle := width_fit_le h { face, glyphs := .empty } (glyphIndices face text)
  rw [fit_eq_fitOf hs] at hle
  rw [width_stringOf, textFit]
  omega

theorem glyphCount_stringOf_none {face : σ} (hs : Face.SteadyGlyphs face) (text : String)
    (metrics : FontMetrics) :
    (stringOf face text none metrics).glyphCount = (CodePoints.ofText text).length := by
  have hall := glyphs_fit_none { face, glyphs := .empty } (glyphIndices face text)
  rw [fit_eq_fitOf hs, length_glyphIndices] at hall
  exact hall

end Shaping

/-! ## Drawings -/

namespace Coord

/-- The room left of an edge is the distance to it, as far as coordinates reach. -/
theorem satSub_eq_min {a b : Int} (h : b < a) : satSub a b = min (a - b) highest := by
  simp only [satSub, clamp, lowest, highest]
  omega

theorem satSub_pos {a b : Int} (h : b < a) : 0 < satSub a b := by
  rw [satSub_eq_min h]
  simp only [highest]
  omega

theorem satSub_nonpos {a b : Int} (h : a ≤ b) : satSub a b ≤ 0 := by
  simp only [satSub, clamp, lowest, highest]
  omega

/-- Left of an edge, if there is one, there is room. -/
theorem not_any_satSub_nonpos {x : Int} {right : Option Int} (h : ∀ r ∈ right, x < r) :
    ¬ (right.map (satSub · x)).any (· ≤ 0) = true := by
  cases right with
  | none => exact Bool.false_ne_true
  | some r => simpa using satSub_pos (h r rfl)

end Coord

namespace Font

/-- Where the right edge is at the text or left of it, nothing is left to draw. -/
theorem answer_render_of_le (font : Font σ) (text : String) {x r : Int} (h : r ≤ x) (y : Int)
    (bottom : Option Int) : (font.render text x y (some r) bottom).answer = .ok .nothing := by
  have hnone : (some r : Option Int).map (Coord.satSub · x) |>.any (· ≤ 0) := by
    simpa using Coord.satSub_nonpos h
  rw [render, if_pos hnone]

/-- Where there is room, a drawing is that of the string of the text, and fails as that does. -/
theorem answer_render_of_lt (font : Font σ) (text : String) {x : Int} {right : Option Int}
    (h : ∀ r ∈ right, x < r) (y : Int) (bottom : Option Int) :
    (font.render text x y right bottom).answer =
      (font.string text (right.map (Coord.satSub · x))).answer.map
        (Drawing.ofString · x y bottom) := by
  rw [render, if_neg (Coord.not_any_satSub_nonpos h)]
  rfl

variable {face : σ} {key : FontKey} {limits : StringCache.Limits} {a : Font σ}

/-- The height of a font is that of its face. -/
theorem Reached.maxHeight_eq (hs : Face.Steady face) (hp : Face.ProbesByRendering face)
    (ha : Reached (opened key face limits) a) :
    a.maxHeight.answer = (Shaping.metricsOfFace face key.size).maxHeight := by
  have hexact := ha.exact hs hp
  have hmeasures := hexact.eq_of_uses hp (hexact.measures hs).1
  rw [maxHeight, answer_map, hmeasures, ha.key_eq]
  rfl

/-- A bounded measure counts the glyphs that fit, whether the text is cached or not. -/
theorem Reached.boundedMeasure_eq (hs : Face.Steady face) (ha : Reached (opened key face limits) a)
    (text : String) (maxWidth : Int) :
    (a.boundedMeasure text maxWidth).answer =
      (Shaping.textFit face text (some maxWidth)).glyphs :=
  ((ha.faithful hs).fit hs text (some maxWidth)).1

/-- A font with a height draws the composited form of a text within the room there is; a font
without one fails. -/
theorem Reached.render_eq_ok_iff (hs : Face.Steady face) (hp : Face.ProbesByRendering face)
    (ha : Reached (opened key face limits) a) (text : String) (x y : Int) (right : Option Int)
    (hr : ∀ edge ∈ right, x < edge) {d : Drawing} :
    (a.render text x y right none).answer = .ok d ↔
      0 < a.maxHeight.answer ∧
        d = Drawing.ofString (Shaping.stringOf face text (right.map (Coord.satSub · x))
          (Shaping.metricsOfFace face key.size)) x y none := by
  have hexact := ha.exact hs hp
  have hrender := hexact.render hs text x y right none
  dsimp only at hrender
  rw [if_neg (Coord.not_any_satSub_nonpos hr)] at hrender
  obtain ⟨metrics, hanswer, huses, -⟩ := hrender
  obtain rfl : metrics = Shaping.metricsOfFace face key.size := by
    rw [hexact.eq_of_uses hp huses, ha.key_eq]
    rfl
  rw [hanswer, ha.maxHeight_eq hs hp, Shaping.rendered]
  split
  · next hflat => simp [Except.map, Int.not_lt.2 hflat]
  · next hheight => simp [Except.map, Int.not_le.1 hheight, eq_comm]

/-- Left of an edge a font with a height draws as many glyphs of a text as a bounded measure gives
for the distance to the edge, at any other time of the font. The bitmap is as wide as these glyphs
are, and nothing if they move the pen back, so it does not pass the edge. Where there is no edge all
glyphs are drawn. -/
theorem Reached.render_glyphs_eq_boundedMeasure (hs : Face.Steady face)
    (hp : Face.ProbesByRendering face) (ha : Reached (opened key face limits) a) (text : String)
    (x y : Int) {right : Int} (hr : x < right) :
    let budget := Coord.satSub right x
    let drawn := (a.render text x y (some right) none).answer
    let whole := (a.render text x y none none).answer
    budget = min (right - x) Coord.highest ∧
      ((∃ d, drawn = .ok d) ↔ 0 < a.maxHeight.answer) ∧
      (∀ d, drawn = .ok d →
        (∀ b, Reached (opened key face limits) b →
          (b.boundedMeasure text budget).answer = d.glyphs) ∧
        ∃ call, d.call = some call ∧
          (call.surface.width : Int) = max 0 (Shaping.fit none { face, glyphs := .empty }
            ((Shaping.glyphIndices face text).take d.glyphs)).1.width ∧
          (call.surface.width : Int) ≤ budget) ∧
      ((∃ d, whole = .ok d) ↔ 0 < a.maxHeight.answer) ∧
      ∀ d, whole = .ok d → d.glyphs = (CodePoints.ofText text).length := by
  intro budget drawn whole
  let metrics := Shaping.metricsOfFace face key.size
  have hdrawn (d : Drawing) :=
    ha.render_eq_ok_iff hs hp text x y (some right) (by simpa using hr) (d := d)
  have hwhole (d : Drawing) := ha.render_eq_ok_iff hs hp text x y none (by simp) (d := d)
  refine ⟨Coord.satSub_eq_min hr, by simp [drawn, hdrawn], fun d hd => ?_,
    by simp [whole, hwhole], fun d hd => ?_⟩
  · obtain ⟨-, rfl⟩ := (hdrawn d).1 hd
    refine ⟨fun b hb => hb.boundedMeasure_eq hs text budget, _, rfl, ?_, ?_⟩
    · exact Shaping.width_stringOf_eq_fit hs.toSteadyGlyphs text (some budget) metrics
    · have hpos := Coord.satSub_pos hr
      exact Shaping.width_stringOf_le hs.toSteadyGlyphs text (Int.le_of_lt hpos) metrics
  · obtain ⟨-, rfl⟩ := (hwhole d).1 hd
    exact Shaping.glyphCount_stringOf_none hs.toSteadyGlyphs text metrics

/-- Between the third column and the tenth there is room for two of three glyphs that are three
pixels wide each. They are six pixels wide together. -/
theorem Reached.render_glyphs_eq_boundedMeasure_two_of_three :
    let square : RasterGlyph :=
      { width := 2, height := 2, pitch := 2, left := 0, top := 2, advance := 3, format := .alpha8,
        data := #[1, 2, 3, 4] }
    let start := opened ⟨⟨"a.ttf"⟩, 16, 96⟩ (TableFace.uniform square) (.ofNat 1 1)
    let later := (start.render "abc" 3 0 (some 10) none).font
    ∃ d call, (start.render "abc" 3 0 (some 10) none).answer = .ok d ∧ d.glyphs = 2 ∧
      (start.boundedMeasure "abc" 7).answer = 2 ∧ (later.boundedMeasure "abc" 7).answer = 2 ∧
      d.call = some call ∧ call.surface.width = 6 ∧
      ∃ whole, (start.render "abc" 3 0 none none).answer = .ok whole ∧ whole.glyphs = 3 := by
  intro square start later
  have hs := TableFace.steady_uniform square
  have hp := TableFace.probesByRendering_uniform square
  have hstart : Reached start start := .start
  have hlater : Reached start later := hstart.asked (.render "abc" 3 0 (some 10) none)
  have htext : (CodePoints.ofText "abc").length = 3 := by decide +kernel
  have hheight : 0 < start.maxHeight.answer := by
    rw [hstart.maxHeight_eq hs hp, Shaping.metricsOfFace_uniform]
    decide +kernel
  obtain ⟨-, hok, hdrawn, hokWhole, hwhole⟩ :=
    hstart.render_glyphs_eq_boundedMeasure hs hp "abc" 3 0 (show (3 : Int) < 10 by decide)
  obtain ⟨d, hd⟩ := hok.2 hheight
  obtain ⟨whole, hwholeOk⟩ := hokWhole.2 hheight
  obtain ⟨hmeasure, call, hcall, hwidth, -⟩ := hdrawn d hd
  have hfitted : (Shaping.textFit (TableFace.uniform square) "abc" (some 7)).glyphs = 2 := by
    rw [Shaping.textFit, Shaping.fitOf, Shaping.moves_uniform, Shaping.length_glyphIndices, htext]
    decide
  have hcount : (start.boundedMeasure "abc" 7).answer = 2 :=
    (hstart.boundedMeasure_eq hs "abc" 7).trans hfitted
  have htwo : d.glyphs = 2 := (hmeasure start hstart).symm.trans hcount
  have hsix : call.surface.width = 6 := by
    rw [htwo, Shaping.fit_eq_fitOf hs.toSteadyGlyphs, Shaping.fitOf, Shaping.moves_uniform,
      List.length_take, Shaping.length_glyphIndices, htext] at hwidth
    exact Int.ofNat.inj (hwidth.trans (by decide))
  exact ⟨d, call, hd, htwo, hcount, (hmeasure later hlater).trans htwo, hcall, hsix, whole,
    hwholeOk, (hwhole whole hwholeOk).trans htext⟩

end Font

end BitmapText
