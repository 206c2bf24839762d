import BitmapText.Proofs.Bitmap.Draw
import BitmapText.Proofs.Font.DrawnGlyphs
import BitmapText.Proofs.Font.Shape

/-!
# Whole pictures

A picture is made in three steps: a fit tells how wide the canvas has to be, the measures tell how
high, and then the text is drawn on it. The first step looks at glyphs and the last one at a
composited string. If the answers of the face depend on the questions alone, they come to the same
size, so that nothing of the string is lost and nothing else is on the canvas.

## Main statements

* `Shaping.height_stringOf`: a composited string is as high as its font.
* `Font.Drawing.paint_ofString`: a string on a blank canvas of its size.
* `Font.picture_eq_surface`: what is on a picture.
-/

namespace BitmapText

namespace Shaping

variable {σ : Type} [Face σ]

theorem height_foldl_placeAlpha8 (baseline : Int) (surface : Bitmap)
    (placed : List (RasterGlyph × Int)) :
    (placed.foldl (placeAlpha8 baseline) surface).height = surface.height := by
  induction placed generalizing surface with
  | nil => rfl
  | cons first rest ih =>
    refine (ih _).trans ?_
    unfold placeAlpha8
    split
    · exact height_place ..
    · rfl

/-- A composited string is as high as its font. -/
@[simp] theorem height_stringOf (face : σ) (text : String) (budget : Option Int)
    (metrics : FontMetrics) :
    (stringOf face text budget metrics).surface.height = metrics.maxHeight.toNat :=
  height_foldl_placeAlpha8 ..

end Shaping

namespace Font

/-- A string that is drawn at the top left corner of a blank canvas of its size is all that there is
on the canvas. -/
theorem Drawing.paint_ofString (s : RenderedString) (hw : (s.surface.width : Int) ≤ Coord.highest)
    (hh : (s.surface.height : Int) ≤ Coord.highest) :
    (Drawing.ofString s 0 0 none).paint (.blank s.surface.width s.surface.height) = s.surface :=
  s.surface.draw_blank hw hh

variable {σ : Type} [Face σ]

/-- A text is fitted, then the font is measured, and then the text is drawn. -/
theorem answer_picture (font : Font σ) (text : String) (maxWidth : Option Int) :
    let fitted := font.fit text maxWidth
    let measured := fitted.font.maxHeight
    (font.picture text maxWidth).answer =
      (measured.font.render text 0 0 maxWidth none).answer.map fun d =>
        ⟨d.paint (.blank fitted.answer.width.toNat measured.answer.toNat), d.glyphs⟩ := rfl

/-- At the left edge, the room for a text is its width limit. -/
theorem answer_render_origin (font : Font σ) (text : String) {maxWidth : Option Int}
    (hm : ∀ n ∈ maxWidth, Coord.InRange n) (hroom : ∀ n ∈ maxWidth, 0 < n) :
    (font.render text 0 0 maxWidth none).answer =
      (font.string text maxWidth).answer.map (Drawing.ofString · 0 0 none) := by
  have hbudget : maxWidth.map (Coord.satSub · 0) = maxWidth := by
    cases maxWidth with
    | none => rfl
    | some n =>
      rw [Option.map_some, Coord.satSub, Int.sub_zero, Coord.clamp_of_inRange (hm n rfl)]
  rw [answer_render_of_lt font text hroom, hbudget]

theorem answer_render_no_room (font : Font σ) (text : String) {n : Int} (hn : n ≤ 0) :
    (font.render text 0 0 (some n) none).answer = .ok .nothing :=
  font.answer_render_of_le text hn 0 none

/-- A font that has just been opened fits what its face fits. -/
theorem answer_fit_opened (key : FontKey) (face : σ) (limits : StringCache.Limits) (text : String)
    (maxWidth : Option Int) :
    ((opened key face limits).fit text maxWidth).answer =
      (Shaping.fit maxWidth { face, glyphs := .empty } (Shaping.glyphIndices face text)).1 := by
  rw [fit, peek?_opened]
  rfl

/-- A text is answered by its composited form under the measures, if these are known. -/
theorem Faithful.answer_string {first : σ} {font : Font σ} (hs : Face.Steady first)
    (h : Faithful first font) {known : FontMetrics} (hk : font.metrics = some known)
    (text : String) (maxWidth : Option Int) :
    (font.string text maxWidth).answer = Shaping.rendered first text maxWidth known := by
  obtain ⟨metrics, hanswer, huses, -⟩ := h.string hs text maxWidth
  rw [hanswer, huses.eq_of_kept known hk]

/-- On a font that has just been opened with a steady face, for a text and a width that is a
coordinate. If there is some room for the text, or no limit, then its picture fails for want of
height if the font has none. Otherwise the canvas is the composited form of the text, as wide as the
fit and as high as the font, every value of it is in the graymap, and the picture counts the glyphs
of the fit. If there is no room, the canvas has no columns and nothing is counted. -/
theorem picture_eq_surface {face : σ} (hs : Face.Steady face) (key : FontKey)
    (limits : StringCache.Limits) (text : String) {maxWidth : Option Int}
    (hm : ∀ n ∈ maxWidth, Coord.InRange n)
    (hw : Coord.InRange ((opened key face limits).fit text maxWidth).answer.width)
    (hh : Coord.InRange ((opened key face limits).fit text maxWidth).font.maxHeight.answer) :
    let start := opened key face limits
    let fitted := start.fit text maxWidth
    let measured := fitted.font.maxHeight
    let picture := start.picture text maxWidth
    ((∀ n ∈ maxWidth, 0 < n) →
      (measured.answer ≤ 0 → picture.answer = .error .metricsUnavailable) ∧
      (0 < measured.answer →
        ∃ s p, (measured.font.string text maxWidth).answer = .ok s ∧ picture.answer = .ok p ∧
          p.canvas = s.surface ∧ p.glyphs = fitted.answer.glyphs ∧
          p.canvas.width = fitted.answer.width.toNat ∧ p.canvas.height = measured.answer.toNat ∧
          p.canvas.toPgm =
            (Bitmap.pgmHeader s.surface.width s.surface.height).toUTF8.data ++ s.surface.data)) ∧
    ∀ n, maxWidth = some n → n ≤ 0 →
      ∃ p, picture.answer = .ok p ∧ p.canvas.width = 0 ∧ p.glyphs = 0 := by
  intro start fitted measured picture
  have hstart : Faithful face start := .opened key face limits
  obtain ⟨hglyphs, hwidth, -, hfitted⟩ := hstart.fit hs text maxWidth
  rw [if_neg (not_caches_opened key face limits text maxWidth)] at hwidth
  obtain ⟨-, hknown, hmeasured⟩ := hfitted.measures hs
  -- The measures are known when the text is drawn, so they are those that the canvas is made for.
  let metrics := fitted.font.measures.answer
  have hstring : (measured.font.string text maxWidth).answer =
      Shaping.rendered face text maxWidth metrics :=
    hmeasured.answer_string hs hknown text maxWidth
  have hpicture : picture.answer = (measured.font.render text 0 0 maxWidth none).answer.map
      fun d => ⟨d.paint (.blank fitted.answer.width.toNat measured.answer.toNat), d.glyphs⟩ :=
    start.answer_picture text maxWidth
  have hsize {n : Int} (hn : Coord.InRange n) : (n.toNat : Int) ≤ Coord.highest := by
    have := hn.2
    simp only [Coord.highest] at this ⊢
    omega
  refine ⟨fun hroom => ?_, fun n hn hnone => ?_⟩
  · rw [answer_render_origin _ text hm hroom, hstring] at hpicture
    refine ⟨fun hflat => ?_, fun hheight => ?_⟩
    · have hfailed : Shaping.rendered face text maxWidth metrics = .error .metricsUnavailable :=
        if_pos hflat
      rw [hpicture, hfailed]
      rfl
    · let s := Shaping.stringOf face text maxWidth metrics
      have hrendered : Shaping.rendered face text maxWidth metrics = .ok s :=
        Shaping.rendered_eq_ok_iff.2 ⟨hheight, rfl⟩
      have hsw : s.surface.width = fitted.answer.width.toNat :=
        (Shaping.width_stringOf face text maxWidth metrics).trans (congrArg Int.toNat hwidth.symm)
      have hsh : s.surface.height = measured.answer.toNat :=
        Shaping.height_stringOf face text maxWidth metrics
      have hpainted : (Drawing.ofString s 0 0 none).paint
          (.blank fitted.answer.width.toNat measured.answer.toNat) = s.surface := by
        rw [← hsw, ← hsh]
        apply Drawing.paint_ofString
        · exact hsw ▸ hsize hw
        · exact hsh ▸ hsize hh
      rw [hrendered] at hpicture
      refine ⟨s, ⟨s.surface, s.glyphCount⟩, hstring.trans hrendered, ?_, rfl, hglyphs.symm, hsw,
        hsh, rfl⟩
      rw [hpicture, ← hpainted]
      rfl
  · subst hn
    rw [answer_render_no_room _ text hnone] at hpicture
    refine ⟨_, hpicture, ?_, rfl⟩
    have hfit : fitted.answer.width ≤ 0 := by
      rw [show fitted.answer = _ from answer_fit_opened key face limits text (some n)]
      exact Shaping.width_fit_nonpos hnone _ _
    exact Int.toNat_of_nonpos hfit

/-- Of three glyphs that are three pixels wide each, two fit into seven pixels, and none into
zero. -/
theorem picture_eq_surface_two_of_three :
    let square : RasterGlyph :=
      { width := 2, height := 2, pitch := 2, left := 0, top := 2, advance := 3, format := .alpha8,
        data := #[1, 2, 3, 4] }
    let start := opened ⟨⟨"a.ttf"⟩, 16, 96⟩ (TableFace.uniform square) (.ofNat 1 1)
    (∃ s p, ((start.fit "abc" (some 7)).font.maxHeight.font.string "abc" (some 7)).answer = .ok s ∧
      (start.picture "abc" (some 7)).answer = .ok p ∧ p.canvas = s.surface ∧ p.glyphs = 2 ∧
      p.canvas.width = 6 ∧ p.canvas.height = 6) ∧
    ∃ p, (start.picture "abc" (some 0)).answer = .ok p ∧ p.canvas.width = 0 ∧ p.glyphs = 0 := by
  intro square start
  have hs := TableFace.steady_uniform square
  have hp := TableFace.probesByRendering_uniform square
  have hstart : Reached start start := .start
  have htext : (CodePoints.ofText "abc").length = 3 := by decide +kernel
  have hfit (n : Int) : (start.fit "abc" (some n)).answer =
      Fit.ofMoves (some n) ⟨0, 0⟩ [some 3, some 3, some 3] := by
    rw [show (start.fit "abc" (some n)).answer = _ from answer_fit_opened _ _ _ "abc" (some n),
      Shaping.fit_eq_fitOf hs.toSteadyGlyphs, Shaping.fitOf, Shaping.moves_uniform,
      Shaping.length_glyphIndices, htext]
    rfl
  have hheight (n : Int) : (start.fit "abc" (some n)).font.maxHeight.answer = 6 := by
    have hasked : Reached start (start.fit "abc" (some n)).font :=
      hstart.asked (.fit "abc" (some n))
    rw [hasked.maxHeight_eq hs hp, Shaping.metricsOfFace_uniform]
    decide +kernel
  have hseven : (start.fit "abc" (some 7)).answer = ⟨2, 6⟩ := (hfit 7).trans (by decide)
  have hzero : (start.fit "abc" (some 0)).answer = ⟨0, 0⟩ := (hfit 0).trans (by decide)
  obtain ⟨hroom, -⟩ := picture_eq_surface hs ⟨⟨"a.ttf"⟩, 16, 96⟩ (.ofNat 1 1) "abc"
    (show ∀ n ∈ some (7 : Int), Coord.InRange n by simp; decide)
    (by rw [hseven]; decide) (by rw [hheight]; decide)
  obtain ⟨-, hnone⟩ := picture_eq_surface hs ⟨⟨"a.ttf"⟩, 16, 96⟩ (.ofNat 1 1) "abc"
    (show ∀ n ∈ some (0 : Int), Coord.InRange n by simp; decide)
    (by rw [hzero]; decide) (by rw [hheight]; decide)
  obtain ⟨s, p, hstring, hpicture, hcanvas, hglyphs, hwide, hhigh, -⟩ :=
    (hroom (by simp)).2 (by rw [hheight]; decide)
  rw [hseven] at hglyphs hwide
  rw [hheight] at hhigh
  exact ⟨⟨s, p, hstring, hpicture, hcanvas, hglyphs, hwide, hhigh⟩, hnone 0 rfl (by decide)⟩

end Font

end BitmapText
