import BitmapText.Proofs.Font.Faithful

/-!
# The width of a fit

A fit is answered from the string cache where it can be, and by measuring glyphs elsewhere. Both
count the same glyphs. The widths agree as long as the glyphs move the pen forward; when they move
it back, measuring tells how far, while a cached surface can only be empty. A measured text is
always as wide as its surface.

## Main statements

* `Font.Faithful.measure`: how wide a measured text is.
* `Font.Reached.fit_width_eq_iff`: when two fits of a text agree, and when they agree with its
  measure.
-/

namespace BitmapText

namespace Font

variable {σ : Type} [Face σ]

/-- A font with some height measures a text by how far its glyphs move the pen, and takes a move
back for none. The text is cached then. -/
theorem Faithful.measure {first : σ} {font : Font σ} (hs : Face.Steady first)
    (h : Faithful first font) (text : String) :
    ∃ metrics, Shaping.Uses first font.key.size font.metrics metrics ∧
      (font.measure text).answer =
        (if metrics.maxHeight ≤ 0 then .error .metricsUnavailable
        else .ok (max 0 (Shaping.textFit first text none).width)) ∧
      ∀ n, (font.measure text).answer = .ok n → (font.measure text).font.Caches text none := by
  obtain ⟨metrics, hanswer, huses, -, -, hcached⟩ := h.string hs text none
  have hmeasure : (font.measure text).answer =
      (font.string text none).answer.map fun s => (s.surface.width : Int) := rfl
  refine ⟨metrics, huses, ?_, fun n hn => ?_⟩
  · rw [hmeasure, hanswer, Shaping.rendered]
    split
    · rfl
    · have hwidth : ((Shaping.textFit first text none).width.toNat : Int) =
          max 0 (Shaping.textFit first text none).width := by omega
      simp only [Except.map, Shaping.width_stringOf, hwidth]
  · cases ha : (font.string text none).answer with
    | error e =>
      rw [hmeasure, ha] at hn
      cases hn
    | ok s => exact Option.isSome_iff_exists.2 ⟨s, hcached s ha⟩

namespace Reached

variable {face : σ} {key : FontKey} {limits : StringCache.Limits} {a b : Font σ}

/-- A fit counts the same glyphs at any time, and its width is that of the first fit unless the text
is cached; then a move back counts for none. -/
theorem fit_eq (hs : Face.Steady face) (h : Reached (opened key face limits) a) (text : String)
    (maxWidth : Option Int) :
    let fresh := ((opened key face limits).fit text maxWidth).answer
    fresh = Shaping.textFit face text maxWidth ∧
      (a.fit text maxWidth).answer.glyphs = fresh.glyphs ∧
      (a.fit text maxWidth).answer.width =
        if a.Caches text maxWidth then max 0 fresh.width else fresh.width := by
  intro fresh
  obtain ⟨hglyphs, hwidth, -⟩ :=
    (Faithful.opened key face limits).fit hs text maxWidth
  rw [if_neg (not_caches_opened key face limits text maxWidth)] at hwidth
  have hfresh : fresh = Shaping.textFit face text maxWidth := congrArg₂ Fit.mk hglyphs hwidth
  obtain ⟨hglyphs', hwidth', -⟩ := (h.faithful hs).fit hs text maxWidth
  exact ⟨hfresh, hfresh ▸ hglyphs', hfresh ▸ hwidth'⟩

/-- At any two times a fit of a text counts the same glyphs. The widths are the same exactly when
the text is cached both times or neither time, or when its glyphs move the pen forward. A measured
text is as wide as a fit of it right afterwards, and as wide as one at another time exactly when the
text is cached then or its glyphs move the pen forward. -/
theorem fit_width_eq_iff (hs : Face.Steady face) (ha : Reached (opened key face limits) a)
    (hb : Reached (opened key face limits) b) (text : String) (maxWidth : Option Int) :
    let fresh (maxWidth : Option Int) := ((opened key face limits).fit text maxWidth).answer
    (a.fit text maxWidth).answer.glyphs = (b.fit text maxWidth).answer.glyphs ∧
      ((a.fit text maxWidth).answer.width = (b.fit text maxWidth).answer.width ↔
        (a.Caches text maxWidth ↔ b.Caches text maxWidth) ∨ 0 ≤ (fresh maxWidth).width) ∧
      ∀ n, (a.measure text).answer = .ok n →
        n = max 0 (fresh none).width ∧
          ((a.measure text).font.fit text none).answer.width = n ∧
          ((b.fit text none).answer.width = n ↔
            b.Caches text none ∨ 0 ≤ (fresh none).width) := by
  intro fresh
  obtain ⟨-, hglyphsA, hwidthA⟩ := ha.fit_eq hs text maxWidth
  obtain ⟨-, hglyphsB, hwidthB⟩ := hb.fit_eq hs text maxWidth
  refine ⟨hglyphsA.trans hglyphsB.symm, ?_, fun n hn => ?_⟩
  · -- The two widths differ only if one of them is cut off at zero and the other one is not.
    rw [hwidthA, hwidthB]
    change _ = ite _ (max 0 (fresh maxWidth).width) _ ↔ _
    split <;> split <;> grind
  · obtain ⟨metrics, -, hanswer, hcached⟩ := (ha.faithful hs).measure hs text
    obtain ⟨hfresh, -, hafter⟩ :=
      (ha.asked (.measure text)).fit_eq hs text none
    obtain ⟨-, -, hother⟩ := hb.fit_eq hs text none
    have hn' : n = max 0 (fresh none).width := by
      rw [hn] at hanswer
      split at hanswer
      · cases hanswer
      · rw [Except.ok.inj hanswer, ← hfresh]
    have hmeasured : ((a.measure text).font.fit text none).answer.width =
        max 0 (fresh none).width := hafter.trans (if_pos (hcached n hn))
    refine ⟨hn', hmeasured.trans hn'.symm, ?_⟩
    rw [hother, hn']
    change ite _ (max 0 (fresh none).width) (fresh none).width = _ ↔ _
    split <;> grind

/-- A glyph that moves the pen back by five pixels fits with a width of `-5` until its text has
been measured, and with a width of `0` from then on. -/
theorem fit_width_eq_iff_pen_moves_back :
    let back : RasterGlyph :=
      { width := 1, height := 1, pitch := 1, left := 0, top := 1, advance := -5, format := .alpha8,
        data := #[255] }
    let start := opened ⟨⟨"a.ttf"⟩, 16, 96⟩ (TableFace.uniform back) default
    let measured := (start.measure "a").font
    (start.fit "a" none).answer = ⟨1, -5⟩ ∧ (start.measure "a").answer = .ok 0 ∧
      (measured.fit "a" none).answer = ⟨1, 0⟩ := by
  intro back start measured
  have hs := TableFace.steady_uniform back
  have hmeasured : Reached start measured := Reached.start.asked (.measure "a")
  have htext : Shaping.textFit (TableFace.uniform back) "a" none = ⟨1, -5⟩ :=
    (Shaping.textFit_uniform back "a").trans (by decide +kernel)
  have hfit : (start.fit "a" none).answer = ⟨1, -5⟩ :=
    (Reached.start.fit_eq hs "a" none).1.trans htext
  have hanswer : (start.measure "a").answer = .ok 0 := by
    have hstart : Faithful (TableFace.uniform back) start := .opened _ _ _
    obtain ⟨metrics, huses, hanswer, -⟩ := hstart.measure hs "a"
    have hheight : Shaping.metricsOf (some back.extents) 16 = ⟨5, 5⟩ := by decide +kernel
    have hmetrics : metrics = ⟨5, 5⟩ :=
      (huses.eq_of_taken (TableFace.probesByRendering_uniform back) rfl).trans
        ((Shaping.metricsOfFace_uniform back 16).trans hheight)
    rw [hmetrics, htext] at hanswer
    exact hanswer
  obtain ⟨hglyphs, -, hmeasure⟩ := fit_width_eq_iff hs .start hmeasured "a" none
  obtain ⟨-, hwidth, -⟩ := hmeasure 0 hanswer
  refine ⟨hfit, hanswer, congrArg₂ Fit.mk (hglyphs.symm.trans ?_) hwidth⟩
  rw [hfit]

end Reached

end Font

end BitmapText
