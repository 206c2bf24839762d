import BitmapText.Proofs.Font.Faithful
import BitmapText.Proofs.Shaping.Clipping

/-!
# What every font keeps

A face may answer as it likes, and differently each time. Its font still takes its measures once and
keeps them, and every string that it keeps is as high as these measures say, and within its text and
its budget. Without a height nothing is kept.

## Main definitions

* `Font.Keeps`: every string of a font has a property under its measures.
* `Font.Orderly`: the strings of a font are shaped under its measures.

## Main statements

* `Font.known_reply`: no question changes measures that are known.
* `Font.Orderly.reply`: every question leaves a font orderly.
* `Font.Reached.strings_shaped`: so every font that comes about from an opened one is orderly.
-/

namespace BitmapText

namespace Font

variable {σ : Type} [Face σ]

/-! ## Measures -/

/-- A request for a text knows the measures afterwards, unless the text was cached. -/
theorem metrics_string (font : Font σ) (text : String) (maxWidth : Option Int) :
    (font.string text maxWidth).font.metrics =
      if font.Caches text maxWidth then font.metrics
      else (Shaping.render font.key.size text maxWidth (font.bench, font.metrics)).2.2 := by
  have hworld : (font.string text maxWidth).font.metrics =
      (font.strings.getOrRender ⟨text, maxWidth⟩ (Shaping.render font.key.size text maxWidth)
        (font.bench, font.metrics)).world.2 := rfl
  rw [hworld]
  split
  · next hc =>
    obtain ⟨s, hs⟩ := Option.isSome_iff_exists.1 hc
    rw [(StringCache.getOrRender_of_peek? hs _ _).2]
  · next hc =>
    have hnone := Option.not_isSome_iff_eq_none.1 hc
    rw [(StringCache.getOrRender_of_peek?_eq_none hnone _ _).2]

theorem known_string {font : Font σ} {known : FontMetrics} (hk : font.metrics = some known)
    (text : String) (maxWidth : Option Int) :
    (font.string text maxWidth).font.metrics = some known := by
  rw [metrics_string]
  split
  · exact hk
  · obtain ⟨metrics, hmetrics, hsame, -⟩ :=
      Shaping.render_spec font.key.size text maxWidth font.bench font.metrics
    rw [hmetrics, hsame known hk]

@[simp] theorem metrics_fit (font : Font σ) (text : String) (maxWidth : Option Int) :
    (font.fit text maxWidth).font.metrics = font.metrics := by
  unfold fit
  split <;> rfl

@[simp] theorem strings_fit (font : Font σ) (text : String) (maxWidth : Option Int) :
    (font.fit text maxWidth).font.strings = font.strings := by
  unfold fit
  split <;> rfl

theorem known_measures {font : Font σ} {known : FontMetrics} (hk : font.metrics = some known) :
    font.measures.font.metrics = some known := by
  obtain ⟨key, face, glyphs, strings, metrics⟩ := font
  obtain rfl : metrics = some known := hk
  rfl

/-- No question changes measures that are known. -/
theorem known_reply {font : Font σ} {known : FontMetrics} (hk : font.metrics = some known)
    (q : Query) : (font.reply q).font.metrics = some known := by
  cases q with
  | measure text => exact known_string hk text none
  | fit text maxWidth => exact (metrics_fit font text maxWidth).trans hk
  | boundedMeasure text maxWidth => exact (metrics_fit font text (some maxWidth)).trans hk
  | maxHeight => exact known_measures hk
  | baseline => exact known_measures hk
  | render text x y right bottom =>
    rw [reply, font_map, render]
    split
    · exact hk
    · exact known_string hk text _

theorem Reached.known {font later : Font σ} {known : FontMetrics} (h : Reached font later)
    (hk : font.metrics = some known) : later.metrics = some known := by
  induction h with
  | start => exact hk
  | asked _ q ih => exact known_reply ih q

/-! ## Strings -/

/-- The font knows its measures if it keeps strings, and `P` holds of each string under them. -/
structure Keeps (P : StringKey → FontMetrics → RenderedString → Prop) (font : Font σ) : Prop where
  listed : ∃ r, font.strings.Represents r
  strings : ∀ key s, font.strings.peek? key = some s →
    ∃ metrics, font.metrics = some metrics ∧ P key metrics s

namespace Keeps

variable {P : StringKey → FontMetrics → RenderedString → Prop} {font : Font σ}

omit [Face σ] in
theorem opened (P : StringKey → FontMetrics → RenderedString → Prop) (key : FontKey) (face : σ)
    (limits : StringCache.Limits) : Keeps P (opened key face limits) where
  listed := ⟨{}, .empty limits⟩
  strings k s hs := absurd ((peek?_opened key face limits k).symm.trans hs) (by simp)

/-- A request keeps `P` if the string has it that is rendered for a text that is not cached. It is
answered with such a string. -/
theorem string (h : Keeps P font) (text : String) (maxWidth : Option Int)
    (hrender : ∀ metrics s,
      (Shaping.render font.key.size text maxWidth (font.bench, font.metrics)).2.2 = some metrics →
      (Shaping.render font.key.size text maxWidth (font.bench, font.metrics)).1 = .ok s →
        P ⟨text, maxWidth⟩ metrics s) :
    Keeps P (font.string text maxWidth).font ∧
      ∀ s, (font.string text maxWidth).answer = .ok s →
        ∃ metrics, (font.string text maxWidth).font.metrics = some metrics ∧
          P ⟨text, maxWidth⟩ metrics s := by
  obtain ⟨r, hr⟩ := h.listed
  obtain ⟨-, -, hlisted, -⟩ := hr.getOrRender ⟨text, maxWidth⟩
    (Shaping.render font.key.size text maxWidth) (font.bench, font.metrics)
  obtain ⟨-, hothers⟩ := hr.peek?_getOrRender ⟨text, maxWidth⟩
    (Shaping.render font.key.size text maxWidth) (font.bench, font.metrics)
  have hbefore (k : StringKey) (s : RenderedString) (hs : font.strings.peek? k = some s) :
      ∃ metrics, (font.string text maxWidth).font.metrics = some metrics ∧ P k metrics s := by
    obtain ⟨metrics, hmetrics, hP⟩ := h.strings k s hs
    exact ⟨metrics, known_string hmetrics text maxWidth, hP⟩
  have hanswer (s : RenderedString) (hs : (font.string text maxWidth).answer = .ok s) :
      ∃ metrics, (font.string text maxWidth).font.metrics = some metrics ∧
        P ⟨text, maxWidth⟩ metrics s := by
    -- The string of this request was there before, or it has been rendered just now.
    by_cases hc : font.Caches text maxWidth
    · obtain ⟨s', hs'⟩ := Option.isSome_iff_exists.1 hc
      obtain rfl : s' = s := Except.ok.inj
        ((StringCache.getOrRender_of_peek? hs' _ _).1.symm.trans hs)
      exact hbefore _ _ hs'
    · have hnone := Option.not_isSome_iff_eq_none.1 hc
      obtain ⟨metrics, hmetrics, -⟩ :=
        Shaping.render_spec font.key.size text maxWidth font.bench font.metrics
      refine ⟨metrics, by rw [metrics_string, if_neg hc, hmetrics], hrender metrics s hmetrics ?_⟩
      exact (StringCache.getOrRender_of_peek?_eq_none hnone _ _).1.symm.trans hs
  refine ⟨⟨⟨_, hlisted⟩, fun k s hs => ?_⟩, hanswer⟩
  rcases hothers k s hs with hsame | ⟨rfl, hnow⟩
  · exact hbefore k s hsame
  · exact hanswer s hnow

theorem fit (h : Keeps P font) (text : String) (maxWidth : Option Int) :
    Keeps P (font.fit text maxWidth).font where
  listed := by simpa using h.listed
  strings := by simpa using h.strings

theorem measures (h : Keeps P font) : Keeps P font.measures.font where
  listed := h.listed
  strings k s hs := by
    obtain ⟨metrics, hmetrics, hP⟩ := h.strings k s hs
    exact ⟨metrics, known_measures hmetrics, hP⟩

end Keeps

/-- The strings of a font are shaped under its measures, and no budget is empty. -/
structure Orderly (font : Font σ) : Prop where
  listed : ∃ r, font.strings.Represents r
  strings : ∀ key s, font.strings.peek? key = some s →
    ∃ metrics, font.metrics = some metrics ∧ Shaping.Shaped key.text key.maxWidth metrics s ∧
      ∀ limit, key.maxWidth = some limit → 1 ≤ limit

namespace Orderly

variable {font : Font σ}

omit [Face σ] in
theorem opened (key : FontKey) (face : σ) (limits : StringCache.Limits) :
    Orderly (opened key face limits) where
  listed := ⟨{}, .empty limits⟩
  strings k s hs := absurd ((peek?_opened key face limits k).symm.trans hs) (by simp)

omit [Face σ] in
theorem keeps (h : Orderly font) :
    Keeps (fun key metrics s => Shaping.Shaped key.text key.maxWidth metrics s ∧
      ∀ limit, key.maxWidth = some limit → 1 ≤ limit) font :=
  ⟨h.listed, h.strings⟩

/-- A text that is asked for with a budget, if with one that is not empty. -/
theorem string (h : Orderly font) (text : String) {maxWidth : Option Int}
    (hw : ∀ limit, maxWidth = some limit → 1 ≤ limit) :
    Orderly (font.string text maxWidth).font := by
  obtain ⟨⟨hlisted, hstrings⟩, -⟩ := h.keeps.string text maxWidth fun metrics s hmetrics hs => by
    obtain ⟨metrics', hmetrics', -, hshape⟩ :=
      Shaping.render_spec font.key.size text maxWidth font.bench font.metrics
    obtain rfl : metrics = metrics' := Option.some.inj (hmetrics.symm.trans hmetrics')
    exact ⟨hshape s hs, hw⟩
  exact ⟨hlisted, hstrings⟩

theorem fit (h : Orderly font) (text : String) (maxWidth : Option Int) :
    Orderly (font.fit text maxWidth).font :=
  ⟨(h.keeps.fit text maxWidth).listed, (h.keeps.fit text maxWidth).strings⟩

theorem measures (h : Orderly font) : Orderly font.measures.font :=
  ⟨h.keeps.measures.listed, h.keeps.measures.strings⟩

/-- Every question leaves a font orderly. -/
theorem reply (h : Orderly font) (q : Query) : Orderly (font.reply q).font := by
  cases q with
  | measure text => exact h.string text fun _ hn => nomatch hn
  | fit text maxWidth => exact h.fit text maxWidth
  | boundedMeasure text maxWidth => exact h.fit text (some maxWidth)
  | maxHeight => exact h.measures
  | baseline => exact h.measures
  | render text x y right bottom =>
    rw [Font.reply, font_map, Font.render]
    split
    · exact h
    · next hroom =>
      refine h.string text fun limit hl => ?_
      have hpos : 0 < limit := by simpa [hl] using hroom
      omega

omit [Face σ] in
/-- Without a height nothing is kept. -/
theorem isEmpty_strings (h : Orderly font) {known : FontMetrics} (hk : font.metrics = some known)
    (hheight : known.maxHeight ≤ 0) : font.strings.isEmpty = true := by
  obtain ⟨r, hr⟩ := h.listed
  rw [hr.isEmpty_eq]
  cases hentries : r.entries with
  | nil => rfl
  | cons e rest =>
    have hfound : font.strings.peek? e.key = some e.value :=
      hr.peek?_eq_some_iff.2 (hentries ▸ List.mem_cons_self)
    obtain ⟨metrics, hmetrics, hshape, -⟩ := h.strings _ _ hfound
    obtain rfl := Option.some.inj (hk.symm.trans hmetrics)
    have := hshape.maxHeight_pos
    omega

end Orderly

theorem Reached.orderly {key : FontKey} {face : σ} {limits : StringCache.Limits} {font : Font σ}
    (h : Reached (opened key face limits) font) : Orderly font := by
  induction h with
  | start => exact .opened key face limits
  | asked _ q ih => exact ih.reply q

/-- Of a font that comes about from an opened one, whatever its face answers: its measures stay once
they are known; each of its strings is as high as they say, which is more than nothing, has as many
bytes as its area, counts no more glyphs than the text has code points, and all of them when it has
no budget; a budget is at least one pixel and no string is wider than its own. Without a height no
string is kept. -/
theorem Reached.strings_shaped {key : FontKey} {face : σ} {limits : StringCache.Limits}
    {font : Font σ} (h : Reached (opened key face limits) font) :
    (∀ known, font.metrics = some known →
      ∀ later, Reached font later → later.metrics = some known) ∧
    (∀ text maxWidth s, font.strings.peek? ⟨text, maxWidth⟩ = some s →
      ∃ metrics, font.metrics = some metrics ∧ 0 < metrics.maxHeight ∧
        (s.surface.height : Int) = metrics.maxHeight ∧
        s.surface.byteSize = s.surface.width * s.surface.height ∧
        s.glyphCount ≤ (CodePoints.ofText text).length ∧
        (maxWidth = none → s.glyphCount = (CodePoints.ofText text).length) ∧
        ∀ limit, maxWidth = some limit → 1 ≤ limit ∧ (s.surface.width : Int) ≤ limit) ∧
    (∀ known, font.metrics = some known → known.maxHeight ≤ 0 →
      font.strings.isEmpty = true) := by
  have ho := h.orderly
  refine ⟨fun known hk later hl => hl.known hk, fun text maxWidth s hs => ?_,
    fun known hk hheight => ho.isEmpty_strings hk hheight⟩
  obtain ⟨metrics, hmetrics, hshape, hroom⟩ := ho.strings _ s hs
  exact ⟨metrics, hmetrics, hshape.maxHeight_pos, hshape.height, s.surface.byteSize_eq,
    hshape.glyphCount_le, hshape.glyphCount_eq,
    fun limit hl => ⟨hroom limit hl, hshape.width_le limit hl (by have := hroom limit hl; omega)⟩⟩

/-- Three glyphs of three pixels each, drawn from the third column to the tenth, are kept under the
seven pixels between. -/
theorem Reached.strings_shaped_seven_pixels :
    let square : RasterGlyph :=
      { width := 2, height := 2, pitch := 2, left := 0, top := 2, advance := 3, format := .alpha8,
        data := #[1, 2, 3, 4] }
    let start := opened ⟨⟨"a.ttf"⟩, 16, 96⟩ (TableFace.uniform square) (.ofNat 1 1)
    let font := (start.render "abc" 3 0 (some 10) none).font
    ∃ s metrics, font.strings.peek? ⟨"abc", some 7⟩ = some s ∧ font.metrics = some metrics ∧
      (s.surface.height : Int) = metrics.maxHeight ∧ s.glyphCount ≤ 3 ∧
      (s.surface.width : Int) ≤ 7 := by
  intro square start font
  have hs := TableFace.steady_uniform square
  have hstart : Faithful (TableFace.uniform square) start := .opened _ _ _
  obtain ⟨metrics, hanswer, huses, -, -, hcached⟩ := hstart.string hs "abc" (some 7)
  have hheight : Shaping.metricsOf (some square.extents) 16 = ⟨6, 6⟩ := by decide +kernel
  have hmetrics : metrics = ⟨6, 6⟩ :=
    (huses.eq_of_taken (TableFace.probesByRendering_uniform square) rfl).trans
      ((Shaping.metricsOfFace_uniform square 16).trans hheight)
  subst hmetrics
  have hpeek := hcached _ hanswer
  have hfont : Reached start font := Reached.start.asked (.render "abc" 3 0 (some 10) none)
  obtain ⟨-, hstrings, -⟩ := hfont.strings_shaped
  obtain ⟨known, hknown, -, hsize, -, hcount, -, hwidth⟩ := hstrings "abc" (some 7) _ hpeek
  have htext : (CodePoints.ofText "abc").length = 3 := by decide +kernel
  exact ⟨_, known, hpeek, hknown, hsize, htext ▸ hcount, (hwidth 7 rfl).2⟩

end Font

end BitmapText
