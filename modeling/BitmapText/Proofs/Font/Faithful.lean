import BitmapText.Proofs.Font.Query
import BitmapText.Proofs.Shaping.Strings
import BitmapText.Proofs.StringCache.Contents

/-!
# Faithful fonts

A font of a steady face keeps nothing that the face would not give again: its glyphs are those of
the face, and each of its strings is the composited form of its text under the measures it has kept.
Every question leaves it like that, and is answered accordingly.

## Main definitions

* `Font.Caches`: the composited form of a text is in the cache.
* `Font.Faithful`: what a font keeps is what its face gives.
* `Font.Reached`: the fonts that come about when a font is asked questions.

## Main statements

* `Font.Faithful.string`, `Font.Faithful.fit`, `Font.Faithful.measures`: what a faithful font
  answers.
* `Font.Reached.faithful`: every font that comes about from an opened one is faithful.
-/

namespace BitmapText

namespace Font

variable {σ : Type}

/-- What a font shapes with. -/
def bench (font : Font σ) : Bench σ := { face := font.face, glyphs := font.glyphs }

/-- The composited form of a text within a width is in the cache. -/
def Caches (font : Font σ) (text : String) (maxWidth : Option Int) : Prop :=
  (font.strings.peek? ⟨text, maxWidth⟩).isSome = true

instance (font : Font σ) (text : String) (maxWidth : Option Int) :
    Decidable (font.Caches text maxWidth) := inferInstanceAs (Decidable (_ = _))

/-- Nothing is cached at first. -/
theorem peek?_opened (key : FontKey) (face : σ) (limits : StringCache.Limits) (k : StringKey) :
    (opened key face limits).strings.peek? k = none := by
  refine Option.eq_none_iff_forall_ne_some.2 fun s hs => ?_
  have hempty := (StringCache.Represents.empty limits).peek?_eq_some_iff.1 hs
  simp at hempty

theorem not_caches_opened (key : FontKey) (face : σ) (limits : StringCache.Limits) (text : String)
    (maxWidth : Option Int) : ¬ (opened key face limits).Caches text maxWidth := by
  rw [Caches, peek?_opened]
  decide

variable [Face σ]

/-- The fonts that `start` turns into when it is asked questions. -/
inductive Reached (start : Font σ) : Font σ → Prop where
  | start : Reached start start
  | asked {font : Font σ} (h : Reached start font) (q : Query) : Reached start (font.reply q).font

/-- What the font keeps is what the face `first` gives. -/
structure Faithful (first : σ) (font : Font σ) : Prop where
  bench : font.bench.Follows first
  listed : ∃ r, font.strings.Represents r
  strings : ∀ key s, font.strings.peek? key = some s →
    ∃ metrics, font.metrics = some metrics ∧ 0 < metrics.maxHeight ∧
      s = Shaping.stringOf first key.text key.maxWidth metrics

namespace Faithful

variable {first : σ} {font : Font σ}

/-- A font about which nothing has been learned yet. -/
theorem opened (key : FontKey) (face : σ) (limits : StringCache.Limits) :
    Faithful face (opened key face limits) where
  bench := .opened face #[]
  listed := ⟨{}, .empty limits⟩
  strings k s hs := absurd ((peek?_opened key face limits k).symm.trans hs) (by simp)

/-- What a request for a text ends with, whether the text was cached or is rendered now. -/
theorem getOrRender (hs : Face.Steady first) (h : Faithful first font) (text : String)
    (maxWidth : Option Int) :
    let request := font.strings.getOrRender ⟨text, maxWidth⟩
      (Shaping.render font.key.size text maxWidth) (font.bench, font.metrics)
    ∃ metrics, request.result = Shaping.rendered first text maxWidth metrics ∧
      Shaping.Uses first font.key.size font.metrics metrics ∧
      request.world.2 = some metrics ∧ request.world.1.Follows first := by
  intro request
  cases hp : font.strings.peek? ⟨text, maxWidth⟩ with
  | some s =>
    obtain ⟨hresult, hworld⟩ := StringCache.getOrRender_of_peek? hp
      (Shaping.render font.key.size text maxWidth) (font.bench, font.metrics)
    obtain ⟨metrics, hmetrics, hstring⟩ := h.strings _ s hp
    refine ⟨metrics, hresult.trans (Shaping.rendered_eq_ok_iff.2 hstring).symm,
      ⟨fun known hk => Option.some.inj (hmetrics.symm.trans hk), fun _ hn => ?_⟩,
      (congrArg Prod.snd hworld).trans hmetrics, ?_⟩
    · rw [hmetrics] at hn
      cases hn
    · rw [hworld]
      exact h.bench
  | none =>
    obtain ⟨hresult, hworld⟩ := StringCache.getOrRender_of_peek?_eq_none hp
      (Shaping.render font.key.size text maxWidth) (font.bench, font.metrics)
    obtain ⟨metrics, bench, hrender, hbench, huses⟩ := h.bench.render hs font.metrics
      font.key.size text maxWidth
    rw [hrender] at hresult hworld
    refine ⟨metrics, hresult, huses, congrArg Prod.snd hworld, ?_⟩
    rw [hworld]
    exact hbench

/-- A text is answered by its composited form, which is cached from then on. -/
theorem string (hs : Face.Steady first) (h : Faithful first font) (text : String)
    (maxWidth : Option Int) :
    let o := font.string text maxWidth
    ∃ metrics, o.answer = Shaping.rendered first text maxWidth metrics ∧
      Shaping.Uses first font.key.size font.metrics metrics ∧
      o.font.metrics = some metrics ∧ Faithful first o.font ∧
      ∀ s, o.answer = .ok s → o.font.strings.peek? ⟨text, maxWidth⟩ = some s := by
  intro o
  obtain ⟨metrics, hresult, huses, hmetrics, hbench⟩ := h.getOrRender hs text maxWidth
  obtain ⟨r, hr⟩ := h.listed
  obtain ⟨-, -, hlisted, -⟩ := hr.getOrRender ⟨text, maxWidth⟩
    (Shaping.render font.key.size text maxWidth) (font.bench, font.metrics)
  obtain ⟨hfound, hothers⟩ := hr.peek?_getOrRender ⟨text, maxWidth⟩
    (Shaping.render font.key.size text maxWidth) (font.bench, font.metrics)
  refine ⟨metrics, hresult, huses, hmetrics,
    ⟨⟨hbench.face, hbench.glyphs⟩, ⟨_, hlisted⟩, fun k s hf => ?_⟩, hfound⟩
  -- A string that was there before was made under the same measures, since those are kept.
  rcases hothers k s hf with hbefore | ⟨rfl, hnow⟩
  · obtain ⟨known, hknown, hheight, hstring⟩ := h.strings k s hbefore
    obtain rfl := huses.eq_of_kept known hknown
    exact ⟨metrics, hmetrics, hheight, hstring⟩
  · exact ⟨metrics, hmetrics, Shaping.rendered_eq_ok_iff.1 (hresult.symm.trans hnow)⟩

/-- The measures of a font are kept once they are known. -/
theorem measures (hs : Face.Steady first) (h : Faithful first font) :
    Shaping.Uses first font.key.size font.metrics font.measures.answer ∧
      font.measures.font.metrics = some font.measures.answer ∧
      Faithful first font.measures.font := by
  obtain ⟨hbench, huses⟩ := h.bench.keptMetrics hs.looks font.metrics font.key.size
  refine ⟨huses, rfl, ⟨hbench.face, hbench.glyphs⟩, h.listed, fun key s hp => ?_⟩
  obtain ⟨known, hknown, hstring⟩ := h.strings key s hp
  obtain rfl : font.measures.answer = known := huses.eq_of_kept known hknown
  exact ⟨_, rfl, hstring⟩

/-- A fit counts the glyphs that fit. Their width is that of the moves of the pen, and for a cached
string it is that of the surface, which is never negative. -/
theorem fit (hs : Face.Steady first) (h : Faithful first font) (text : String)
    (maxWidth : Option Int) :
    (font.fit text maxWidth).answer.glyphs = (Shaping.textFit first text maxWidth).glyphs ∧
      (font.fit text maxWidth).answer.width =
        (if font.Caches text maxWidth then max 0 (Shaping.textFit first text maxWidth).width
        else (Shaping.textFit first text maxWidth).width) ∧
      (font.fit text maxWidth).font.metrics = font.metrics ∧
      Faithful first (font.fit text maxWidth).font := by
  rw [Font.fit]
  cases hp : font.strings.peek? ⟨text, maxWidth⟩ with
  | some s =>
    have hcached : font.Caches text maxWidth := Option.isSome_iff_exists.2 ⟨s, hp⟩
    obtain ⟨metrics, -, -, rfl⟩ := h.strings _ s hp
    refine ⟨rfl, ?_, rfl, h⟩
    change ((Shaping.stringOf first text maxWidth metrics).surface.width : Int) = _
    rw [if_pos hcached, Shaping.width_stringOf]
    omega
  | none =>
    have hmissing : ¬ font.Caches text maxWidth := Option.not_isSome_iff_eq_none.2 hp
    have hindices : Shaping.glyphIndices font.face text = Shaping.glyphIndices first text :=
      h.bench.glyphIndices hs.looks text
    obtain ⟨hfit, hbench⟩ := h.bench.fit hs.toSteadyGlyphs maxWidth
      (Shaping.glyphIndices first text)
    rw [← hindices] at hfit hbench
    rw [if_neg hmissing]
    exact ⟨congrArg Fit.glyphs (hindices ▸ hfit), congrArg Fit.width (hindices ▸ hfit), rfl,
      ⟨hbench.face, hbench.glyphs⟩, h.listed, h.strings⟩

/-- A drawing is that of the composited form of its text; to the right of its edge there is
nothing to draw. -/
theorem render (hs : Face.Steady first) (h : Faithful first font) (text : String) (x y : Int)
    (right bottom : Option Int) :
    let o := font.render text x y right bottom
    let budget := right.map (Coord.satSub · x)
    if budget.any (· ≤ 0) then o.answer = .ok .nothing ∧ o.font = font
    else
      ∃ metrics, o.answer = (Shaping.rendered first text budget metrics).map
          (Drawing.ofString · x y bottom) ∧
        Shaping.Uses first font.key.size font.metrics metrics ∧
        o.font.metrics = some metrics ∧ Faithful first o.font := by
  intro o budget
  have ho : o = if budget.any (· ≤ 0) then { answer := .ok .nothing, font, log := #[] }
      else (font.string text budget).map fun result =>
        result.map fun s => Drawing.ofString s x y bottom := rfl
  split
  · next hnone =>
    rw [ho, if_pos hnone]
    exact ⟨rfl, rfl⟩
  · next hsome =>
    obtain ⟨metrics, hanswer, huses, hmetrics, hfont, -⟩ := h.string hs text budget
    rw [ho, if_neg hsome]
    exact ⟨metrics, by rw [answer_map, hanswer], huses, hmetrics, hfont⟩

/-- Every question leaves a font faithful, and with the measures it used if it used any. -/
theorem reply (hs : Face.Steady first) (h : Faithful first font) (q : Query) :
    Faithful first (font.reply q).font ∧
      ((font.reply q).font.metrics = font.metrics ∨
        ∃ metrics, Shaping.Uses first font.key.size font.metrics metrics ∧
          (font.reply q).font.metrics = some metrics) := by
  cases q with
  | measure text =>
    obtain ⟨metrics, -, huses, hmetrics, hfont, -⟩ := h.string hs text none
    exact ⟨hfont, .inr ⟨metrics, huses, hmetrics⟩⟩
  | fit text maxWidth =>
    obtain ⟨-, -, hmetrics, hfont⟩ := h.fit hs text maxWidth
    exact ⟨hfont, .inl hmetrics⟩
  | boundedMeasure text maxWidth =>
    obtain ⟨-, -, hmetrics, hfont⟩ := h.fit hs text (some maxWidth)
    exact ⟨hfont, .inl hmetrics⟩
  | maxHeight =>
    obtain ⟨huses, hmetrics, hfont⟩ := h.measures hs
    exact ⟨hfont, .inr ⟨_, huses, hmetrics⟩⟩
  | baseline =>
    obtain ⟨huses, hmetrics, hfont⟩ := h.measures hs
    exact ⟨hfont, .inr ⟨_, huses, hmetrics⟩⟩
  | render text x y right bottom =>
    have hrender := h.render hs text x y right bottom
    dsimp only at hrender
    split at hrender
    · obtain ⟨-, hfont⟩ := hrender
      rw [Font.reply, font_map, hfont]
      exact ⟨h, .inl rfl⟩
    · obtain ⟨metrics, -, huses, hmetrics, hfont⟩ := hrender
      exact ⟨hfont, .inr ⟨metrics, huses, hmetrics⟩⟩

end Faithful

theorem Reached.key_eq {start font : Font σ} (h : Reached start font) : font.key = start.key := by
  induction h with
  | start => rfl
  | asked _ q ih => exact (key_reply _ q).trans ih

/-- Every font that comes about from an opened one is faithful to its face. -/
theorem Reached.faithful {face : σ} (hs : Face.Steady face) {key : FontKey}
    {limits : StringCache.Limits} {font : Font σ}
    (h : Reached (opened key face limits) font) : Faithful face font := by
  induction h with
  | start => exact .opened key face limits
  | asked _ q ih => exact (ih.reply hs q).1

end Font

end BitmapText
