import BitmapText.Proofs.Font.Shape
import BitmapText.Proofs.Font.Transparency
import BitmapText.Proofs.Shaping.Height

/-!
# How a font fails

A font has one way to fail, which is to have no height. Its glyphs may fail whenever they are asked
for and nobody is told, and what it keeps does not change by a failure. Whether there is a height
was decided when the measures were taken, which is the first time that they were needed, on the
glyphs that had been rendered by then.

## Main definitions

* `Font.Shapes`: a question needs a string that is not in the cache.
* `Font.measuring?`, `Font.measuredOn?`: what a question, or a run of them, takes the measures on.

## Main statements

* `Font.reply_consults`: what a question asks of the face and of the glyph cache.
* `Font.metrics_askAll`: the measures of a font are those of the first time.
* `Font.fails_iff_flat`: when a question fails, and how.
-/

namespace BitmapText

/-- A string that cannot be rendered leaves a cache as it was. -/
theorem StringCache.cache_getOrRender_of_error {ε ω : Type} {c : StringCache} {key : StringKey}
    {render : ω → Except ε RenderedString × ω} {world : ω} {e : ε}
    (he : (c.getOrRender key render world).result = .error e) :
    (c.getOrRender key render world).cache = c := by
  unfold getOrRender at he ⊢
  split at he
  · cases he
  · split at he
    · rfl
    · cases he

namespace Font

/-! ## Questions that need a string -/

/-- The text and the budget of the string that a question needs, if it needs one. -/
def Query.string? : Query → Option StringKey
  | .measure text => some ⟨text, none⟩
  | .render text x _ right _ =>
    let budget := right.map (Coord.satSub · x)
    if budget.any (· ≤ 0) then none else some ⟨text, budget⟩
  | .fit .. | .boundedMeasure .. | .maxHeight | .baseline => none

/-- Why a question was not answered. -/
def Reply.error? : Reply → Option FontError
  | .width (.error e) | .drawing (.error e) => some e
  | _ => none

variable {σ : Type}

/-- The question needs a string that is not in the cache, so a text is shaped for it. -/
def Shapes (font : Font σ) (q : Query) : Prop :=
  ∃ key, q.string? = some key ∧ ¬ font.Caches key.text key.maxWidth

variable [Face σ]

/-- A question that needs a string leaves the font as the string does, and fails as the string
does. -/
theorem reply_of_string? (font : Font σ) {q : Query} {key : StringKey}
    (hq : q.string? = some key) :
    (font.reply q).font = (font.string key.text key.maxWidth).font ∧
      ∀ e, (font.reply q).answer.error? = some e ↔
        (font.string key.text key.maxWidth).answer = .error e := by
  cases q with
  | measure text =>
    obtain rfl := Option.some.inj hq
    refine ⟨rfl, fun e => ?_⟩
    rw [reply, measure, answer_map, answer_map]
    cases (font.string text none).answer <;> simp [Except.map, Reply.error?]
  | render text x y right bottom =>
    rw [Query.string?] at hq
    split at hq
    · cases hq
    · next hroom =>
      obtain rfl := Option.some.inj hq
      rw [reply, render, if_neg hroom]
      refine ⟨rfl, fun e => ?_⟩
      rw [answer_map, answer_map]
      cases (font.string text (right.map (Coord.satSub · x))).answer <;>
        simp [Except.map, Reply.error?]
  | fit _ _ | boundedMeasure _ _ | maxHeight | baseline => cases hq

/-- Where there is no room for a text, nothing is done for it. -/
theorem render_of_string?_eq_none (font : Font σ) {text : String} {x y : Int}
    {right bottom : Option Int} (hq : (Query.render text x y right bottom).string? = none) :
    font.render text x y right bottom = { answer := .ok .nothing, font, log := #[] } := by
  rw [Query.string?] at hq
  split at hq
  · next hnone => rw [render, if_pos hnone]
  · cases hq

/-- Other questions do not fail. -/
theorem error?_of_string?_eq_none (font : Font σ) {q : Query} (hq : q.string? = none) :
    (font.reply q).answer.error? = none := by
  cases q with
  | measure text => cases hq
  | render text x y right bottom => rw [reply, font.render_of_string?_eq_none hq]; rfl
  | fit _ _ | boundedMeasure _ _ | maxHeight | baseline => rfl

/-! ## Strings -/

section String

variable (font : Font σ) (text : String) (maxWidth : Option Int)

/-- A request for a text that is not cached does what a rendering does. When it fails, the strings
stay as they were. -/
theorem string_of_not_caches (hc : ¬ font.Caches text maxWidth) :
    let rendering := Shaping.render font.key.size text maxWidth (font.bench, font.metrics)
    let o := font.string text maxWidth
    o.answer = rendering.1 ∧ o.font.bench = { rendering.2.1 with log := #[] } ∧
      o.font.metrics = rendering.2.2 ∧
      ∀ e, o.answer = .error e → o.font.strings = font.strings := by
  intro rendering o
  have hnone : font.strings.peek? ⟨text, maxWidth⟩ = none := Option.not_isSome_iff_eq_none.1 hc
  obtain ⟨hresult, hworld⟩ := StringCache.getOrRender_of_peek?_eq_none hnone
    (Shaping.render font.key.size text maxWidth) (font.bench, font.metrics)
  refine ⟨hresult, ?_, congrArg Prod.snd hworld, fun e he =>
    StringCache.cache_getOrRender_of_error he⟩
  exact congrArg (fun world : Bench σ × Option FontMetrics => { world.1 with log := #[] }) hworld

/-- A request for a cached text does not fail, and only its use is noted. -/
theorem string_of_caches (hc : font.Caches text maxWidth) :
    let o := font.string text maxWidth
    (∀ e, o.answer ≠ .error e) ∧ o.font.bench = font.bench ∧ o.font.metrics = font.metrics := by
  intro o
  obtain ⟨s, hs⟩ := Option.isSome_iff_exists.1 hc
  obtain ⟨hresult, hworld⟩ := StringCache.getOrRender_of_peek? hs
    (Shaping.render font.key.size text maxWidth) (font.bench, font.metrics)
  refine ⟨fun e he => ?_, ?_, congrArg Prod.snd hworld⟩
  · cases hresult.symm.trans he
  · exact congrArg (fun world : Bench σ × Option FontMetrics => { world.1 with log := #[] }) hworld

theorem string_consults :
    ∃ forms ranges last, font.bench.Consults forms ranges last ∧
      (font.string text maxWidth).font.bench = { last with log := #[] } := by
  by_cases hc : font.Caches text maxWidth
  · exact ⟨[], 0, font.bench, .refl _, (font.string_of_caches text maxWidth hc).2.1⟩
  · obtain ⟨-, hbench, -⟩ := font.string_of_not_caches text maxWidth hc
    exact ⟨_, _, _, Shaping.render_consults _ text maxWidth font.bench font.metrics, hbench⟩

theorem fit_consults :
    ∃ forms ranges last, font.bench.Consults forms ranges last ∧
      (font.fit text maxWidth).font.bench = { last with log := #[] } := by
  rw [fit]
  split
  · exact ⟨[], 0, font.bench, .refl _, rfl⟩
  · exact ⟨_, _, _, Shaping.fit_consults maxWidth font.bench (Shaping.glyphIndices font.face text),
      rfl⟩

end String

/-- A question deals with the face and with the rendered glyphs in no other way than shaping
does. -/
theorem reply_consults (font : Font σ) (q : Query) :
    ∃ forms ranges last, font.bench.Consults forms ranges last ∧
      (font.reply q).font.bench = { last with log := #[] } := by
  cases q with
  | measure text => exact font.string_consults text none
  | fit text maxWidth => exact font.fit_consults text maxWidth
  | boundedMeasure text maxWidth => exact font.fit_consults text (some maxWidth)
  | maxHeight | baseline =>
    exact ⟨_, _, _, Shaping.keptMetrics_consults font.bench font.metrics font.key.size, rfl⟩
  | render text x y right bottom =>
    rw [reply, font_map, render]
    split
    · exact ⟨[], 0, font.bench, .refl _, rfl⟩
    · exact font.string_consults text _

/-! ## The first measures -/

/-- What is there to take measures on after a text has been fitted for a string. -/
def fitted (font : Font σ) (key : StringKey) : Bench σ :=
  (Shaping.fit key.maxWidth font.bench (Shaping.glyphIndices font.face key.text)).2

/-- What a question takes the measures on, if it takes them. -/
def measuring? (font : Font σ) (q : Query) : Option (Bench σ) :=
  match font.metrics, q with
  | some _, _ => none
  | none, .maxHeight | none, .baseline => some font.bench
  | none, q => (q.string?.filter fun key => ¬ font.Caches key.text key.maxWidth).map font.fitted

/-- The font after questions. -/
def askAll (font : Font σ) (qs : List Query) : Font σ :=
  qs.foldl (fun font q => (font.reply q).font) font

/-- What a run of questions takes the measures on, if it takes them. -/
def measuredOn? (font : Font σ) : List Query → Option (Bench σ)
  | [] => none
  | q :: rest => (font.measuring? q).or ((font.reply q).font.measuredOn? rest)

/-- A text that is shaped leaves the measures known, and takes them if they are not. It fails if
they leave no height. -/
theorem string_error_iff (font : Font σ) {key : StringKey}
    (hc : ¬ font.Caches key.text key.maxWidth) :
    let o := font.string key.text key.maxWidth
    let metrics := (Shaping.keptMetrics (font.fitted key) font.metrics font.key.size).1
    o.font.metrics = some metrics ∧
      ∀ e, o.answer = .error e ↔ e = .metricsUnavailable ∧ metrics.maxHeight ≤ 0 := by
  intro o metrics
  obtain ⟨hanswer, -, hmetrics, -⟩ := font.string_of_not_caches key.text key.maxWidth hc
  have hrendering := Shaping.render_error_iff font.key.size key.text key.maxWidth font.bench
    font.metrics
  exact ⟨hmetrics.trans (hrendering .metricsUnavailable).1, fun e => by
    rw [hanswer]
    exact (hrendering e).2⟩

theorem metrics_string_of_none {font : Font σ} (hnone : font.metrics = none) (key : StringKey) :
    (font.string key.text key.maxWidth).font.metrics =
      ((some key).filter fun key => ¬ font.Caches key.text key.maxWidth).map fun key =>
        (Shaping.measureFont (font.fitted key) font.key.size).1 := by
  by_cases hc : font.Caches key.text key.maxWidth
  · obtain ⟨-, -, hmetrics⟩ := font.string_of_caches key.text key.maxWidth hc
    rw [hmetrics, hnone, Option.filter_some]
    simp [hc]
  · obtain ⟨hmetrics, -⟩ := font.string_error_iff hc
    rw [hmetrics, hnone, Option.filter_some]
    simp [hc, Shaping.keptMetrics]

/-- A question changes the measures only if they are not known. -/
theorem metrics_reply (font : Font σ) (q : Query) :
    (font.reply q).font.metrics = font.metrics.or
      ((font.measuring? q).map fun bench => (Shaping.measureFont bench font.key.size).1) := by
  cases hk : font.metrics with
  | some known => rw [known_reply hk, Option.some_or]
  | none =>
    have hstring {key : StringKey} (hq : q.string? = some key) :
        (font.reply q).font.metrics =
          ((q.string?.filter fun key => ¬ font.Caches key.text key.maxWidth).map font.fitted).map
            fun bench => (Shaping.measureFont bench font.key.size).1 := by
      rw [(font.reply_of_string? hq).1, metrics_string_of_none hk, hq, Option.map_map]
      rfl
    rw [Option.none_or]
    unfold measuring?
    rw [hk]
    cases q with
    | measure text => exact hstring rfl
    | fit text maxWidth => exact (metrics_fit font text maxWidth).trans hk
    | boundedMeasure text maxWidth => exact (metrics_fit font text (some maxWidth)).trans hk
    | maxHeight | baseline =>
      have htaken : some (Shaping.keptMetrics font.bench font.metrics font.key.size).1 =
          some (Shaping.measureFont font.bench font.key.size).1 := by
        rw [hk, Shaping.keptMetrics]
      exact htaken
    | render text x y right bottom =>
      cases hq : (Query.render text x y right bottom).string? with
      | none =>
        simp only [hq, reply, font_map, font.render_of_string?_eq_none hq, hk]
        rfl
      | some key => exact hstring hq

/-- The measures of a font are those of the first time that they were needed. -/
theorem metrics_askAll (font : Font σ) (qs : List Query) :
    (font.askAll qs).metrics = font.metrics.or
      ((font.measuredOn? qs).map fun bench => (Shaping.measureFont bench font.key.size).1) := by
  induction qs generalizing font with
  | nil => simp [askAll, measuredOn?]
  | cons q rest ih =>
    have hrest := ih (font.reply q).font
    rw [metrics_reply, key_reply, Option.or_assoc, ← Option.map_or] at hrest
    exact hrest

theorem askAll_concat (font : Font σ) (qs : List Query) (q : Query) :
    font.askAll (qs ++ [q]) = ((font.askAll qs).reply q).font := by
  rw [askAll, List.foldl_concat]
  rfl

/-! ## Failures -/

/-- Only a question that has a text shaped can fail. Its font keeps the strings that it had. -/
theorem shapes_of_error {font : Font σ} {q : Query} {e : FontError}
    (he : (font.reply q).answer.error? = some e) :
    font.Shapes q ∧ (font.reply q).font.strings = font.strings := by
  cases hq : q.string? with
  | none => cases (font.error?_of_string?_eq_none hq).symm.trans he
  | some key =>
    obtain ⟨hfont, herror⟩ := font.reply_of_string? hq
    have hstring := (herror e).1 he
    have hc : ¬ font.Caches key.text key.maxWidth := fun hc =>
      (font.string_of_caches _ _ hc).1 e hstring
    obtain ⟨-, -, -, hkept⟩ := font.string_of_not_caches _ _ hc
    exact ⟨⟨key, hq, hc⟩, (congrArg Font.strings hfont).trans (hkept e hstring)⟩

/-- A question that has a text shaped leaves the measures that were taken once in the run. It fails
if they leave no height, and in no other way. -/
theorem error_iff_of_shapes {start : Font σ} (hnone : start.metrics = none) {qs : List Query}
    {q : Query} (hq : (start.askAll qs).Shapes q) :
    let o := (start.askAll qs).reply q
    ∃ bench, start.measuredOn? (qs ++ [q]) = some bench ∧
      o.font.metrics = some (Shaping.measureFont bench start.key.size).1 ∧
      ∀ e, o.answer.error? = some e ↔
        e = .metricsUnavailable ∧ (Shaping.measureFont bench start.key.size).1.maxHeight ≤ 0 := by
  intro o
  obtain ⟨key, hneeded, hc⟩ := hq
  obtain ⟨hfont, herror⟩ := (start.askAll qs).reply_of_string? hneeded
  obtain ⟨hmetrics, hfails⟩ := (start.askAll qs).string_error_iff hc
  have hrun := start.metrics_askAll (qs ++ [q])
  rw [askAll_concat, hfont, hmetrics, hnone, Option.none_or] at hrun
  obtain ⟨bench, hbench, htaken⟩ := Option.map_eq_some_iff.1 hrun.symm
  refine ⟨bench, hbench, ?_, fun e => ?_⟩
  · rw [htaken, ← hmetrics]
    exact congrArg Font.metrics hfont
  · rw [htaken]
    exact (herror e).trans (hfails e)

section Upright

variable {first : σ} {font : Font σ}

theorem upright_reply (hu : Face.Upright first) (h : font.bench.Upright first) (q : Query) :
    (font.reply q).font.bench.Upright first := by
  obtain ⟨forms, ranges, last, hasked, hbench⟩ := font.reply_consults q
  have hlast : last.Upright first := hasked.keeps (Bench.Upright.after hu) h
  rw [hbench]
  exact ⟨hlast.face, hlast.glyphs⟩

theorem upright_measuring? (hu : Face.Upright first) (h : font.bench.Upright first) {q : Query}
    {bench : Bench σ} (hb : font.measuring? q = some bench) : bench.Upright first := by
  have hfitted (key : StringKey) : (font.fitted key).Upright first :=
    (Shaping.fit_consults key.maxWidth font.bench _).keeps (Bench.Upright.after hu) h
  unfold measuring? at hb
  split at hb
  · cases hb
  · exact Option.some.inj hb ▸ h
  · exact Option.some.inj hb ▸ h
  · obtain ⟨key, -, rfl⟩ := Option.map_eq_some_iff.1 hb
    exact hfitted key

/-- Whatever is asked before, the measures are taken on ranges of which none is upside down. -/
theorem upright_measuredOn? (hu : Face.Upright first) (h : font.bench.Upright first)
    {qs : List Query} {bench : Bench σ} (hb : font.measuredOn? qs = some bench) :
    bench.Upright first := by
  induction qs generalizing font with
  | nil => cases hb
  | cons q rest ih =>
    rw [measuredOn?, Option.or_eq_some_iff] at hb
    rcases hb with hb | ⟨-, hb⟩
    · exact upright_measuring? hu h hb
    · exact ih (upright_reply hu h q) hb

end Upright

/-- On a face that gives no range upside down and may otherwise fail at any time, a question fails
only for want of height: never for a glyph. It fails only if it has a text shaped, and its font
keeps the strings that it had. From size 4 on no question fails. Below, a question that has a text
shaped fails exactly if the font has measures without height, which is if, at the time that they
were taken in the run, the printable ASCII glyphs that could be measured were flat and all at one
level, or there were none. -/
theorem fails_iff_flat {face : σ} (hu : Face.Upright face) (key : FontKey)
    (limits : StringCache.Limits) (qs : List Query) (q : Query) :
    let start := opened key face limits
    let font := start.askAll qs
    let o := font.reply q
    (∀ e, o.answer.error? = some e →
      e = .metricsUnavailable ∧ font.Shapes q ∧ o.font.strings = font.strings) ∧
    (4 ≤ key.size.toNat → o.answer.error? = none) ∧
    (key.size.toNat < 4 → font.Shapes q →
      ∃ bench metrics, start.measuredOn? (qs ++ [q]) = some bench ∧
        o.font.metrics = some metrics ∧ metrics = (Shaping.measureFont bench key.size).1 ∧
        0 ≤ metrics.maxHeight ∧
        (o.answer.error? = some .metricsUnavailable ↔ metrics.maxHeight = 0) ∧
        (metrics.maxHeight = 0 ↔ Shaping.Flat bench)) := by
  intro start font o
  have hopened : start.bench.Upright face := .opened face #[]
  refine ⟨fun e he => ?_, fun hsize => ?_, fun hsize hq => ?_⟩
  · obtain ⟨hq, hkept⟩ := shapes_of_error he
    obtain ⟨bench, -, -, herror⟩ := error_iff_of_shapes rfl hq
    exact ⟨((herror e).1 he).1, hq, hkept⟩
  · -- A quarter of the size is at least one pixel of height.
    refine Option.eq_none_iff_forall_ne_some.2 fun e he => ?_
    obtain ⟨bench, hbench, -, herror⟩ := error_iff_of_shapes rfl (shapes_of_error he).1
    obtain ⟨hheight, -⟩ :=
      (upright_measuredOn? hu hopened hbench).maxHeight_measureFont hu key.size
    have hnone : (Shaping.measureFont bench key.size).1.maxHeight ≤ 0 := ((herror e).1 he).2
    omega
  · obtain ⟨bench, hbench, hmetrics, herror⟩ := error_iff_of_shapes rfl hq
    obtain ⟨hheight, hflat⟩ :=
      (upright_measuredOn? hu hopened hbench).maxHeight_measureFont hu key.size
    have hquarter : key.size.toNat / 4 = 0 := by omega
    rw [hquarter] at hheight hflat
    refine ⟨bench, _, hbench, hmetrics, rfl, hheight, (herror _).trans ⟨?_, ?_⟩, hflat⟩
    · exact fun hfails => Int.le_antisymm hfails.2 hheight
    · exact fun hzero => ⟨rfl, Int.le_of_eq hzero⟩

/-- Glyphs without rows, two pixels above the baseline. At size 3 a text is fitted and then cannot
be measured. At size 4 it can. -/
theorem fails_iff_flat_without_rows :
    let bar : RasterGlyph :=
      { width := 2, height := 0, pitch := 2, left := 0, top := 2, advance := 3, format := .alpha8,
        data := #[] }
    let font (size : UInt32) :=
      (opened ⟨⟨"a.ttf"⟩, size, 96⟩ (TableFace.uniform bar) (.ofNat 1 1)).askAll [.fit "ab" none]
    let measured (size : UInt32) := (font size).reply (.measure "ab")
    Face.Upright (TableFace.uniform bar) ∧
      (measured 3).answer.error? = some .metricsUnavailable ∧
      (measured 3).font.strings = (font 3).strings ∧ (measured 4).answer.error? = none := by
  intro bar font measured
  have hu : Face.Upright (TableFace.uniform bar) := TableFace.upright_uniform (by decide)
  obtain ⟨hfails, -, hsmall⟩ := fails_iff_flat hu ⟨⟨"a.ttf"⟩, 3, 96⟩ (.ofNat 1 1)
    [.fit "ab" none] (.measure "ab")
  obtain ⟨-, hlarge, -⟩ := fails_iff_flat hu ⟨⟨"a.ttf"⟩, 4, 96⟩ (.ofNat 1 1)
    [.fit "ab" none] (.measure "ab")
  have hshapes : (font 3).Shapes (.measure "ab") := by
    refine ⟨⟨"ab", none⟩, rfl, ?_⟩
    change ¬ (Font.fit _ "ab" none).font.Caches "ab" none
    rw [Caches, strings_fit]
    exact not_caches_opened _ _ _ "ab" none
  obtain ⟨bench, metrics, -, hmetrics, -, -, herror, -⟩ := hsmall (by decide) hshapes
  have hzero : metrics.maxHeight = 0 := by
    have hs := TableFace.steady_uniform bar
    have hp := TableFace.probesByRendering_uniform bar
    have hasked : Reached (opened ⟨⟨"a.ttf"⟩, 3, 96⟩ (TableFace.uniform bar) (.ofNat 1 1))
        (measured 3).font := (Reached.start.asked (.fit "ab" none)).asked (.measure "ab")
    rw [(hasked.exact hs hp).metrics metrics hmetrics, hasked.key_eq, opened,
      Shaping.metricsOfFace_uniform]
    decide +kernel
  have hmeasured : (measured 3).answer.error? = some .metricsUnavailable := herror.2 hzero
  exact ⟨hu, hmeasured, (hfails _ hmeasured).2.2, hlarge (by decide)⟩

end Font

end BitmapText
