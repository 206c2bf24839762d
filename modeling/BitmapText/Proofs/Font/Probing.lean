import BitmapText.Proofs.Font.Shape
import BitmapText.Proofs.Font.Transparency

/-!
# Questions that only look

A fit, and a question for the measures, may render glyphs, measure them and fix the measures of the
font, but it leaves the strings alone. For a steady face that measures glyphs by rendering them, no
answer can tell whether such a question was asked before, and neither can the strings: two fonts
that keep the same strings answer alike and keep the same strings from then on, whatever glyphs each
of them has rendered and whether or not it knows its measures.

## Main definitions

* `Font.Query.Probes`: the question only looks.
* `Font.Alike`: two fonts of one face keep the same strings.

## Main statements

* `Font.Alike.reply`: fonts that are alike answer alike and stay alike.
* `Font.Alike.probe`: a question that only looks keeps a font alike to the other one.
-/

namespace BitmapText

namespace StringCache

/-- What a request does to a cache depends on the renderer through its string alone. -/
theorem getOrRender_congr {ε ω : Type} (c : StringCache) (key : StringKey)
    {render render' : ω → Except ε RenderedString × ω} {world world' : ω}
    (h : (render world).1 = (render' world').1) :
    (c.getOrRender key render world).result = (c.getOrRender key render' world').result ∧
      (c.getOrRender key render world).cache = (c.getOrRender key render' world').cache := by
  unfold getOrRender
  cases hf : c.find? key with
  | some found => exact ⟨rfl, rfl⟩
  | none =>
    cases hw : render world with
    | mk result after =>
      cases hw' : render' world' with
      | mk result' after' =>
        rw [hw, hw'] at h
        obtain rfl : result = result' := h
        cases result with
        | error e => exact ⟨rfl, rfl⟩
        | ok value => exact ⟨rfl, rfl⟩

end StringCache

namespace Font

/-- The question only looks: it neither asks for a composited string nor draws one. -/
def Query.Probes : Query → Prop
  | .fit .. | .boundedMeasure .. | .maxHeight | .baseline => True
  | .measure _ | .render .. => False

instance : DecidablePred Query.Probes
  | .fit .. | .boundedMeasure .. | .maxHeight | .baseline => .isTrue trivial
  | .measure _ | .render .. => .isFalse id

variable {σ : Type} [Face σ] {first : σ} {a b : Font σ}

/-- A question that only looks leaves the strings alone. -/
theorem strings_reply_of_probes (font : Font σ) {q : Query} (hq : q.Probes) :
    (font.reply q).font.strings = font.strings := by
  cases q with
  | measure text => exact hq.elim
  | fit text maxWidth => exact strings_fit font text maxWidth
  | boundedMeasure text maxWidth => exact strings_fit font text (some maxWidth)
  | maxHeight => rfl
  | baseline => rfl
  | render text x y right bottom => exact hq.elim

/-- What an exact font renders for a text depends on the face and the size alone. -/
theorem Exact.render_eq (hs : Face.Steady first) (hp : Face.ProbesByRendering first)
    (h : Exact first a) (text : String) (maxWidth : Option Int) :
    (Shaping.render a.key.size text maxWidth (a.bench, a.metrics)).1 =
      Shaping.rendered first text maxWidth (Shaping.metricsOfFace first a.key.size) := by
  obtain ⟨metrics, bench, hrender, -, huses⟩ :=
    h.bench.render hs a.metrics a.key.size text maxWidth
  rw [hrender, h.eq_of_uses hp huses]

/-- Two fonts of one steady face keep the same strings. Their glyphs may differ, and one may know
its measures when the other does not. -/
structure Alike (a b : Font σ) : Prop where
  key : a.key = b.key
  strings : a.strings = b.strings
  exact : ∃ first, Face.Steady first ∧ Face.ProbesByRendering first ∧ Exact first a ∧ Exact first b

namespace Alike

/-- A font is like itself, if it comes about from one just opened. -/
theorem refl {face : σ} {key : FontKey} {limits : StringCache.Limits} (hs : Face.Steady face)
    (hp : Face.ProbesByRendering face) (h : Reached (opened key face limits) a) : Alike a a where
  key := rfl
  strings := rfl
  exact := ⟨face, hs, hp, h.exact hs hp, h.exact hs hp⟩

/-- A text is found or rendered in the same way, and leaves the same strings. -/
theorem string (h : Alike a b) (text : String) (maxWidth : Option Int) :
    (a.string text maxWidth).answer = (b.string text maxWidth).answer ∧
      (a.string text maxWidth).font.strings = (b.string text maxWidth).font.strings := by
  obtain ⟨hkey, hstrings, first, hs, hp, ha, hb⟩ := h
  have hrender : (Shaping.render a.key.size text maxWidth (a.bench, a.metrics)).1 =
      (Shaping.render b.key.size text maxWidth (b.bench, b.metrics)).1 := by
    rw [ha.render_eq hs hp, hb.render_eq hs hp, hkey]
  obtain ⟨hresult, hcache⟩ := a.strings.getOrRender_congr ⟨text, maxWidth⟩ hrender
  refine ⟨hresult.trans ?_, hcache.trans ?_⟩
  · rw [hstrings]
    rfl
  · rw [hstrings]
    rfl

theorem strings_reply (h : Alike a b) (q : Query) :
    (a.reply q).font.strings = (b.reply q).font.strings := by
  by_cases hq : q.Probes
  · rw [strings_reply_of_probes a hq, strings_reply_of_probes b hq]
    exact h.strings
  · cases q with
    | measure text => exact (h.string text none).2
    | render text x y right bottom =>
      rw [Font.reply, Font.reply, font_map, font_map, Font.render, Font.render]
      split
      · exact h.strings
      · exact (h.string text _).2
    | _ => exact absurd trivial hq

/-- A fit is the same to the pixel: a text is cached on both sides or on neither. -/
theorem fit (h : Alike a b) (text : String) (maxWidth : Option Int) :
    (a.fit text maxWidth).answer = (b.fit text maxWidth).answer := by
  obtain ⟨-, hstrings, first, hs, -, ha, hb⟩ := h
  obtain ⟨hglyphs, hwidth, -⟩ := ha.toFaithful.fit hs text maxWidth
  obtain ⟨hglyphs', hwidth', -⟩ := hb.toFaithful.fit hs text maxWidth
  have hcaches : a.Caches text maxWidth ↔ b.Caches text maxWidth := by
    rw [Caches, Caches, hstrings]
  refine congrArg₂ Fit.mk (hglyphs.trans hglyphs'.symm) ?_
  change (a.fit text maxWidth).answer.width = (b.fit text maxWidth).answer.width
  rw [hwidth, hwidth']
  simp only [hcaches]

theorem answer_reply (h : Alike a b) (q : Query) : (a.reply q).answer = (b.reply q).answer := by
  obtain ⟨hkey, -, first, hs, hp, ha, hb⟩ := id h
  have hseen := ha.seen_reply_eq hs hp hb (congrArg FontKey.size hkey) q
  -- Only of a fit is there more to say than what can be seen of it.
  cases q with
  | fit text maxWidth => exact congrArg Reply.fit (h.fit text maxWidth)
  | _ => exact hseen

/-- Fonts that are alike answer alike and stay alike. -/
theorem reply (h : Alike a b) (q : Query) :
    (a.reply q).answer = (b.reply q).answer ∧ Alike (a.reply q).font (b.reply q).font := by
  obtain ⟨hkey, -, first, hs, hp, ha, hb⟩ := id h
  refine ⟨h.answer_reply q, ?_, h.strings_reply q, first, hs, hp, ha.reply hs hp q,
    hb.reply hs hp q⟩
  rw [key_reply, key_reply, hkey]

/-- A question that only looks, asked of one font and not of the other, keeps them alike. -/
theorem probe (h : Alike a b) {q : Query} (hq : q.Probes) : Alike (a.reply q).font b := by
  obtain ⟨hkey, hstrings, first, hs, hp, ha, hb⟩ := h
  refine ⟨?_, ?_, first, hs, hp, ha.reply hs hp q, hb⟩
  · rw [key_reply, hkey]
  · rw [strings_reply_of_probes a hq, hstrings]

end Alike

end Font

end BitmapText
