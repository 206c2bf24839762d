import BitmapText.Backend.TableBackend
import BitmapText.Proofs.Font.Probing
import BitmapText.Proofs.Registry.Calls
import BitmapText.Proofs.StringCache.Recency

/-!
# Calls that only look

Any number of looks at fonts (fits, questions for the measures, refcounts and listings) can be taken
out of a sequence of calls, and nothing that stays in it is answered differently. The strings of all
fonts are the same in the end, to the last link: the same entries in the same order of use, the same
number of batches dropped.

A target that makes calls while it draws makes them after the drawing is composited, so they stand
in the sequence right after it.

## Main definitions

* `kept`: what is left of a list when some positions are taken out.
* `Registry.Probes`: the call only looks, at a font that is steady.
* `Registry.Alike`: the fonts of two registries keep the same strings.

## Main statements

* `answerAll_kept`: what can be left out of a run of any system.
* `Registry.answerAll_kept_eq`: what can be left out of the calls on fonts.
-/

namespace BitmapText

/-! ## Runs with some uses left out -/

/-- The elements of a list that are not marked with `false`. Beyond the last mark all are kept. -/
def kept {α : Type} : List Bool → List α → List α
  | [], xs => xs
  | _ :: _, [] => []
  | keep :: marks, x :: xs => if keep then x :: kept marks xs else kept marks xs

/-- Two systems in states that are alike in `R`. If they show the same answer to each use and stay
alike, and if they stay alike when only the first one is used, for a use with property `P`, then
such uses can be left out on the other side. -/
theorem answerAll_kept {σ υ α γ : Type} {f : σ → υ → α × σ} (shown : α → γ) (R : σ → σ → Prop)
    (P : υ → Prop)
    (step : ∀ s t u, R s t → shown (f s u).1 = shown (f t u).1 ∧ R (f s u).2 (f t u).2)
    (skip : ∀ s t u, R s t → P u → R (f s u).2 t) {s t : σ} (h : R s t) (marks : List Bool)
    (us : List υ) (hus : ∀ p ∈ marks.zip us, p.1 = false → P p.2) :
    (kept marks (answerAll f s us).1).map shown =
        (answerAll f t (kept marks us)).1.map shown ∧
      R (answerAll f s us).2 (answerAll f t (kept marks us)).2 := by
  induction us generalizing s t marks with
  | nil =>
    cases marks with
    | nil => exact ⟨rfl, h⟩
    | cons keep marks => exact ⟨rfl, h⟩
  | cons u us ih =>
    obtain ⟨hshown, hnext⟩ := step s t u h
    cases marks with
    | nil =>
      obtain ⟨hrest, hlast⟩ := ih hnext [] (by simp)
      rw [kept] at hrest hlast ⊢
      simp only [kept, answerAll, List.map_cons, hshown] at hrest ⊢
      exact ⟨congrArg _ hrest, hlast⟩
    | cons keep marks =>
      have hus' : ∀ p ∈ marks.zip us, p.1 = false → P p.2 := fun p hp =>
        hus p (List.mem_cons_of_mem _ hp)
      cases keep with
      | true =>
        obtain ⟨hrest, hlast⟩ := ih hnext marks hus'
        simp only [kept, answerAll, if_true, List.map_cons, hshown]
        exact ⟨congrArg _ hrest, hlast⟩
      | false =>
        -- The first side moves alone, and the other side waits for the next use that is kept.
        have halone := skip s t u h (hus (false, u) List.mem_cons_self rfl)
        obtain ⟨hrest, hlast⟩ := ih halone marks hus'
        simp only [kept, answerAll, Bool.false_eq_true, if_false]
        exact ⟨hrest, hlast⟩

namespace Registry

variable {β σ : Type}

/-! ## Looks at fonts -/

/-- An answer without the figures of fonts. They tell which glyphs have been rendered, and whether
the measures are known. -/
def Reply.shown : Reply → Reply
  | .stats _ => .stats ⟨[]⟩
  | reply => reply

variable [Face σ]

/-- The font of a key, if there is one, comes about from a font that was opened with a steady face
that measures glyphs by rendering them. -/
def SteadyAt (r : Registry β σ) (key : FontKey) : Prop :=
  ∀ s, r.find? key = some s → ∃ face limits, Face.Steady face ∧ Face.ProbesByRendering face ∧
    (Font.opened s.font.key face limits).Reached s.font

/-- The call only looks: it asks for figures, or puts a question that only looks to a font that is
steady. -/
def Probes (r : Registry β σ) : Call → Prop
  | .ask h q => q.Probes ∧ r.SteadyAt h.key
  | .refcount _ | .stats => True
  | .clone _ | .release _ => False

theorem steadyAt_congr {r : Registry β σ} {k key : FontKey} (hk : k.Same key) :
    r.SteadyAt k ↔ r.SteadyAt key := by
  rw [SteadyAt, SteadyAt, r.find?_congr hk]

/-! ## Slots that are alike -/

/-- Two slots with the same handles. Fonts of a steady face keep the same strings, other fonts are
the same. -/
structure SlotAlike (steady : Prop) (s t : Slot σ) : Prop where
  handle : s.handle = t.handle
  refcount : s.refcount = t.refcount
  font : (steady → Font.Alike s.font t.font) ∧ (¬ steady → s.font = t.font)

/-- Under every key, two registries have slots that are alike or no slot. -/
def Alike (steady : FontKey → Prop) (r t : Registry β σ) : Prop :=
  ∀ key, Option.Rel (SlotAlike (steady key)) (r.find? key) (t.find? key)

theorem Alike.refl (r : Registry β σ) : Alike r.SteadyAt r r := by
  intro key
  cases hf : r.find? key with
  | none => exact .none
  | some s =>
    refine .some ⟨rfl, rfl, fun hsteady => ?_, fun _ => rfl⟩
    obtain ⟨face, limits, hs, hp, hreached⟩ := hsteady s hf
    exact .refl hs hp hreached

namespace SlotAlike

variable {steady : Prop} {s t : Slot σ}

theorem strings_eq (h : SlotAlike steady s t) : s.font.strings = t.font.strings := by
  by_cases hsteady : steady
  · exact (h.font.1 hsteady).strings
  · exact congrArg Font.strings (h.font.2 hsteady)

theorem answer_reply (h : SlotAlike steady s t) (q : Font.Query) :
    (s.font.reply q).answer = (t.font.reply q).answer := by
  by_cases hsteady : steady
  · exact ((h.font.1 hsteady).reply q).1
  · rw [h.font.2 hsteady]

theorem reply (h : SlotAlike steady s t) (q : Font.Query) :
    SlotAlike steady { s with font := (s.font.reply q).font }
      { t with font := (t.font.reply q).font } where
  handle := by simpa [Slot.handle] using h.handle
  refcount := h.refcount
  font := ⟨fun hsteady => ((h.font.1 hsteady).reply q).2,
    fun hsteady => congrArg (fun font => (font.reply q).font) (h.font.2 hsteady)⟩

theorem probe (h : SlotAlike steady s t) (hsteady : steady) {q : Font.Query} (hq : q.Probes) :
    SlotAlike steady { s with font := (s.font.reply q).font } t where
  handle := by simpa [Slot.handle] using h.handle
  refcount := h.refcount
  font := ⟨fun _ => (h.font.1 hsteady).probe hq, fun hnot => absurd hsteady hnot⟩

end SlotAlike

/-- Slots that are alike stay so under changes that keep them alike, and so does their absence. -/
theorem rel_map {steady : Prop} {o o' : Option (Slot σ)} {f g : Slot σ → Slot σ}
    (h : Option.Rel (SlotAlike steady) o o')
    (hfg : ∀ s t, SlotAlike steady s t → SlotAlike steady (f s) (g t)) :
    Option.Rel (SlotAlike steady) (o.map f) (o'.map g) := by
  cases h with
  | none => exact .none
  | some h => exact .some (hfg _ _ h)

/-! ## Registries that are alike -/

namespace Alike

variable {steady : FontKey → Prop} {r t : Registry β σ}

theorem find?_cases (h : Alike steady r t) (key : FontKey) :
    (r.find? key = none ∧ t.find? key = none) ∨
      ∃ s s', r.find? key = some s ∧ t.find? key = some s' ∧ SlotAlike (steady key) s s' := by
  have hslot := h key
  generalize r.find? key = s, t.find? key = s' at hslot
  cases hslot with
  | none => exact .inl ⟨rfl, rfl⟩
  | some hslot => exact .inr ⟨_, _, rfl, rfl, hslot⟩

theorem refcount_eq (h : Alike steady r t) (key : FontKey) : r.refcount key = t.refcount key := by
  rcases h.find?_cases key with ⟨hr, ht⟩ | ⟨s, s', hr, ht, hslot⟩
  · rw [refcount, refcount, hr, ht]
  · rw [refcount, refcount, hr, ht]
    exact hslot.refcount

theorem retain (h : Alike steady r t) (k : FontKey) : Alike steady (r.retain k) (t.retain k) := by
  intro key
  rw [find?_retain, find?_retain]
  split
  · apply rel_map (h key)
    intro s s' hslot
    exact ⟨hslot.handle, congrArg (· + 1) hslot.refcount, hslot.font⟩
  · exact h key

variable [Backend β σ]

theorem release (h : Alike steady r t) (k : FontKey) :
    Alike steady (r.release k).1 (t.release k).1 := by
  intro key
  rw [find?_release, find?_release]
  split
  · rcases h.find?_cases key with ⟨hr, ht⟩ | ⟨s, s', hr, ht, hslot⟩
    · rw [hr, ht]
      exact .none
    · -- Both fonts stay or both go, since they have as many handles.
      rw [hr, ht, Option.bind_some, Option.bind_some, hslot.refcount]
      split
      · exact .some ⟨hslot.handle, rfl, hslot.font⟩
      · exact .none
  · exact h key

/-- Registries that are alike answer alike, but for the figures of fonts, and stay alike. -/
theorem answer (h : Alike steady r t) (c : Call) :
    (r.answer c).1.shown = (t.answer c).1.shown ∧ Alike steady (r.answer c).2 (t.answer c).2 := by
  cases c with
  | ask g q =>
    rw [Registry.answer, Registry.answer]
    rcases h.find?_cases g.key with ⟨hr, ht⟩ | ⟨s, s', hr, ht, hslot⟩
    · rw [ask_eq_none hr, ask_eq_none ht]
      exact ⟨rfl, h⟩
    · rw [ask_eq_some hr, ask_eq_some ht]
      refine ⟨congrArg (fun reply => (Reply.font reply).shown) (hslot.answer_reply q), ?_⟩
      intro key
      dsimp only
      rw [find?_ask hr, find?_ask ht]
      split
      · exact rel_map (h key) fun _ _ hslot => hslot.reply q
      · exact h key
  | refcount g => exact ⟨congrArg (fun n => (Reply.count n).shown) (h.refcount_eq g.key), h⟩
  | clone g => exact ⟨rfl, h.retain g.key⟩
  | release g => exact ⟨rfl, h.release g.key⟩
  | stats => exact ⟨rfl, h⟩

/-- A call that only looks, made on one side alone, keeps the registries alike. What was steady is
told by the registry `start` in which the calls begin. -/
theorem probe {start : Registry β σ} (h : Alike start.SteadyAt r t) {c : Call}
    (hc : start.Probes c) : Alike start.SteadyAt (r.answer c).2 t := by
  cases c with
  | ask g q =>
    obtain ⟨hq, hsteady⟩ := hc
    rw [Registry.answer]
    rcases h.find?_cases g.key with ⟨hr, -⟩ | ⟨s, s', hr, -, -⟩
    · rw [ask_eq_none hr]
      exact h
    · rw [ask_eq_some hr]
      intro key
      dsimp only
      rw [find?_ask hr]
      split
      · next hk =>
        have hprobed := rel_map (g := id) (h key) fun _ _ hslot =>
          hslot.probe ((steadyAt_congr hk).1 hsteady) hq
        rwa [Option.map_id] at hprobed
      · exact h key
  | refcount g => exact h
  | clone g => exact hc.elim
  | release g => exact hc.elim
  | stats => exact h

end Alike

/-! ## Runs -/

/-- Looks at steady fonts can be left out of any sequence of calls. The calls that stay are answered
and draw as if the others had not been made, and in the end every font has the same handles, as many
of them, and the same strings: a string cache that is the same has the same entries in the same
order of use, with the same surfaces and counts, takes the same number of bytes and has dropped the
same number of batches. -/
theorem answerAll_kept_eq [Backend β σ] (r : Registry β σ) (marks : List Bool) (calls : List Call)
    (hprobes : ∀ p ∈ marks.zip calls, p.1 = false → r.Probes p.2) :
    let whole := answerAll answer r calls
    let rest := answerAll answer r (kept marks calls)
    (kept marks whole.1).map Reply.shown = rest.1.map Reply.shown ∧
      ∀ key, (whole.2.find? key).map (fun s => (s.handle, s.refcount, s.font.strings)) =
        (rest.2.find? key).map fun s => (s.handle, s.refcount, s.font.strings) := by
  intro whole rest
  obtain ⟨hreplies, halike⟩ := answerAll_kept (f := answer) Reply.shown (Alike r.SteadyAt) r.Probes
    (fun _ _ c h => h.answer c) (fun _ _ _ h hc => h.probe hc) (.refl r) marks calls hprobes
  refine ⟨hreplies, fun key => ?_⟩
  rcases Alike.find?_cases halike key with ⟨hw, hk⟩ | ⟨s, s', hw, hk, hslot⟩
  · rw [hw, hk]
  · rw [hw, hk, Option.map_some, Option.map_some, hslot.handle, hslot.refcount,
      hslot.strings_eq]

/-- A cache with room for one string, which loses the text before with each new one. The looks that
are left out render glyphs, fix the measures, and miss a text that was dropped. -/
theorem answerAll_kept_eq_one_entry :
    let square : RasterGlyph :=
      { width := 2, height := 2, pitch := 2, left := 0, top := 2, advance := 3, format := .alpha8,
        data := #[1, 2, 3, 4] }
    let key : FontKey := ⟨⟨"a.ttf"⟩, 16, 96⟩
    let r := ((Registry.empty { others := some (.face { others := some { glyph := square } }) }
      (.ofNat 1 1) : Registry TableBackend TableFace).acquire key).2.1
    let h : Handle := ⟨key, 0⟩
    let marks := [false, true, false, true, false, false, true, false]
    let calls : List Call :=
      [.ask h (.fit "ab" none), .ask h (.measure "ab"), .ask h .maxHeight, .ask h (.measure "b"),
        .ask h (.fit "ab" none), .refcount h, .ask h (.measure "ab"), .stats]
    let measures : List Call :=
      [.ask h (.measure "ab"), .ask h (.measure "b"), .ask h (.measure "ab")]
    (∀ p ∈ marks.zip calls, p.1 = false → r.Probes p.2) ∧
      kept marks calls = measures ∧
      (kept marks (answerAll answer r calls).1).map Reply.shown =
        (answerAll answer r measures).1.map Reply.shown ∧
      ∀ key, ((answerAll answer r calls).2.find? key).map
          (fun s => (s.handle, s.refcount, s.font.strings)) =
        ((answerAll answer r measures).2.find? key).map
          fun s => (s.handle, s.refcount, s.font.strings) := by
  intro square key r h marks calls measures
  have hsteady : r.SteadyAt h.key := by
    intro s hf
    have hslots : r.slots = [⟨.opened key (TableFace.uniform square) (.ofNat 1 1), 0, 1⟩] := rfl
    have hmem := List.mem_of_find?_eq_some hf
    obtain rfl := List.mem_singleton.1 (hslots ▸ hmem)
    exact ⟨TableFace.uniform square, .ofNat 1 1, TableFace.steady_uniform square,
      TableFace.probesByRendering_uniform square, .start⟩
  have hprobes : ∀ p ∈ marks.zip calls, p.1 = false → r.Probes p.2 := by
    simp [marks, calls, Probes, Font.Query.Probes, hsteady]
  exact ⟨hprobes, rfl, answerAll_kept_eq r marks calls hprobes⟩

end Registry

end BitmapText
