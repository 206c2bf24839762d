import BitmapText.Proofs.Font.Query
import BitmapText.Registry

/-!
# Calls on loaded fonts

What can be done through a handle, and the listing of all fonts, as one type. Every call on a font
is a change of the slot that is found under its key, and leaves the slots of all other fonts as they
are.

## Main definitions

* `Registry.Call`, `Registry.Reply`: the calls, and what is answered.
* `Registry.answer`: the answer to a call, with the registry as it is afterwards.

## Main statements

* `Registry.find?_modify`: which slot is found after a change.
* `Registry.find?_ask`, `Registry.find?_retain`, `Registry.find?_release`: and after each call.
-/

namespace BitmapText

namespace Registry

/-- A call through a handle, or for the figures of all fonts. -/
inductive Call where
  | ask (h : Handle) (q : Font.Query)
  | refcount (h : Handle)
  | clone (h : Handle)
  | release (h : Handle)
  | stats

/-- The answer to a call. -/
inductive Reply where
  | font (reply : Font.Reply)
  | count (n : Nat)
  | stats (s : RegistryStats)
  | done
  /-- There is no such font. -/
  | gone

variable {β σ : Type}

/-! ## Keys -/

theorem same_of_find? {r : Registry β σ} {key : FontKey} {s : Slot σ} (hf : r.find? key = some s) :
    s.font.key.Same key := by
  simpa using List.find?_some hf

/-- Keys of one font find the same slot. -/
theorem find?_congr (r : Registry β σ) {k key : FontKey} (hk : k.Same key) :
    r.find? k = r.find? key := by
  have hsame (s : Slot σ) : s.font.key.Same k ↔ s.font.key.Same key :=
    ⟨fun h => h.trans hk, fun h => h.trans hk.symm⟩
  simp only [find?, hsame]

/-- A change of the slot of a key shows under that key alone, if the slot stays one of that key. -/
theorem find?_modify (r : Registry β σ) {k : FontKey} {f : Slot σ → Slot σ}
    (hf : ∀ s, s.font.key.Same k → (f s).font.key.Same k) (key : FontKey) :
    (r.modify k f).find? key = if k.Same key then (r.find? key).map f else r.find? key := by
  have hkeeps (s : Slot σ) :
      (if s.font.key.Same k then f s else s).font.key.Same key ↔ s.font.key.Same key := by
    split
    · next hs =>
      exact ⟨fun h => hs.trans ((hf s hs).symm.trans h), fun h => (hf s hs).trans (hs.symm.trans h)⟩
    · exact Iff.rfl
  have hfind : (r.modify k f).find? key =
      (r.find? key).map fun s => if s.font.key.Same k then f s else s := by
    simp only [find?, modify, List.find?_map, Function.comp_def, hkeeps]
  rw [hfind]
  cases hs : r.find? key with
  | none => simp
  | some s =>
    have hkey := same_of_find? hs
    by_cases hk : k.Same key
    · have hsame : s.font.key.Same k := hkey.trans hk.symm
      rw [if_pos hk, Option.map_some, Option.map_some, if_pos hsame]
    · have hother : ¬ s.font.key.Same k := fun h => hk (h.symm.trans hkey)
      rw [if_neg hk, Option.map_some, if_neg hother]

/-- One more handle is counted on the font of the key. -/
theorem find?_retain (r : Registry β σ) (k key : FontKey) :
    (r.retain k).find? key =
      if k.Same key then (r.find? key).map fun s => { s with refcount := s.refcount + 1 }
      else r.find? key :=
  r.find?_modify (f := fun s => { s with refcount := s.refcount + 1 }) (fun _ h => h) key

/-- One handle less is counted on the font of the key, which goes with the last one. -/
theorem find?_release [Backend β σ] (r : Registry β σ) (k key : FontKey) :
    (r.release k).1.find? key =
      if k.Same key then
        (r.find? key).bind fun s =>
          if 1 < s.refcount then some { s with refcount := s.refcount - 1 } else none
      else r.find? key := by
  cases hf : r.find? k with
  | none =>
    simp only [release, hf]
    split
    · next hk => rw [← r.find?_congr hk, hf, Option.bind_none]
    · rfl
  | some s =>
    simp only [release, hf]
    split
    · next hmany =>
      rw [r.find?_modify (f := fun s => { s with refcount := s.refcount - 1 }) fun _ h => h]
      split
      · next hk => rw [← r.find?_congr hk, hf, Option.map_some, Option.bind_some, if_pos hmany]
      · rfl
    · next hlast =>
      split
      · next hk =>
        rw [← r.find?_congr hk, hf, Option.bind_some, if_neg hlast]
        refine List.find?_eq_none.2 fun t ht => ?_
        have hother : ¬ t.font.key.Same k := by simpa using (List.mem_filter.1 ht).2
        simpa using fun h : t.font.key.Same key => hother (h.trans hk.symm)
      · next hk =>
        have hboth (t : Slot σ) : ¬ t.font.key.Same k ∧ t.font.key.Same key ↔
            t.font.key.Same key :=
          and_iff_right_of_imp fun h hs => hk (hs.symm.trans h)
        simp only [find?, List.find?_filter, decide_eq_true_eq, hboth]

section Ask

variable [Face σ]

theorem ask_eq_none {r : Registry β σ} {h : Handle} (hf : r.find? h.key = none) (q : Font.Query) :
    r.ask h (Font.reply · q) = none := by
  simp only [ask, hf]

theorem ask_eq_some {r : Registry β σ} {h : Handle} {s : Slot σ} (hf : r.find? h.key = some s)
    (q : Font.Query) :
    r.ask h (Font.reply · q) =
      some ((s.font.reply q).answer, r.modify h.key ({ · with font := (s.font.reply q).font }),
        (s.font.reply q).log) := by
  simp only [ask, hf]

/-- The font of the key is as the question left it. -/
theorem find?_ask {r : Registry β σ} {h : Handle} {s : Slot σ} (hf : r.find? h.key = some s)
    (q : Font.Query) (key : FontKey) :
    (r.modify h.key ({ · with font := (s.font.reply q).font })).find? key =
      if h.key.Same key then
        (r.find? key).map fun t => { t with font := (t.font.reply q).font }
      else r.find? key := by
  have hsame : (s.font.reply q).font.key.Same h.key := by
    rw [Font.key_reply]
    exact same_of_find? hf
  rw [r.find?_modify (f := fun t => { t with font := (s.font.reply q).font }) fun _ _ => hsame]
  split
  · next hk => simp only [← r.find?_congr hk, hf, Option.map_some]
  · rfl

end Ask

/-! ## Calls -/

variable [Backend β σ] [Face σ]

def answer (r : Registry β σ) : Call → Reply × Registry β σ
  | .ask h q =>
    match r.ask h (Font.reply · q) with
    | none => (.gone, r)
    | some (reply, r, _) => (.font reply, r)
  | .refcount h => (.count (r.refcount h.key), r)
  | .clone h => (.done, r.retain h.key)
  | .release h => (.done, (r.release h.key).1)
  | .stats => (.stats r.stats, r)

/-- A call finds no slot where there was none. -/
theorem find?_answer_eq_none {r : Registry β σ} {key : FontKey} (hf : r.find? key = none)
    (c : Call) : (r.answer c).2.find? key = none := by
  cases c with
  | ask h q =>
    rw [answer]
    cases hs : r.find? h.key with
    | none => rw [ask_eq_none hs]; exact hf
    | some s =>
      rw [ask_eq_some hs]
      dsimp only
      rw [find?_ask hs, hf]
      exact ite_self _
  | refcount h => exact hf
  | clone h =>
    rw [answer, find?_retain, hf]
    exact ite_self _
  | release h =>
    rw [answer, find?_release, hf]
    exact ite_self _
  | stats => exact hf

end Registry

end BitmapText
