import BitmapText.Proofs.Registry.Calls
import BitmapText.Proofs.Registry.InUse
import BitmapText.Proofs.Registry.Requests
import BitmapText.Proofs.StringCache.Recency

/-!
# Fonts apart

All fonts are in one registry, and what is done with one of them is still nothing to the others: it
leaves their faces, their caches and their measures as they are, whether fonts come or go meanwhile.
So two clients with a font each may take turns as they like. Each of them is answered as if it were
alone.

## Main definitions

* `Registry.Act.About`: an act is about the font of a key.
* `answerEither`: the uses of two clients of one system.
* `RegistryStats.entry?`: the figures of one font in a listing.

## Main statements

* `Registry.find?_foldl_after`: acts about other fonts leave the slot of a font as it is.
* `answerAll_either_left`: one of two clients is answered as if it were alone.
* `Registry.InUse.fonts_apart`: two fonts in a registry are apart.
-/

namespace BitmapText

/-! ## Two clients of one system -/

section Either

variable {τ υ υ' α α' : Type} {f : τ → υ → α × τ} {g : τ → υ' → α' × τ}

/-- Answer the one client or the other, and say which. -/
def answerEither (f : τ → υ → α × τ) (g : τ → υ' → α' × τ) (s : τ) : υ ⊕ υ' → (α ⊕ α') × τ
  | .inl u =>
    match f s u with
    | (a, s) => (.inl a, s)
  | .inr u =>
    match g s u with
    | (a, s) => (.inr a, s)

/-- If states that are alike in `R` answer one client alike and stay alike, and stay alike also when
the other client alone uses the first of them, then the one client is answered as if it were
alone. -/
theorem answerAll_either_left (R : τ → τ → Prop)
    (own : ∀ s t u, R s t → (f s u).1 = (f t u).1 ∧ R (f s u).2 (f t u).2)
    (other : ∀ s t u, R s t → R (g s u).2 t) {s t : τ} (h : R s t) (us : List (υ ⊕ υ')) :
    let both := answerAll (answerEither f g) s us
    let alone := answerAll f t (us.filterMap Sum.getLeft?)
    both.1.filterMap Sum.getLeft? = alone.1 ∧ R both.2 alone.2 := by
  induction us generalizing s t with
  | nil => exact ⟨rfl, h⟩
  | cons first rest ih =>
    cases first with
    | inl u =>
      obtain ⟨hfirst, hnext⟩ := own s t u h
      obtain ⟨hrest, hlast⟩ := ih hnext
      refine ⟨?_, hlast⟩
      simp only [answerAll, answerEither, List.filterMap_cons, Sum.getLeft?, hfirst]
      exact congrArg _ hrest
    | inr u => exact ih (other s t u h)

/-- It does not matter which client is called the first. -/
theorem answerAll_either_swap (s : τ) (us : List (υ ⊕ υ')) :
    answerAll (answerEither g f) s (us.map Sum.swap) =
      ((answerAll (answerEither f g) s us).1.map Sum.swap,
        (answerAll (answerEither f g) s us).2) := by
  induction us generalizing s with
  | nil => rfl
  | cons first rest ih =>
    cases first with
    | inl u => simp only [List.map_cons, Sum.swap_inl, answerAll, answerEither, ih]
    | inr u => simp only [List.map_cons, Sum.swap_inr, answerAll, answerEither, ih]

theorem filterMap_getLeft?_swap (us : List (υ ⊕ υ')) :
    (us.map Sum.swap).filterMap Sum.getLeft? = us.filterMap Sum.getRight? := by
  rw [List.filterMap_map]
  refine List.filterMap_congr fun u _ => ?_
  cases u <;> rfl

theorem answerAll_either_right (R : τ → τ → Prop)
    (own : ∀ s t u, R s t → (g s u).1 = (g t u).1 ∧ R (g s u).2 (g t u).2)
    (other : ∀ s t u, R s t → R (f s u).2 t) {s t : τ} (h : R s t) (us : List (υ ⊕ υ')) :
    let both := answerAll (answerEither f g) s us
    let alone := answerAll g t (us.filterMap Sum.getRight?)
    both.1.filterMap Sum.getRight? = alone.1 ∧ R both.2 alone.2 := by
  have hleft := answerAll_either_left R own other h (us.map Sum.swap)
  rw [answerAll_either_swap, filterMap_getLeft?_swap] at hleft
  dsimp only at hleft
  rwa [filterMap_getLeft?_swap] at hleft

end Either

/-! ## Listings -/

/-- The figures of the font of a key. -/
def RegistryStats.entry? (s : RegistryStats) (key : FontKey) : Option FontStats :=
  s.fonts.find? fun font => font.key.Same key

/-- What is found in a list, if there is one such element. -/
theorem find?_eq_some_of_unique {α : Type} {l : List α} {p : α → Bool} {a : α} (ha : a ∈ l)
    (hp : p a = true) (hunique : ∀ b ∈ l, p b = true → b = a) : l.find? p = some a := by
  cases hf : l.find? p with
  | none => exact absurd hp (List.find?_eq_none.1 hf a ha)
  | some b => rw [hunique b (List.mem_of_find?_eq_some hf) (List.find?_some hf)]

namespace Registry

variable {β σ : Type}

/-- A font is listed with the figures of its slot. -/
theorem Counts.entry?_stats {r : Registry β σ} {live : List Handle} (h : r.Counts live)
    (key : FontKey) :
    r.stats.entry? key = (r.find? key).map fun s => s.font.stats s.refcount := by
  have hlisted (e : FontStats) :
      e ∈ r.stats.fonts ↔ ∃ s ∈ r.slots, s.font.stats s.refcount = e := by
    rw [stats, List.mem_mergeSort, List.mem_map]
  cases hf : r.find? key with
  | none =>
    refine List.find?_eq_none.2 fun e he => ?_
    obtain ⟨s, hs, rfl⟩ := (hlisted e).1 he
    exact List.find?_eq_none.1 hf s hs
  | some s =>
    obtain ⟨hs, hk⟩ := h.find?_eq_some_iff.1 hf
    refine find?_eq_some_of_unique ((hlisted _).2 ⟨s, hs, rfl⟩) (decide_eq_true hk) ?_
    intro e he hek
    obtain ⟨t, ht, rfl⟩ := (hlisted e).1 he
    have htk : t.font.key.Same key := of_decide_eq_true hek
    rw [h.eq_of_same ht hs (htk.trans hk.symm)]

/-! ## Acts about other fonts -/

/-- The key of the font that an act is about. A listing is about none. -/
def Act.key? : Act → Option FontKey
  | .acquire key => some key
  | .call (.ask h _) | .call (.refcount h) | .call (.clone h) | .call (.release h) => some h.key
  | .call .stats => none

/-- The act is about the font of a key. -/
def Act.About (act : Act) (key : FontKey) : Prop := ∃ k, act.key? = some k ∧ k.Same key

theorem Act.About.not_about {act : Act} {k key : FontKey} (h : act.About k) (hk : ¬ k.Same key) :
    ¬ act.About key := by
  obtain ⟨own, hown, hsame⟩ := h
  rintro ⟨other, hother, hsame'⟩
  obtain rfl := Option.some.inj (hown.symm.trans hother)
  exact hk (hsame.symm.trans hsame')

variable [Backend β σ]

/-- A font that is asked for leaves the others as they are, whether it can be had or not. -/
theorem find?_acquire (r : Registry β σ) {k key : FontKey} (hk : ¬ k.Same key) :
    (r.acquire k).2.1.find? key = r.find? key := by
  rw [acquire]
  cases hf : r.find? k with
  | some s =>
    dsimp only
    rw [find?_retain, if_neg hk]
  | none =>
    obtain ⟨hslots, -⟩ := slots_ensureStarted r
    dsimp only
    split
    · next he =>
      rw [he] at hslots
      dsimp only at hslots
      simp only [find?, hslots]
    · next he =>
      rw [he] at hslots
      dsimp only at hslots
      rw [load]
      split
      · simp only [find?, hslots]
      · -- The new slot stands at the end, under a key of its own.
        simp only [find?, hslots, List.find?_append, List.find?_singleton, Font.opened, hk,
          decide_false, Bool.false_eq_true, if_false, Option.or_none]

variable [Face σ]

/-- An act about other fonts leaves the slot of a font as it is: its face, what has been learned
from it, and its handles. -/
theorem find?_after (r : Registry β σ) {act : Act} {key : FontKey} (h : ¬ act.About key) :
    (r.after act).find? key = r.find? key := by
  have hother {k : FontKey} (hk : act.key? = some k) : ¬ k.Same key := fun hs => h ⟨k, hk, hs⟩
  cases act with
  | acquire k => exact r.find?_acquire (hother rfl)
  | call c =>
    rw [after]
    cases c with
    | ask g q =>
      rw [answer]
      cases hf : r.find? g.key with
      | none => rw [ask_eq_none hf]
      | some s =>
        rw [ask_eq_some hf]
        dsimp only
        rw [find?_ask hf, if_neg (hother rfl)]
    | refcount g => rfl
    | clone g => rw [answer, find?_retain, if_neg (hother rfl)]
    | release g => rw [answer, find?_release, if_neg (hother rfl)]
    | stats => rfl

/-- Any number of acts about other fonts leave the slot of a font as it is. -/
theorem find?_foldl_after (r : Registry β σ) {acts : List Act} {key : FontKey}
    (h : ∀ act ∈ acts, ¬ act.About key) : (acts.foldl after r).find? key = r.find? key := by
  induction acts generalizing r with
  | nil => rfl
  | cons act rest ih =>
    obtain ⟨hact, hrest⟩ := List.forall_mem_cons.1 h
    exact (ih (r.after act) hrest).trans (r.find?_after hact)

/-! ## Two fonts -/

/-- Put a question through a handle. -/
def put (g : Handle) (r : Registry β σ) (q : Font.Query) : Reply × Registry β σ :=
  r.answer (.ask g q)

theorem Counts.put {r : Registry β σ} {live : List Handle} (h : r.Counts live)
    {g : Handle} (hg : g ∈ live) (q : Font.Query) : (put g r q).2.Counts live := by
  obtain ⟨p, hp, hcounts⟩ := h.ask hg _ fun font => Font.key_reply font q
  rw [Registry.put, answer, hp]
  exact hcounts

/-- The answer depends on the slot of the handle alone, and so does what is left there. -/
theorem put_congr {r t : Registry β σ} {g : Handle} (h : r.find? g.key = t.find? g.key)
    (q : Font.Query) :
    (put g r q).1 = (put g t q).1 ∧ (put g r q).2.find? g.key = (put g t q).2.find? g.key := by
  rw [put, put, answer, answer]
  cases hf : t.find? g.key with
  | none =>
    rw [ask_eq_none hf, ask_eq_none (h.trans hf)]
    exact ⟨rfl, h⟩
  | some s =>
    rw [ask_eq_some hf, ask_eq_some (h.trans hf)]
    dsimp only
    rw [find?_ask hf, find?_ask (h.trans hf), h]
    exact ⟨rfl, rfl⟩

/-- The counts of both registries are right, and the font of a key has the same slot in both. -/
structure SameSlot (live : List Handle) (key : FontKey) (r t : Registry β σ) : Prop where
  counts : r.Counts live
  counts' : t.Counts live
  find? : r.find? key = t.find? key

namespace SameSlot

variable {live : List Handle} {r t : Registry β σ} {g h : Handle}

theorem own (hs : SameSlot live g.key r t) (hg : g ∈ live) (q : Font.Query) :
    (put g r q).1 = (put g t q).1 ∧ SameSlot live g.key (put g r q).2 (put g t q).2 := by
  obtain ⟨hreply, hslot⟩ := put_congr hs.find? q
  exact ⟨hreply, hs.counts.put hg q, hs.counts'.put hg q, hslot⟩

theorem other (hs : SameSlot live g.key r t) (hh : h ∈ live) (hk : ¬ h.key.Same g.key)
    (q : Font.Query) : SameSlot live g.key (put h r q).2 t := by
  have hother : ¬ (Act.call (.ask h q)).About g.key := Act.About.not_about ⟨h.key, rfl, rfl⟩ hk
  exact ⟨hs.counts.put hh q, hs.counts', (r.find?_after hother).trans hs.find?⟩

omit [Backend β σ] [Face σ] in
theorem entry?_eq {key : FontKey} (hs : SameSlot live key r t) :
    r.stats.entry? key = t.stats.entry? key := by
  rw [hs.counts.entry?_stats, hs.counts'.entry?_stats, hs.find?]

end SameSlot

namespace InUse

variable {r : Registry β σ} {drawing idle : List Handle}

/-- Two fonts of a registry in use. Whatever is done that is not about one of them, through
handles on other fonts or by asking for such fonts, leaves its slot as it is, in every run: its
face, its rendered glyphs, its strings with their order and their evictions, its measures and its
handles. So if questions to the two are mixed in any order, each font answers its own, and draws,
as if the others had not been asked, and in the end it has the same slot and is listed with the
same figures. -/
theorem fonts_apart (hr : InUse r drawing idle) {g h : Handle} (hg : g ∈ drawing ++ idle)
    (hh : h ∈ drawing ++ idle) (hk : ¬ g.key.Same h.key) :
    (∃ s, r.find? g.key = some s ∧ s.handle = g ∧ ∀ acts : List Act,
      (∀ act ∈ acts, ¬ act.About g.key) → (acts.foldl after r).find? g.key = some s) ∧
    ∀ questions : List (Font.Query ⊕ Font.Query),
      let both := answerAll (answerEither (put g) (put h)) r questions
      let alone := answerAll (put g) r (questions.filterMap Sum.getLeft?)
      let alone' := answerAll (put h) r (questions.filterMap Sum.getRight?)
      (both.1.filterMap Sum.getLeft? = alone.1 ∧
        both.2.find? g.key = alone.2.find? g.key ∧
        both.2.stats.entry? g.key = alone.2.stats.entry? g.key) ∧
      (both.1.filterMap Sum.getRight? = alone'.1 ∧
        both.2.find? h.key = alone'.2.find? h.key ∧
        both.2.stats.entry? h.key = alone'.2.stats.entry? h.key) := by
  have hc := hr.counts
  refine ⟨?_, fun questions => ?_⟩
  · obtain ⟨s, -, hs, hf⟩ := hc.find?_of_mem hg
    exact ⟨s, hf, hs, fun acts hacts => (r.find?_foldl_after hacts).trans hf⟩
  · intro both alone alone'
    have hk' : ¬ h.key.Same g.key := fun hsame => hk hsame.symm
    obtain ⟨hleft, hslot⟩ := answerAll_either_left (SameSlot (drawing ++ idle) g.key)
      (fun _ _ q hs => hs.own hg q) (fun _ _ q hs => hs.other hh hk' q) ⟨hc, hc, rfl⟩ questions
    obtain ⟨hright, hslot'⟩ := answerAll_either_right (SameSlot (drawing ++ idle) h.key)
      (fun _ _ q hs => hs.own hh q) (fun _ _ q hs => hs.other hg hk q) ⟨hc, hc, rfl⟩ questions
    exact ⟨⟨hleft, hslot.find?, hslot.entry?_eq⟩, hright, hslot'.find?, hslot'.entry?_eq⟩

/-- Two fonts of one library take turns, and the handle on the second is cloned, given back and
asked for again. -/
theorem fonts_apart_in_turns :
    let square : RasterGlyph :=
      { width := 2, height := 2, pitch := 2, left := 0, top := 2, advance := 3, format := .alpha8,
        data := #[1, 2, 3, 4] }
    let library : TableBackend := { others := some (.face { others := some { glyph := square } }) }
    let g : Handle := ⟨⟨⟨"a.ttf"⟩, 16, 96⟩, 0⟩
    let h : Handle := ⟨⟨⟨"b.ttf"⟩, 16, 96⟩, 1⟩
    let start : Registry TableBackend TableFace := .empty library (.ofNat 1 1)
    let r := ((start.acquire g.key).2.1.acquire h.key).2.1
    let acts : List Act :=
      [.call (.clone h), .call (.release h), .call (.release h), .acquire h.key, .call .stats]
    let questions : List (Font.Query ⊕ Font.Query) :=
      [.inl (.measure "ab"), .inr (.render "b" 0 0 none none), .inr .maxHeight, .inl .baseline]
    let both := answerAll (answerEither (put g) (put h)) r questions
    (∃ s, r.find? g.key = some s ∧ s.handle = g ∧ (acts.foldl after r).find? g.key = some s) ∧
      both.1.filterMap Sum.getLeft? = (answerAll (put g) r [.measure "ab", .baseline]).1 ∧
      both.1.filterMap Sum.getRight? =
        (answerAll (put h) r [.render "b" 0 0 none none, .maxHeight]).1 := by
  intro square library g h start r acts questions both
  have hfirst : InUse (start.acquire g.key).2.1 [] [g] :=
    (InUse.empty library (.ofNat 1 1)).acquired (by rfl)
  have hr : InUse r [] [h, g] := hfirst.acquired (by decide +kernel)
  have hk : ¬ g.key.Same h.key := by decide +kernel
  obtain ⟨⟨s, hs, hhandle, hacts⟩, hquestions⟩ :=
    fonts_apart hr (List.mem_cons_of_mem h List.mem_cons_self) List.mem_cons_self hk
  have hother : ∀ act ∈ acts, ¬ act.About g.key := by
    have hk' : ¬ h.key.Same g.key := fun hsame => hk hsame.symm
    simp [acts, Act.About, Act.key?, hk']
  obtain ⟨⟨hleft, -⟩, hright, -⟩ := hquestions questions
  exact ⟨⟨s, hs, hhandle, hacts acts hother⟩, hleft, hright⟩

end InUse

end Registry

end BitmapText
