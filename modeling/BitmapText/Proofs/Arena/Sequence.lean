import BitmapText.Proofs.Arena.Links
import Mathlib.Data.List.Perm.Basic

/-!
# The sequence of an arena

An arena keeps a sequence when its links spell that sequence, no other slot is in use, and the
vacant slots are listed once each. The operations of an arena are the operations of a plain list.

## Main definitions

* `Arena.FreeListed`: the list of vacant slots is right.
* `Arena.Keeps`: the arena keeps a sequence.

## Main statements

* `Arena.Keeps.pushNewest`, `Arena.Keeps.moveNewest`, `Arena.Keeps.popOldest`: what the operations
  do to the sequence.
* `Arena.Keeps.toList_eq`, `Arena.Keeps.values_perm`: what a reader sees of it.
-/

namespace BitmapText

namespace Arena

variable {α : Type} {a : Arena α} {xs pre post : List (Nat × α)} {x : Nat × α}

/-! ## Slots in use -/

/-- The vacant slots are those that hold nothing, once each. -/
structure FreeListed (a : Arena α) : Prop where
  nodup : a.vacant.Nodup
  mem_iff : ∀ slot, slot ∈ a.vacant ↔ slot < a.slots.size ∧ a.node? slot = none

/-- Both arenas have the same slots in use and the same vacant slots. -/
structure SameUse (a b : Arena α) : Prop where
  size : b.slots.size = a.slots.size
  vacant : b.vacant = a.vacant
  node : ∀ t, b.node? t = none ↔ a.node? t = none

theorem SameUse.refl (a : Arena α) : SameUse a a := ⟨rfl, rfl, fun _ => Iff.rfl⟩

theorem SameUse.trans {b c : Arena α} (h : SameUse a b) (g : SameUse b c) : SameUse a c :=
  ⟨g.size.trans h.size, g.vacant.trans h.vacant, fun t => (g.node t).trans (h.node t)⟩

theorem SameUse.freeListed {b : Arena α} (h : SameUse a b) (ha : a.FreeListed) : b.FreeListed where
  nodup := h.vacant ▸ ha.nodup
  mem_iff slot := by rw [h.vacant, ha.mem_iff, h.size, h.node]

theorem sameUse_modifyNode (a : Arena α) (slot : Nat) (f : Node α → Node α) :
    SameUse a (a.modifyNode slot f) where
  size := by simp [modifyNode]
  vacant := rfl
  node t := by rw [node?_modifyNode]; split <;> simp

theorem sameUse_linkForward (a : Arena α) (slot newer : Option Nat) :
    SameUse a (a.linkForward slot newer) := by
  cases slot with
  | none => exact ⟨rfl, rfl, fun _ => Iff.rfl⟩
  | some slot => exact sameUse_modifyNode a slot _

theorem sameUse_linkBackward (a : Arena α) (slot older : Option Nat) :
    SameUse a (a.linkBackward slot older) := by
  cases slot with
  | none => exact ⟨rfl, rfl, fun _ => Iff.rfl⟩
  | some slot => exact sameUse_modifyNode a slot _

theorem sameUse_unlink (a : Arena α) (slot : Nat) : SameUse a (a.unlink slot) := by
  unfold unlink
  cases a.node? slot with
  | none => exact .refl a
  | some n =>
    exact ((sameUse_modifyNode a slot _).trans (sameUse_linkForward _ n.older n.newer)).trans
      (sameUse_linkBackward _ n.newer n.older)

theorem sameUse_linkNewest (a : Arena α) (slot : Nat) : SameUse a (a.linkNewest slot) :=
  have h := (sameUse_modifyNode a slot fun node => { node with older := a.newest }).trans
    (sameUse_linkForward _ a.newest (some slot))
  ⟨h.size, h.vacant, h.node⟩

/-! ## Slots that are filled and emptied -/

theorem store_of_vacant {slot : Nat} {vacant : List Nat} (hv : a.vacant = slot :: vacant) (v : α) :
    a.store v =
      (slot, { a with slots := a.slots.setIfInBounds slot (some { value := v }), vacant }) := by
  simp only [store, hv]

theorem store_of_full (hv : a.vacant = []) (v : α) :
    a.store v = (a.slots.size, { a with slots := a.slots.push (some { value := v }) }) := by
  simp only [store, hv]

theorem node?_store_fst (h : a.FreeListed) (v : α) : a.node? (a.store v).1 = none := by
  cases hv : a.vacant with
  | nil => simp [store_of_full hv, node?]
  | cons slot vacant =>
    rw [store_of_vacant hv]
    exact ((h.mem_iff slot).1 (by simp [hv])).2

theorem node?_store_self (h : a.FreeListed) (v : α) :
    (a.store v).2.node? (a.store v).1 = some { value := v } := by
  cases hv : a.vacant with
  | nil => simp [store_of_full hv, node?]
  | cons slot vacant =>
    have hlt : slot < a.slots.size := ((h.mem_iff slot).1 (by simp [hv])).1
    simp [store_of_vacant hv, node?, hlt]

theorem node?_store_of_ne (a : Arena α) (v : α) {t : Nat} (ht : (a.store v).1 ≠ t) :
    (a.store v).2.node? t = a.node? t := by
  cases hv : a.vacant with
  | nil =>
    rw [store_of_full hv] at ht ⊢
    simp [node?, Array.getElem?_push, Ne.symm ht]
  | cons slot vacant =>
    rw [store_of_vacant hv] at ht ⊢
    simp [node?, Array.getElem?_setIfInBounds_ne ht]

@[simp] theorem oldest_store (a : Arena α) (v : α) : (a.store v).2.oldest = a.oldest := by
  unfold store; split <;> rfl

@[simp] theorem newest_store (a : Arena α) (v : α) : (a.store v).2.newest = a.newest := by
  unfold store; split <;> rfl

theorem FreeListed.store (h : a.FreeListed) (v : α) : (a.store v).2.FreeListed := by
  have hself := node?_store_self h v
  have hother (t : Nat) (ht : (a.store v).1 ≠ t) := node?_store_of_ne a v ht
  cases hv : a.vacant with
  | nil =>
    rw [store_of_full hv] at hself hother ⊢
    dsimp only at hself hother
    refine ⟨h.nodup, fun t => ?_⟩
    simp only [Array.size_push]
    by_cases ht : a.slots.size = t
    · subst ht
      exact iff_of_false (by simp [hv]) fun hnone => by simp [hself] at hnone
    · rw [hother t ht, h.mem_iff t]
      exact and_congr_left fun _ => by omega
  | cons slot vacant =>
    have hnd := List.nodup_cons.1 (hv ▸ h.nodup)
    rw [store_of_vacant hv] at hself hother ⊢
    refine ⟨hnd.2, fun t => ?_⟩
    simp only [Array.size_setIfInBounds]
    by_cases ht : slot = t
    · subst ht
      simp [hself, hnd.1]
    · rw [hother t ht, ← h.mem_iff t, hv]
      simp [Ne.symm ht]

theorem node?_vacate_self (slot : Nat) : (a.vacate slot).node? slot = none := by
  simp only [vacate, node?, Array.getElem?_setIfInBounds]
  split_ifs <;> rfl

theorem node?_vacate_of_ne {slot t : Nat} (ht : slot ≠ t) :
    (a.vacate slot).node? t = (a.unlink slot).node? t := by
  simp [vacate, node?, Array.getElem?_setIfInBounds_ne ht]

theorem FreeListed.vacate (h : a.FreeListed) {slot : Nat} (hs : a.node? slot ≠ none) :
    (a.vacate slot).FreeListed := by
  have hu := sameUse_unlink a slot
  have hf := hu.freeListed h
  have hvac : (a.vacate slot).vacant = slot :: a.vacant := congrArg (slot :: ·) hu.vacant
  have hsize : (a.vacate slot).slots.size = (a.unlink slot).slots.size :=
    Array.size_setIfInBounds ..
  have hlt : slot < (a.unlink slot).slots.size := by
    by_contra hlt
    have hnone : a.slots[slot]? = none := Array.getElem?_eq_none (by have := hu.size; omega)
    exact hs (by simp [node?, hnone])
  refine ⟨?_, fun t => ?_⟩
  · rw [hvac]
    exact List.nodup_cons.2 ⟨fun hm => hs ((h.mem_iff slot).1 hm).2, h.nodup⟩
  · rw [hvac, hsize, List.mem_cons]
    by_cases ht : slot = t
    · subst ht
      simp [node?_vacate_self, hlt]
    · rw [node?_vacate_of_ne ht, ← hf.mem_iff t, hu.vacant]
      simp [Ne.symm ht]

/-! ## Sequences -/

/-- `a` keeps the values of `xs` in the slots of `xs` and nothing else. -/
structure Keeps (a : Arena α) (xs : List (Nat × α)) : Prop extends a.Linked xs where
  live : ∀ slot, a.node? slot ≠ none → slot ∈ xs.map Prod.fst
  free : a.FreeListed

namespace Keeps

theorem empty : (empty : Arena α).Keeps [] where
  nodup := List.nodup_nil
  oldest := rfl
  newest := rfl
  node := by simp
  live _ h := (h rfl).elim
  free := ⟨List.nodup_nil, by simp [Arena.empty]⟩

theorem mem_iff (h : a.Keeps xs) (slot : Nat) : slot ∈ xs.map Prod.fst ↔ a.node? slot ≠ none :=
  ⟨h.node?_ne_none, h.live slot⟩

theorem lt_size (h : a.Keeps xs) {slot : Nat} (hs : slot ∈ xs.map Prod.fst) :
    slot < a.slots.size := by
  by_contra hlt
  have hnone : a.slots[slot]? = none := Array.getElem?_eq_none (by omega)
  exact (h.mem_iff slot).1 hs (by simp [node?, hnone])

theorem length_le_size (h : a.Keeps xs) : xs.length ≤ a.slots.size := by
  have hsub : xs.map Prod.fst ⊆ List.range a.slots.size := fun slot hs =>
    List.mem_range.2 (h.lt_size hs)
  simpa using (List.subperm_of_subset h.nodup hsub).length_le

theorem toList_eq (h : a.Keeps xs) : a.toList = xs := by
  rw [toList, h.oldest]
  have hlinked : a.Linked ([] ++ xs) := h.toLinked
  exact hlinked.walk_eq h.length_le_size

theorem values_eq (a : Arena α) :
    a.values = (List.range a.slots.size).filterMap fun slot => a.value? slot := by
  have hslots : a.slots.toList = (List.range a.slots.size).map fun i => a.slots[i]?.join :=
    List.ext_getElem (by simp) fun i hi _ => by
      have hi : i < a.slots.size := by simpa using hi
      simp [Array.getElem?_eq_getElem hi]
  rw [values, hslots, List.filterMap_map]
  rfl

/-- In slot order, the values are those of the sequence. -/
theorem values_perm (h : a.Keeps xs) : a.values.Perm (xs.map Prod.snd) := by
  have hvalue : (xs.map Prod.fst).filterMap (fun slot => a.value? slot) = xs.map Prod.snd := by
    rw [List.filterMap_map, ← List.filterMap_eq_map]
    exact List.filterMap_congr fun x hx => h.value?_of_mem hx
  have hused : (xs.map Prod.fst).Perm
      ((List.range a.slots.size).filter fun slot => (a.value? slot).isSome) := by
    refine (List.perm_ext_iff_of_nodup h.nodup (List.nodup_range.filter _)).2 fun slot => ?_
    rw [List.mem_filter, List.mem_range]
    refine ⟨fun hs => ⟨h.lt_size hs, ?_⟩, fun hs => h.live slot ?_⟩
    · simpa [value?, Option.isSome_iff_ne_none] using (h.mem_iff slot).1 hs
    · simpa [value?, Option.isSome_iff_ne_none] using hs.2
  rw [values_eq, ← hvalue]
  refine List.Perm.trans (.of_eq ?_) (hused.symm.filterMap _)
  rw [List.filterMap_filter]
  refine List.filterMap_congr fun slot _ => ?_
  cases a.value? slot <;> rfl

/-! ## Operations -/

/-- A slot that is in use but outside the sequence can be added at its end. -/
theorem of_linkNewest {slot : Nat} {v : α} (h : a.Linked xs) (hf : a.FreeListed)
    (hs : slot ∉ xs.map Prod.fst) (hn : a.node? slot = some { value := v })
    (hl : ∀ t, a.node? t ≠ none → t = slot ∨ t ∈ xs.map Prod.fst) :
    (a.linkNewest slot).Keeps (xs ++ [(slot, v)]) where
  toLinked := h.linkNewest hs hn
  live t ht := by
    have := hl t fun e => ht (((sameUse_linkNewest a slot).node t).2 e)
    simpa [or_comm] using this
  free := (sameUse_linkNewest a slot).freeListed hf

/-- A slot that is used moves to the end. -/
theorem moveNewest (h : a.Keeps (pre ++ x :: post)) :
    (a.moveNewest x.1).Keeps (pre ++ post ++ [x]) := by
  have hx := h.node pre x post rfl
  have hnd := h.nodup
  refine of_linkNewest h.unlink ((sameUse_unlink a x.1).freeListed h.free) (by grind) ?_ ?_
  · exact Linked.node?_unlink_self hx (fun e => by grind [mem_of_lastSlot e])
      fun e => by grind [mem_of_firstSlot e]
  · intro t ht
    have := h.live t fun e => ht (((sameUse_unlink a x.1).node t).2 e)
    grind

/-- A new value goes to the end, in a slot that was not in use. -/
theorem pushNewest (h : a.Keeps xs) (v : α) :
    (a.pushNewest v).2.Keeps (xs ++ [((a.pushNewest v).1, v)]) := by
  have hs : (a.store v).1 ∉ xs.map Prod.fst := fun hs =>
    (h.mem_iff _).1 hs (node?_store_fst h.free v)
  have hlinked : (a.store v).2.Linked xs :=
    h.toLinked.congr (fun t ht => node?_store_of_ne a v fun e => hs (e ▸ ht))
      (oldest_store a v) (newest_store a v)
  refine of_linkNewest hlinked (h.free.store v) hs (node?_store_self h.free v) fun t ht => ?_
  by_cases e : (a.store v).1 = t
  · exact .inl e.symm
  · exact .inr (h.live t (node?_store_of_ne a v e ▸ ht))

/-- The first value leaves, and its slot becomes vacant. -/
theorem popOldest (h : a.Keeps (x :: xs)) :
    a.popOldest.1 = some x.2 ∧ a.popOldest.2.Keeps xs := by
  have hold : a.oldest = some x.1 := h.oldest
  have hnd := h.nodup
  rw [Arena.popOldest, hold]
  refine ⟨h.value?_of_mem List.mem_cons_self, ?_, fun t ht => ?_, ?_⟩
  · have hlinked : a.Linked ([] ++ x :: xs) := h.toLinked
    refine hlinked.unlink.congr (fun t ht => ?_) rfl rfl
    exact node?_vacate_of_ne fun e => by grind
  · have hne : x.1 ≠ t := fun e => ht (e ▸ node?_vacate_self x.1)
    rw [node?_vacate_of_ne hne, ne_eq, (sameUse_unlink a x.1).node] at ht
    have := h.live t ht
    grind
  · exact h.free.vacate ((h.mem_iff x.1).1 (by simp))

end Keeps

end Arena

end BitmapText
