import BitmapText.StringCache.Arena
import Mathlib.Data.List.Nodup

/-!
# Links of an arena

What the links of an arena say, without following them: each slot of a sequence names its two
neighbours, and the arena names the two ends. A sequence is cut at a value (`pre ++ x :: post`)
rather than at an index, so that taking a value out and adding one at the end are list equations.

## Main definitions

* `Arena.Linked`: the links of an arena spell a sequence.

## Main statements

* `Arena.Linked.unlink`: taking a slot out leaves the rest linked.
* `Arena.Linked.linkNewest`: a slot outside can be added at the end.
-/

namespace BitmapText

namespace Arena

variable {α : Type}

/-! ## Nodes after a change -/

@[simp] theorem node?_modifyNode (a : Arena α) (slot t : Nat) (f : Node α → Node α) :
    (a.modifyNode slot f).node? t = if slot = t then (a.node? t).map f else a.node? t := by
  simp only [node?, modifyNode, Array.getElem?_modify]
  split
  · cases a.slots[t]? <;> rfl
  · rfl

@[simp] theorem oldest_modifyNode (a : Arena α) (slot : Nat) (f : Node α → Node α) :
    (a.modifyNode slot f).oldest = a.oldest := rfl

@[simp] theorem newest_modifyNode (a : Arena α) (slot : Nat) (f : Node α → Node α) :
    (a.modifyNode slot f).newest = a.newest := rfl

@[simp] theorem node?_linkForward (a : Arena α) (slot newer : Option Nat) (t : Nat) :
    (a.linkForward slot newer).node? t =
      if slot = some t then (a.node? t).map ({ · with newer }) else a.node? t := by
  cases slot with
  | none => rfl
  | some slot => simp [linkForward]

@[simp] theorem node?_linkBackward (a : Arena α) (slot older : Option Nat) (t : Nat) :
    (a.linkBackward slot older).node? t =
      if slot = some t then (a.node? t).map ({ · with older }) else a.node? t := by
  cases slot with
  | none => rfl
  | some slot => simp [linkBackward]

@[simp] theorem oldest_linkForward (a : Arena α) (slot newer : Option Nat) :
    (a.linkForward slot newer).oldest = if slot = none then newer else a.oldest := by
  cases slot <;> simp [linkForward]

@[simp] theorem newest_linkForward (a : Arena α) (slot newer : Option Nat) :
    (a.linkForward slot newer).newest = a.newest := by
  cases slot <;> rfl

@[simp] theorem oldest_linkBackward (a : Arena α) (slot older : Option Nat) :
    (a.linkBackward slot older).oldest = a.oldest := by
  cases slot <;> rfl

@[simp] theorem newest_linkBackward (a : Arena α) (slot older : Option Nat) :
    (a.linkBackward slot older).newest = if slot = none then older else a.newest := by
  cases slot <;> simp [linkBackward]

/-! ## Sequences -/

def firstSlot (xs : List (Nat × α)) : Option Nat := xs.head?.map Prod.fst

def lastSlot (xs : List (Nat × α)) : Option Nat := xs.getLast?.map Prod.fst

@[simp] theorem firstSlot_nil : firstSlot ([] : List (Nat × α)) = none := rfl

@[simp] theorem firstSlot_cons (x : Nat × α) (xs : List (Nat × α)) :
    firstSlot (x :: xs) = some x.1 := rfl

@[simp] theorem lastSlot_nil : lastSlot ([] : List (Nat × α)) = none := rfl

@[simp] theorem lastSlot_concat (xs : List (Nat × α)) (x : Nat × α) :
    lastSlot (xs ++ [x]) = some x.1 := by simp [lastSlot]

@[simp] theorem lastSlot_cons_cons (x y : Nat × α) (xs : List (Nat × α)) :
    lastSlot (x :: y :: xs) = lastSlot (y :: xs) := by simp [lastSlot]

theorem mem_of_firstSlot {xs : List (Nat × α)} {slot : Nat} (h : firstSlot xs = some slot) :
    slot ∈ xs.map Prod.fst := by
  cases xs with
  | nil => simp at h
  | cons x xs => simp_all

theorem mem_of_lastSlot {xs : List (Nat × α)} {slot : Nat} (h : lastSlot xs = some slot) :
    slot ∈ xs.map Prod.fst := by
  obtain ⟨x, hx, rfl⟩ := Option.map_eq_some_iff.1 h
  exact List.mem_map_of_mem (List.mem_of_getLast? hx)

theorem firstSlot_append (xs ys : List (Nat × α)) :
    firstSlot (xs ++ ys) = (firstSlot xs).or (firstSlot ys) := by
  cases xs <;> simp [firstSlot]

theorem lastSlot_append (xs ys : List (Nat × α)) :
    lastSlot (xs ++ ys) = (lastSlot ys).or (lastSlot xs) := by
  simp only [lastSlot, List.getLast?_append]
  cases ys.getLast? <;> simp

theorem lastSlot_ne_of_nodup {p m : List (Nat × α)} {y z : Nat × α}
    (h : ((p ++ y :: z :: m).map Prod.fst).Nodup) : lastSlot (p ++ y :: z :: m) ≠ some y.1 := by
  intro e
  have hlast : lastSlot (z :: m) = some y.1 := by
    simpa [lastSlot_append, lastSlot, List.getLast?_cons] using e
  grind [mem_of_lastSlot hlast]

/-- The slots of `xs`, in this order, are linked both ways between the two ends of `a`, and hold
its values. Other slots may be in use as well. -/
structure Linked (a : Arena α) (xs : List (Nat × α)) : Prop where
  nodup : (xs.map Prod.fst).Nodup
  oldest : a.oldest = firstSlot xs
  newest : a.newest = lastSlot xs
  node : ∀ pre x post, xs = pre ++ x :: post →
    a.node? x.1 = some { value := x.2, older := lastSlot pre, newer := firstSlot post }

namespace Linked

variable {a : Arena α} {xs pre post : List (Nat × α)} {x : Nat × α}

theorem node_of_mem (h : a.Linked xs) (hx : x ∈ xs) : ∃ n, a.node? x.1 = some n ∧ n.value = x.2 := by
  obtain ⟨pre, post, rfl⟩ := List.append_of_mem hx
  exact ⟨_, h.node pre x post rfl, rfl⟩

theorem node?_ne_none (h : a.Linked xs) {slot : Nat} (hs : slot ∈ xs.map Prod.fst) :
    a.node? slot ≠ none := by
  obtain ⟨x, hx, rfl⟩ := List.mem_map.1 hs
  obtain ⟨n, hn, -⟩ := h.node_of_mem hx
  simp [hn]

theorem value?_of_mem (h : a.Linked xs) (hx : x ∈ xs) : a.value? x.1 = some x.2 := by
  obtain ⟨n, hn, hv⟩ := h.node_of_mem hx
  simp [value?, hn, hv]

theorem congr {b : Arena α} (h : a.Linked xs)
    (hnode : ∀ t ∈ xs.map Prod.fst, b.node? t = a.node? t) (hold : b.oldest = a.oldest)
    (hnew : b.newest = a.newest) : b.Linked xs where
  nodup := h.nodup
  oldest := hold.trans h.oldest
  newest := hnew.trans h.newest
  node pre x post hcut :=
    (hnode x.1 (List.mem_map_of_mem (by simp [hcut]))).trans (h.node pre x post hcut)

/-- Following the links visits exactly the sequence. -/
theorem walk_eq (h : a.Linked (pre ++ post)) {steps : Nat} (hs : post.length ≤ steps) :
    a.walk steps (firstSlot post) = post := by
  induction post generalizing pre steps with
  | nil => cases steps <;> rfl
  | cons x post ih =>
    obtain ⟨steps, rfl⟩ : ∃ n, steps = n + 1 := ⟨steps - 1, by simp at hs; omega⟩
    have hnode := h.node pre x post rfl
    have hnext : a.Linked (pre ++ [x] ++ post) := by simpa using h
    have hrest := ih hnext (by simpa using hs)
    simp [walk, hnode, hrest]

/-! ## Taking a slot out -/

/-- The node of a slot after `slot` was taken out from between `older` and `newer`. -/
theorem node?_unlink {slot : Nat} {v : α} {older newer : Option Nat}
    (hs : a.node? slot = some { value := v, older, newer }) {t : Nat} (ht : slot ≠ t) :
    (a.unlink slot).node? t = (a.node? t).map fun n =>
      { value := n.value
        older := if newer = some t then older else n.older
        newer := if older = some t then newer else n.newer } := by
  simp only [Arena.unlink, hs, node?_linkBackward, node?_linkForward, node?_modifyNode, if_neg ht]
  cases a.node? t <;> split_ifs <;> simp

theorem node?_unlink_self {slot : Nat} {v : α} {older newer : Option Nat}
    (hs : a.node? slot = some { value := v, older, newer }) (ho : older ≠ some slot)
    (hn : newer ≠ some slot) : (a.unlink slot).node? slot = some { value := v } := by
  simp [Arena.unlink, hs, ho, hn]

/-- Where a value stands in a sequence from which one value was taken out. -/
theorem cut_cases {p q : List (Nat × α)} {y : Nat × α} (h : pre ++ post = p ++ y :: q) :
    (∃ m, pre = p ++ y :: m ∧ q = m ++ post) ∨ ∃ m, post = m ++ y :: q ∧ p = pre ++ m := by
  obtain ⟨m, rfl, hm⟩ | ⟨m, rfl, hm⟩ := List.append_eq_append_iff.1 h
  · exact .inr ⟨m, hm, rfl⟩
  · cases m with
    | nil => exact .inr ⟨[], by simpa using hm.symm, by simp⟩
    | cons z m =>
      obtain ⟨rfl, rfl⟩ := List.cons.inj hm
      exact .inl ⟨m, rfl, rfl⟩

/-- A slot that is taken out leaves the others linked. -/
theorem unlink (h : a.Linked (pre ++ x :: post)) : (a.unlink x.1).Linked (pre ++ post) := by
  have hx := h.node pre x post rfl
  have hnd : ((pre ++ x :: post).map Prod.fst).Nodup := h.nodup
  have hsub : ((pre ++ post).map Prod.fst).Nodup :=
    hnd.sublist (((List.sublist_cons_self x post).append_left pre).map _)
  refine ⟨hsub, ?_, ?_, ?_⟩
  · simp only [Arena.unlink, hx, oldest_linkBackward, oldest_linkForward, oldest_modifyNode,
      h.oldest]
    cases pre <;> simp [lastSlot, firstSlot]
  · simp only [Arena.unlink, hx, newest_linkBackward, newest_linkForward, newest_modifyNode,
      h.newest, lastSlot_append]
    cases post <;> simp [lastSlot, firstSlot]
  · intro p y q hcut
    have hne : x.1 ≠ y.1 := by
      have hy : y.1 ∈ (pre ++ post).map Prod.fst := List.mem_map_of_mem (by simp [hcut])
      grind
    rw [node?_unlink hx hne]
    obtain ⟨m, rfl, rfl⟩ | ⟨m, rfl, rfl⟩ := cut_cases hcut
    · -- `y` stands before `x`, and may be its older neighbour
      have hy := h.node p y (m ++ x :: post) (by simp)
      have hfirst : firstSlot post ≠ some y.1 := fun e => by grind [mem_of_firstSlot e]
      cases m with
      | nil => simp [hy, hfirst]
      | cons z m =>
        have hlast := lastSlot_ne_of_nodup (p := p) (y := y) (z := z) (m := m) (by grind)
        simp [hy, hfirst, hlast]
    · -- `y` stands after `x`, and may be its newer neighbour
      have hy := h.node (pre ++ x :: m) y q (by simp)
      have hlast : lastSlot pre ≠ some y.1 := fun e => by grind [mem_of_lastSlot e]
      cases m with
      | nil => simp [hy, hlast]
      | cons z m =>
        have hfirst : z.1 ≠ y.1 := by grind
        simp [hy, hfirst, hlast, lastSlot_append]

/-! ## Adding a slot at the end -/

theorem node?_linkNewest {slot t : Nat} (ht : slot ≠ t) :
    (a.linkNewest slot).node? t = (a.node? t).map fun n =>
      { n with newer := if a.newest = some t then some slot else n.newer } := by
  change ((a.modifyNode slot _).linkForward a.newest (some slot)).node? t = _
  simp only [node?_linkForward, node?_modifyNode, if_neg ht]
  cases a.node? t <;> split_ifs <;> simp

theorem node?_linkNewest_self {slot : Nat} (hn : a.newest ≠ some slot) :
    (a.linkNewest slot).node? slot = (a.node? slot).map ({ · with older := a.newest }) := by
  change ((a.modifyNode slot _).linkForward a.newest (some slot)).node? slot = _
  simp [hn]

/-- A detached slot that is added at the end is linked there. -/
theorem linkNewest (h : a.Linked xs) {slot : Nat} {v : α} (hs : slot ∉ xs.map Prod.fst)
    (hnode : a.node? slot = some { value := v }) : (a.linkNewest slot).Linked (xs ++ [(slot, v)]) := by
  have hself : a.newest ≠ some slot := fun e => hs (mem_of_lastSlot (h.newest ▸ e))
  have hnd := h.nodup
  refine ⟨by grind, ?_, by simp [Arena.linkNewest], ?_⟩
  · change ((a.modifyNode slot _).linkForward a.newest (some slot)).oldest = _
    simp only [oldest_linkForward, oldest_modifyNode, h.oldest, h.newest]
    rcases List.eq_nil_or_concat xs with rfl | ⟨ys, y, rfl⟩
    · simp
    · simp [firstSlot_append]
  · intro p y q hcut
    obtain ⟨m, rfl, rfl⟩ | ⟨m, hm, rfl⟩ := cut_cases hcut
    · -- `y` was there before, and may be the old end
      have hy := h.node p y m rfl
      have hne : slot ≠ y.1 := by grind
      rw [node?_linkNewest hne, hy, h.newest]
      cases m with
      | nil => simp
      | cons z m =>
        simp [lastSlot_ne_of_nodup hnd]
    · -- `y` is the new end
      obtain ⟨rfl, rfl, rfl⟩ : m = [] ∧ y = (slot, v) ∧ q = [] := by
        cases m <;> simp_all
      rw [node?_linkNewest_self hself, hnode, h.newest]
      simp

end Linked

end Arena

end BitmapText
