import BitmapText.Proofs.Arena.Sequence
import Mathlib.Data.List.Induction

/-!
# Accesses to an arena

The operations of an arena are total: they pass over a slot that is not in use, and over one that
does not exist. Here are the same operations with every access checked, so that they fail at such a
slot, and the links of an arena as trails that a reader follows. In an arena that keeps a sequence
no access fails and every trail ends.

## Main definitions

* `Arena.Trail`: following links meets slots in use and comes to an end.
* `Arena.Checked`: the operations, failing at the first access to a slot that is not in use.

## Main statements

* `Arena.Linked.trail_newer`, `Arena.Linked.trail_older`: the two trails of a sequence.
* `Arena.Keeps.checked_pushNewest`, `Arena.Keeps.checked_moveNewest`,
  `Arena.Keeps.checked_popOldest`: no access of these operations fails.
-/

namespace BitmapText

namespace Arena

variable {α : Type} {a : Arena α} {xs pre post : List (Nat × α)} {x : Nat × α}

/-! ## Trails -/

/-- Following the links `next` from a cursor leads through the slots of `xs`, all of them in use and
with these values, and then to no slot. -/
inductive Trail (a : Arena α) (next : Node α → Option Nat) : Option Nat → List (Nat × α) → Prop where
  | done : Trail a next none []
  | step {slot : Nat} {node : Node α} {xs : List (Nat × α)} :
      a.node? slot = some node → Trail a next (next node) xs →
        Trail a next (some slot) ((slot, node.value) :: xs)

/-- The links to newer slots lead from every place of a sequence to its end. -/
theorem Linked.trail_newer (h : a.Linked (pre ++ post)) :
    a.Trail Node.newer (firstSlot post) post := by
  induction post generalizing pre with
  | nil => exact .done
  | cons x post ih =>
    have hnext : a.Linked (pre ++ [x] ++ post) := by simpa using h
    exact .step (h.node pre x post rfl) (ih hnext)

/-- The links to older slots lead from every place of a sequence back to its start. -/
theorem Linked.trail_older (h : a.Linked (pre ++ post)) :
    a.Trail Node.older (lastSlot pre) pre.reverse := by
  induction pre using List.reverseRecOn generalizing post with
  | nil => exact .done
  | append_singleton pre x ih =>
    have hcut : a.Linked (pre ++ x :: post) := by simpa using h
    rw [lastSlot_concat, List.reverse_concat]
    exact .step (hcut.node pre x post rfl) (ih hcut)

/-! ## Checked operations -/

namespace Checked

/-- Change the node in a slot, which has to be in use. -/
def modifyNode (a : Arena α) (slot : Nat) (f : Node α → Node α) : Option (Arena α) :=
  match a.node? slot with
  | none => none
  | some _ => some (a.modifyNode slot f)

def linkForward (a : Arena α) (slot newer : Option Nat) : Option (Arena α) :=
  match slot with
  | some slot => modifyNode a slot fun node => { node with newer }
  | none => some { a with oldest := newer }

def linkBackward (a : Arena α) (slot older : Option Nat) : Option (Arena α) :=
  match slot with
  | some slot => modifyNode a slot fun node => { node with older }
  | none => some { a with newest := older }

/-- Take `slot` out of the sequence; it and its neighbours have to be in use. -/
def unlink (a : Arena α) (slot : Nat) : Option (Arena α) := do
  let node ← a.node? slot
  let a ← modifyNode a slot fun node => { node with older := none, newer := none }
  let a ← linkForward a node.older node.newer
  linkBackward a node.newer node.older

/-- Put `slot` at the end of the sequence; it and the slot at the end have to be in use. -/
def linkNewest (a : Arena α) (slot : Nat) : Option (Arena α) := do
  let last := a.newest
  let a ← modifyNode a slot fun node => { node with older := last }
  let a ← linkForward a last (some slot)
  some { a with newest := some slot }

/-- Store a value outside the sequence; a vacant slot has to exist. -/
def store (a : Arena α) (value : α) : Option (Nat × Arena α) :=
  match a.vacant with
  | slot :: _ => if slot < a.slots.size then some (a.store value) else none
  | [] => some (a.store value)

def pushNewest (a : Arena α) (value : α) : Option (Nat × Arena α) := do
  let (slot, a) ← store a value
  let a ← linkNewest a slot
  some (slot, a)

def moveNewest (a : Arena α) (slot : Nat) : Option (Arena α) := do
  let a ← unlink a slot
  linkNewest a slot

/-- Empty a slot, which has to be in use when it leaves the sequence and to exist afterwards. -/
def vacate (a : Arena α) (slot : Nat) : Option (Arena α) := do
  let a ← unlink a slot
  if slot < a.slots.size then
    some { a with slots := a.slots.setIfInBounds slot none, vacant := slot :: a.vacant }
  else none

def popOldest (a : Arena α) : Option (Option α × Arena α) :=
  match a.oldest with
  | none => some (none, a)
  | some slot => do
    let value ← a.value? slot
    let a ← vacate a slot
    some (some value, a)

/-! ### Links -/

theorem modifyNode_eq {slot : Nat} (h : a.node? slot ≠ none) (f : Node α → Node α) :
    modifyNode a slot f = some (a.modifyNode slot f) := by
  obtain ⟨node, hnode⟩ := Option.ne_none_iff_exists'.1 h
  simp only [modifyNode, hnode]

theorem linkForward_eq {slot : Option Nat} (h : ∀ t, slot = some t → a.node? t ≠ none)
    (newer : Option Nat) : linkForward a slot newer = some (a.linkForward slot newer) := by
  cases slot with
  | none => rfl
  | some slot => exact modifyNode_eq (h slot rfl) _

theorem linkBackward_eq {slot : Option Nat} (h : ∀ t, slot = some t → a.node? t ≠ none)
    (older : Option Nat) : linkBackward a slot older = some (a.linkBackward slot older) := by
  cases slot with
  | none => rfl
  | some slot => exact modifyNode_eq (h slot rfl) _

theorem unlink_eq {slot : Nat} {node : Node α} (hs : a.node? slot = some node)
    (ho : ∀ t, node.older = some t → a.node? t ≠ none)
    (hn : ∀ t, node.newer = some t → a.node? t ≠ none) :
    unlink a slot = some (a.unlink slot) := by
  have hself := modifyNode_eq (Option.ne_none_iff_exists'.2 ⟨node, hs⟩)
    fun node => { node with older := none, newer := none }
  -- Changing links leaves every slot in use that was in use before.
  have hdetach := sameUse_modifyNode a slot fun node => { node with older := none, newer := none }
  have hjoin := hdetach.trans (sameUse_linkForward _ node.older node.newer)
  have hforward := linkForward_eq (fun t ht => mt (hdetach.node t).1 (ho t ht)) node.newer
  have hbackward := linkBackward_eq (fun t ht => mt (hjoin.node t).1 (hn t ht)) node.older
  simp only [unlink, Arena.unlink, hs, hself, hforward, hbackward, Option.bind_eq_bind,
    Option.bind_some]

theorem linkNewest_eq {slot : Nat} (hs : a.node? slot ≠ none)
    (hl : ∀ t, a.newest = some t → a.node? t ≠ none) :
    linkNewest a slot = some (a.linkNewest slot) := by
  have hself := modifyNode_eq hs fun node => { node with older := a.newest }
  have hattach := sameUse_modifyNode a slot fun node => { node with older := a.newest }
  have hforward := linkForward_eq (fun t ht => mt (hattach.node t).1 (hl t ht)) (some slot)
  simp only [linkNewest, Arena.linkNewest, hself, hforward, Option.bind_eq_bind, Option.bind_some]

theorem store_eq (h : a.FreeListed) (v : α) : store a v = some (a.store v) := by
  unfold store
  cases hv : a.vacant with
  | nil => rfl
  | cons slot vacant =>
    have hlt : slot < a.slots.size := ((h.mem_iff slot).1 (by simp [hv])).1
    simp only [if_pos hlt]

end Checked

/-! ## Sequences -/

theorem Linked.checked_unlink (h : a.Linked (pre ++ x :: post)) :
    Checked.unlink a x.1 = some (a.unlink x.1) := by
  refine Checked.unlink_eq (h.node pre x post rfl) (fun t ht => ?_) (fun t ht => ?_)
  · have hmem := mem_of_lastSlot ht
    exact h.node?_ne_none (by grind)
  · have hmem := mem_of_firstSlot ht
    exact h.node?_ne_none (by grind)

theorem Linked.checked_linkNewest (h : a.Linked xs) {slot : Nat} (hs : a.node? slot ≠ none) :
    Checked.linkNewest a slot = some (a.linkNewest slot) := by
  refine Checked.linkNewest_eq hs fun t ht => ?_
  rw [h.newest] at ht
  exact h.node?_ne_none (mem_of_lastSlot ht)

namespace Keeps

/-- No access fails when a value is added. -/
theorem checked_pushNewest (h : a.Keeps xs) (v : α) :
    Checked.pushNewest a v = some (a.pushNewest v) := by
  have hlinked : (a.store v).2.Linked xs := by
    refine h.toLinked.congr (fun t ht => node?_store_of_ne a v ?_) (oldest_store a v)
      (newest_store a v)
    rintro rfl
    exact (h.mem_iff _).1 ht (node?_store_fst h.free v)
  have hself : (a.store v).2.node? (a.store v).1 ≠ none := by simp [node?_store_self h.free v]
  simp only [Checked.pushNewest, Checked.store_eq h.free, hlinked.checked_linkNewest hself,
    Option.bind_eq_bind, Option.bind_some]
  rfl

/-- No access fails when a value is moved to the end. -/
theorem checked_moveNewest (h : a.Keeps (pre ++ x :: post)) :
    Checked.moveNewest a x.1 = some (a.moveNewest x.1) := by
  have hself : (a.unlink x.1).node? x.1 ≠ none := by
    rw [ne_eq, (sameUse_unlink a x.1).node]
    exact h.node?_ne_none (by simp)
  simp only [Checked.moveNewest, h.toLinked.checked_unlink, Option.bind_eq_bind, Option.bind_some]
  exact h.unlink.checked_linkNewest hself

/-- No access fails when the first value is taken away. -/
theorem checked_popOldest (h : a.Keeps (x :: xs)) :
    Checked.popOldest a = some a.popOldest := by
  have hold : a.oldest = some x.1 := h.oldest
  have hvalue : a.value? x.1 = some x.2 := h.value?_of_mem List.mem_cons_self
  have hlinked : a.Linked ([] ++ x :: xs) := h.toLinked
  have hlt : x.1 < (a.unlink x.1).slots.size := by
    rw [(sameUse_unlink a x.1).size]
    exact h.lt_size (by simp)
  simp only [Checked.popOldest, Arena.popOldest, hold, hvalue, Checked.vacate,
    hlinked.checked_unlink, if_pos hlt, Option.bind_eq_bind, Option.bind_some]
  rfl

end Keeps

end Arena

end BitmapText
