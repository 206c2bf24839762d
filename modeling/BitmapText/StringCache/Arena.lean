/-!
# Linked arenas

A sequence of values that is reordered often. The values live in numbered slots, and each slot names
the slots before and after it, so that a value moves to the end, or leaves the front, without the
others being touched. Slots that have become vacant are used again before new ones are added.

## Main definitions

* `Arena`: slots, vacant slots, and the two ends.
* `Arena.pushNewest`: add a value at the end.
* `Arena.moveNewest`: move a value to the end.
* `Arena.popOldest`: take the first value away.
* `Arena.toList`: the values with their slots, from the first to the last.
-/

namespace BitmapText

/-- A value with the slots of its two neighbours. -/
structure Arena.Node (α : Type) where
  value : α
  older : Option Nat := none
  newer : Option Nat := none
deriving Repr

/-- A sequence kept in numbered slots. -/
structure Arena (α : Type) where
  slots : Array (Option (Arena.Node α)) := #[]
  /-- The vacant slots, the one vacated last in front. -/
  vacant : List Nat := []
  oldest : Option Nat := none
  newest : Option Nat := none

namespace Arena

variable {α : Type}

def empty : Arena α := {}

/-- The node in a slot, if the slot is in use. -/
def node? (a : Arena α) (slot : Nat) : Option (Node α) := a.slots[slot]?.join

/-- The value in a slot, if the slot is in use. -/
def value? (a : Arena α) (slot : Nat) : Option α := (a.node? slot).map Node.value

def values (a : Arena α) : List α := a.slots.toList.filterMap fun node? => node?.map Node.value

/-! ## The sequence -/

/-- Follow the sequence from `cursor` towards its end, for `steps` slots at most. -/
def walk (a : Arena α) : Nat → Option Nat → List (Nat × α)
  | 0, _ => []
  | _ + 1, none => []
  | steps + 1, some slot =>
    match a.node? slot with
    | none => []
    | some node => (slot, node.value) :: a.walk steps node.newer

/-- The values with their slots, from the first to the last. No sequence is longer than the number
of slots. -/
def toList (a : Arena α) : List (Nat × α) := a.walk a.slots.size a.oldest

/-! ## Links -/

/-- Change the node in a slot that is in use. -/
def modifyNode (a : Arena α) (slot : Nat) (f : Node α → Node α) : Arena α :=
  { a with slots := a.slots.modify slot (Option.map f) }

/-- Let `newer` follow `slot`; without a slot, `newer` becomes the first. -/
def linkForward (a : Arena α) (slot newer : Option Nat) : Arena α :=
  match slot with
  | some slot => a.modifyNode slot fun node => { node with newer }
  | none => { a with oldest := newer }

/-- Let `older` precede `slot`; without a slot, `older` becomes the last. -/
def linkBackward (a : Arena α) (slot older : Option Nat) : Arena α :=
  match slot with
  | some slot => a.modifyNode slot fun node => { node with older }
  | none => { a with newest := older }

/-- Take `slot` out of the sequence and join its neighbours. Its value stays where it is. -/
def unlink (a : Arena α) (slot : Nat) : Arena α :=
  match a.node? slot with
  | none => a
  | some { older, newer, .. } =>
    let a := a.modifyNode slot fun node => { node with older := none, newer := none }
    (a.linkForward older newer).linkBackward newer older

/-- Put a slot that is outside the sequence at its end. -/
def linkNewest (a : Arena α) (slot : Nat) : Arena α :=
  let last := a.newest
  let a := a.modifyNode slot fun node => { node with older := last }
  let a := a.linkForward last (some slot)
  { a with newest := some slot }

/-! ## Operations -/

/-- Store a value outside the sequence, in a vacant slot if there is one. -/
def store (a : Arena α) (value : α) : Nat × Arena α :=
  match a.vacant with
  | slot :: vacant =>
    (slot, { a with slots := a.slots.setIfInBounds slot (some { value }), vacant })
  | [] => (a.slots.size, { a with slots := a.slots.push (some { value }) })

/-- Add a value at the end; the answer starts with its slot. -/
def pushNewest (a : Arena α) (value : α) : Nat × Arena α :=
  match a.store value with
  | (slot, a) => (slot, a.linkNewest slot)

/-- Move a slot to the end of the sequence. -/
def moveNewest (a : Arena α) (slot : Nat) : Arena α := (a.unlink slot).linkNewest slot

/-- Empty a slot: its value leaves the sequence and the slot becomes vacant. -/
def vacate (a : Arena α) (slot : Nat) : Arena α :=
  let a := a.unlink slot
  { a with slots := a.slots.setIfInBounds slot none, vacant := slot :: a.vacant }

/-- Take the first value away; the answer starts with that value. -/
def popOldest (a : Arena α) : Option α × Arena α :=
  match a.oldest with
  | none => (none, a)
  | some slot => (a.value? slot, a.vacate slot)

end Arena

end BitmapText
