import BitmapText.Proofs.Arena.Checked
import BitmapText.Proofs.StringCache.Retention

/-!
# Well-formed string caches

What the index, the links and the vacant slots of a cache say about each other, in terms of the
slots alone: no list of entries is given beforehand, a reader finds it by following the links. Every
use leaves a cache like that, and in such a cache no use touches a slot that does not exist or that
holds nothing. `StringCache.Checked` is the cache with every access checked, in the order in which
the accesses are made; it comes to the same.

## Main definitions

* `StringCache.WellFormed`: index, links and vacant slots agree.
* `StringCache.Checked.use`: a use that fails at the first access to a slot that is not in use.

## Main statements

* `StringCache.Holds.wellFormed`: a cache that holds entries is well-formed.
* `StringCache.Holds.checked_use`: no access of a use fails.
* `StringCache.wellFormed_answerAll`: so it is at every time from empty.
-/

namespace BitmapText

namespace StringCache

/-- The links lead through the entries of `xs`, and index and vacant slots agree with them. -/
structure WellFormed (c : StringCache) (xs : List (Nat × Entry)) : Prop where
  /-- The links to newer slots lead from the oldest slot through all entries to the end. -/
  forward : c.arena.Trail Arena.Node.newer c.arena.oldest xs
  /-- The links to older slots lead from the newest slot through the same entries the other way. -/
  backward : c.arena.Trail Arena.Node.older c.arena.newest xs.reverse
  /-- No slot is met twice. -/
  nodup : (xs.map Prod.fst).Nodup
  /-- The slots that are met are those in use. -/
  mem_iff : ∀ slot, slot ∈ xs.map Prod.fst ↔ c.arena.node? slot ≠ none
  oldest_eq_none_iff : c.arena.oldest = none ↔ ∀ slot, c.arena.node? slot = none
  newest_eq_none_iff : c.arena.newest = none ↔ ∀ slot, c.arena.node? slot = none
  /-- The index leads the key of each slot in use to that slot, and no other key anywhere. -/
  index_eq_some_iff : ∀ key slot,
    c.index[key]? = some slot ↔ ∃ e, c.arena.value? slot = some e ∧ e.key = key
  keys_nodup : (xs.map fun x => x.2.key).Nodup
  size : c.size = xs.length
  /-- The vacant slots are those that exist and are not in use, once each. -/
  vacant_nodup : c.arena.vacant.Nodup
  mem_vacant_iff : ∀ slot,
    slot ∈ c.arena.vacant ↔ slot < c.arena.slots.size ∧ c.arena.node? slot = none

/-! ## Checked operations -/

namespace Checked

def dropOldest (c : StringCache) : Option StringCache := do
  match ← Arena.Checked.popOldest c.arena with
  | (some entry, arena) => some { c with index := c.index.erase entry.key, arena }
  | (none, arena) => some { c with arena }

def dropBatch (c : StringCache) (keep : Option Nat) : Nat → Option (Nat × StringCache)
  | 0 => some (0, c)
  | count + 1 =>
    if c.arena.oldest = none ∨ c.arena.oldest = keep then some (0, c)
    else do
      let c ← dropOldest c
      let (dropped, c) ← dropBatch c keep count
      some (dropped + 1, c)

def evictIfFull (c : StringCache) (keep : Option Nat) : Option (StringCache × Option Eviction) :=
  if c.size < c.limits.maxEntries then some (c, none)
  else do
    let (dropped, c) ← dropBatch c keep c.limits.truncateCount
    some ({ c with evictions := c.evictions + 1 }, some { dropped, remaining := c.size })

def touch (c : StringCache) (slot : Nat) : Option (StringCache × Option Eviction) :=
  if c.arena.newest = some slot then some (c, none)
  else do
    let arena ← Arena.Checked.moveNewest c.arena slot
    evictIfFull { c with arena } (some slot)

/-- Add an entry; the answer starts with its slot. -/
def insert (c : StringCache) (key : StringKey) (value : RenderedString) :
    Option (Nat × StringCache × Option Eviction) := do
  let (c, eviction) ← evictIfFull c none
  let (slot, arena) ← Arena.Checked.pushNewest c.arena { key, value }
  some (slot, { c with index := c.index.insert key slot, arena }, eviction)

variable {ε ω : Type}

/-- A request whose string is read from its slot at the very end, when a batch has been dropped. -/
def getOrRender (c : StringCache) (key : StringKey)
    (render : ω → Except ε RenderedString × ω) (world : ω) : Option (Outcome ε ω) :=
  match c.index[key]? with
  | some slot => do
    let (cache, eviction) ← touch c slot
    let entry ← cache.arena.value? slot
    some { result := .ok entry.value, cache, eviction, world }
  | none =>
    match render world with
    | (.error e, world) => some { result := .error e, cache := c, eviction := none, world }
    | (.ok value, world) => do
      let (slot, cache, eviction) ← insert c key value
      let entry ← cache.arena.value? slot
      some { result := .ok entry.value, cache, eviction, world }

def peek? (c : StringCache) (key : StringKey) : Option (Option RenderedString) :=
  match c.index[key]? with
  | none => some none
  | some slot => do
    let entry ← c.arena.value? slot
    some (some entry.value)

def use (s : StringCache × ω) : Use ε ω → Option (Use.Answer ε × StringCache × ω)
  | .request key render => do
    let o ← getOrRender s.1 key render s.2
    some (.served o.result o.eviction, o.cache, o.world)
  | .look key => do
    let found ← peek? s.1 key
    some (.found found, s)

end Checked

/-! ## Caches that hold entries -/

namespace Holds

variable {c : StringCache} {xs : List (Nat × Entry)} {x : Nat × Entry}

/-- A cache that holds entries is well-formed. -/
theorem wellFormed (h : c.Holds xs) : c.WellFormed xs := by
  have hforward : c.arena.Linked ([] ++ xs) := h.arena.toLinked
  have hbackward : c.arena.Linked (xs ++ []) := by simpa using h.arena.toLinked
  have hnone : xs = [] ↔ ∀ slot, c.arena.node? slot = none := by
    constructor
    · rintro rfl slot
      by_contra hs
      simpa using h.arena.live slot hs
    · intro hall
      cases xs with
      | nil => rfl
      | cons x xs => exact absurd (hall x.1) (h.arena.node?_ne_none (by simp))
  constructor
  case forward => rw [h.arena.oldest]; exact hforward.trail_newer
  case backward => rw [h.arena.newest]; exact hbackward.trail_older
  case nodup => exact h.arena.nodup
  case mem_iff => exact h.arena.mem_iff
  case oldest_eq_none_iff => rw [h.arena.oldest, ← hnone]; simp [Arena.firstSlot]
  case newest_eq_none_iff => rw [h.arena.newest, ← hnone]; simp [Arena.lastSlot]
  case index_eq_some_iff =>
    intro key slot
    rw [h.index]
    constructor
    · rintro ⟨e, he, rfl⟩
      exact ⟨e, h.arena.value?_of_mem he, rfl⟩
    · rintro ⟨e, he, rfl⟩
      -- A slot with a value is in use, so it is one of those of `xs`, with the value that `xs` says.
      have hused : c.arena.node? slot ≠ none := by
        intro hn
        simp [Arena.value?, hn] at he
      obtain ⟨x, hx, rfl⟩ := List.mem_map.1 (h.arena.live slot hused)
      have hx' : c.arena.value? x.1 = some x.2 := h.arena.value?_of_mem hx
      obtain rfl : x.2 = e := Option.some.inj (hx'.symm.trans he)
      exact ⟨x.2, hx, rfl⟩
  case keys_nodup => exact h.keys
  case size => exact h.size
  case vacant_nodup => exact h.arena.free.nodup
  case mem_vacant_iff => exact h.arena.free.mem_iff

theorem checked_dropOldest (h : c.Holds (x :: xs)) :
    Checked.dropOldest c = some c.dropOldest := by
  obtain ⟨hvalue, -⟩ := h.arena.popOldest
  rw [dropOldest_eq hvalue]
  simp only [Checked.dropOldest, h.arena.checked_popOldest, Option.bind_eq_bind, Option.bind_some]
  cases hp : c.arena.popOldest with
  | mk value arena =>
    obtain rfl : value = some x.2 := by simpa [hp] using hvalue
    rfl

/-- No access of a batch fails, whatever it has to keep. It takes entries from the front and comes
to an end when there are none, however many it may take. -/
theorem checked_dropBatch (h : c.Holds xs) (keep : Option Nat) (count : Nat) :
    Checked.dropBatch c keep count = some (c.dropBatch keep count) ∧
      ∃ ys, (c.dropBatch keep count).2.Holds ys ∧
        (c.dropBatch keep count).1 + ys.length = xs.length ∧ ys <:+ xs := by
  induction count generalizing c xs with
  | zero => exact ⟨rfl, xs, h, Nat.zero_add _, List.suffix_rfl⟩
  | succ count ih =>
    rw [Checked.dropBatch, StringCache.dropBatch]
    by_cases hstop : c.arena.oldest = none ∨ c.arena.oldest = keep
    · simp only [if_pos hstop]
      exact ⟨trivial, xs, h, Nat.zero_add _, List.suffix_rfl⟩
    · simp only [if_neg hstop]
      cases xs with
      | nil => exact absurd (.inl h.arena.oldest) hstop
      | cons x xs =>
        obtain ⟨hchecked, ys, hys, hlen, hsuffix⟩ := ih h.dropOldest
        simp only [h.checked_dropOldest, hchecked, Option.bind_eq_bind, Option.bind_some]
        refine ⟨trivial, ys, hys, ?_, hsuffix.trans (List.suffix_cons x xs)⟩
        rw [List.length_cons]
        omega

theorem checked_evictIfFull (h : c.Holds xs) (keep : Option Nat) :
    Checked.evictIfFull c keep = some (c.evictIfFull keep) ∧
      ∃ ys, (c.evictIfFull keep).1.Holds ys ∧ ys <:+ xs := by
  rw [Checked.evictIfFull, StringCache.evictIfFull]
  by_cases hroom : c.size < c.limits.maxEntries
  · simp only [if_pos hroom]
    exact ⟨trivial, xs, h, List.suffix_rfl⟩
  · obtain ⟨hchecked, ys, hys, -, hsuffix⟩ := h.checked_dropBatch keep c.limits.truncateCount
    simp only [if_neg hroom, hchecked, Option.bind_eq_bind, Option.bind_some]
    exact ⟨trivial, ys, ⟨hys.arena, hys.keys, hys.index, hys.size⟩, hsuffix⟩

/-- The slot that a batch keeps still holds its entry. -/
theorem value?_evictIfFull (h : c.Holds (xs ++ [x])) :
    (c.evictIfFull (some x.1)).1.arena.value? x.1 = some x.2 := by
  rw [StringCache.evictIfFull]
  by_cases hroom : c.size < c.limits.maxEntries
  · simp only [if_pos hroom]
    exact h.arena.value?_of_mem (by simp)
  · obtain ⟨-, hrest⟩ := h.dropBatch c.limits.truncateCount
    simp only [if_neg hroom]
    exact hrest.arena.value?_of_mem (by simp)

/-- No access of a hit fails, and its entry is in its slot afterwards. -/
theorem checked_touch (h : c.Holds xs) (hx : x ∈ xs) :
    Checked.touch c x.1 = some (c.touch x.1) ∧
      (c.touch x.1).1.arena.value? x.1 = some x.2 := by
  rw [Checked.touch, StringCache.touch]
  by_cases hlast : c.arena.newest = some x.1
  · simp only [if_pos hlast]
    exact ⟨trivial, h.arena.value?_of_mem hx⟩
  · obtain ⟨pre, post, rfl⟩ := List.append_of_mem hx
    have hmoved := h.moveNewest
    obtain ⟨hchecked, -⟩ := hmoved.checked_evictIfFull (some x.1)
    simp only [if_neg hlast, h.arena.checked_moveNewest, Option.bind_eq_bind, Option.bind_some]
    exact ⟨hchecked, hmoved.value?_evictIfFull⟩

/-- No access of an insertion fails, and the new entry is in the slot it was given. -/
theorem checked_insert (h : c.Holds xs) (key : StringKey) (value : RenderedString) :
    ∃ slot, Checked.insert c key value = some (slot, c.insert key value) ∧
      (c.insert key value).1.arena.value? slot = some ⟨key, value⟩ := by
  obtain ⟨hchecked, ys, hys, -⟩ := h.checked_evictIfFull none
  have hpushed := hys.arena.pushNewest ⟨key, value⟩
  refine ⟨((c.evictIfFull none).1.arena.pushNewest ⟨key, value⟩).1, ?_, ?_⟩
  · simp only [Checked.insert, hchecked, hys.arena.checked_pushNewest, Option.bind_eq_bind,
      Option.bind_some]
    rfl
  · exact hpushed.value?_of_mem (List.mem_append_right _ (List.mem_singleton_self _))

/-- The index leads to a slot that holds the key, or to none. -/
theorem find?_eq_of_index (h : c.Holds xs) {key : StringKey} {slot : Nat}
    (hi : c.index[key]? = some slot) : ∃ e, (slot, e) ∈ xs ∧ c.find? key = some (slot, e) := by
  obtain ⟨e, he, rfl⟩ := (h.index key slot).1 hi
  have hvalue : c.arena.value? slot = some e := h.arena.value?_of_mem he
  exact ⟨e, he, by simp only [find?, hi, hvalue, Option.map_some]⟩

variable {ε ω : Type}

/-- No access of a request fails. -/
theorem checked_getOrRender (h : c.Holds xs) (key : StringKey)
    (render : ω → Except ε RenderedString × ω) (world : ω) :
    Checked.getOrRender c key render world = some (c.getOrRender key render world) := by
  rw [Checked.getOrRender, StringCache.getOrRender]
  cases hi : c.index[key]? with
  | some slot =>
    obtain ⟨e, he, hf⟩ := h.find?_eq_of_index hi
    obtain ⟨hchecked, hvalue⟩ := h.checked_touch he
    simp only [hf, hchecked, hvalue, Option.bind_eq_bind, Option.bind_some]
  | none =>
    have hf : c.find? key = none := by simp only [find?, hi]
    cases hw : render world with
    | mk result world =>
      simp only [hf]
      cases result with
      | error e => rfl
      | ok value =>
        obtain ⟨slot, hchecked, hvalue⟩ := h.checked_insert key value
        simp only [hchecked, hvalue, Option.bind_eq_bind, Option.bind_some]

theorem checked_peek? (h : c.Holds xs) (key : StringKey) :
    Checked.peek? c key = some (c.peek? key) := by
  rw [Checked.peek?, StringCache.peek?]
  cases hi : c.index[key]? with
  | none => simp only [find?, hi, Option.map_none]
  | some slot =>
    obtain ⟨e, he, hf⟩ := h.find?_eq_of_index hi
    have hvalue : c.arena.value? slot = some e := h.arena.value?_of_mem he
    simp only [hf, hvalue, Option.bind_eq_bind, Option.bind_some, Option.map_some]

/-- No access of a use fails. -/
theorem checked_use {s : StringCache × ω} (h : s.1.Holds xs) (u : Use ε ω) :
    Checked.use s u = some (use s u) := by
  cases u with
  | request key render =>
    simp only [Checked.use, h.checked_getOrRender, Option.bind_eq_bind, Option.bind_some]
    rfl
  | look key =>
    simp only [Checked.use, h.checked_peek?, Option.bind_eq_bind, Option.bind_some]
    rfl

end Holds

/-! ## Every run -/

/-- At every time of a cache that starts empty, whatever its limits, it is well-formed: the links
lead once through each slot in use and back, the index leads to these slots and to nothing else, and
the vacant slots are the others. So no access of the next use fails, the keys are those that are met
along the links, and a batch of any size ends when it has taken what there is, or before. -/
theorem wellFormed_answerAll {ε ω : Type} (maxEntries truncateCount : Nat) (world : ω)
    (uses : List (Use ε ω)) :
    let s := (answerAll use (empty (.ofNat maxEntries truncateCount), world) uses).2
    ∃ xs, s.1.WellFormed xs ∧ (∀ u : Use ε ω, Checked.use s u = some (use s u)) ∧
      s.1.keysByRecency = xs.map (fun x => x.2.key) ∧
      ∀ keep count, ∃ batch, Checked.dropBatch s.1 keep count = some batch ∧
        batch.1 + batch.2.size = s.1.size := by
  intro s
  obtain ⟨-, -, hin, -⟩ := inStep_run (ε := ε) (.ofNat maxEntries truncateCount) world uses
  obtain ⟨xs, hxs, -⟩ := hin.holds
  refine ⟨xs, hxs.wellFormed, fun u => hxs.checked_use u, ?_, fun keep count => ?_⟩
  · rw [keysByRecency, hxs.entries_eq, List.map_map]
    rfl
  · obtain ⟨hchecked, ys, hys, hlen, -⟩ := hxs.checked_dropBatch keep count
    exact ⟨_, hchecked, by rw [size, size, hys.size, hxs.size, hlen]⟩

end StringCache

end BitmapText
