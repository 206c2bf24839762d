import BitmapText.Proofs.StringCache.Retention
import Mathlib.Data.List.Induction
import Mathlib.Order.Bounds.Basic

/-!
# Slots of a string cache

A cache never has more slots than it has needed at once. A slot is added only when all the others
are in use, which is when the cache holds more entries than ever before; otherwise a vacant one is
used again, and every slot that is not in use is on the list of the vacant ones.

## Main statements

* `Arena.Keeps.length_vacant`: each slot is either in use or listed as vacant.
* `Arena.Keeps.size_slots_pushNewest`: when a slot is added.
* `StringCache.Represents.size_slots_use`: what one use does to the number of slots.
* `StringCache.slots_eq_peak`: there are as many slots as there have been entries at once.
-/

namespace BitmapText

namespace Arena

variable {α : Type} {a : Arena α} {xs : List (Nat × α)}

/-- Each slot is either in use or listed as vacant. -/
theorem Keeps.length_vacant (h : a.Keeps xs) : a.vacant.length + xs.length = a.slots.size := by
  have hapart : a.vacant.Disjoint (xs.map Prod.fst) := by
    intro slot hvacant hused
    exact h.node?_ne_none hused ((h.free.mem_iff slot).1 hvacant).2
  have hall : (a.vacant ++ xs.map Prod.fst).Perm (List.range a.slots.size) := by
    refine (List.perm_ext_iff_of_nodup (h.free.nodup.append h.nodup hapart) List.nodup_range).2 ?_
    intro slot
    rw [List.mem_append, List.mem_range, h.free.mem_iff, h.mem_iff]
    constructor
    · rintro (⟨hlt, -⟩ | hused)
      · exact hlt
      · exact h.lt_size (h.live slot hused)
    · intro hlt
      by_cases hnone : a.node? slot = none
      · exact .inl ⟨hlt, hnone⟩
      · exact .inr hnone
  simpa using hall.length_eq

/-! ## Operations -/

/-- Storing a value adds a slot only if none is vacant. -/
theorem size_slots_store (a : Arena α) (v : α) :
    (a.store v).2.slots.size = if a.vacant = [] then a.slots.size + 1 else a.slots.size := by
  cases hv : a.vacant with
  | nil => simp [store_of_full hv]
  | cons slot vacant => simp [store_of_vacant hv]

theorem size_slots_moveNewest (a : Arena α) (slot : Nat) :
    (a.moveNewest slot).slots.size = a.slots.size :=
  ((sameUse_unlink a slot).trans (sameUse_linkNewest _ slot)).size

theorem size_slots_popOldest (a : Arena α) : a.popOldest.2.slots.size = a.slots.size := by
  unfold popOldest
  cases a.oldest with
  | none => rfl
  | some slot => exact (Array.size_setIfInBounds ..).trans (sameUse_unlink a slot).size

/-- A slot is added only for more values than there have been slots. -/
theorem Keeps.size_slots_pushNewest (h : a.Keeps xs) (v : α) :
    (a.pushNewest v).2.slots.size = max a.slots.size (xs.length + 1) := by
  have hlink : (a.pushNewest v).2.slots.size = (a.store v).2.slots.size :=
    (sameUse_linkNewest ..).size
  have hcount := h.length_vacant
  rw [hlink, size_slots_store]
  split
  · next hfull =>
    rw [hfull, List.length_nil] at hcount
    omega
  · next hvacant =>
    have hpos := List.length_pos_of_ne_nil hvacant
    omega

end Arena

namespace StringCache

variable {ε ω : Type} {c : StringCache} {r : Recency}

/-! ## Batches -/

theorem size_slots_dropOldest (c : StringCache) :
    c.dropOldest.arena.slots.size = c.arena.slots.size := by
  have hpop := c.arena.size_slots_popOldest
  simp only [dropOldest]
  split <;> simp_all

/-- A batch leaves its slots vacant. -/
theorem size_slots_dropBatch (c : StringCache) (keep : Option Nat) (count : Nat) :
    (c.dropBatch keep count).2.arena.slots.size = c.arena.slots.size := by
  fun_induction dropBatch c keep count <;> simp_all [size_slots_dropOldest]

theorem size_slots_evictIfFull (c : StringCache) (keep : Option Nat) :
    (c.evictIfFull keep).1.arena.slots.size = c.arena.slots.size := by
  unfold evictIfFull
  split
  · rfl
  · exact size_slots_dropBatch ..

/-! ## One use -/

theorem size_slots_touch (c : StringCache) (slot : Nat) :
    (c.touch slot).1.arena.slots.size = c.arena.slots.size := by
  unfold touch
  split
  · rfl
  · exact (size_slots_evictIfFull ..).trans (Arena.size_slots_moveNewest ..)

namespace Represents

/-- A cache has a slot for each of its entries. -/
theorem size_le_size_slots (h : c.Represents r) : c.size ≤ c.arena.slots.size := by
  obtain ⟨xs, hxs, -⟩ := h.holds
  rw [size, hxs.size]
  exact hxs.arena.length_le_size

/-- A new entry takes a new slot only if the cache has never held so many. -/
theorem size_slots_insert (h : c.Represents r) {key : StringKey}
    (hk : ∀ x ∈ r.entries, x.key ≠ key) (value : RenderedString) :
    (c.insert key value).1.arena.slots.size =
      max c.arena.slots.size (c.insert key value).1.size := by
  obtain ⟨xs, hxs, hr⟩ := h.holds
  have hlen : xs.length = r.entries.length := by rw [← hr, List.length_map]
  have hnil : c.Holds (xs ++ []) := by simpa using hxs
  obtain ⟨-, -, hroom⟩ := h.evictIfFull hnil (by simpa using hr)
  rw [Arena.firstSlot_nil, hlen] at hroom
  obtain ⟨ys, hys, hr'⟩ := hroom.holds
  obtain ⟨-, -, hin⟩ := h.insert (e := ⟨key, value⟩) hk
  have hsize : (c.insert key value).1.size = ys.length + 1 := by
    rw [hin.size_eq, ← List.length_map Prod.snd, hr']
    exact List.length_append
  have hslots := hys.arena.size_slots_pushNewest ⟨key, value⟩
  rw [size_slots_evictIfFull, ← hsize] at hslots
  exact hslots

/-- One use leaves as many slots as there were, or as there are entries if these are more. -/
theorem size_slots_use {s : StringCache × ω} (h : s.1.Represents r) (u : Use ε ω) :
    (use s u).2.1.arena.slots.size = max s.1.arena.slots.size (use s u).2.1.size := by
  have hstep : InStep s.1.limits s (r, s.2) := ⟨rfl, h, rfl⟩
  have hnext := (hstep.use u).2.represents.size_le_size_slots
  have hkept (hsame : (use s u).2.1.arena.slots.size = s.1.arena.slots.size) :
      (use s u).2.1.arena.slots.size = max s.1.arena.slots.size (use s u).2.1.size := by
    omega
  cases u with
  | look key => exact hkept rfl
  | request key render =>
    cases hf : s.1.find? key with
    | some found =>
      apply hkept
      simp only [use, StringCache.getOrRender, hf]
      exact size_slots_touch s.1 found.1
    | none =>
      have hnone := h.find?_eq_none hf
      have hk : ∀ x ∈ r.entries, x.key ≠ key := by simpa [Recency.find?] using hnone
      cases hw : render s.2 with
      | mk result world =>
        cases result with
        | error e =>
          apply hkept
          simp only [use, StringCache.getOrRender, hf, hw]
        | ok value =>
          simp only [use, StringCache.getOrRender, hf, hw]
          exact h.size_slots_insert hk value

end Represents

/-! ## Every run -/

/-- The last of several questions is asked in the state that the others left behind. -/
theorem answerAll_concat_snd {σ υ α : Type} (answer : σ → υ → α × σ) (s : σ) (us : List υ) (u : υ) :
    (answerAll answer s (us ++ [u])).2 = (answer (answerAll answer s us).2 u).2 := by
  induction us generalizing s with
  | nil => rfl
  | cons first rest ih => exact ih (answer s first).2

/-- The cache that is left of an empty one after some uses. -/
def afterUses (limits : Limits) (world : ω) (uses : List (Use ε ω)) : StringCache :=
  (answerAll use (empty limits, world) uses).2.1

/-- Such a cache is in step with some list, and its limits are those that it was made with. -/
theorem exists_represents_afterUses (limits : Limits) (world : ω) (uses : List (Use ε ω)) :
    ∃ r, (afterUses limits world uses).Represents r ∧
      (afterUses limits world uses).limits = limits :=
  have hrun := (inStep_run limits world uses).2
  ⟨_, hrun.represents, hrun.limits⟩

/-- A use that comes last may add a slot, for the entry that it adds. -/
theorem size_slots_afterUses_concat (limits : Limits) (world : ω) (uses : List (Use ε ω))
    (u : Use ε ω) :
    (afterUses limits world (uses ++ [u])).arena.slots.size =
      max (afterUses limits world uses).arena.slots.size
        (afterUses limits world (uses ++ [u])).size := by
  unfold afterUses
  rw [answerAll_concat_snd]
  exact (inStep_run limits world uses).2.represents.size_slots_use u

/-- There are as many slots as the largest number of entries on the way. -/
theorem isGreatest_size_afterUses (limits : Limits) (world : ω) (uses : List (Use ε ω)) :
    IsGreatest {n | ∃ before, before <+: uses ∧ (afterUses limits world before).size = n}
      (afterUses limits world uses).arena.slots.size := by
  induction uses using List.reverseRecOn with
  | nil =>
    refine ⟨⟨[], List.prefix_rfl, by simp [afterUses, answerAll, empty, size, Arena.empty]⟩, ?_⟩
    rintro n ⟨before, hbefore, rfl⟩
    rw [List.prefix_nil.1 hbefore]
    obtain ⟨r, hin, -⟩ := exists_represents_afterUses limits world []
    exact hin.size_le_size_slots
  | append_singleton uses u ih =>
    obtain ⟨⟨most, hmost, hsize⟩, hbound⟩ := ih
    rw [size_slots_afterUses_concat]
    constructor
    · rcases Nat.le_total (afterUses limits world uses).arena.slots.size
        (afterUses limits world (uses ++ [u])).size with hle | hle
      · exact ⟨uses ++ [u], List.prefix_rfl, (Nat.max_eq_right hle).symm⟩
      · exact ⟨most, hmost.trans (List.prefix_append ..), by rw [hsize, Nat.max_eq_left hle]⟩
    · rintro n ⟨before, hbefore, rfl⟩
      rcases List.prefix_concat_iff.1 hbefore with rfl | hearlier
      · exact Nat.le_max_right ..
      · exact Nat.le_trans (hbound ⟨before, hearlier, rfl⟩) (Nat.le_max_left ..)

/-- However many strings come and go, a cache that starts empty has exactly as many slots as it has
held entries at once. Those that are not in use are listed as vacant, and there are never more than
its limit. -/
theorem slots_eq_peak (maxEntries truncateCount : Nat) (world : ω) (uses : List (Use ε ω)) :
    let after (uses : List (Use ε ω)) := afterUses (.ofNat maxEntries truncateCount) world uses
    let c := after uses
    IsGreatest {n | ∃ before, before <+: uses ∧ (after before).size = n} c.arena.slots.size ∧
      c.size ≤ c.arena.slots.size ∧ c.arena.vacant.length = c.arena.slots.size - c.size ∧
      c.arena.slots.size ≤ max 1 maxEntries := by
  intro after c
  have hpeak : IsGreatest {n | ∃ before, before <+: uses ∧ (after before).size = n}
      c.arena.slots.size := isGreatest_size_afterUses (.ofNat maxEntries truncateCount) world uses
  obtain ⟨r, hin, -⟩ : ∃ r, c.Represents r ∧ _ := exists_represents_afterUses _ world uses
  refine ⟨hpeak, hin.size_le_size_slots, ?_, ?_⟩
  · obtain ⟨xs, hxs, -⟩ := hin.holds
    have hcount := hxs.arena.length_vacant
    rw [size, hxs.size]
    omega
  · -- The slots are as many as the entries of some state on the way, and these are within the limit.
    obtain ⟨before, -, hsize⟩ := hpeak.1
    obtain ⟨r, hin, hlimits⟩ : ∃ r, (after before).Represents r ∧ _ :=
      exists_represents_afterUses _ world before
    have hle := hin.length_le
    rw [hlimits, ← hin.size_eq, hsize] at hle
    exact hle.trans_eq (Nat.max_comm ..)

end StringCache

end BitmapText
