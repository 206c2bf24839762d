import BitmapText.Proofs.Arena.Sequence
import BitmapText.Proofs.StringCache.Recency

/-!
# A string cache is a list in order of use

The index, the slots, the vacant slots and the links of a cache stay in step with a plain list of
entries. The invariant names the slots: the arena keeps the entries in them, and the index leads
each key to its slot.

## Main definitions

* `StringCache.Holds`: index and arena hold the same entries.
* `StringCache.Represents`: the cache is in step with a list.

## Main statements

* `StringCache.Represents.use`: one use keeps the two in step.
* `StringCache.answerAll_use_eq`: so does every sequence of uses, and all answers agree.
-/

namespace BitmapText

namespace StringCache

/-- The cache holds the entries of `xs`, each in its slot, in order of use. -/
structure Holds (c : StringCache) (xs : List (Nat × Entry)) : Prop where
  arena : c.arena.Keeps xs
  keys : (xs.map fun x => x.2.key).Nodup
  index : ∀ key slot, c.index[key]? = some slot ↔ ∃ e, (slot, e) ∈ xs ∧ e.key = key
  size : c.index.size = xs.length

theorem dropOldest_eq {c : StringCache} {e : Entry} (h : c.arena.popOldest.1 = some e) :
    c.dropOldest =
      { c with index := c.index.erase e.key, arena := c.arena.popOldest.2 } := by
  obtain ⟨index, arena, limits, evictions⟩ := c
  dsimp only at h ⊢
  simp only [dropOldest]
  split
  · next e' a hp => simp_all
  · next a hp => simp_all

@[simp] theorem limits_dropOldest (c : StringCache) : c.dropOldest.limits = c.limits := by
  simp only [dropOldest]; split <;> rfl

@[simp] theorem evictions_dropOldest (c : StringCache) : c.dropOldest.evictions = c.evictions := by
  simp only [dropOldest]; split <;> rfl

@[simp] theorem limits_dropBatch (c : StringCache) (keep : Option Nat) (count : Nat) :
    (c.dropBatch keep count).2.limits = c.limits := by
  fun_induction dropBatch c keep count <;> simp_all

@[simp] theorem evictions_dropBatch (c : StringCache) (keep : Option Nat) (count : Nat) :
    (c.dropBatch keep count).2.evictions = c.evictions := by
  fun_induction dropBatch c keep count <;> simp_all

namespace Holds

variable {c : StringCache} {xs ys zs : List (Nat × Entry)} {x : Nat × Entry}

theorem empty (limits : Limits) : (empty limits).Holds [] where
  arena := .empty
  keys := List.nodup_nil
  index := by simp [StringCache.empty]
  size := by simp [StringCache.empty]

/-! ## Views -/

theorem entries_eq (h : c.Holds xs) : c.entries = xs.map Prod.snd := by
  rw [entries, h.arena.toList_eq]

theorem find?_eq (h : c.Holds xs) (key : StringKey) :
    c.find? key = xs.find? fun x => x.2.key = key := by
  rw [find?]
  cases hi : c.index[key]? with
  | none =>
    refine (List.find?_eq_none.2 fun x hx => ?_).symm
    intro hk
    have := (h.index key x.1).2 ⟨x.2, hx, by simpa using hk⟩
    simp [hi] at this
  | some slot =>
    obtain ⟨e, he, rfl⟩ := (h.index key slot).1 hi
    have hvalue : c.arena.value? slot = some e := h.arena.value?_of_mem he
    simp only [hvalue, Option.map_some]
    symm
    rw [List.find?_eq_some_iff_append]
    obtain ⟨pre, post, rfl⟩ := List.append_of_mem he
    refine ⟨by simp, pre, post, rfl, fun y hy => ?_⟩
    have := h.keys
    simp only [List.map_append, List.map_cons] at this
    grind

theorem peek?_eq (h : c.Holds xs) (key : StringKey) :
    c.peek? key = ((xs.map Prod.snd).find? fun e => e.key = key).map Entry.value := by
  rw [peek?, h.find?_eq, List.find?_map]
  simp [Function.comp_def]

theorem footprint_eq (h : c.Holds xs) :
    c.footprint = (xs.map Prod.snd).foldr (fun entry total => entry.footprint + total) 0 :=
  h.arena.values_perm.foldr_eq' (fun _ _ _ _ _ => by omega) 0

/-! ## Changes -/

/-- The least recently used entry goes, with its place in the index. -/
theorem dropOldest (h : c.Holds (x :: xs)) : c.dropOldest.Holds xs := by
  obtain ⟨hvalue, harena⟩ := h.arena.popOldest
  obtain ⟨hkey, hkeys⟩ := List.nodup_cons.1 h.keys
  have hslots := List.nodup_cons.1 h.arena.nodup
  have hx : x.2.key ∈ c.index := by
    rw [Std.HashMap.mem_iff_isSome_getElem?, (h.index x.2.key x.1).2 ⟨x.2, by simp, rfl⟩]
    rfl
  rw [dropOldest_eq hvalue]
  refine ⟨harena, hkeys, fun key slot => ?_, ?_⟩
  · rw [Std.HashMap.getElem?_erase]
    split
    · next he =>
      have he : x.2.key = key := by simpa using he
      grind
    · next he =>
      have he : x.2.key ≠ key := by simpa using he
      rw [h.index]
      grind
  · simp [Std.HashMap.size_erase, hx, h.size]

/-- A batch takes entries from the front, but none from the slot `keep` on. -/
theorem dropBatch (h : c.Holds (ys ++ zs)) (count : Nat) :
    (c.dropBatch (Arena.firstSlot zs) count).1 = min count ys.length ∧
      (c.dropBatch (Arena.firstSlot zs) count).2.Holds (ys.drop count ++ zs) := by
  induction count generalizing c ys with
  | zero => exact ⟨by simp [StringCache.dropBatch], by simpa [StringCache.dropBatch] using h⟩
  | succ count ih =>
    cases ys with
    | nil =>
      have hstop : c.arena.oldest = Arena.firstSlot zs := h.arena.oldest
      simpa [StringCache.dropBatch, hstop] using h
    | cons y ys =>
      have hold : c.arena.oldest = some y.1 := h.arena.oldest
      -- The slot that is kept stands behind the batch, so the oldest one is another.
      have hne : Arena.firstSlot zs ≠ some y.1 := fun e => by
        have := h.arena.nodup
        grind [Arena.mem_of_firstSlot e]
      have hnext : c.dropOldest.Holds (ys ++ zs) := h.dropOldest
      obtain ⟨hcount, hrest⟩ := ih hnext
      simp only [StringCache.dropBatch, hold, hne.symm, reduceCtorEq, or_self, if_false, hcount,
        List.length_cons, List.drop_succ_cons]
      exact ⟨by omega, hrest⟩

theorem moveNewest (h : c.Holds (ys ++ x :: zs)) :
    ({ c with arena := c.arena.moveNewest x.1 } : StringCache).Holds (ys ++ zs ++ [x]) := by
  have hperm : (ys ++ zs ++ [x]).Perm (ys ++ x :: zs) := by
    rw [List.append_assoc]
    exact (List.perm_append_singleton x zs).append_left ys
  exact ⟨h.arena.moveNewest, (hperm.map _).nodup_iff.2 h.keys,
    fun key slot => by simpa only [hperm.mem_iff] using h.index key slot,
    h.size.trans hperm.length_eq.symm⟩

theorem pushNewest (h : c.Holds xs) (e : Entry) (hk : ∀ x ∈ xs, x.2.key ≠ e.key) :
    ({ c with index := c.index.insert e.key (c.arena.pushNewest e).1,
              arena := (c.arena.pushNewest e).2 } : StringCache).Holds
      (xs ++ [((c.arena.pushNewest e).1, e)]) := by
  have hnone : e.key ∉ c.index := by
    intro hm
    obtain ⟨slot, hs⟩ := Option.isSome_iff_exists.1 (Std.HashMap.mem_iff_isSome_getElem?.1 hm)
    obtain ⟨e', he', hk'⟩ := (h.index _ _).1 hs
    exact hk _ he' hk'
  refine ⟨h.arena.pushNewest e, ?_, fun key slot => ?_, ?_⟩
  · have := h.keys
    grind
  · rw [Std.HashMap.getElem?_insert]
    split
    · next he =>
      have he : e.key = key := by simpa using he
      grind
    · next he =>
      have he : e.key ≠ key := by simpa using he
      rw [h.index]
      grind
  · simp [Std.HashMap.size_insert, hnone, h.size]

end Holds

/-! ## In step with a list -/

/-- The cache holds the entries of the list in its order and has counted the same batches. -/
structure Represents (c : StringCache) (r : Recency) : Prop where
  holds : ∃ xs, c.Holds xs ∧ xs.map Prod.snd = r.entries
  evictions : c.evictions = r.evictions
  length_le : r.entries.length ≤ c.limits.maxEntries

namespace Represents

variable {c : StringCache} {r : Recency}

theorem empty (limits : Limits) : (StringCache.empty limits).Represents {} :=
  ⟨⟨[], .empty limits, rfl⟩, rfl, Nat.zero_le _⟩

theorem size_eq (h : c.Represents r) : c.size = r.entries.length := by
  obtain ⟨xs, hxs, hr⟩ := h.holds
  rw [size, hxs.size, ← hr, List.length_map]

/-- At its limit, a cache drops the entries that the list drops. -/
theorem evictIfFull {xs ys : List (Nat × Entry)} (h : c.Represents r)
    (hc : c.Holds (xs ++ ys)) (hr : (xs ++ ys).map Prod.snd = r.entries) :
    let p := r.evictIfFull c.limits.maxEntries (min c.limits.truncateCount xs.length)
    (c.evictIfFull (Arena.firstSlot ys)).2 = p.2 ∧
      (c.evictIfFull (Arena.firstSlot ys)).1.limits = c.limits ∧
      (c.evictIfFull (Arena.firstSlot ys)).1.Represents p.1 := by
  have hsize := h.size_eq
  have hle := h.length_le
  by_cases hfull : r.entries.length = c.limits.maxEntries
  · obtain ⟨hcount, hrest⟩ := hc.dropBatch c.limits.truncateCount
    have hdrop : (xs.drop c.limits.truncateCount ++ ys).map Prod.snd =
        r.entries.drop (min c.limits.truncateCount xs.length) := by
      rw [← hr, ← List.map_drop, List.drop_append_of_le_length (Nat.min_le_right ..)]
      rcases Nat.le_total c.limits.truncateCount xs.length with ht | ht
      · rw [Nat.min_eq_left ht]
      · rw [Nat.min_eq_right ht, List.drop_length, List.drop_eq_nil_of_le ht]
    have hleft : (c.dropBatch (Arena.firstSlot ys) c.limits.truncateCount).2.size =
        (r.entries.drop (min c.limits.truncateCount xs.length)).length := by
      rw [size, hrest.size, ← hdrop, List.length_map]
    have hnot : ¬ c.size < c.limits.maxEntries := by omega
    simp only [StringCache.evictIfFull, Recency.evictIfFull, if_neg hnot, if_pos hfull, hcount]
    refine ⟨by rw [← hleft], limits_dropBatch .., ⟨_, ?_, hdrop⟩, ?_, ?_⟩
    · exact ⟨hrest.arena, hrest.keys, hrest.index, hrest.size⟩
    · rw [evictions_dropBatch, h.evictions]
    · rw [limits_dropBatch, List.length_drop]
      omega
  · have hlt : c.size < c.limits.maxEntries := by omega
    simp only [StringCache.evictIfFull, Recency.evictIfFull, if_pos hlt, if_neg hfull]
    exact ⟨trivial, trivial, h⟩

/-- A hit moves its entry to the end, and a full cache drops others. -/
theorem touch {xs : List (Nat × Entry)} (h : c.Represents r) (hc : c.Holds xs)
    (hr : xs.map Prod.snd = r.entries) {slot : Nat} {e : Entry} (hx : (slot, e) ∈ xs) :
    let p := r.touch c.limits.maxEntries c.limits.truncateCount e
    (c.touch slot).2 = p.2 ∧ (c.touch slot).1.limits = c.limits ∧
      (c.touch slot).1.Represents p.1 := by
  obtain ⟨pre, post, rfl⟩ := List.append_of_mem hx
  cases post with
  | nil =>
    have hnew : c.arena.newest = some slot := by simp [hc.arena.newest]
    have hlast : r.entries.getLast? = some e := by simp [← hr]
    simp only [StringCache.touch, Recency.touch, hnew, hlast, if_true]
    exact ⟨trivial, trivial, h⟩
  | cons y post =>
    have hnew : c.arena.newest ≠ some slot := by
      rw [hc.arena.newest]
      exact Arena.lastSlot_ne_of_nodup hc.arena.nodup
    have hkeys := hc.keys
    -- Keys are unique, so an entry whose slot is not the newest is not the last of the list either.
    have hlast : r.entries.getLast? ≠ some e := by
      intro hlast
      have hmem : e ∈ (y :: post).map Prod.snd := by
        refine List.mem_of_getLast? ?_
        simpa [← hr, List.getLast?_cons] using hlast
      obtain ⟨z, hz, rfl⟩ := List.mem_map.1 hmem
      grind
    have hnotin : e ∉ pre.map Prod.snd := by grind
    have herase : r.entries.erase e ++ [e] =
        (pre ++ (y :: post) ++ [(slot, e)]).map Prod.snd := by
      rw [← hr, List.map_append, List.erase_append_right _ hnotin]
      simp
    have hlen : (pre ++ y :: post).length = r.entries.length - 1 := by
      simp [← hr]
    have hmoved := hc.moveNewest
    have hsame : (r.entries.erase e ++ [e]).length = r.entries.length := by
      simp [← hr, Nat.add_assoc]
    have hin : ({ c with arena := c.arena.moveNewest slot } : StringCache).Represents
        { r with entries := r.entries.erase e ++ [e] } :=
      ⟨⟨_, hmoved, herase.symm⟩, h.evictions, Nat.le_trans (Nat.le_of_eq hsame) h.length_le⟩
    have hevict := hin.evictIfFull hmoved herase.symm
    rw [hlen] at hevict
    have htouch : c.touch slot = StringCache.evictIfFull
        { c with arena := c.arena.moveNewest slot } (some slot) := if_neg hnew
    rw [htouch, Recency.touch, if_neg hlast]
    exact hevict

theorem insert (h : c.Represents r) {e : Entry} (hk : ∀ x ∈ r.entries, x.key ≠ e.key) :
    let p := r.insert c.limits.maxEntries c.limits.truncateCount e
    (c.insert e.key e.value).2 = p.2 ∧ (c.insert e.key e.value).1.limits = c.limits ∧
      (c.insert e.key e.value).1.Represents p.1 := by
  obtain ⟨xs, hxs, hr⟩ := h.holds
  have hnil : c.Holds (xs ++ []) := by simpa using hxs
  obtain ⟨heviction, hlimits, hin⟩ := h.evictIfFull hnil (by simpa using hr)
  have hlen : xs.length = r.entries.length := by simp [← hr]
  rw [hlen, Arena.firstSlot_nil] at heviction hin
  rw [Arena.firstSlot_nil] at hlimits
  obtain ⟨ys, hys, hr'⟩ := hin.holds
  have hfresh : ∀ x ∈ ys, x.2.key ≠ e.key := fun x hx =>
    hk x.2 ((Recency.suffix_evictIfFull ..).mem (hr' ▸ List.mem_map_of_mem hx))
  have hroom := r.length_evictIfFull_lt h.length_le c.limits.maxEntries_pos
    c.limits.truncateCount_pos
  refine ⟨heviction, hlimits, ⟨_, hys.pushNewest e hfresh, ?_⟩, hin.evictions, ?_⟩
  · simp [Recency.insert, hr']
  · simpa [Recency.insert, StringCache.insert, hlimits] using Nat.succ_le_of_lt hroom

/-! ## One use -/

theorem find?_eq_none (h : c.Represents r) {key : StringKey} (hf : c.find? key = none) :
    r.find? key = none := by
  obtain ⟨xs, hxs, hr⟩ := h.holds
  rw [hxs.find?_eq] at hf
  rw [Recency.find?, ← hr, List.find?_map]
  simpa [Function.comp_def] using hf

theorem find?_eq_some (h : c.Represents r) {key : StringKey} {slot : Nat} {e : Entry}
    (hf : c.find? key = some (slot, e)) : r.find? key = some e := by
  obtain ⟨xs, hxs, hr⟩ := h.holds
  rw [hxs.find?_eq] at hf
  rw [Recency.find?, ← hr, List.find?_map]
  exact congrArg (Option.map Prod.snd) hf

theorem isEmpty_eq (h : c.Represents r) : c.isEmpty = r.entries.isEmpty := by
  rw [isEmpty, Std.HashMap.isEmpty_eq_size_eq_zero]
  have hsize : c.index.size = r.entries.length := h.size_eq
  rw [hsize]
  cases r.entries <;> rfl

theorem peek?_eq (h : c.Represents r) (key : StringKey) : c.peek? key = r.peek? key := by
  obtain ⟨xs, hxs, hr⟩ := h.holds
  rw [hxs.peek?_eq, hr, Recency.peek?, Recency.find?]

/-- A request is answered alike and keeps cache and list in step. -/
theorem getOrRender {ε ω : Type} (h : c.Represents r) (key : StringKey)
    (render : ω → Except ε RenderedString × ω) (world : ω) :
    let o := c.getOrRender key render world
    let p := r.request c.limits.maxEntries c.limits.truncateCount key render world
    .served o.result o.eviction = p.1 ∧ o.cache.limits = c.limits ∧
      o.cache.Represents p.2.1 ∧ o.world = p.2.2 := by
  cases hf : c.find? key with
  | some found =>
    obtain ⟨slot, e⟩ := found
    obtain ⟨xs, hxs, hr⟩ := h.holds
    have hmem : (slot, e) ∈ xs := List.mem_of_find?_eq_some (hxs.find?_eq key ▸ hf)
    obtain ⟨heviction, hlimits, hin⟩ := h.touch hxs hr hmem
    simp only [StringCache.getOrRender, Recency.request, hf, h.find?_eq_some hf]
    exact ⟨congrArg (Use.Answer.served (.ok e.value)) heviction, hlimits, hin, trivial⟩
  | none =>
    have hnone := h.find?_eq_none hf
    cases hw : render world with
    | mk result world =>
      simp only [StringCache.getOrRender, Recency.request, hf, hnone, hw]
      cases result with
      | error e => exact ⟨rfl, rfl, h, rfl⟩
      | ok value =>
        have hk : ∀ x ∈ r.entries, x.key ≠ key := by simpa [Recency.find?] using hnone
        obtain ⟨heviction, hlimits, hin⟩ := h.insert (e := ⟨key, value⟩) hk
        exact ⟨congrArg (Use.Answer.served (.ok value)) heviction, hlimits, hin, rfl⟩

end Represents

/-! ## Every sequence of uses -/

/-- A cache and a list that are in step, in the same world. -/
structure InStep {ω : Type} (limits : Limits) (s : StringCache × ω) (t : Recency × ω) : Prop where
  limits : s.1.limits = limits
  represents : s.1.Represents t.1
  world : s.2 = t.2

theorem InStep.use {ε ω : Type} {limits : Limits} {s : StringCache × ω} {t : Recency × ω}
    (h : InStep limits s t) (u : Use ε ω) :
    (use s u).1 = (Recency.use limits.maxEntries limits.truncateCount t u).1 ∧
      InStep limits (use s u).2 (Recency.use limits.maxEntries limits.truncateCount t u).2 := by
  obtain ⟨c, world⟩ := s
  obtain ⟨r, world'⟩ := t
  obtain ⟨rfl, hin, rfl⟩ := h
  cases u with
  | request key render =>
    obtain ⟨hanswer, hlimits, hnext, hworld⟩ := hin.getOrRender key render world
    exact ⟨hanswer, hlimits, hnext, hworld⟩
  | look key => exact ⟨congrArg _ (hin.peek?_eq key), rfl, hin, rfl⟩

/-- A cache that starts empty answers every sequence of uses as the plain list does, whatever its
limits, and shows the same entries, keys, sizes and counts afterwards. -/
theorem answerAll_use_eq {ε ω : Type} (maxEntries truncateCount : Nat) (world : ω)
    (uses : List (Use ε ω)) :
    let cache := answerAll use (empty (.ofNat maxEntries truncateCount), world) uses
    let plain := answerAll (Recency.use (max 1 maxEntries) (max 1 truncateCount)) ({}, world) uses
    let c := cache.2.1
    let r := plain.2.1
    cache.1 = plain.1 ∧ cache.2.2 = plain.2.2 ∧
      (∃ xs, c.Holds xs ∧ xs.map Prod.snd = r.entries) ∧ r.entries.length ≤ max 1 maxEntries ∧
      (∀ key, c.peek? key = r.peek? key) ∧ c.entries = r.entries ∧ c.keysByRecency = r.keys ∧
      c.size = r.entries.length ∧ c.isEmpty = r.entries.isEmpty ∧ c.evictions = r.evictions ∧
      c.footprint = r.footprint := by
  intro cache plain c r
  have hm : (Limits.ofNat maxEntries truncateCount).maxEntries = max 1 maxEntries :=
    Nat.max_comm ..
  have ht : (Limits.ofNat maxEntries truncateCount).truncateCount = max 1 truncateCount :=
    Nat.max_comm ..
  obtain ⟨hanswers, hlimits, hin, hworld⟩ :=
    answerAll_alike (InStep (.ofNat maxEntries truncateCount)) (fun _ _ u h => h.use u)
      (s := (empty (.ofNat maxEntries truncateCount), world)) (t := ({}, world))
      ⟨rfl, .empty _, rfl⟩ uses
  rw [hm, ht] at hanswers hin hworld
  obtain ⟨xs, hxs, hr⟩ := hin.holds
  have hentries : c.entries = r.entries := hxs.entries_eq.trans hr
  refine ⟨hanswers, hworld, hin.holds, ?_, hin.peek?_eq, hentries, ?_, hin.size_eq,
    hin.isEmpty_eq, hin.evictions, ?_⟩
  · have := hin.length_le
    rwa [hlimits, hm] at this
  · rw [keysByRecency, hentries, Recency.keys]
  · rw [hxs.footprint_eq, hr, Recency.footprint]

end StringCache

end BitmapText
