import BitmapText.Proofs.StringCache.Contents
import Mathlib.Data.List.Dedup

/-!
# What a string cache keeps

Over a whole run, a cache keeps the keys that were served last, in the order of their last service,
and none of them is skipped. How many it keeps depends on the run, but only between two bounds: a
batch never leaves fewer than the limit less the batch, nor fewer than one, and there are never more
than the limit.

A key counts as served when a request for it is answered with a string, whether the string was there
or was rendered. Failures and looks leave no trace. Of a key that was served more than once
`List.dedup` leaves the last service, so `served.dedup` is in the order that is meant.

## Main definitions

* `StringCache.servedKeys`: the keys served by a run.
* `Recency.Recent`: the list keeps the keys served last, within the bounds.

## Main statements

* `Recency.Recent.use`: one use keeps that.
* `Recency.Recent.run`: so does a run.
* `StringCache.keysByRecency_suffix_served`: so every cache that starts empty is like that.
-/

namespace BitmapText

open StringCache

/-! ## Keys in order of their last service -/

/-- A key that comes again moves to the end. -/
theorem dedup_concat {α : Type} [DecidableEq α] (xs : List α) (a : α) :
    (xs ++ [a]).dedup = xs.dedup.erase a ++ [a] := by
  induction xs with
  | nil => rfl
  | cons x xs ih =>
    by_cases hx : x ∈ xs
    · rw [List.cons_append, List.dedup_cons_of_mem (List.mem_append_left _ hx), ih,
        List.dedup_cons_of_mem hx]
    · rw [List.cons_append, List.dedup_cons_of_notMem hx]
      by_cases ha : x = a
      · subst ha
        have hnotin : x ∉ xs.dedup := fun h => hx (List.mem_dedup.1 h)
        rw [List.dedup_cons_of_mem (by simp), ih, List.erase_cons_head,
          List.erase_of_not_mem hnotin]
      · rw [List.dedup_cons_of_notMem (by simp [hx, ha]), ih,
          List.erase_cons_tail (by simpa using ha), List.cons_append]

/-- What comes after a key without the key itself is the end of the list. -/
theorem cons_dedup_suffix {α : Type} [DecidableEq α] {before since : List α} {a : α}
    (ha : a ∉ since) : a :: since.dedup <:+ (before ++ a :: since).dedup := by
  rw [List.dedup_append, List.dedup_cons_of_notMem ha]
  exact List.suffix_union_right ..

/-- A member of a list has a last place. -/
theorem exists_last_of_mem {α : Type} {xs : List α} {a : α} (ha : a ∈ xs) :
    ∃ pre post, xs = pre ++ a :: post ∧ a ∉ post := by
  obtain ⟨post, pre, hcut, hnotin⟩ := List.eq_append_cons_of_mem (List.mem_reverse.2 ha)
  refine ⟨pre.reverse, post.reverse, ?_, by simpa using hnotin⟩
  rw [← List.reverse_reverse xs, hcut]
  simp

/-- The end of a list stays its end when one key moves behind both. -/
theorem suffix_erase_concat {α : Type} [DecidableEq α] {xs ys : List α} (h : xs <:+ ys)
    (hy : ys.Nodup) (a : α) : xs.erase a ++ [a] <:+ ys.erase a ++ [a] := by
  rw [List.suffix_append_self_iff, hy.erase_eq_filter, (hy.sublist h.sublist).erase_eq_filter]
  exact h.filter _

namespace StringCache

variable {ε ω : Type}

/-- The key of a request that was answered with a string. -/
def Use.servedKey? : Use ε ω → Use.Answer ε → Option StringKey
  | .request key _, .served (.ok _) _ => some key
  | _, _ => none

/-- The keys of the requests that were answered with a string, in order. -/
def servedKeys : List (Use ε ω) → List (Use.Answer ε) → List StringKey
  | u :: us, a :: as => (u.servedKey? a).toList ++ servedKeys us as
  | _, _ => []

end StringCache

namespace Recency

/-! ## One use -/

/-- The list keeps the keys that were served last: none is skipped, and there are enough of them and
not too many. -/
structure Recent (m t : Nat) (r : Recency) (served : List StringKey) : Prop where
  suffix : r.keys <:+ served.dedup
  le_length : min served.dedup.length (max 1 (m - t)) ≤ r.keys.length
  length_le : r.keys.length ≤ m

variable {m t : Nat} {r : Recency} {e : Entry} {served : List StringKey}

theorem length_keys (r : Recency) : r.keys.length = r.entries.length := List.length_map _

/-- The keys of the entries, after one of them has moved to the end. -/
theorem map_key_erase_concat (hn : r.keys.Nodup) (he : e ∈ r.entries) :
    (r.entries.erase e ++ [e]).map Entry.key = r.keys.erase e.key ++ [e.key] := by
  obtain ⟨pre, post, -, hcut, herase⟩ := List.exists_erase_eq he
  have hkeys : r.keys = pre.map Entry.key ++ e.key :: post.map Entry.key := by
    rw [keys, hcut, List.map_append, List.map_cons]
  have hnotin : e.key ∉ pre.map Entry.key := by
    rw [hkeys] at hn
    exact fun hm => List.disjoint_of_nodup_append hn hm List.mem_cons_self
  rw [herase, hkeys, List.erase_append_right _ hnotin, List.erase_cons_head]
  simp

/-- The keys after an entry was used: its own is the last one, and some of the first may be gone. -/
theorem keys_touch_suffix (hn : r.keys.Nodup) (he : e ∈ r.entries) :
    (r.touch m t e).1.keys <:+ r.keys.erase e.key ++ [e.key] := by
  rw [← map_key_erase_concat hn he]
  unfold touch
  split
  · next hlast =>
    obtain ⟨pre, hcut⟩ := List.getLast?_eq_some_iff.1 hlast
    have hnotin : e ∉ pre := fun hm => by
      rw [keys, hcut, List.map_append] at hn
      exact List.disjoint_of_nodup_append hn (List.mem_map_of_mem hm) (by simp)
    have hsame : r.entries.erase e ++ [e] = r.entries := by
      rw [hcut, List.erase_append_right _ hnotin, List.erase_cons_head, List.append_nil]
    exact (congrArg (List.map Entry.key) hsame.symm) ▸ List.suffix_rfl
  · exact (suffix_evictIfFull ..).map Entry.key

theorem length_evictIfFull (r : Recency) (m count : Nat) :
    (r.evictIfFull m count).1.entries.length =
      if r.entries.length = m then r.entries.length - count else r.entries.length := by
  unfold evictIfFull
  split
  · exact List.length_drop
  · rfl

/-- A batch that a hit sets off leaves the entry that was hit, and the limit less the batch. -/
theorem length_touch (he : e ∈ r.entries) :
    min r.entries.length (max 1 (m - t)) ≤ (r.touch m t e).1.entries.length ∧
      (r.touch m t e).1.entries.length ≤ r.entries.length := by
  have hpos := List.length_pos_of_mem he
  have hlen : (r.entries.erase e ++ [e]).length = r.entries.length := by
    rw [List.length_append, List.length_erase_of_mem he, List.length_singleton]
    omega
  unfold touch
  split
  · exact ⟨Nat.min_le_left .., Nat.le_refl _⟩
  · rw [length_evictIfFull]
    dsimp only
    split <;> omega

/-- The keys after a new entry was added: its own is the last one, and some of the first may be
gone. -/
theorem keys_insert_suffix : (r.insert m t e).1.keys <:+ r.keys ++ [e.key] := by
  have h := (suffix_evictIfFull r m (min t r.entries.length)).map Entry.key
  rw [keys, insert]
  dsimp only
  rw [List.map_append]
  exact List.suffix_append_self_iff.2 h

/-- A batch that a miss sets off leaves the limit less the batch, and the new entry comes to
that. -/
theorem length_insert (hm : r.entries.length ≤ m) (hpos : 0 < m) (ht : 0 < t) :
    min (r.entries.length + 1) (max 1 (m - t)) ≤ (r.insert m t e).1.entries.length ∧
      (r.insert m t e).1.entries.length ≤ m := by
  rw [insert]
  dsimp only
  rw [List.length_append, List.length_singleton, length_evictIfFull]
  split <;> omega

namespace Recent

theorem empty : Recent m t {} [] where
  suffix := List.nil_suffix
  le_length := Nat.zero_le _
  length_le := Nat.zero_le _

theorem nodup (h : Recent m t r served) : r.keys.Nodup :=
  (List.nodup_dedup served).sublist h.suffix.sublist

/-- A hit serves its key again. -/
theorem touch (h : Recent m t r served) (he : e ∈ r.entries) :
    Recent m t (r.touch m t e).1 (served ++ [e.key]) := by
  have hkey : e.key ∈ r.keys := List.mem_map_of_mem he
  have hbefore : e.key ∈ served.dedup := h.suffix.mem hkey
  have hcount : (served ++ [e.key]).dedup.length = served.dedup.length := by
    rw [dedup_concat, List.length_append, List.length_erase_of_mem hbefore, List.length_singleton]
    exact Nat.sub_add_cancel (List.length_pos_of_mem hbefore)
  have hle := h.length_le
  have hmany := h.le_length
  rw [length_keys] at hle hmany
  obtain ⟨hleast, hmost⟩ := length_touch (m := m) (t := t) he
  refine ⟨?_, ?_, ?_⟩
  · rw [dedup_concat]
    exact (keys_touch_suffix h.nodup he).trans
      (suffix_erase_concat h.suffix (List.nodup_dedup served) e.key)
  · rw [hcount, length_keys]
    omega
  · rw [length_keys]
    omega

/-- A new entry serves a key that was not there. -/
theorem insert (h : Recent m t r served) (hpos : 0 < m) (ht : 0 < t) (he : e.key ∉ r.keys) :
    Recent m t (r.insert m t e).1 (served ++ [e.key]) := by
  have hcount : (served ++ [e.key]).dedup.length ≤ served.dedup.length + 1 := by
    rw [dedup_concat, List.length_append, List.length_singleton]
    exact Nat.succ_le_succ List.erase_sublist.length_le
  have hle := h.length_le
  have hmany := h.le_length
  rw [length_keys] at hle hmany
  obtain ⟨hleast, hmost⟩ := length_insert (e := e) hle hpos ht
  refine ⟨?_, ?_, ?_⟩
  · have hkept := suffix_erase_concat h.suffix (List.nodup_dedup served) e.key
    rw [List.erase_of_not_mem he, ← dedup_concat] at hkept
    exact keys_insert_suffix.trans hkept
  · rw [length_keys]
    omega
  · rwa [length_keys]

variable {ε ω : Type}

/-- One use serves one key or none. -/
theorem use {s : Recency × ω} (h : Recent m t s.1 served) (hpos : 0 < m) (ht : 0 < t)
    (u : Use ε ω) :
    Recent m t (Recency.use m t s u).2.1
      (served ++ (u.servedKey? (Recency.use m t s u).1).toList) := by
  obtain ⟨r, world⟩ := s
  cases u with
  | look key => simpa [Recency.use, Use.servedKey?] using h
  | request key render =>
    rw [Recency.use, Recency.request]
    split
    · next e hf =>
      obtain rfl : e.key = key := by simpa using List.find?_some hf
      exact h.touch (List.mem_of_find?_eq_some hf)
    · next hf =>
      have hnone : key ∉ r.keys := by simpa [Recency.find?, keys] using hf
      split
      · simpa [Use.servedKey?] using h
      · next value world' hw => exact h.insert (e := ⟨key, value⟩) hpos ht hnone

/-- A run serves the keys of its requests that were answered. -/
theorem run {s : Recency × ω} (h : Recent m t s.1 served) (hpos : 0 < m) (ht : 0 < t)
    (us : List (Use ε ω)) :
    Recent m t (answerAll (Recency.use m t) s us).2.1
      (served ++ servedKeys us (answerAll (Recency.use m t) s us).1) := by
  induction us generalizing s served with
  | nil => simpa [answerAll, servedKeys] using h
  | cons u us ih =>
    have hnext := ih (h.use hpos ht u)
    rw [List.append_assoc] at hnext
    exact hnext

/-- A key is kept as long as there are not too many other keys served since. -/
theorem mem_keys (h : Recent m t r served) {key : StringKey} {before since : List StringKey}
    (hcut : served = before ++ key :: since)
    (hfew : (since.filter (· ≠ key)).dedup.length < max 1 (m - t)) : key ∈ r.keys := by
  -- The keys behind the last service of `key` are among those served since, and `key` is not.
  have hmem : key ∈ key :: since := List.mem_cons_self
  obtain ⟨pre, post, hlast, hnotin⟩ := exists_last_of_mem hmem
  have hamong : post.dedup ⊆ (since.filter (· ≠ key)).dedup := fun x hx => by
    have hpost : x ∈ post := List.mem_dedup.1 hx
    have hsince : x ∈ key :: since := hlast ▸ List.mem_append_right _ (List.mem_cons_of_mem _ hpost)
    have hne : x ≠ key := fun he => hnotin (he ▸ hpost)
    simpa [hne] using hsince
  have hcount := (List.nodup_dedup post).length_le_of_subset hamong
  have hbehind : key :: post.dedup <:+ served.dedup := by
    rw [hcut, hlast, ← List.append_assoc]
    exact cons_dedup_suffix hnotin
  have hlen := hbehind.length_le
  have hmany := h.le_length
  rw [List.length_cons] at hlen
  have hkept : key :: post.dedup <:+ r.keys :=
    List.suffix_of_suffix_length_le hbehind h.suffix (by rw [List.length_cons]; omega)
  exact hkept.mem List.mem_cons_self

end Recent

end Recency

/-! ## Every run -/

namespace StringCache

theorem Represents.keysByRecency_eq {c : StringCache} {r : Recency} (h : c.Represents r) :
    c.keysByRecency = r.keys := by
  obtain ⟨xs, hxs, hr⟩ := h.holds
  rw [keysByRecency, hxs.entries_eq, hr, Recency.keys]

variable {ε ω : Type}

/-- An empty cache and an empty list stay in step through a run. -/
theorem inStep_run (limits : Limits) (world : ω) (uses : List (Use ε ω)) :
    let cache := answerAll use (empty limits, world) uses
    let plain := answerAll (Recency.use limits.maxEntries limits.truncateCount) ({}, world) uses
    cache.1 = plain.1 ∧ InStep limits cache.2 plain.2 :=
  answerAll_alike (InStep limits) (fun _ _ u h => h.use u) ⟨rfl, .empty limits, rfl⟩ uses

/-- After every run from empty, so also on the way through a longer one, a cache keeps the keys
served last, in the order of their last service, without a gap: at most as many as its limit, and at
least those served or as many as a batch leaves, whichever is less. So a request for a key that was
served is answered without rendering as long as fewer other keys than a batch leaves have been
served since. -/
theorem keysByRecency_suffix_served (maxEntries truncateCount : Nat) (world : ω)
    (uses : List (Use ε ω)) :
    let run := answerAll use (empty (.ofNat maxEntries truncateCount), world) uses
    let c := run.2.1
    let served := servedKeys uses run.1
    let m := max 1 maxEntries
    let left := max 1 (m - max 1 truncateCount)
    c.keysByRecency <:+ served.dedup ∧
      min served.dedup.length left ≤ c.keysByRecency.length ∧ c.keysByRecency.length ≤ m ∧
      c.size = c.keysByRecency.length ∧
      ∀ key before since, served = before ++ key :: since →
        (since.filter (· ≠ key)).dedup.length < left →
          ∃ s, ∀ (render : ω → Except ε RenderedString × ω) (world : ω),
            (c.getOrRender key render world).result = .ok s ∧
              (c.getOrRender key render world).world = world := by
  intro run c served m left
  have hm : (Limits.ofNat maxEntries truncateCount).maxEntries = m := Nat.max_comm ..
  have ht : (Limits.ofNat maxEntries truncateCount).truncateCount = max 1 truncateCount :=
    Nat.max_comm ..
  obtain ⟨hanswers, -, hin, -⟩ := inStep_run (.ofNat maxEntries truncateCount) world uses
  rw [hm, ht] at hanswers hin
  have hrecent := Recency.Recent.run (s := (({} : Recency), world)) .empty
    (Nat.lt_of_lt_of_le Nat.one_pos (Nat.le_max_left 1 maxEntries))
    (Nat.lt_of_lt_of_le Nat.one_pos (Nat.le_max_left 1 truncateCount)) uses
  rw [List.nil_append, ← hanswers] at hrecent
  have hkeys := hin.keysByRecency_eq
  refine ⟨hkeys ▸ hrecent.suffix, hkeys ▸ hrecent.le_length, hkeys ▸ hrecent.length_le, ?_, ?_⟩
  · rw [hkeys, Recency.length_keys]
    exact hin.size_eq
  · intro key before since hcut hfew
    obtain ⟨e, he, rfl⟩ := List.mem_map.1 (hrecent.mem_keys hcut hfew)
    have hpeek : c.peek? e.key = some e.value := hin.peek?_eq_some_iff.2 he
    exact ⟨e.value, fun render world => getOrRender_of_peek? hpeek render world⟩

/-- Three entries and batches of one: the third of four texts is still there, and a failure in
between does not count. -/
theorem keysByRecency_suffix_served_three_entries :
    let ask (text : String) : Use String Unit :=
      .request ⟨text, none⟩ fun world => (.ok ⟨.blank 1 1, 1⟩, world)
    let fails : Use String Unit := .request ⟨"x", none⟩ fun world => (.error "x", world)
    let uses := [ask "a", ask "b", ask "c", fails, ask "d"]
    let run := answerAll use (empty (.ofNat 3 1), ()) uses
    servedKeys uses run.1 = [⟨"a", none⟩, ⟨"b", none⟩, ⟨"c", none⟩, ⟨"d", none⟩] ∧
      ∃ s, ∀ (render : Unit → Except String RenderedString × Unit) (world : Unit),
        (run.2.1.getOrRender ⟨"c", none⟩ render world).result = .ok s ∧
          (run.2.1.getOrRender ⟨"c", none⟩ render world).world = world := by
  intro ask fails uses run
  have hserved : servedKeys uses run.1 =
      [⟨"a", none⟩, ⟨"b", none⟩, ⟨"c", none⟩, ⟨"d", none⟩] := by
    rw [(inStep_run (.ofNat 3 1) () uses).1]
    decide +kernel
  obtain ⟨-, -, -, -, hhit⟩ := keysByRecency_suffix_served 3 1 () uses
  exact ⟨hserved, hhit ⟨"c", none⟩ [⟨"a", none⟩, ⟨"b", none⟩] [⟨"d", none⟩] hserved (by decide)⟩

end StringCache

end BitmapText
