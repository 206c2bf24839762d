import BitmapText.Proofs.StringCache.Retention
import Mathlib.Algebra.Group.Action.Defs
import Mathlib.Algebra.Order.BigOperators.Group.List
import Mathlib.Algebra.Order.Ring.Nat

/-!
# Accounts of the batches

Strings come into a cache one at a time, each of them rendered for it, and they leave it in batches.
So the strings that were rendered are those that are there and those that were dropped. How many
leave in one batch is known up to one: a batch that a miss sets off may take everything, and one
that a hit sets off leaves the string that was hit.

The renderers count the strings that they make. The count is kept in the world that they work in, so
a cache knows nothing of it.

## Main definitions

* `StringCache.Use.tallied`: a use whose renderer counts the strings it makes.
* `Recency.Change`: what one use does to the number of entries.
* `Recency.Balanced`: renderings, entries and batches agree.

## Main statements

* `Recency.change_use`: one use makes one of four changes.
* `Recency.Balanced.use`, `Recency.Balanced.run`: the accounts stay balanced.
* `Recency.Rested.lt_of_batch`: there is an insertion between two batches.
* `StringCache.batches_balanced`: the accounts of a cache that starts empty.
-/

namespace BitmapText

open StringCache

/-- Questions may be translated before a run or in each step of it. -/
theorem answerAll_map {σ υ υ' α : Type} (answer : σ → υ → α × σ) (f : υ' → υ) (s : σ)
    (us : List υ') : answerAll answer s (us.map f) = answerAll (fun s u => answer s (f u)) s us := by
  induction us generalizing s with
  | nil => rfl
  | cons u us ih =>
    simp only [List.map_cons, answerAll, ih]

namespace StringCache

variable {ε ω : Type}

/-- The batch that was dropped in answer to a use. -/
def Use.Answer.batch? : Use.Answer ε → Option Eviction
  | .served _ eviction => eviction
  | .found _ => none

/-- A renderer that counts the strings it makes. -/
def countingRenderer (render : ω → Except ε RenderedString × ω) :
    ω × Nat → Except ε RenderedString × ω × Nat
  | (world, made) =>
    match render world with
    | (.ok value, world) => (.ok value, world, made + 1)
    | (.error e, world) => (.error e, world, made)

/-- The same use, with a renderer that counts the strings it makes. -/
def Use.tallied : Use ε ω → Use ε (ω × Nat)
  | .request key render => .request key (countingRenderer render)
  | .look key => .look key

/-- Counting changes nothing else about a use. -/
theorem use_tallied (c : StringCache) (world : ω) (made : Nat) (u : Use ε ω) :
    (use (c, world, made) u.tallied).1 = (use (c, world) u).1 ∧
      (use (c, world, made) u.tallied).2.1 = (use (c, world) u).2.1 ∧
      (use (c, world, made) u.tallied).2.2.1 = (use (c, world) u).2.2 := by
  cases u with
  | look key => exact ⟨rfl, rfl, rfl⟩
  | request key render =>
    simp only [use, Use.tallied, getOrRender]
    cases c.find? key with
    | some found => exact ⟨rfl, rfl, rfl⟩
    | none =>
      simp only [countingRenderer]
      cases render world with
      | mk result world => cases result <;> exact ⟨rfl, rfl, rfl⟩

/-- Counting changes nothing else about a run. -/
theorem answerAll_tallied (s : StringCache × ω) (made : Nat) (uses : List (Use ε ω)) :
    let run := answerAll use s uses
    let counted := answerAll use (s.1, s.2, made) (uses.map Use.tallied)
    counted.1 = run.1 ∧ counted.2.1 = run.2.1 ∧ counted.2.2.1 = run.2.2 := by
  have hstep : ∀ (s : StringCache × ω × Nat) (s' : StringCache × ω) (u : Use ε ω),
      s.1 = s'.1 ∧ s.2.1 = s'.2 →
        (use s u.tallied).1 = (use s' u).1 ∧
          (use s u.tallied).2.1 = (use s' u).2.1 ∧ (use s u.tallied).2.2.1 = (use s' u).2.2 := by
    rintro ⟨c, world, made⟩ ⟨c', world'⟩ u ⟨rfl, rfl⟩
    exact use_tallied c world made u
  rw [answerAll_map]
  exact answerAll_alike _ hstep ⟨rfl, rfl⟩ uses

end StringCache

namespace Recency

/-! ## One use -/

/-- What one use does to the number of entries: the number before it, the size of the batch that is
dropped, the number after it, and how many strings are rendered. -/
inductive Change (m t : Nat) : Nat → Option Nat → Nat → Nat → Prop where
  /-- Nothing comes in, and nothing leaves. -/
  | kept (n : Nat) : Change m t n none n 0
  /-- A string comes in, and there is room for it. -/
  | added {n : Nat} (h : n < m) : Change m t n none (n + 1) 1
  /-- A hit sets off a batch. The string that was hit stays, and there are others. -/
  | trimmed (h : 1 < m) : Change m t m (some (min t (m - 1))) (m - min t (m - 1)) 0
  /-- A string comes in after a batch. -/
  | replaced : Change m t m (some (min t m)) (m - min t m + 1) 1

variable {m t : Nat} {r : Recency} {e : Entry}

theorem evictions_evictIfFull (r : Recency) (m count : Nat) :
    (r.evictIfFull m count).1.evictions =
      r.evictions + (r.evictIfFull m count).2.toList.length := by
  unfold evictIfFull
  split <;> rfl

/-- A list that is not full drops nothing, and a full one says how much it drops. -/
theorem dropped_evictIfFull (r : Recency) (m count : Nat) :
    (r.evictIfFull m count).2.map Eviction.dropped =
      if r.entries.length = m then some count else none := by
  unfold evictIfFull
  split <;> rfl

theorem evictions_touch :
    (r.touch m t e).1.evictions = r.evictions + (r.touch m t e).2.toList.length := by
  unfold touch
  split
  · rfl
  · exact evictions_evictIfFull ..

theorem evictions_insert :
    (r.insert m t e).1.evictions = r.evictions + (r.insert m t e).2.toList.length :=
  evictions_evictIfFull ..

/-- A hit brings nothing in. -/
theorem change_touch (he : e ∈ r.entries) :
    Change m t r.entries.length ((r.touch m t e).2.map Eviction.dropped)
      (r.touch m t e).1.entries.length 0 := by
  unfold touch
  split
  · exact .kept _
  · next hlast =>
    -- An entry that is not the last one is not the only one.
    have hmany : 1 < r.entries.length := by
      obtain ⟨pre, post, hcut⟩ := List.append_of_mem he
      cases post with
      | nil => simp [hcut] at hlast
      | cons x post => simp [hcut]; omega
    have hlen : (r.entries.erase e ++ [e]).length = r.entries.length := by
      rw [List.length_append, List.length_erase_of_mem he, List.length_singleton]
      omega
    rw [dropped_evictIfFull, length_evictIfFull]
    dsimp only
    rw [hlen]
    split
    · next hfull =>
      rw [hfull] at hmany ⊢
      exact .trimmed hmany
    · exact .kept _

/-- A new entry comes in. -/
theorem change_insert (hle : r.entries.length ≤ m) :
    Change m t r.entries.length ((r.insert m t e).2.map Eviction.dropped)
      (r.insert m t e).1.entries.length 1 := by
  have hdropped := dropped_evictIfFull r m (min t r.entries.length)
  have hlength := length_evictIfFull r m (min t r.entries.length)
  rw [insert]
  dsimp only
  rw [List.length_append, List.length_singleton, hdropped, hlength]
  split
  · next hfull =>
    rw [hfull]
    exact .replaced
  · next hroom => exact .added (Nat.lt_of_le_of_ne hle hroom)

variable {ε ω : Type}

theorem evictions_use (s : Recency × ω) (u : Use ε ω) :
    (use m t s u).2.1.evictions = s.1.evictions + (use m t s u).1.batch?.toList.length := by
  cases u with
  | look key => rfl
  | request key render =>
    rw [use, request]
    split
    · exact evictions_touch
    · split
      · rfl
      · exact evictions_insert

/-- One use makes one of four changes, and the renderer counts the strings that come in. -/
theorem change_use {s : Recency × ω × Nat} (hle : s.1.entries.length ≤ m) (u : Use ε ω) :
    ∃ made, Change m t s.1.entries.length
        ((use m t s u.tallied).1.batch?.map Eviction.dropped)
        (use m t s u.tallied).2.1.entries.length made ∧
      (use m t s u.tallied).2.2.2 = s.2.2 + made := by
  obtain ⟨r, world, n⟩ := s
  cases u with
  | look key => exact ⟨0, .kept _, rfl⟩
  | request key render =>
    rw [Use.tallied, use, request]
    cases hf : r.find? key with
    | some e => exact ⟨0, change_touch (List.mem_of_find?_eq_some hf), rfl⟩
    | none =>
      simp only [countingRenderer]
      cases render world with
      | mk result world =>
        cases result with
        | error e => exact ⟨0, .kept _, rfl⟩
        | ok value => exact ⟨1, change_insert hle, rfl⟩

namespace Change

variable {n n' made : Nat} {dropped : Option Nat}

/-- What was there and what comes in is what is there afterwards and what was dropped. -/
theorem balance (h : Change m t n dropped n' made) : n + made = n' + dropped.getD 0 := by
  cases h with
  | kept => rfl
  | added => rfl
  | trimmed | replaced => rw [Option.getD_some]; omega

theorem length_le (h : Change m t n dropped n' made) (hle : n ≤ m) (hm : 0 < m) (ht : 0 < t) :
    n' ≤ m := by
  cases h with
  | kept => exact hle
  | added hroom => exact hroom
  | trimmed => omega
  | replaced => omega

/-- No batch is empty, and none takes more than there is. -/
theorem dropped_bounds (h : Change m t n dropped n' made) (hm : 0 < m) (ht : 0 < t) :
    ∀ d ∈ dropped, max 1 (min t (m - 1)) ≤ d ∧ d ≤ min t m := by
  intro d hd
  cases h with
  | kept | added => cases hd
  | trimmed hmany =>
    obtain rfl := Option.some.inj hd
    omega
  | replaced =>
    obtain rfl := Option.some.inj hd
    omega

/-- A batch makes room, unless a string has come in at once. -/
theorem lt_of_dropped (h : Change m t n dropped n' made) (hd : dropped ≠ none) (ht : 0 < t)
    (hmade : made = 0) : n' < m := by
  cases h with
  | kept | added => exact absurd rfl hd
  | trimmed => omega
  | replaced => cases hmade

/-- Where there is room, no batch is dropped, and the room is kept until a string comes in. -/
theorem of_lt (h : Change m t n dropped n' made) (hroom : n < m) :
    dropped = none ∧ (made = 0 → n' < m) := by
  cases h with
  | kept => exact ⟨rfl, fun _ => hroom⟩
  | added => exact ⟨rfl, fun hmade => by cases hmade⟩
  | trimmed | replaced => exact absurd hroom (Nat.lt_irrefl m)

end Change

/-! ## Accounts -/

/-- The strings that were rendered are there or were dropped, every batch is counted, and the size
of each is within its bounds. -/
structure Balanced (m t : Nat) (r : Recency) (made : Nat) (batches : List Eviction) : Prop where
  made_eq : made = r.entries.length + (batches.map Eviction.dropped).sum
  evictions_eq : r.evictions = batches.length
  length_le : r.entries.length ≤ m
  dropped_bounds : ∀ b ∈ batches, max 1 (min t (m - 1)) ≤ b.dropped ∧ b.dropped ≤ min t m

namespace Balanced

variable {made : Nat} {batches : List Eviction}

theorem empty : Balanced m t {} 0 [] where
  made_eq := rfl
  evictions_eq := rfl
  length_le := Nat.zero_le m
  dropped_bounds := by simp

/-- One use keeps the accounts balanced. -/
theorem use {s : Recency × ω × Nat} (h : Balanced m t s.1 s.2.2 batches) (hm : 0 < m)
    (ht : 0 < t) (u : Use ε ω) :
    let next := Recency.use m t s u.tallied
    Balanced m t next.2.1 next.2.2.2 (batches ++ next.1.batch?.toList) := by
  intro next
  obtain ⟨made, hchange, hmade⟩ := change_use (t := t) h.length_le u
  have hbalance : s.1.entries.length + made = next.2.1.entries.length +
      (next.1.batch?.map Eviction.dropped).getD 0 := hchange.balance
  have hsum : ((batches ++ next.1.batch?.toList).map Eviction.dropped).sum =
      (batches.map Eviction.dropped).sum + (next.1.batch?.map Eviction.dropped).getD 0 := by
    cases next.1.batch? <;> simp
  constructor
  case made_eq =>
    have hmade_eq := h.made_eq
    rw [hsum, hmade]
    omega
  case evictions_eq =>
    rw [evictions_use, h.evictions_eq, List.length_append]
  case length_le => exact hchange.length_le h.length_le hm ht
  case dropped_bounds =>
    intro b hb
    rcases List.mem_append.1 hb with hold | hnew
    · exact h.dropped_bounds b hold
    · exact hchange.dropped_bounds hm ht b.dropped
        (Option.mem_map_of_mem _ (Option.mem_toList.1 hnew))

/-- A run keeps the accounts balanced. -/
theorem run {s : Recency × ω × Nat} (h : Balanced m t s.1 s.2.2 batches) (hm : 0 < m)
    (ht : 0 < t) (us : List (Use ε ω)) :
    let last := answerAll (Recency.use m t) s (us.map Use.tallied)
    Balanced m t last.2.1 last.2.2.2 (batches ++ last.1.filterMap Use.Answer.batch?) := by
  induction us generalizing s batches with
  | nil => simpa [answerAll] using h
  | cons u us ih =>
    have hnext := ih (h.use hm ht u)
    dsimp only at hnext
    rw [List.append_assoc] at hnext
    intro last
    have hbatches : last.1.filterMap Use.Answer.batch? =
        (Recency.use m t s u.tallied).1.batch?.toList ++
          (answerAll (Recency.use m t) (Recency.use m t s u.tallied).2
            (us.map Use.tallied)).1.filterMap Use.Answer.batch? := by
      simp only [last, List.map_cons, answerAll, List.filterMap_cons]
      cases (Recency.use m t s u.tallied).1.batch? <;> rfl
    rw [hbatches]
    exact hnext

/-- So many batches have dropped at least so much, and at most so much. -/
theorem evictions_mul (h : Balanced m t r made batches) :
    r.evictions * max 1 (min t (m - 1)) ≤ made - r.entries.length ∧
      made - r.entries.length ≤ r.evictions * min t m := by
  have hbounds : ∀ d ∈ batches.map Eviction.dropped,
      max 1 (min t (m - 1)) ≤ d ∧ d ≤ min t m := by
    intro d hd
    obtain ⟨b, hb, rfl⟩ := List.mem_map.1 hd
    exact h.dropped_bounds b hb
  have hleast := List.card_nsmul_le_sum _ _ fun d hd => (hbounds d hd).1
  have hmost := List.sum_le_card_nsmul _ _ fun d hd => (hbounds d hd).2
  rw [List.length_map, smul_eq_mul] at hleast hmost
  rw [h.evictions_eq, h.made_eq, Nat.add_sub_cancel_left]
  exact ⟨hleast, hmost⟩

end Balanced

/-! ## Between two batches -/

/-- As long as no string has come in since there were `n` of them, there is room. -/
structure Rested (m n : Nat) (s : Recency × ω × Nat) : Prop where
  length_le : s.1.entries.length ≤ m
  made_le : n ≤ s.2.2
  room : s.2.2 = n → s.1.entries.length < m

namespace Rested

variable {n : Nat} {s : Recency × ω × Nat}

/-- A batch leaves room, or a string has come in with it. -/
theorem of_batch (hle : s.1.entries.length ≤ m) (hm : 0 < m) (ht : 0 < t) (u : Use ε ω)
    (hbatch : (Recency.use m t s u.tallied).1.batch? ≠ none) :
    Rested m s.2.2 (Recency.use m t s u.tallied).2 := by
  obtain ⟨made, hchange, hmade⟩ := change_use (t := t) hle u
  constructor
  case length_le => exact hchange.length_le hle hm ht
  case made_le => omega
  case room =>
    intro hsame
    refine hchange.lt_of_dropped ?_ ht (by omega)
    simpa using hbatch

theorem use (h : Rested m n s) (hm : 0 < m) (ht : 0 < t) (u : Use ε ω) :
    Rested m n (Recency.use m t s u.tallied).2 := by
  obtain ⟨made, hchange, hmade⟩ := change_use (t := t) h.length_le u
  have hmade_le := h.made_le
  constructor
  case length_le => exact hchange.length_le h.length_le hm ht
  case made_le => omega
  case room =>
    intro hsame
    exact (hchange.of_lt (h.room (by omega))).2 (by omega)

theorem run (h : Rested m n s) (hm : 0 < m) (ht : 0 < t) (us : List (Use ε ω)) :
    Rested m n (answerAll (Recency.use m t) s (us.map Use.tallied)).2 := by
  induction us generalizing s with
  | nil => exact h
  | cons u us ih => exact ih (h.use hm ht u)

/-- A batch is not dropped before a string has come in. -/
theorem lt_of_batch (h : Rested m n s) (u : Use ε ω)
    (hbatch : (Recency.use m t s u.tallied).1.batch? ≠ none) : n < s.2.2 := by
  obtain ⟨made, hchange, -⟩ := change_use (t := t) h.length_le u
  refine Nat.lt_of_le_of_ne h.made_le fun hsame => hbatch ?_
  simpa using (hchange.of_lt (h.room hsame.symm)).1

end Rested

end Recency

/-! ## Every run -/

namespace StringCache

variable {ε ω : Type}

/-- Whatever a cache is used for from empty on, the strings that were rendered for it are those that
it holds and those that were dropped. Every batch drops at least one string, at least as many as a
batch may if one of the strings has to stay, and not more than a batch may or than there are; so the
number of batches bounds the number of dropped strings from both sides. Between a batch and the next
one a string comes in: at least one string more has been rendered when the second of them is
dropped, so that uses that find their strings never set off two batches. -/
theorem batches_balanced (maxEntries truncateCount : Nat) (world : ω) (uses : List (Use ε ω)) :
    let m := max 1 maxEntries
    let t := max 1 truncateCount
    let start := empty (.ofNat maxEntries truncateCount)
    let run := answerAll use (start, world) uses
    let counted := answerAll use (start, world, 0) (uses.map Use.tallied)
    let c := run.2.1
    let made := counted.2.2.2
    let batches := run.1.filterMap Use.Answer.batch?
    (counted.1 = run.1 ∧ counted.2.1 = c ∧ counted.2.2.1 = run.2.2) ∧
      made = c.size + (batches.map Eviction.dropped).sum ∧
      c.evictions = batches.length ∧
      (∀ b ∈ batches, max 1 (min t (m - 1)) ≤ b.dropped ∧ b.dropped ≤ min t m) ∧
      c.evictions * max 1 (min t (m - 1)) ≤ made - c.size ∧
      made - c.size ≤ c.evictions * min t m ∧
      ∀ (first : Use ε ω) (between : List (Use ε ω)) (second : Use ε ω),
        let dropping := use counted.2 first.tallied
        let since := answerAll use dropping.2 (between.map Use.tallied)
        dropping.1.batch? ≠ none → (use since.2 second.tallied).1.batch? ≠ none →
          made < since.2.2.2 := by
  intro m t start run counted c made batches
  have hm : (Limits.ofNat maxEntries truncateCount).maxEntries = m := Nat.max_comm ..
  have ht : (Limits.ofNat maxEntries truncateCount).truncateCount = t := Nat.max_comm ..
  have hpos : 0 < m ∧ 0 < t := ⟨by omega, by omega⟩
  obtain ⟨hanswers, hcache, hworld⟩ := answerAll_tallied (start, world) 0 uses
  -- The accounts are those of the list that the counted run stays in step with.
  obtain ⟨hplain, hstep⟩ :=
    inStep_run (.ofNat maxEntries truncateCount) (world, 0) (uses.map Use.tallied)
  rw [hm, ht] at hplain hstep
  have hbalanced := Recency.Balanced.run (s := (({} : Recency), world, 0)) .empty hpos.1 hpos.2 uses
  dsimp only at hbalanced
  rw [List.nil_append, ← hplain, hanswers] at hbalanced
  have hin := hstep.represents
  have hsame := hstep.world
  have hsize : c.size = _ := hcache ▸ hin.size_eq
  have hevictions : c.evictions = _ := hcache ▸ hin.evictions
  have hmade : made = _ := congrArg Prod.snd hsame
  refine ⟨⟨hanswers, hcache, hworld⟩, ?_, ?_, hbalanced.dropped_bounds, ?_, ?_, ?_⟩
  · rw [hsize, hmade]
    exact hbalanced.made_eq
  · rw [hevictions]
    exact hbalanced.evictions_eq
  · rw [hsize, hmade, hevictions]
    exact hbalanced.evictions_mul.1
  · rw [hsize, hmade, hevictions]
    exact hbalanced.evictions_mul.2
  · intro first between second dropping since hfirst hsecond
    obtain ⟨hdropping, hstep₁⟩ := hstep.use first.tallied
    obtain ⟨-, hstep₂⟩ := answerAll_alike (InStep (.ofNat maxEntries truncateCount))
      (fun _ _ u h => h.use u) hstep₁ (between.map Use.tallied)
    obtain ⟨hlast, -⟩ := hstep₂.use second.tallied
    have hmore : since.2.2.2 = _ := congrArg Prod.snd hstep₂.world
    rw [hm, ht] at hdropping hlast hmore
    rw [hmade, hmore]
    have hrested := Recency.Rested.of_batch hbalanced.length_le hpos.1 hpos.2 first
      (hdropping ▸ hfirst)
    exact (hrested.run hpos.1 hpos.2 between).lt_of_batch second (hlast ▸ hsecond)

/-- Three entries and batches of two. The first of three strings is hit, which drops the other two,
and is hit again when two more have come in. Five strings have been rendered by then. -/
theorem batches_balanced_hit_twice :
    let ask (text : String) : Use String Unit :=
      .request ⟨text, none⟩ fun world => (.ok ⟨.blank 1 1, 1⟩, world)
    let fails : Use String Unit := .request ⟨"x", none⟩ fun world => (.error "x", world)
    let uses := [ask "a", fails, ask "b", ask "c"]
    let counted := answerAll use (empty (.ofNat 3 2), (), 0) (uses.map Use.tallied)
    let dropping := use counted.2 (ask "a").tallied
    let since := answerAll use dropping.2 ([ask "b", ask "d"].map Use.tallied)
    counted.2.2.2 = 3 ∧ dropping.1.batch? = some ⟨2, 1⟩ ∧
      (use since.2 (ask "a").tallied).1.batch? = some ⟨2, 1⟩ ∧ 3 < since.2.2.2 := by
  intro ask fails uses
  dsimp only
  obtain ⟨-, hstep⟩ := inStep_run (.ofNat 3 2) ((), 0) (uses.map Use.tallied)
  obtain ⟨hdropping, hstep₁⟩ := hstep.use (ask "a").tallied
  obtain ⟨-, hstep₂⟩ := answerAll_alike (InStep (.ofNat 3 2)) (fun _ _ u h => h.use u) hstep₁
    ([ask "b", ask "d"].map Use.tallied)
  obtain ⟨hlast, -⟩ := hstep₂.use (ask "a").tallied
  have hmade := (congrArg (fun w : Unit × Nat => w.2) hstep.world).trans (c := 3)
    (by decide +kernel)
  have hfirst := (congrArg Use.Answer.batch? hdropping).trans (c := some ⟨2, 1⟩)
    (by decide +kernel)
  have hsecond := (congrArg Use.Answer.batch? hlast).trans (c := some ⟨2, 1⟩) (by decide +kernel)
  obtain ⟨-, -, -, -, -, -, hbetween⟩ := batches_balanced 3 2 () uses
  have hmore := hbetween (ask "a") [ask "b", ask "d"] (ask "a")
    (fun hnone => by cases hfirst.symm.trans hnone)
    (fun hnone => by cases hsecond.symm.trans hnone)
  exact ⟨hmade, hfirst, hsecond, hmade.symm.trans_lt hmore⟩

end StringCache

end BitmapText
