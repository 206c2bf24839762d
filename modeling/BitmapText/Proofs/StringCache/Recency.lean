import BitmapText.StringCache

/-!
# Entries in order of use

What a string cache is to its users: a plain list of entries, the least recently used one first,
and the number of batches dropped from it. There are no slots, links or index here; the rules of
the cache are list operations.

## Main definitions

* `Recency`: the list with its count.
* `Recency.request`: ask for the string of a key.
* `StringCache.Use`, `answerAll`: sequences of requests and looks, on a cache or on a list.
-/

namespace BitmapText

open StringCache

/-- Entries in order of use, the least recently used one first. -/
structure Recency where
  entries : List Entry := []
  /-- The number of batches dropped so far. -/
  evictions : Nat := 0

namespace Recency

/-! ## Views -/

def find? (r : Recency) (key : StringKey) : Option Entry := r.entries.find? fun e => e.key = key

def peek? (r : Recency) (key : StringKey) : Option RenderedString := (r.find? key).map Entry.value

def keys (r : Recency) : List StringKey := r.entries.map Entry.key

/-- The bytes that all entries take, about. -/
def footprint (r : Recency) : Nat :=
  r.entries.foldr (fun entry total => entry.footprint + total) 0

/-! ## Rules -/

/-- A list of `m` entries loses `count` of them from the front. -/
def evictIfFull (r : Recency) (m count : Nat) : Recency × Option Eviction :=
  if r.entries.length = m then
    ({ entries := r.entries.drop count, evictions := r.evictions + 1 },
      some { dropped := count, remaining := (r.entries.drop count).length })
  else (r, none)

/-- Note that an entry was used: unless it is the last one, it moves to the end, and a full list
loses `t` others at most. -/
def touch (r : Recency) (m t : Nat) (e : Entry) : Recency × Option Eviction :=
  if r.entries.getLast? = some e then (r, none)
  else
    evictIfFull { r with entries := r.entries.erase e ++ [e] } m (min t (r.entries.length - 1))

/-- Add an entry at the end, after a full list has lost `t` entries at most. -/
def insert (r : Recency) (m t : Nat) (e : Entry) : Recency × Option Eviction :=
  match r.evictIfFull m (min t r.entries.length) with
  | (r, eviction) => ({ r with entries := r.entries ++ [e] }, eviction)

/-! ## Lengths -/

theorem suffix_evictIfFull (r : Recency) (m count : Nat) :
    (r.evictIfFull m count).1.entries <:+ r.entries := by
  unfold evictIfFull
  split
  · exact List.drop_suffix count r.entries
  · exact List.suffix_rfl

/-- After a full list has lost entries there is room for another one. -/
theorem length_evictIfFull_lt (r : Recency) {m t : Nat} (h : r.entries.length ≤ m) (hm : 0 < m)
    (ht : 0 < t) : (r.evictIfFull m (min t r.entries.length)).1.entries.length < m := by
  unfold evictIfFull
  split
  · rw [List.length_drop]
    omega
  · next hne => exact Nat.lt_of_le_of_ne h hne

end Recency

/-! ## Sequences of uses -/

/-- Answer questions in order, each in the state that the one before left behind. -/
def answerAll {σ υ α : Type} (answer : σ → υ → α × σ) (s : σ) : List υ → List α × σ
  | [] => ([], s)
  | first :: rest =>
    match answer s first with
    | (a, s) =>
      match answerAll answer s rest with
      | (as, s) => (a :: as, s)

/-- Two systems that answer alike, and stay alike in `R`, answer every sequence alike. -/
theorem answerAll_alike {σ τ υ α : Type} {f : σ → υ → α × σ} {g : τ → υ → α × τ}
    (R : σ → τ → Prop) (step : ∀ s t u, R s t → (f s u).1 = (g t u).1 ∧ R (f s u).2 (g t u).2)
    {s : σ} {t : τ} (h : R s t) (us : List υ) :
    (answerAll f s us).1 = (answerAll g t us).1 ∧
      R (answerAll f s us).2 (answerAll g t us).2 := by
  induction us generalizing s t with
  | nil => exact ⟨rfl, h⟩
  | cons u us ih =>
    obtain ⟨hfirst, hnext⟩ := step s t u h
    obtain ⟨hrest, hlast⟩ := ih hnext
    exact ⟨by simp only [answerAll, hfirst, hrest], hlast⟩

namespace StringCache

/-- One use of a cache. -/
inductive Use (ε ω : Type) where
  /-- Ask for the string of a key, which is rendered if it is missing. -/
  | request (key : StringKey) (render : ω → Except ε RenderedString × ω)
  /-- Look for the string of a key. -/
  | look (key : StringKey)

/-- What a use comes to. -/
inductive Use.Answer (ε : Type) where
  /-- The string or the failure, and the batch that was dropped. -/
  | served (result : Except ε RenderedString) (eviction : Option Eviction)
  | found (value : Option RenderedString)

variable {ε ω : Type}

def use (s : StringCache × ω) : Use ε ω → Use.Answer ε × StringCache × ω
  | .request key render =>
    match s.1.getOrRender key render s.2 with
    | { result, cache, eviction, world } => (.served result eviction, cache, world)
  | .look key => (.found (s.1.peek? key), s)

end StringCache

namespace Recency

variable {ε ω : Type}

/-- Ask a list for the string of a key. An entry that is there counts as used; a new one is added
at the end, and a failure to render it changes nothing. -/
def request (m t : Nat) (r : Recency) (key : StringKey)
    (render : ω → Except ε RenderedString × ω) (world : ω) : Use.Answer ε × Recency × ω :=
  match r.find? key with
  | some e =>
    match r.touch m t e with
    | (r, eviction) => (.served (.ok e.value) eviction, r, world)
  | none =>
    match render world with
    | (.error e, world) => (.served (.error e) none, r, world)
    | (.ok value, world) =>
      match r.insert m t { key, value } with
      | (r, eviction) => (.served (.ok value) eviction, r, world)

def use (m t : Nat) (s : Recency × ω) : Use ε ω → Use.Answer ε × Recency × ω
  | .request key render => s.1.request m t key render s.2
  | .look key => (.found (s.1.peek? key), s)

end Recency

end BitmapText
