import BitmapText.Proofs.StringCache.Refinement

/-!
# What a string cache holds

A request adds nothing to a cache but the string it answers with, and that string can be found
afterwards. Which entries are dropped on the way is of no concern here.

## Main statements

* `StringCache.Represents.peek?_eq_some_iff`: looking finds what is listed.
* `StringCache.Represents.peek?_getOrRender`: what can be found after a request.
-/

namespace BitmapText

open StringCache

namespace Recency

variable {r : Recency} {m t : Nat} {e x : Entry}

theorem mem_of_mem_touch (he : e ∈ r.entries) (hx : x ∈ (r.touch m t e).1.entries) :
    x ∈ r.entries := by
  unfold touch at hx
  split at hx
  · exact hx
  · have hmoved := (suffix_evictIfFull ..).mem hx
    rcases List.mem_append.1 hmoved with h | h
    · exact List.mem_of_mem_erase h
    · rwa [List.mem_singleton.1 h]

theorem mem_touch_self (he : e ∈ r.entries) : e ∈ (r.touch m t e).1.entries := by
  unfold touch
  split
  · exact he
  · have hlen : (r.entries.erase e).length = r.entries.length - 1 := List.length_erase_of_mem he
    unfold evictIfFull
    dsimp only
    split
    · rw [List.drop_append_of_le_length (by omega)]
      exact List.mem_append_right _ (List.mem_singleton_self e)
    · exact List.mem_append_right _ (List.mem_singleton_self e)

theorem mem_of_mem_insert (hx : x ∈ (r.insert m t e).1.entries) : x ∈ r.entries ∨ x = e := by
  rcases List.mem_append.1 hx with h | h
  · exact .inl ((suffix_evictIfFull ..).mem h)
  · exact .inr (List.mem_singleton.1 h)

theorem mem_insert_self : e ∈ (r.insert m t e).1.entries :=
  List.mem_append_right _ (List.mem_singleton_self e)

variable {ε ω : Type} {key : StringKey} {render : ω → Except ε RenderedString × ω} {world : ω}

/-- A request adds nothing but the string it answers with. -/
theorem mem_of_mem_request (hx : x ∈ (r.request m t key render world).2.1.entries) :
    x ∈ r.entries ∨
      x.key = key ∧ ∃ eviction, (r.request m t key render world).1 =
        .served (.ok x.value) eviction := by
  unfold request at hx ⊢
  split at hx
  · next e hf => exact .inl (mem_of_mem_touch (List.mem_of_find?_eq_some hf) hx)
  · split at hx
    · exact .inl hx
    · next value world' hw =>
      rcases mem_of_mem_insert hx with h | rfl
      · exact .inl h
      · exact .inr ⟨rfl, _, rfl⟩

theorem mem_request_self {s : RenderedString} {eviction : Option Eviction}
    (h : (r.request m t key render world).1 = .served (.ok s) eviction) :
    (⟨key, s⟩ : Entry) ∈ (r.request m t key render world).2.1.entries := by
  unfold request at h ⊢
  split at h
  · next e hf =>
    have hkey : e.key = key := by simpa using List.find?_some hf
    have hvalue : e.value = s := by simp_all
    subst hkey hvalue
    exact mem_touch_self (List.mem_of_find?_eq_some hf)
  · split at h
    · simp at h
    · next value world' hw =>
      have hvalue : value = s := by simp_all
      subst hvalue
      exact mem_insert_self

end Recency

namespace StringCache

variable {c : StringCache} {r : Recency}

theorem Holds.peek?_of_mem {xs : List (Nat × Entry)} (h : c.Holds xs) {x : Nat × Entry}
    (hx : x ∈ xs) : c.peek? x.2.key = some x.2.value := by
  have hindex : c.index[x.2.key]? = some x.1 := (h.index _ _).2 ⟨x.2, hx, rfl⟩
  simp only [peek?, find?, hindex, h.arena.value?_of_mem hx, Option.map_some]

namespace Represents

/-- Looking finds what is listed. -/
theorem peek?_eq_some_iff (h : c.Represents r) {key : StringKey} {s : RenderedString} :
    c.peek? key = some s ↔ (⟨key, s⟩ : Entry) ∈ r.entries := by
  constructor
  · intro hs
    rw [h.peek?_eq, Recency.peek?, Option.map_eq_some_iff] at hs
    obtain ⟨e, hf, rfl⟩ := hs
    have hkey : e.key = key := by simpa using List.find?_some hf
    subst hkey
    exact List.mem_of_find?_eq_some hf
  · intro hm
    obtain ⟨xs, hxs, hr⟩ := h.holds
    obtain ⟨x, hx, he⟩ := List.mem_map.1 (hr ▸ hm)
    simpa [he] using hxs.peek?_of_mem hx

/-- After a request, its string is found under its key, and under other keys only what was found
before. -/
theorem peek?_getOrRender {ε ω : Type} (h : c.Represents r) (key : StringKey)
    (render : ω → Except ε RenderedString × ω) (world : ω) :
    let o := c.getOrRender key render world
    (∀ s, o.result = .ok s → o.cache.peek? key = some s) ∧
      ∀ k s, o.cache.peek? k = some s → c.peek? k = some s ∨ k = key ∧ o.result = .ok s := by
  intro o
  obtain ⟨hanswer, -, hin, -⟩ := h.getOrRender key render world
  refine ⟨fun s hs => ?_, fun k s hs => ?_⟩
  · rw [hin.peek?_eq_some_iff]
    exact Recency.mem_request_self (by rw [← hanswer, ← hs])
  · rcases Recency.mem_of_mem_request (hin.peek?_eq_some_iff.1 hs) with hm | ⟨hk, eviction, hserved⟩
    · exact .inl (h.peek?_eq_some_iff.2 hm)
    · rw [← hanswer] at hserved
      exact .inr ⟨hk, (Use.Answer.served.inj hserved).1⟩

end Represents

theorem getOrRender_of_peek? {ε ω : Type} {key : StringKey} {s : RenderedString}
    (hs : c.peek? key = some s) (render : ω → Except ε RenderedString × ω) (world : ω) :
    (c.getOrRender key render world).result = .ok s ∧
      (c.getOrRender key render world).world = world := by
  obtain ⟨⟨slot, e⟩, hf, rfl⟩ := Option.map_eq_some_iff.1 hs
  simp only [getOrRender, hf, and_self]

theorem getOrRender_of_peek?_eq_none {ε ω : Type} {key : StringKey} (hs : c.peek? key = none)
    (render : ω → Except ε RenderedString × ω) (world : ω) :
    (c.getOrRender key render world).result = (render world).1 ∧
      (c.getOrRender key render world).world = (render world).2 := by
  have hf : c.find? key = none := Option.map_eq_none_iff.1 hs
  cases hw : render world with
  | mk result world' => cases result <;> simp only [getOrRender, hf, hw, and_self]

end StringCache

end BitmapText
