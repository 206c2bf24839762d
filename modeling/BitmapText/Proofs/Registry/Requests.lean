import BitmapText.Backend.TableBackend
import BitmapText.Proofs.Registry.Acquisition

/-!
# What is asked of the library

The rasterizer library is started for the first font that is loaded, as soon as it can be started,
and it is asked for one face for each font that is loaded. Nothing else is asked of it, whatever is
done with the fonts and their handles. A font that cannot be had leaves all other fonts as they are,
and every font that is loaded begins anew, also one that was loaded before.

## Main definitions

* `Registry.Act`, `Registry.after`: what can be done with a registry.
* `Registry.loads`: how often a run loads the font of a key.
* `Registry.Traced`: the library is started at most once, and whether it was is known.

## Main statements

* `Registry.plain_foldl_after`: writing requests down changes nothing else in a run.
* `Registry.eq_of_enters`: how a font comes in.
* `Registry.opens_foldl_after`: which faces are asked for in a run.
* `Registry.requests_run`: what is asked in the course of a run, and by what.
-/

namespace BitmapText

namespace Registry

/-- What can be done with a registry and its handles. -/
inductive Act where
  | acquire (key : FontKey)
  | call (c : Call)

section After

variable {β σ : Type} [Backend β σ] [Face σ]

/-- The registry after something was done with it. -/
def after (r : Registry β σ) : Act → Registry β σ
  | .acquire key => (r.acquire key).2.1
  | .call c => (r.answer c).2

/-- The registry after all that was done with it since it was empty. -/
def run (library : β) (limits : StringCache.Limits) (acts : List Act) : Registry β σ :=
  acts.foldl after (.empty library limits)

/-- The number of times that a run from `r` loads the font of a key: the font was not there before
an act and is there afterwards. -/
def loads (key : FontKey) (r : Registry β σ) : List Act → Nat
  | [] => 0
  | act :: rest =>
    (if r.find? key = none ∧ (r.after act).find? key ≠ none then 1 else 0) +
      loads key (r.after act) rest

end After

variable {β σ : Type} [Backend β σ] [Face σ]

variable {r : Registry (Recorded β) σ} {key : FontKey}

/-- Writing requests down changes nothing else in a run. -/
theorem plain_foldl_after (r : Registry (Recorded β) σ) (acts : List Act) :
    (acts.foldl after r).plain = acts.foldl after r.plain := by
  induction acts generalizing r with
  | nil => rfl
  | cons act rest ih =>
    have hstep : (r.after act).plain = r.plain.after act := by
      cases act with
      | acquire key => simp only [after, plain_acquire]
      | call c => simp only [after, plain_answer]
    rw [List.foldl_cons, List.foldl_cons, ih, hstep]

/-! ## One act -/

/-- Calls on loaded fonts ask nothing of the library but to take back faces. -/
theorem requests_answer (r : Registry (Recorded β) σ) (c : Call) :
    (r.answer c).2.backend.requests = r.backend.requests ∧
      (r.answer c).2.started = r.started ∧ (r.answer c).2.limits = r.limits := by
  cases c with
  | ask h q =>
    rw [answer]
    cases hf : r.find? h.key with
    | none =>
      rw [ask_eq_none hf]
      exact ⟨rfl, rfl, rfl⟩
    | some s =>
      rw [ask_eq_some hf]
      exact ⟨rfl, rfl, rfl⟩
  | release h =>
    rw [answer, release]
    cases r.find? h.key with
    | none => exact ⟨rfl, rfl, rfl⟩
    | some s =>
      dsimp only
      split
      · exact ⟨rfl, rfl, rfl⟩
      · exact ⟨rfl, rfl, rfl⟩
  | _ => exact ⟨rfl, rfl, rfl⟩

theorem limits_after (r : Registry (Recorded β) σ) (act : Act) :
    (r.after act).limits = r.limits := by
  cases act with
  | call c => exact (r.requests_answer c).2.2
  | acquire k =>
    rw [after]
    have hend := r.acquisition k
    generalize (r.acquire k).1 = result, (r.acquire k).2.1 = r' at hend
    cases hend <;> rfl

omit [Face σ] in
/-- A font that cannot be had changes nothing but the library, and whether it has been started. -/
theorem eq_of_acquire_error {e : FontError} (he : (r.acquire key).1 = .error e) :
    (r.acquire key).2.1 = { r with
      backend := (r.acquire key).2.1.backend
      started := (r.acquire key).2.1.started } := by
  have hend := r.acquisition key
  rw [he] at hend
  generalize (r.acquire key).2.1 = r' at hend ⊢
  cases hend with
  | unstarted _ library hf hs => rfl
  | refused _ library hf => rfl

omit [Backend β σ] [Face σ] in
/-- A slot at the end is found under its key if no slot was found there before. -/
theorem find?_requested_addSlot (r : Registry (Recorded β) σ) (library : β)
    (requests : List Request) (s : Slot σ) (nextId : Nat) (key : FontKey) :
    ({ r.requested library requests with slots := r.slots ++ [s], nextId } :
        Registry (Recorded β) σ).find? key =
      (r.find? key).or (if s.font.key.Same key then some s else none) := by
  simp only [find?, List.find?_append, List.find?_singleton, decide_eq_true_eq]

/-- A font comes in only by being asked for. It begins with one handle, with empty caches and
without measures, whether or not it was loaded before. -/
theorem eq_of_enters {act : Act} {s : Slot σ} (hf : r.find? key = none)
    (hs : (r.after act).find? key = some s) :
    ∃ k face, act = .acquire k ∧ k.Same key ∧
      s = { font := .opened k face r.limits, id := r.nextId, refcount := 1 } := by
  cases act with
  | call c =>
    rw [after, find?_answer_eq_none hf] at hs
    cases hs
  | acquire k =>
    rw [after] at hs
    have hend := r.acquisition k
    generalize (r.acquire k).1 = result, (r.acquire k).2.1 = r' at hend hs
    cases hend with
    | shared t ht =>
      rw [find?_retain, hf] at hs
      simp at hs
    | unstarted e library => exact absurd (hf.symm.trans hs) (by simp)
    | refused e library => exact absurd (hf.symm.trans hs) (by simp)
    | loaded face library =>
      rw [find?_requested_addSlot, hf, Option.none_or] at hs
      split at hs
      · next hk => exact ⟨k, face, rfl, hk, (Option.some.inj hs).symm⟩
      · cases hs

/-! ## Starts -/

/-- The library is started at most once, and it is known whether it was. -/
structure Traced (r : Registry (Recorded β) σ) : Prop where
  started : r.started = true ↔ .start true ∈ r.backend.requests
  once : r.backend.requests.Pairwise fun q q' => q = .start true → ∀ ok, q' ≠ .start ok

namespace Traced

omit [Backend β σ] [Face σ] in
theorem empty (library : β) (limits : StringCache.Limits) :
    Traced (.empty { library } limits : Registry (Recorded β) σ) where
  started := by simp [Registry.empty]
  once := .nil

omit [Backend β σ] [Face σ] in
theorem congr {r' : Registry (Recorded β) σ} (h : r.Traced)
    (hr : r'.backend.requests = r.backend.requests) (hs : r'.started = r.started) : r'.Traced := by
  obtain ⟨hstarted, honce⟩ := h
  constructor
  · rwa [hr, hs]
  · rwa [hr]

omit [Backend β σ] [Face σ] in
/-- A failure to start may come again. -/
theorem unstarted (h : r.Traced) (hs : r.started = false) (library : β) :
    Traced { r with
      backend := { library, requests := r.backend.requests ++ [.start false] } } where
  started := by simpa using h.started
  once := by
    have hnever : .start true ∉ r.backend.requests := fun hmem => by
      rw [h.started.2 hmem] at hs
      cases hs
    rw [List.pairwise_append]
    refine ⟨h.once, List.pairwise_singleton _ _, fun q hq q' _ hstart => ?_⟩
    exact absurd (hstart ▸ hq) hnever

omit [Backend β σ] [Face σ] in
/-- A library is started for a face only if it has not been started. -/
theorem requested (h : r.Traced) (library : β) (k : FontKey) (ok : Bool) :
    Traced (r.requested library [.openFace k ok]) where
  started := by
    by_cases hs : r.started = true
    · simp [Registry.requested, h.started.1 hs]
    · simp [Registry.requested, starting, hs]
  once := by
    by_cases hs : r.started = true
    · simpa [Registry.requested, starting, hs, List.pairwise_append] using h.once
    · have hnever : .start true ∉ r.backend.requests := fun hmem => hs (h.started.2 hmem)
      simp only [Registry.requested, starting, hs, List.append_assoc]
      rw [List.pairwise_append]
      refine ⟨h.once, by simp, fun q hq q' _ hstart => ?_⟩
      exact absurd (hstart ▸ hq) hnever

theorem after (h : r.Traced) (act : Act) : (r.after act).Traced := by
  cases act with
  | call c =>
    obtain ⟨hrequests, hstarted, -⟩ := r.requests_answer c
    exact h.congr hrequests hstarted
  | acquire k =>
    rw [Registry.after]
    have hend := r.acquisition k
    generalize (r.acquire k).1 = result, (r.acquire k).2.1 = r' at hend
    cases hend with
    | shared s hf => exact h.congr rfl rfl
    | unstarted e library hf hs => exact h.unstarted hs library
    | refused e library hf => exact h.requested library k false
    | loaded face library hf => exact (h.requested library k true).congr rfl rfl

theorem foldl_after (h : r.Traced) (acts : List Act) : (acts.foldl Registry.after r).Traced := by
  induction acts generalizing r with
  | nil => exact h
  | cons act rest ih => exact ih (h.after act)

end Traced

/-! ## Faces -/

omit [Backend β σ] [Face σ] in
/-- A start is no request for a face. -/
theorem countP_starting (started : Bool) (request : Request) {p : Request → Bool}
    (hp : p (.start true) = false) :
    (starting started ++ [request]).countP p = if p request then 1 else 0 := by
  cases started with
  | true => simp [starting, List.countP_cons]
  | false => simp [starting, List.countP_cons, hp]

/-- Every request for a face of a key is refused, or it loads the font of the key. -/
theorem opens_after (r : Registry (Recorded β) σ) (act : Act) (key : FontKey) :
    ∃ new, (r.after act).backend.requests = r.backend.requests ++ new ∧
      new.countP (Request.opens key) =
        (if r.find? key = none ∧ (r.after act).find? key ≠ none then 1 else 0) +
          new.countP (Request.refuses key) := by
  cases act with
  | call c =>
    have hgone : ¬ (r.find? key = none ∧ (r.answer c).2.find? key ≠ none) := fun ⟨hf, hn⟩ =>
      hn (find?_answer_eq_none hf c)
    have hrequests := (r.requests_answer c).1
    exact ⟨[], by rw [after, hrequests, List.append_nil], by rw [after, if_neg hgone]; rfl⟩
  | acquire k =>
    rw [after]
    have hend := r.acquisition k
    generalize (r.acquire k).1 = result, (r.acquire k).2.1 = r' at hend
    cases hend with
    | shared s hf =>
      have hsame : ¬ (r.find? key = none ∧ (r.retain k).find? key ≠ none) := fun ⟨hf, hn⟩ =>
        hn (by rw [find?_retain, hf]; exact ite_self _)
      exact ⟨[], (List.append_nil _).symm, by rw [if_neg hsame]; rfl⟩
    | unstarted e library hf hs =>
      exact ⟨[.start false], rfl, by rw [if_neg fun h => h.2 h.1]; rfl⟩
    | refused e library hf =>
      refine ⟨starting r.started ++ [Request.openFace k false], List.append_assoc .., ?_⟩
      rw [if_neg fun h => h.2 h.1, countP_starting _ _ rfl, countP_starting _ _ rfl]
      simp [Request.opens, Request.refuses]
    | loaded face library hf =>
      refine ⟨starting r.started ++ [Request.openFace k true], List.append_assoc .., ?_⟩
      rw [find?_requested_addSlot, countP_starting _ _ rfl, countP_starting _ _ rfl]
      by_cases hk : k.Same key
      · have hnone : r.find? key = none := (r.find?_congr hk).symm.trans hf
        simp [Request.opens, Request.refuses, hk, hnone, Font.opened]
      · simp [Request.opens, Request.refuses, hk, Font.opened]

/-- In a run, every request for a face of a key is refused, or it loads the font of the key. -/
theorem opens_foldl_after (r : Registry (Recorded β) σ) (acts : List Act) (key : FontKey) :
    ∃ new, (acts.foldl after r).backend.requests = r.backend.requests ++ new ∧
      new.countP (Request.opens key) =
        r.loads key acts + new.countP (Request.refuses key) := by
  induction acts generalizing r with
  | nil => exact ⟨[], (List.append_nil _).symm, rfl⟩
  | cons act rest ih =>
    obtain ⟨first, hfirst, hcount⟩ := r.opens_after act key
    obtain ⟨others, hothers, hrest⟩ := ih (r.after act)
    refine ⟨first ++ others, ?_, ?_⟩
    · rw [List.foldl_cons, hothers, hfirst, List.append_assoc]
    · rw [List.countP_append, List.countP_append, hcount, hrest, loads]
      omega

/-! ## All of it -/

omit [Face σ] in
/-- Asking for a font that is loaded asks nothing. Otherwise a face is asked for as soon as the
library has been started, and it is started if it was not. There is a handle exactly when the font
was loaded or there is a face. -/
theorem requests_acquire (h : r.Traced) (key : FontKey) :
    let before := r.backend.requests
    let after := (r.acquire key).2.1.backend.requests
    let ok := (r.acquire key).1.isOk
    (r.find? key ≠ none → after = before ∧ ok = true) ∧
      (r.find? key = none → .start true ∈ before → after = before ++ [.openFace key ok]) ∧
      (r.find? key = none → .start true ∉ before →
        after = before ++ [.start false] ∧ ok = false ∨
          after = before ++ [.start true, .openFace key ok]) := by
  intro before after ok
  have hstarting : (.start true ∈ before → starting r.started = []) ∧
      (.start true ∉ before → starting r.started = [.start true]) := by
    refine ⟨fun hmem => ?_, fun hmem => ?_⟩
    · rw [h.started.2 hmem]
      rfl
    · rw [Bool.eq_false_iff.2 fun hs => hmem (h.started.1 hs)]
      rfl
  have hend := r.acquisition key
  simp only [before, after, ok]
  generalize (r.acquire key).1 = result, (r.acquire key).2.1 = r' at hend
  cases hend with
  | shared s hf => exact ⟨fun _ => ⟨rfl, rfl⟩, by simp [hf], by simp [hf]⟩
  | unstarted e library hf hs =>
    have hmem : .start true ∉ before := fun hmem => by
      rw [h.started.2 hmem] at hs
      cases hs
    exact ⟨fun hn => absurd hf hn, fun _ hstart => absurd hstart hmem, fun _ _ => .inl ⟨rfl, rfl⟩⟩
  | refused e library hf =>
    refine ⟨fun hn => absurd hf hn, fun _ hstart => ?_, fun _ hstart => .inr ?_⟩
    · simp only [requested, hstarting.1 hstart, List.append_nil]
      rfl
    · simp only [requested, hstarting.2 hstart, List.append_assoc]
      rfl
  | loaded face library hf =>
    refine ⟨fun hn => absurd hf hn, fun _ hstart => ?_, fun _ hstart => .inr ?_⟩
    · simp only [requested, hstarting.1 hstart, List.append_nil]
      rfl
    · simp only [requested, hstarting.2 hstart, List.append_assoc]
      rfl

theorem limits_foldl_after (r : Registry (Recorded β) σ) (acts : List Act) :
    (acts.foldl after r).limits = r.limits := by
  induction acts generalizing r with
  | nil => rfl
  | cons act rest ih => exact (ih (r.after act)).trans (r.limits_after act)

/-- Of every run that begins with an empty registry, whatever the library does, and whether or not
it writes down what it is asked for:

* The library is not started again once it has been started.
* Only asking for a font asks anything of the library: nothing if the font is loaded, else a start
  unless it has been started, and then a face unless it could not be started.
* The faces that are asked for a key are those that are refused and one for each time that the font
  of the key is loaded.
* When a font cannot be had, no slot changes, only that the library may have been started.
* A font comes in only by being asked for, with one handle, nothing in its caches and no measures,
  also when it was loaded before. -/
theorem requests_run (library : β) (limits : StringCache.Limits) (acts : List Act) :
    let r : Registry (Recorded β) σ := run { library } limits acts
    r.plain = run library limits acts ∧
      (r.backend.requests.Pairwise fun q q' => q = .start true → ∀ ok, q' ≠ .start ok) ∧
      (∀ c, (r.answer c).2.backend.requests = r.backend.requests) ∧
      (∀ key,
        let before := r.backend.requests
        let after := (r.acquire key).2.1.backend.requests
        let ok := (r.acquire key).1.isOk
        (r.find? key ≠ none → after = before ∧ ok = true) ∧
          (r.find? key = none → .start true ∈ before → after = before ++ [.openFace key ok]) ∧
          (r.find? key = none → .start true ∉ before →
            after = before ++ [.start false] ∧ ok = false ∨
              after = before ++ [.start true, .openFace key ok])) ∧
      (∀ key, r.backend.requests.countP (Request.opens key) =
        loads key (.empty { library } limits : Registry (Recorded β) σ) acts +
          r.backend.requests.countP (Request.refuses key)) ∧
      (∀ key e, (r.acquire key).1 = .error e →
        (r.acquire key).2.1 = { r with
          backend := (r.acquire key).2.1.backend
          started := (r.acquire key).2.1.started }) ∧
      ∀ act key s, r.find? key = none → (r.after act).find? key = some s →
        ∃ k face, act = .acquire k ∧ k.Same key ∧
          s = { font := .opened k face limits, id := r.nextId, refcount := 1 } := by
  intro r
  let start : Registry (Recorded β) σ := .empty { library } limits
  have htraced : r.Traced := (Traced.empty library limits).foldl_after acts
  have hlimits : r.limits = limits := start.limits_foldl_after acts
  refine ⟨start.plain_foldl_after acts, htraced.once, fun c => (r.requests_answer c).1,
    requests_acquire htraced, fun key => ?_, fun key e he => eq_of_acquire_error he,
    fun act key s hf hs => ?_⟩
  · obtain ⟨new, hnew, hcount⟩ := start.opens_foldl_after acts key
    have hrequests : r.backend.requests = new := hnew.trans (List.nil_append new)
    rw [hrequests, hcount]
  · rw [← hlimits]
    exact eq_of_enters hf hs

/-- A library that fails to start at first, and has no face under one path. A font is refused, then
another one is loaded, shared, given back, and loaded again. -/
theorem requests_run_loaded_again :
    let library : TableBackend :=
      { listed := [("b.ttf", .refused "broken")], others := some (.face {}), startFailures := 1 }
    let a : FontKey := ⟨⟨"a.ttf"⟩, 16, 96⟩
    let b : FontKey := ⟨⟨"b.ttf"⟩, 16, 96⟩
    let acts : List Act :=
      [.acquire a, .acquire b, .acquire a, .acquire a, .call (.release ⟨a, 0⟩),
        .call (.release ⟨a, 0⟩), .acquire a]
    let requests :=
      [.start false, .start true, .openFace b false, .openFace a true, .openFace a true]
    (run { library } default acts : Registry (Recorded TableBackend) TableFace).backend.requests =
        requests ∧
      loads a (.empty { library } default : Registry (Recorded TableBackend) TableFace) acts = 2 ∧
      loads b (.empty { library } default : Registry (Recorded TableBackend) TableFace) acts = 0 := by
  intro library a b acts requests
  have hrequests :
      (run { library } default acts : Registry (Recorded TableBackend) TableFace).backend.requests =
        requests := by decide +kernel
  have hfaces (key : FontKey) := (requests_run library default acts).2.2.2.2.1 key
  have ha : requests.countP (Request.opens a) = 2 ∧ requests.countP (Request.refuses a) = 0 := by
    decide +kernel
  have hb : requests.countP (Request.opens b) = 1 ∧ requests.countP (Request.refuses b) = 1 := by
    decide +kernel
  have hloads := hfaces a
  have hloads' := hfaces b
  rw [hrequests, ha.1, ha.2] at hloads
  rw [hrequests, hb.1, hb.2] at hloads'
  exact ⟨hrequests, by omega, by omega⟩

end Registry

end BitmapText
