import BitmapText.Proofs.Registry.Calls

/-!
# How asking for a font can end

The font may be loaded already; the library may not start; it may have no face for the key; or the
font is loaded. To have something to say about what the library is asked for on the way, it is made
to write that down, which changes nothing else.

## Main definitions

* `Request`, `Recorded`: a library that writes down what it is asked for.
* `Registry.Acquisition`: the four ways in which asking for a font can end.
* `Registry.plain`: a registry without what has been written down.

## Main statements

* `Registry.acquisition`: these are all the ways.
* `Registry.plain_acquire`, `Registry.plain_answer`: everything goes on as without writing down.
-/

namespace BitmapText

/-! ## Libraries that write down requests -/

/-- What is asked of a rasterizer library, and whether it succeeds. -/
inductive Request where
  | start (ok : Bool)
  | openFace (key : FontKey) (ok : Bool)
deriving DecidableEq

namespace Request

/-- The request is for a face of the key. -/
def opens (key : FontKey) : Request → Bool
  | .start _ => false
  | .openFace k _ => k.Same key

/-- The request is for a face of the key, and the library refuses it. -/
def refuses (key : FontKey) : Request → Bool
  | .start _ => false
  | .openFace k ok => k.Same key && !ok

end Request

/-- A library that writes down what it is asked for, in order. -/
structure Recorded (β : Type) where
  library : β
  requests : List Request := []

namespace Recorded

variable {β σ : Type}

instance [Backend β σ] : Backend (Recorded β) σ where
  start b :=
    match Backend.start b.library with
    | (result, library) => (result, { library, requests := b.requests ++ [.start result.isOk] })
  openFace b key :=
    match Backend.openFace b.library key with
    | (result, log, library) =>
      (result, log, { library, requests := b.requests ++ [.openFace key result.isOk] })
  closeFace b face := { b with library := Backend.closeFace b.library face }

end Recorded

namespace Registry

variable {β σ : Type} [Backend β σ]

/-! ## Asking for a font -/

/-- The start of a library that has not been started yet. -/
def starting (started : Bool) : List Request := if started then [] else [.start true]

/-- The registry with its library started, if it was not, and `requests` put to it then. -/
def requested (r : Registry (Recorded β) σ) (library : β) (requests : List Request) :
    Registry (Recorded β) σ :=
  { r with
    backend := { library, requests := r.backend.requests ++ starting r.started ++ requests }
    started := true }

/-- How asking for the font of a key can end, from the registry `r`. -/
inductive Acquisition (r : Registry (Recorded β) σ) (key : FontKey) :
    Except FontError Handle → Registry (Recorded β) σ → Prop where
  /-- The font is loaded already. -/
  | shared (s : Slot σ) (hf : r.find? key = some s) :
      Acquisition r key (.ok s.handle) (r.retain key)
  /-- The library cannot be started. -/
  | unstarted (e : FontError) (library : β) (hf : r.find? key = none) (hs : r.started = false) :
      Acquisition r key (.error e)
        { r with backend := { library, requests := r.backend.requests ++ [.start false] } }
  /-- The library has no face for the key. -/
  | refused (e : FontError) (library : β) (hf : r.find? key = none) :
      Acquisition r key (.error e) (r.requested library [.openFace key false])
  | loaded (face : σ) (library : β) (hf : r.find? key = none) :
      Acquisition r key (.ok ⟨key, r.nextId⟩)
        { r.requested library [.openFace key true] with
          slots := r.slots ++ [{ font := .opened key face r.limits, id := r.nextId, refcount := 1 }]
          nextId := r.nextId + 1 }

section Steps

variable (r : Registry (Recorded β) σ)

/-- A library is started only if it has not been started, and the request is written down. -/
theorem ensureStarted_cases :
    (∃ library, r.ensureStarted = (.ok (), r.requested library [])) ∨
      r.started = false ∧ ∃ e library, r.ensureStarted = (.error e,
        { r with backend := { library, requests := r.backend.requests ++ [.start false] } }) := by
  obtain ⟨⟨library, requests⟩, started, limits, slots, nextId⟩ := r
  cases started with
  | true =>
    refine .inl ⟨library, ?_⟩
    simp [ensureStarted, requested, starting]
  | false =>
    cases hstart : Backend.start library with
    | mk result library' =>
      cases result with
      | ok _ =>
        refine .inl ⟨library', ?_⟩
        simp [ensureStarted, requested, starting, Backend.start, hstart, Except.isOk, Except.toBool]
      | error e =>
        refine .inr ⟨rfl, e, library', ?_⟩
        simp [ensureStarted, Backend.start, hstart, Except.isOk, Except.toBool]

/-- Loading a font asks for one face. Only if there is one, there is a slot more. -/
theorem load_cases (key : FontKey) :
    ∃ library,
      (∃ e, (r.load key).1 = .error e ∧ (r.load key).2.1 =
        { r with
          backend := { library, requests := r.backend.requests ++ [.openFace key false] } }) ∨
      ∃ face, (r.load key).1 = .ok ⟨key, r.nextId⟩ ∧ (r.load key).2.1 =
        { r with
          backend := { library, requests := r.backend.requests ++ [.openFace key true] }
          slots := r.slots ++ [{ font := .opened key face r.limits, id := r.nextId, refcount := 1 }]
          nextId := r.nextId + 1 } := by
  unfold load
  cases hopen : Backend.openFace r.backend.library key with
  | mk result rest =>
    obtain ⟨log, library⟩ := rest
    refine ⟨library, ?_⟩
    simp only [Backend.openFace, hopen]
    cases result with
    | error e => exact .inl ⟨e, rfl, rfl⟩
    | ok face => exact .inr ⟨face, rfl, rfl⟩

/-- Asking for a font ends in one of these ways. -/
theorem acquisition (key : FontKey) :
    Acquisition r key (r.acquire key).1 (r.acquire key).2.1 := by
  cases hf : r.find? key with
  | some s =>
    simp only [acquire, hf]
    exact .shared s hf
  | none =>
    rcases r.ensureStarted_cases with ⟨library, hready⟩ | ⟨hs, e, library, hfailed⟩
    · have hacquire : r.acquire key = (r.requested library []).load key := by
        simp only [acquire, hf, hready]
      obtain ⟨library', ⟨e, hresult, hafter⟩ | ⟨face, hresult, hafter⟩⟩ :=
        (r.requested library []).load_cases key
      · rw [hacquire, hresult, hafter]
        simpa [requested] using Acquisition.refused e library' hf
      · rw [hacquire, hresult, hafter]
        simpa [requested] using Acquisition.loaded face library' hf
    · simp only [acquire, hf, hfailed]
      exact .unstarted e library hf hs

end Steps

/-! ## Writing down changes nothing -/

/-- The registry without what its library has written down. -/
def plain (r : Registry (Recorded β) σ) : Registry β σ where
  backend := r.backend.library
  started := r.started
  limits := r.limits
  slots := r.slots
  nextId := r.nextId

section Plain

variable (r : Registry (Recorded β) σ)

theorem plain_ensureStarted :
    r.plain.ensureStarted = (r.ensureStarted.1, r.ensureStarted.2.plain) := by
  obtain ⟨⟨library, requests⟩, started, limits, slots, nextId⟩ := r
  cases started with
  | true => rfl
  | false =>
    cases hstart : Backend.start library with
    | mk result library' => cases result <;> simp [ensureStarted, plain, Backend.start, hstart]

theorem plain_load (key : FontKey) :
    r.plain.load key = ((r.load key).1, (r.load key).2.1.plain, (r.load key).2.2) := by
  obtain ⟨⟨library, requests⟩, started, limits, slots, nextId⟩ := r
  cases hopen : Backend.openFace library key with
  | mk result rest => cases result <;> simp [load, plain, Backend.openFace, hopen]

theorem plain_acquire (key : FontKey) :
    r.plain.acquire key = ((r.acquire key).1, (r.acquire key).2.1.plain, (r.acquire key).2.2) := by
  have hfind : r.plain.find? key = r.find? key := rfl
  cases hf : r.find? key with
  | some s =>
    simp only [acquire, hfind, hf]
    rfl
  | none =>
    cases hstart : r.ensureStarted with
    | mk result r' =>
      have hplain := r.plain_ensureStarted
      rw [hstart] at hplain
      simp only [acquire, hfind, hf, hstart, hplain]
      cases result with
      | error e => rfl
      | ok _ => exact plain_load r' key

theorem plain_release (key : FontKey) :
    r.plain.release key = ((r.release key).1.plain, (r.release key).2) := by
  have hfind : r.plain.find? key = r.find? key := rfl
  unfold release
  rw [hfind]
  cases r.find? key with
  | none => rfl
  | some s =>
    dsimp only
    split <;> rfl

variable [Face σ]

theorem plain_answer (c : Call) :
    r.plain.answer c = ((r.answer c).1, (r.answer c).2.plain) := by
  cases c with
  | ask h q =>
    have hfind : r.plain.find? h.key = r.find? h.key := rfl
    rw [answer, answer]
    cases hf : r.find? h.key with
    | none => rw [ask_eq_none hf, ask_eq_none (hfind.trans hf)]
    | some s =>
      rw [ask_eq_some hf, ask_eq_some (hfind.trans hf)]
      rfl
  | refcount h => rfl
  | clone h => rfl
  | release h => rw [answer, answer, plain_release]
  | stats => rfl

end Plain

end Registry

end BitmapText
