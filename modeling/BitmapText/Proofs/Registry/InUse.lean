import BitmapText.Backend.TableBackend
import BitmapText.Proofs.Font.Query
import BitmapText.Proofs.Registry.Counting

/-!
# Registries in use

A registry together with the handles it gave out, in every order of steps. A handle whose text is
being drawn is set aside until the drawing ends, and while it is set aside anything may happen,
further drawings included; it can be cloned and asked, but not given back.

## Main definitions

* `Registry.InUse`: the registries that can come about, with the handles that are drawing and those
  that are idle.

## Main statements

* `Registry.InUse.counts`: in each of them the counts are right.
* `Registry.InUse.slots_eq_live`: what that says about slots, refcounts and numbers.
-/

namespace BitmapText

namespace Registry

variable {β σ : Type} [Backend β σ] [Face σ]

/-- `InUse r drawing idle`: `r` comes about from an empty registry when handles are taken, cloned,
asked and given back; those of `drawing` are on the way of drawing, those of `idle` are not. -/
inductive InUse : Registry β σ → List Handle → List Handle → Prop where
  | empty (backend : β) (limits : StringCache.Limits) : InUse (.empty backend limits) [] []
  | acquired {r : Registry β σ} {drawing idle : List Handle} {key : FontKey} {h : Handle} :
      InUse r drawing idle → (r.acquire key).1 = .ok h →
        InUse (r.acquire key).2.1 drawing (h :: idle)
  | refused {r : Registry β σ} {drawing idle : List Handle} {key : FontKey} {e : FontError} :
      InUse r drawing idle → (r.acquire key).1 = .error e →
        InUse (r.acquire key).2.1 drawing idle
  | cloned {r : Registry β σ} {drawing idle : List Handle} {h : Handle} :
      InUse r drawing idle → h ∈ drawing ++ idle → InUse (r.retain h.key) drawing (h :: idle)
  | released {r : Registry β σ} {drawing idle : List Handle} {h : Handle} :
      InUse r drawing idle → h ∈ idle → InUse (r.release h.key).1 drawing (idle.erase h)
  /-- Any question. A drawing that comes to nothing is one, and so is the start of a drawing through
  a handle that is drawing already. -/
  | asked {r : Registry β σ} {drawing idle : List Handle} {h : Handle} {q : Font.Query}
      {p : Font.Reply × Registry β σ × Array Log.Record} :
      InUse r drawing idle → h ∈ drawing ++ idle → r.ask h (Font.reply · q) = some p →
        InUse p.2.1 drawing idle
  /-- The target is about to be called. -/
  | drawBegun {r : Registry β σ} {drawing idle : List Handle} {h : Handle} {text : String}
      {x y : Int} {right bottom : Option Int} {d : Font.Drawing}
      {p : Font.Reply × Registry β σ × Array Log.Record} :
      InUse r drawing idle → h ∈ idle →
        r.ask h (Font.reply · (.render text x y right bottom)) = some p →
        p.1 = .drawing (.ok d) → d.call.isSome = true →
        InUse p.2.1 (h :: drawing) (idle.erase h)
  /-- Idle handles come in no order. -/
  | reordered {r : Registry β σ} {drawing idle idle' : List Handle} :
      InUse r drawing idle → idle.Perm idle' → InUse r drawing idle'
  /-- The target is done. -/
  | drawEnded {r : Registry β σ} {drawing idle : List Handle} {h : Handle} :
      InUse r (h :: drawing) idle → InUse r drawing (h :: idle)

namespace InUse

variable {r : Registry β σ} {drawing idle : List Handle}

/-- The counts are right for all live handles. -/
theorem counts (h : InUse r drawing idle) : r.Counts (drawing ++ idle) := by
  induction h with
  | empty backend limits => exact .empty backend limits
  | acquired _ hok ih => exact ((ih.acquire _).1 _ hok).perm List.perm_middle.symm
  | refused _ herr ih => exact (ih.acquire _).2 _ herr
  | cloned _ hmem ih => exact (ih.retain hmem).perm List.perm_middle.symm
  | released _ hmem ih =>
    exact (ih.perm (((List.perm_cons_erase hmem).append_left _).trans List.perm_middle)).release
  | asked _ hmem hp ih =>
    obtain ⟨p', hp', hcounts⟩ := ih.ask hmem _ fun font => Font.key_reply font _
    obtain rfl := Option.some.inj (hp.symm.trans hp')
    exact hcounts
  | drawBegun _ hmem hp _ _ ih =>
    -- A handle whose text is drawn stays live; it only changes sides.
    obtain ⟨p', hp', hcounts⟩ := ih.ask (List.mem_append_right _ hmem) _ fun font =>
      Font.key_reply font _
    obtain rfl := Option.some.inj (hp.symm.trans hp')
    exact hcounts.perm (((List.perm_cons_erase hmem).append_left _).trans List.perm_middle)
  | reordered _ hp ih => exact ih.perm (hp.append_left _)
  | drawEnded _ ih => exact ih.perm List.perm_middle.symm

/-- In every registry in use, the slots and their counts are those of the live handles, by key: a
key has a slot exactly when a live handle has it, the slot counts these handles and carries their
number, and different keys have different numbers. In particular no live handle is without a slot,
and no slot is without a count to take away. -/
theorem slots_eq_live (h : InUse r drawing idle) :
    let live := drawing ++ idle
    (∀ key, (r.find? key).isSome ↔ ∃ g ∈ live, g.key.Same key) ∧
      (∀ key, r.refcount key = live.countP fun g => g.key.Same key) ∧
      (∀ key s, r.find? key = some s →
        0 < s.refcount ∧ (s.refcount = live.countP fun g => g.key.Same key) ∧
          ∀ g ∈ live, g.key.Same key → g = s.handle) ∧
      (∀ g ∈ live, ∃ s, r.find? g.key = some s ∧ s.handle = g ∧
        r.refcount g.key = s.refcount ∧ 0 < s.refcount) ∧
      (∀ g ∈ live, ∀ g' ∈ live, g.id = g'.id ↔ g.key.Same g'.key) ∧
      r.size = (live.map fun g => g.key.identity).dedup.length := by
  intro live
  have hc : r.Counts live := h.counts
  have hsome (key : FontKey) : (r.find? key).isSome ↔ ∃ g ∈ live, g.key.Same key := by
    constructor
    · intro hs
      obtain ⟨s, hf⟩ := Option.isSome_iff_exists.1 hs
      obtain ⟨hs, hk⟩ := hc.find?_eq_some_iff.1 hf
      exact ⟨s.handle, hc.mem_of_slot hs, hk⟩
    · rintro ⟨g, hg, hk⟩
      obtain ⟨s, hs, rfl⟩ := hc.slot g hg
      rw [hc.find?_eq_some_iff.2 ⟨hs, hk⟩]
      rfl
  refine ⟨hsome, fun key => ?_, fun key s hf => ?_, fun g hg => ?_, fun g hg g' hg' => ?_, ?_⟩
  · cases hf : r.find? key with
    | some s =>
      obtain ⟨hs, hk⟩ := hc.find?_eq_some_iff.1 hf
      rw [refcount, hf]
      exact hc.refcount_eq_countP hs hk
    | none =>
      rw [refcount, hf, eq_comm, List.countP_eq_zero]
      intro g hg hk
      simpa [hf] using (hsome key).2 ⟨g, hg, by simpa using hk⟩
  · obtain ⟨hs, hk⟩ := hc.find?_eq_some_iff.1 hf
    refine ⟨hc.pos s hs, hc.refcount_eq_countP hs hk, fun g hg hgk => ?_⟩
    obtain ⟨t, ht, rfl⟩ := hc.slot g hg
    rw [hc.eq_of_same ht hs (hgk.trans hk.symm)]
  · obtain ⟨s, hs, hsg, hf⟩ := hc.find?_of_mem hg
    exact ⟨s, hf, hsg, by rw [refcount, hf], hc.pos s hs⟩
  · exact hc.id_eq_iff_same hg hg'
  · exact hc.size_eq

/-- Two spellings of a path share a slot, and another resolution has one of its own. -/
theorem slots_eq_live_two_spellings :
    let b : TableBackend := { others := some (.face {}) }
    let slashes : FontKey := ⟨⟨"x//a.ttf"⟩, 16, 96⟩
    let plain : FontKey := ⟨⟨"x/a.ttf"⟩, 16, 96⟩
    let coarse : FontKey := ⟨⟨"x/a.ttf"⟩, 16, 48⟩
    let r₁ := ((Registry.empty b default : Registry TableBackend TableFace).acquire plain).2.1
    let r₂ := (r₁.acquire slashes).2.1
    let r₃ := (r₂.acquire coarse).2.1
    r₃.refcount plain = 2 ∧ r₃.refcount slashes = 2 ∧ r₃.refcount coarse = 1 ∧ r₃.size = 2 := by
  intro b slashes plain coarse r₁ r₂ r₃
  have h₁ : InUse r₁ [] [⟨plain, 0⟩] := (InUse.empty b default).acquired (by rfl)
  have h₂ : InUse r₂ [] [⟨plain, 0⟩, ⟨plain, 0⟩] := h₁.acquired (by decide +kernel)
  have h₃ : InUse r₃ [] [⟨coarse, 1⟩, ⟨plain, 0⟩, ⟨plain, 0⟩] := h₂.acquired (by decide +kernel)
  obtain ⟨-, hcount, -, -, -, hsize⟩ := slots_eq_live h₃
  refine ⟨(hcount plain).trans ?_, (hcount slashes).trans ?_, (hcount coarse).trans ?_,
    hsize.trans ?_⟩ <;> decide +kernel

end InUse

end Registry

end BitmapText
