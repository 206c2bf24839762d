import BitmapText.Registry
import Mathlib.Data.List.Dedup

/-!
# Counted handles

The registry does not know the handles that it gave out, only how many there are of each font. The
invariant ties its counts to the multiset of live handles: every slot counts the handles that carry
its key and its number, and every live handle has a slot.

## Main definitions

* `Registry.Counts`: the counts of a registry are right for the live handles.

## Main statements

* `Registry.Counts.retain`, `Registry.Counts.release`, `Registry.Counts.acquire`: the counts stay
  right when handles come and go.
* `Registry.Counts.ask`: questions to fonts leave them as they are.
-/

namespace BitmapText

namespace Registry

variable {β σ : Type}

theorem slots_ensureStarted [Backend β σ] (r : Registry β σ) :
    r.ensureStarted.2.slots = r.slots ∧ r.ensureStarted.2.nextId = r.nextId := by
  unfold ensureStarted
  split
  · exact ⟨rfl, rfl⟩
  · split <;> exact ⟨rfl, rfl⟩

/-- The slots count the handles of `live`, and there are slots for these handles only. -/
structure Counts (r : Registry β σ) (live : List Handle) : Prop where
  keys : (r.slots.map fun s => s.font.key.identity).Nodup
  ids : (r.slots.map Slot.id).Nodup
  fresh : ∀ s ∈ r.slots, s.id < r.nextId
  refcount : ∀ s ∈ r.slots, s.refcount = live.count s.handle
  pos : ∀ s ∈ r.slots, 0 < s.refcount
  slot : ∀ h ∈ live, ∃ s ∈ r.slots, s.handle = h

namespace Counts

variable {r r' : Registry β σ} {live : List Handle} {key : FontKey} {s t : Slot σ}

theorem empty (backend : β) (limits : StringCache.Limits) :
    (Registry.empty backend limits : Registry β σ).Counts [] := by
  constructor <;> simp [Registry.empty]

theorem congr (h : r.Counts live) (hs : r'.slots = r.slots) (hn : r'.nextId = r.nextId) :
    r'.Counts live := by
  obtain ⟨h1, h2, h3, h4, h5, h6⟩ := h
  constructor <;> simpa only [hs, hn]

/-- The order in which handles came does not matter. -/
theorem perm {live' : List Handle} (h : r.Counts live) (hp : live.Perm live') :
    r.Counts live' where
  keys := h.keys
  ids := h.ids
  fresh := h.fresh
  refcount s hs := (h.refcount s hs).trans (hp.count_eq s.handle)
  pos := h.pos
  slot g hg := h.slot g (hp.mem_iff.2 hg)

/-! ## Slots of handles -/

theorem eq_of_same (h : r.Counts live) (hs : s ∈ r.slots) (ht : t ∈ r.slots)
    (hk : s.font.key.Same t.font.key) : s = t :=
  List.inj_on_of_nodup_map h.keys hs ht hk

theorem eq_of_id (h : r.Counts live) (hs : s ∈ r.slots) (ht : t ∈ r.slots) (hi : s.id = t.id) :
    s = t :=
  List.inj_on_of_nodup_map h.ids hs ht hi

theorem find?_eq_some_iff (h : r.Counts live) :
    r.find? key = some s ↔ s ∈ r.slots ∧ s.font.key.Same key := by
  refine ⟨fun hf => ⟨List.mem_of_find?_eq_some hf, by simpa using List.find?_some hf⟩, ?_⟩
  rintro ⟨hs, hk⟩
  cases hf : r.find? key with
  | none => exact absurd (by simpa using hk) (List.find?_eq_none.1 hf s hs)
  | some t =>
    have ht := List.mem_of_find?_eq_some hf
    have htk : t.font.key.Same key := by simpa using List.find?_some hf
    rw [h.eq_of_same hs ht (hk.trans htk.symm)]

theorem find?_of_mem (h : r.Counts live) {g : Handle} (hg : g ∈ live) :
    ∃ s ∈ r.slots, s.handle = g ∧ r.find? g.key = some s := by
  obtain ⟨s, hs, rfl⟩ := h.slot g hg
  exact ⟨s, hs, rfl, h.find?_eq_some_iff.2 ⟨hs, rfl⟩⟩

theorem map_of_not_same {l : List (Slot σ)} (hl : ∀ t ∈ l, ¬ t.font.key.Same key)
    (f : Slot σ → Slot σ) : (l.map fun t => if t.font.key.Same key then f t else t) = l := by
  conv_rhs => rw [← List.map_id l]
  exact List.map_congr_left fun t ht => if_neg (hl t ht)

theorem split (h : r.Counts live) (hf : r.find? key = some s) :
    ∃ pre post, r.slots = pre ++ s :: post ∧
      (∀ f, (r.modify key f).slots = pre ++ f s :: post) ∧
      (r.slots.filter fun t => ¬ t.font.key.Same key) = pre ++ post := by
  obtain ⟨hs, hk⟩ := h.find?_eq_some_iff.1 hf
  obtain ⟨pre, post, hcut⟩ := List.append_of_mem hs
  have hother : ∀ t ∈ pre ++ post, ¬ t.font.key.Same key := by
    intro t ht hsame
    have hnd := h.keys
    rw [hcut] at hnd
    have hid : t.font.key.identity = s.font.key.identity := hsame.trans hk.symm
    grind
  have hpre := fun t ht => hother t (List.mem_append_left post ht)
  have hpost := fun t ht => hother t (List.mem_append_right pre ht)
  refine ⟨pre, post, hcut, fun f => ?_, ?_⟩
  · simp only [Registry.modify, hcut, List.map_append, List.map_cons, if_pos hk,
      map_of_not_same hpre, map_of_not_same hpost]
  · have hpre' := List.filter_eq_self.2 fun t ht => decide_eq_true (hpre t ht)
    have hpost' := List.filter_eq_self.2 fun t ht => decide_eq_true (hpost t ht)
    rw [hcut, List.filter_append, List.filter_cons_of_neg (by simpa using hk), hpre', hpost']

/-- Slots with other handles count as before when one handle comes or goes. -/
theorem count_cons (h : r.Counts live) {pre post : List (Slot σ)}
    (hcut : r.slots = pre ++ s :: post) (ht : t ∈ pre ++ post) (l : List Handle) :
    (s.handle :: l).count t.handle = l.count t.handle := by
  refine List.count_cons_of_ne fun e => ?_
  have hnd := h.ids
  rw [hcut] at hnd
  have hid : s.id = t.id := congrArg Handle.id e
  grind

/-- One slot changes its count or what its font has learned; its handle stays the same. -/
theorem replace (h : r.Counts live) {pre post : List (Slot σ)} (hcut : r.slots = pre ++ s :: post)
    {s' : Slot σ} {live' : List Handle} (hslots : r'.slots = pre ++ s' :: post)
    (hnext : r'.nextId = r.nextId) (hhandle : s'.handle = s.handle)
    (hcount : s'.refcount = live'.count s.handle) (hpos : 0 < s'.refcount)
    (hother : ∀ t ∈ pre ++ post, live'.count t.handle = live.count t.handle)
    (hsub : ∀ g ∈ live', g = s.handle ∨ g ∈ live) : r'.Counts live' := by
  obtain ⟨h1, h2, h3, h4, h5, h6⟩ := h
  rw [hcut] at h1 h2 h3 h4 h5 h6
  have hkey : s'.font.key = s.font.key := congrArg Handle.key hhandle
  have hid : s'.id = s.id := congrArg Handle.id hhandle
  have hold (t : Slot σ) (ht : t ∈ pre ++ s' :: post) : t = s' ∨ t ∈ pre ++ post := by grind
  constructor <;> rw [hslots]
  case keys => simpa [hkey] using h1
  case ids => simpa [hid] using h2
  case fresh =>
    intro t ht
    rcases hold t ht with rfl | ht
    · rw [hid, hnext]
      exact h3 s (by simp)
    · rw [hnext]
      exact h3 t (by grind)
  case refcount =>
    intro t ht
    rcases hold t ht with rfl | ht
    · rw [hhandle, hcount]
    · rw [hother t ht]
      exact h4 t (by grind)
  case pos =>
    intro t ht
    rcases hold t ht with rfl | ht
    · exact hpos
    · exact h5 t (by grind)
  case slot =>
    intro g hg
    rcases hsub g hg with rfl | hg
    · exact ⟨s', by simp, hhandle⟩
    · obtain ⟨t, ht, rfl⟩ := h6 g hg
      by_cases he : t.handle = s.handle
      · exact ⟨s', by simp, hhandle.trans he.symm⟩
      · exact ⟨t, by grind, rfl⟩

/-! ## Handles that come and go -/

theorem retain_of_find? (h : r.Counts live) (hf : r.find? key = some s) :
    (r.retain key).Counts (s.handle :: live) := by
  obtain ⟨pre, post, hcut, hmod, -⟩ := h.split hf
  refine h.replace hcut (hmod _) rfl rfl ?_ (Nat.succ_pos _)
    (fun t ht => h.count_cons hcut ht live) (by simp)
  simp [h.refcount s (h.find?_eq_some_iff.1 hf).1]

theorem retain (h : r.Counts live) {g : Handle} (hg : g ∈ live) :
    (r.retain g.key).Counts (g :: live) := by
  obtain ⟨s, -, rfl, hf⟩ := h.find?_of_mem hg
  exact h.retain_of_find? hf

/-- A live handle is given back. With the last one of its font, the slot goes. -/
theorem release [Backend β σ] {g : Handle} (h : r.Counts (g :: live)) :
    (r.release g.key).1.Counts live := by
  obtain ⟨s, hs, rfl, hf⟩ := h.find?_of_mem List.mem_cons_self
  obtain ⟨pre, post, hcut, hmod, hfilter⟩ := h.split hf
  have hcount : s.refcount = live.count s.handle + 1 := by simp [h.refcount s hs]
  have hother (t : Slot σ) (ht : t ∈ pre ++ post) :=
    (h.count_cons hcut ht live).symm
  by_cases hmany : 1 < s.refcount
  · have hrel : (r.release s.handle.key).1 =
        r.modify s.handle.key fun s => { s with refcount := s.refcount - 1 } := by
      simp only [Registry.release, hf, if_pos hmany]
    rw [hrel]
    exact h.replace hcut (hmod _) rfl rfl (Nat.sub_eq_of_eq_add hcount)
      (Nat.sub_pos_of_lt hmany) hother fun g hg => .inr (List.mem_cons_of_mem _ hg)
  · -- The last handle goes, so no handle that stays needs the slot.
    have hgone : s.handle ∉ live := List.count_eq_zero.1 (by have := h.pos s hs; omega)
    have hslots : (r.release s.handle.key).1.slots = pre ++ post := by
      simp only [Registry.release, hf, if_neg hmany, hfilter]
    have hnext : (r.release s.handle.key).1.nextId = r.nextId := by
      simp only [Registry.release, hf, if_neg hmany]
    have hsub (t : Slot σ) (ht : t ∈ pre ++ post) : t ∈ r.slots := by grind
    have hlist : (pre ++ post).Sublist r.slots :=
      hcut ▸ (List.sublist_cons_self s post).append_left pre
    constructor <;> rw [hslots]
    case keys => exact h.keys.sublist (hlist.map _)
    case ids => exact h.ids.sublist (hlist.map _)
    case fresh => exact fun t ht => hnext ▸ h.fresh t (hsub t ht)
    case refcount => exact fun t ht => (h.refcount t (hsub t ht)).trans (hother t ht).symm
    case pos => exact fun t ht => h.pos t (hsub t ht)
    case slot =>
      intro g hg
      obtain ⟨t, ht, rfl⟩ := h.slot g (List.mem_cons_of_mem _ hg)
      refine ⟨t, ?_, rfl⟩
      have hne : t ≠ s := fun e => hgone (e ▸ hg)
      grind

theorem addSlot (h : r.Counts live) (hf : r.find? s.font.key = none) (hid : s.id = r.nextId)
    (hone : s.refcount = 1) (hslots : r'.slots = r.slots ++ [s])
    (hnext : r'.nextId = r.nextId + 1) : r'.Counts (s.handle :: live) := by
  have hkey (t : Slot σ) (ht : t ∈ r.slots) : ¬ t.font.key.Same s.font.key := by
    simpa using List.find?_eq_none.1 hf t ht
  have hne (t : Slot σ) (ht : t ∈ r.slots) : s.handle ≠ t.handle := fun e => by
    have hfresh := h.fresh t ht
    have : s.id = t.id := congrArg Handle.id e
    omega
  -- The number is new, so the handle cannot have been live before.
  have hgone : s.handle ∉ live := fun hs => by
    obtain ⟨t, ht, he⟩ := h.slot _ hs
    exact hne t ht he.symm
  constructor <;> rw [hslots]
  case keys =>
    rw [List.map_append, List.nodup_append]
    refine ⟨h.keys, by simp, fun a ha b hb => ?_⟩
    obtain ⟨t, ht, rfl⟩ := List.mem_map.1 ha
    obtain rfl : b = s.font.key.identity := by simpa using hb
    exact hkey t ht
  case ids =>
    rw [List.map_append, List.nodup_append]
    refine ⟨h.ids, by simp, fun a ha b hb => ?_⟩
    obtain ⟨t, ht, rfl⟩ := List.mem_map.1 ha
    obtain rfl : b = s.id := by simpa using hb
    exact fun e => by have := h.fresh t ht; omega
  case fresh =>
    intro t ht
    rw [hnext]
    rcases List.mem_append.1 ht with ht | ht
    · exact Nat.lt_succ_of_lt (h.fresh t ht)
    · obtain rfl := List.mem_singleton.1 ht
      omega
  case refcount =>
    intro t ht
    rcases List.mem_append.1 ht with ht | ht
    · rw [List.count_cons_of_ne (hne t ht), h.refcount t ht]
    · obtain rfl := List.mem_singleton.1 ht
      simp [hone, List.count_eq_zero.2 hgone]
  case pos =>
    intro t ht
    rcases List.mem_append.1 ht with ht | ht
    · exact h.pos t ht
    · obtain rfl := List.mem_singleton.1 ht
      omega
  case slot =>
    intro g hg
    rcases List.mem_cons.1 hg with rfl | hg
    · exact ⟨s, by simp, rfl⟩
    · obtain ⟨t, ht, rfl⟩ := h.slot g hg
      exact ⟨t, by simp [ht], rfl⟩

/-- A font that is loaded gets a slot with one handle; when it cannot be loaded, no count
changes. -/
theorem load [Backend β σ] (h : r.Counts live) (hf : r.find? key = none) :
    (∀ g, (r.load key).1 = .ok g → (r.load key).2.1.Counts (g :: live)) ∧
      ∀ e, (r.load key).1 = .error e → (r.load key).2.1.Counts live := by
  unfold Registry.load
  split
  · exact ⟨by simp, fun _ _ => h.congr rfl rfl⟩
  · refine ⟨fun g hg => ?_, by simp⟩
    obtain rfl := Except.ok.inj hg
    exact h.addSlot hf rfl rfl rfl rfl

/-- A font that is asked for gets a handle, and a slot if it has none; when it cannot be had, no
count changes. -/
theorem acquire [Backend β σ] (h : r.Counts live) (key : FontKey) :
    (∀ g, (r.acquire key).1 = .ok g → (r.acquire key).2.1.Counts (g :: live)) ∧
      ∀ e, (r.acquire key).1 = .error e → (r.acquire key).2.1.Counts live := by
  obtain ⟨hslots, hnext⟩ := slots_ensureStarted r
  unfold Registry.acquire
  cases hf : r.find? key with
  | some s =>
    refine ⟨fun g hg => ?_, by simp⟩
    obtain rfl := Except.ok.inj hg
    exact h.retain_of_find? hf
  | none =>
    dsimp only
    split
    · next he =>
      rw [he] at hslots hnext
      exact ⟨by simp, fun _ _ => h.congr hslots hnext⟩
    · next he =>
      rw [he] at hslots hnext
      refine (h.congr hslots hnext).load ?_
      rw [Registry.find?, hslots]
      exact hf

/-- A question to a font that keeps its key changes no count. -/
theorem ask {α : Type} (h : r.Counts live) {g : Handle} (hg : g ∈ live)
    (question : Font σ → Font.Outcome σ α) (hq : ∀ font, (question font).font.key = font.key) :
    ∃ p, r.ask g question = some p ∧ p.2.1.Counts live := by
  obtain ⟨s, hs, rfl, hf⟩ := h.find?_of_mem hg
  obtain ⟨pre, post, hcut, hmod, -⟩ := h.split hf
  refine ⟨_, by simp only [Registry.ask, hf]; rfl, ?_⟩
  refine h.replace hcut (hmod _) rfl ?_ (h.refcount s hs) (h.pos s hs) (fun _ _ => rfl)
    fun g hg => .inr hg
  simp [Slot.handle, hq]

/-! ## Live handles by key -/

theorem mem_of_slot (h : r.Counts live) (hs : s ∈ r.slots) : s.handle ∈ live :=
  List.count_pos_iff.1 (h.refcount s hs ▸ h.pos s hs)

/-- Two live handles have one number exactly when they have one key. -/
theorem id_eq_iff_same (h : r.Counts live) {g g' : Handle} (hg : g ∈ live) (hg' : g' ∈ live) :
    g.id = g'.id ↔ g.key.Same g'.key := by
  obtain ⟨s, hs, rfl⟩ := h.slot g hg
  obtain ⟨t, ht, rfl⟩ := h.slot g' hg'
  exact ⟨fun e => h.eq_of_id hs ht e ▸ rfl, fun e => h.eq_of_same hs ht e ▸ rfl⟩

/-- A slot counts the live handles with its key. -/
theorem refcount_eq_countP (h : r.Counts live) (hs : s ∈ r.slots) (hk : s.font.key.Same key) :
    s.refcount = live.countP fun g => g.key.Same key := by
  rw [h.refcount s hs, List.count_eq_countP]
  refine List.countP_congr fun g hg => ?_
  obtain ⟨t, ht, rfl⟩ := h.slot g hg
  simp only [beq_iff_eq, decide_eq_true_eq]
  refine ⟨fun e => (congrArg Handle.key e : t.font.key = s.font.key) ▸ hk, fun e => ?_⟩
  rw [h.eq_of_same ht hs (e.trans hk.symm)]

theorem size_eq (h : r.Counts live) :
    r.size = (live.map fun g => g.key.identity).dedup.length := by
  have hperm : (r.slots.map fun s => s.font.key.identity).Perm
      (live.map fun g => g.key.identity).dedup := by
    refine (List.perm_ext_iff_of_nodup h.keys (List.nodup_dedup _)).2 fun k => ?_
    rw [List.mem_dedup, List.mem_map, List.mem_map]
    constructor
    · rintro ⟨s, hs, rfl⟩
      exact ⟨s.handle, h.mem_of_slot hs, rfl⟩
    · rintro ⟨g, hg, rfl⟩
      obtain ⟨s, hs, rfl⟩ := h.slot g hg
      exact ⟨s, hs, rfl⟩
  rw [Registry.size, ← hperm.length_eq, List.length_map]

end Counts

end Registry

end BitmapText
