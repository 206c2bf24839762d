import BitmapText.Backend.TableBackend
import BitmapText.Proofs.Font.Shape
import BitmapText.Proofs.Registry.Calls
import BitmapText.Proofs.Registry.InUse
import BitmapText.Proofs.Registry.KeyOrder
import BitmapText.Proofs.Registry.Probing
import Mathlib.Algebra.Order.BigOperators.Group.List
import Mathlib.Algebra.Order.Ring.Nat

/-!
# The listing of all fonts

What the figures of all fonts say about a registry in use, whatever the order of its slots: there is
one entry for each font, the entries stand in the order of their keys, and each says how many
handles there are on its font and what its caches hold. To list the fonts changes none of them.

The order of the slots is of no concern because no two fonts have one key, and keys tie in the
order of a listing only when they are of one font.

## Main definitions

* `Registry.inOrder`: slots in the order of a listing.
* `Lists`: a list of what can be looked up.
* `Slot.Figures`: the figures of a slot.

## Main statements

* `Registry.inOrder_eq_of_perm`: slots have one order.
* `Registry.InUse.reached`: loaded fonts come about from opened ones.
* `Registry.answerAll_kept_stats`: listings can be left out of any sequence of calls.
* `Registry.InUse.stats_complete`: the listing of a registry in use.
-/

namespace BitmapText

/-- `entries` has each pair of a key and what is found under it, once. -/
structure Lists {κ α : Type} (entries : List (κ × α)) (find? : κ → Option α) : Prop where
  nodup : (entries.map Prod.fst).Nodup
  mem_iff : ∀ key value, (key, value) ∈ entries ↔ find? key = some value

/-! ## What the caches hold -/

/-- The glyphs of a cache with their numbers. -/
theorem GlyphCache.lists (cache : GlyphCache) : Lists cache.entries.toList cache.peek? where
  nodup := by
    rw [Std.HashMap.map_fst_toList_eq_keys]
    exact Std.HashMap.nodup_keys
  mem_iff _ _ := Std.HashMap.mem_toList_iff_getElem?_eq_some

theorem foldr_eq_sum {α : Type} (f : α → Nat) (l : List α) :
    l.foldr (fun a total => f a + total) 0 = (l.map f).sum := by
  rw [List.sum_eq_foldr, List.foldr_map]

namespace StringCache

/-- The strings of a cache with their keys. -/
def contents (c : StringCache) : List (StringKey × RenderedString) :=
  c.entries.map fun e => (e.key, e.value)

namespace Represents

variable {c : StringCache} {r : Recency}

theorem entries_eq (h : c.Represents r) : c.entries = r.entries := by
  obtain ⟨xs, hxs, hr⟩ := h.holds
  rw [hxs.entries_eq, hr]

theorem lists (h : c.Represents r) : Lists c.contents c.peek? where
  nodup := by
    obtain ⟨xs, hxs, -⟩ := h.holds
    rw [contents, hxs.entries_eq]
    simpa [Function.comp_def] using hxs.keys
  mem_iff key value := by
    rw [h.peek?_eq_some_iff, contents, h.entries_eq, List.mem_map]
    constructor
    · rintro ⟨e, he, heq⟩
      obtain ⟨rfl, rfl⟩ := Prod.mk.inj heq
      exact he
    · exact fun he => ⟨_, he, rfl⟩

theorem footprint_eq_sum (h : c.Represents r) :
    c.footprint = (c.entries.map Entry.footprint).sum := by
  obtain ⟨xs, hxs, -⟩ := h.holds
  rw [hxs.footprint_eq, hxs.entries_eq, foldr_eq_sum]

end Represents

end StringCache

/-! ## One slot -/

namespace Slot

variable {σ : Type}

/-- The figures of a slot among the live handles: how many of them have its key, what can be found
in its caches, and the measures when they are known. -/
structure Figures (live : List Handle) (s : Slot σ) (e : FontStats) : Prop where
  key : e.key = s.font.key
  refcount : e.refcount = live.countP fun g => g.key.Same s.font.key
  glyphs : Lists s.font.glyphs.entries.toList s.font.glyphs.peek?
  glyphEntries : e.glyphEntries = s.font.glyphs.entries.toList.length
  glyphBytes : e.glyphBytes = (s.font.glyphs.entries.toList.map fun p => p.2.data.size).sum
  strings : Lists s.font.strings.contents s.font.strings.peek?
  stringEntries : e.stringEntries = s.font.strings.contents.length
  stringBytes : e.stringBytes = (s.font.strings.entries.map StringCache.Entry.footprint).sum
  evictions : e.evictions = s.font.strings.evictions
  maxHeight : e.maxHeight = s.font.metrics.map FontMetrics.maxHeight
  baseline : e.baseline = s.font.metrics.map FontMetrics.baseline

variable [Face σ]

/-- The font of a slot comes about from one that was opened. -/
def Reached (s : Slot σ) : Prop :=
  ∃ face limits, (Font.opened s.font.key face limits).Reached s.font

variable {s : Slot σ}

/-- A question leaves a slot with a font that comes about from the one opened. -/
theorem Reached.reply (h : s.Reached) (t : Slot σ) (q : Font.Query) :
    Reached { t with font := (s.font.reply q).font } := by
  obtain ⟨face, limits, hfont⟩ := h
  refine ⟨face, limits, ?_⟩
  dsimp only
  rw [Font.key_reply]
  exact hfont.asked q

theorem Reached.represents (h : s.Reached) : ∃ r, s.font.strings.Represents r := by
  obtain ⟨face, limits, hfont⟩ := h
  exact hfont.orderly.listed

end Slot

namespace Registry

variable {β σ : Type}

/-! ## The order of a listing -/

/-- Slots in the order of their keys. -/
def inOrder (slots : List (Slot σ)) : List (Slot σ) :=
  slots.mergeSort fun s t => (s.font.key.order t.font.key).isLE

theorem inOrder_perm (slots : List (Slot σ)) : (inOrder slots).Perm slots :=
  List.mergeSort_perm ..

theorem fonts_stats (r : Registry β σ) :
    r.stats.fonts = (inOrder r.slots).map fun s => s.font.stats s.refcount := by
  rw [inOrder, List.map_mergeSort (f := fun s : Slot σ => s.font.stats s.refcount)]
  · rfl
  · exact fun _ _ _ _ => rfl

theorem pairwise_inOrder (slots : List (Slot σ)) :
    (inOrder slots).Pairwise fun s t => (s.font.key.order t.font.key).isLE = true := by
  refine List.pairwise_mergeSort (fun _ _ _ => Std.TransCmp.isLE_trans) (fun s t => ?_) slots
  have hswap : t.font.key.order s.font.key = (s.font.key.order t.font.key).swap :=
    Std.OrientedCmp.eq_swap
  rw [hswap]
  cases s.font.key.order t.font.key <;> rfl

section Distinct

variable {slots : List (Slot σ)}

/-- The slots of different fonts have one order. -/
theorem inOrder_eq_of_perm (h : (slots.map fun s => s.font.key.identity).Nodup)
    {slots' : List (Slot σ)} (hp : slots'.Perm slots) : inOrder slots' = inOrder slots := by
  have hperm : (inOrder slots').Perm (inOrder slots) :=
    (inOrder_perm slots').trans (hp.trans (inOrder_perm slots).symm)
  refine hperm.eq_of_pairwise (fun s t hs ht hst hts => ?_) (pairwise_inOrder slots')
    (pairwise_inOrder slots)
  -- A tie is between slots of one font, of which there is one slot.
  have hsame : s.font.key.Same t.font.key :=
    FontKey.order_eq_eq_iff.1 (Std.OrientedCmp.isLE_antisymm hst hts)
  have hs : s ∈ slots := hp.mem_iff.1 ((inOrder_perm slots').mem_iff.1 hs)
  exact List.inj_on_of_nodup_map h hs ((inOrder_perm slots).mem_iff.1 ht) hsame

/-- In the order of a listing, each font comes before the next. -/
theorem pairwise_before_inOrder (h : (slots.map fun s => s.font.key.identity).Nodup) :
    (inOrder slots).Pairwise fun s t => s.font.key.Before t.font.key := by
  have hnodup : ((inOrder slots).map fun s => s.font.key.identity).Nodup :=
    ((inOrder_perm slots).map _).nodup_iff.2 h
  refine ((pairwise_inOrder slots).and (List.pairwise_map.1 hnodup)).imp fun hst => ?_
  obtain ⟨hle, hne⟩ := hst
  rw [← FontKey.order_eq_lt_iff]
  cases horder : FontKey.order _ _ with
  | lt => rfl
  | eq => exact absurd (FontKey.order_eq_eq_iff.1 horder) hne
  | gt =>
    rw [horder] at hle
    cases hle

end Distinct

/-! ## Fonts that were opened -/

section Reached

variable [Face σ] {r : Registry β σ} {key : FontKey}

theorem reached_modify (h : ∀ s ∈ r.slots, s.Reached) {f : Slot σ → Slot σ}
    (hf : ∀ s : Slot σ, s.Reached → (f s).Reached) : ∀ s ∈ (r.modify key f).slots, s.Reached := by
  intro s hs
  obtain ⟨t, ht, rfl⟩ := List.mem_map.1 hs
  split
  · exact hf t (h t ht)
  · exact h t ht

theorem reached_ask (h : ∀ s ∈ r.slots, s.Reached) {g : Handle} {q : Font.Query}
    {p : Font.Reply × Registry β σ × Array Log.Record} (hp : r.ask g (Font.reply · q) = some p) :
    ∀ s ∈ p.2.1.slots, s.Reached := by
  cases hf : r.find? g.key with
  | none =>
    rw [ask_eq_none hf] at hp
    cases hp
  | some t =>
    rw [ask_eq_some hf] at hp
    obtain rfl := Option.some.inj hp
    have ht : t.Reached := h t (List.mem_of_find?_eq_some hf)
    exact reached_modify h fun s _ => ht.reply s q

variable [Backend β σ]

/-- A font that is loaded has been opened just now. -/
theorem reached_acquire (h : ∀ s ∈ r.slots, s.Reached) (key : FontKey) :
    ∀ s ∈ (r.acquire key).2.1.slots, s.Reached := by
  rw [acquire]
  cases hf : r.find? key with
  | some s => exact reached_modify h fun _ hs => hs
  | none =>
    obtain ⟨hslots, -⟩ := slots_ensureStarted r
    dsimp only
    split
    · next he =>
      rw [he] at hslots
      exact hslots ▸ h
    · next he =>
      rw [he] at hslots
      rw [load]
      split
      · exact hslots ▸ h
      · intro s hs
        rcases List.mem_append.1 hs with hs | hs
        · exact h s (hslots ▸ hs)
        · obtain rfl := List.mem_singleton.1 hs
          exact ⟨_, _, .start⟩

theorem reached_release (h : ∀ s ∈ r.slots, s.Reached) (key : FontKey) :
    ∀ s ∈ (r.release key).1.slots, s.Reached := by
  rw [release]
  split
  · exact h
  · split
    · exact reached_modify h fun _ hs => hs
    · exact fun s hs => h s (List.mem_of_mem_filter hs)

/-- Listings can be left out of any sequence of calls. The calls that stay are answered as if no
fonts had been listed, and the registry is the same in the end. -/
theorem answerAll_kept_stats (r : Registry β σ) {marks : List Bool} {calls : List Call}
    (hcalls : ∀ p ∈ marks.zip calls, p.1 = false → p.2 = .stats) :
    kept marks (answerAll answer r calls).1 = (answerAll answer r (kept marks calls)).1 ∧
      (answerAll answer r calls).2 = (answerAll answer r (kept marks calls)).2 := by
  have hsame (s t : Registry β σ) (c : Call) (h : s = t) :
      id (s.answer c).1 = id (t.answer c).1 ∧ (s.answer c).2 = (t.answer c).2 := by
    rw [h]
    exact ⟨rfl, rfl⟩
  have hlisting (s t : Registry β σ) (c : Call) (h : s = t) (hc : c = .stats) :
      (s.answer c).2 = t := by
    rw [h, hc]
    rfl
  have hkept := answerAll_kept id Eq (· = .stats) hsame hlisting (Eq.refl r) marks calls hcalls
  simpa using hkept

namespace InUse

variable {drawing idle : List Handle}

/-- In a registry in use, every font comes about from one that was opened. -/
theorem reached (h : InUse r drawing idle) : ∀ s ∈ r.slots, s.Reached := by
  induction h with
  | empty backend limits => exact fun s hs => nomatch hs
  | acquired _ _ ih | refused _ _ ih => exact reached_acquire ih _
  | cloned _ _ ih => exact reached_modify ih fun _ hs => hs
  | released _ _ ih => exact reached_release ih _
  | asked _ _ hp ih => exact reached_ask ih hp
  | drawBegun _ _ hp _ _ ih => exact reached_ask ih hp
  | reordered _ _ ih | drawEnded _ ih => exact ih

/-! ## The listing -/

/-- A slot of a registry in use has the figures that it is listed with. -/
theorem figures (h : InUse r drawing idle) {s : Slot σ} (hs : s ∈ r.slots) :
    s.Figures (drawing ++ idle) (s.font.stats s.refcount) := by
  obtain ⟨list, hlist⟩ := (h.reached s hs).represents
  exact {
    key := rfl
    refcount := h.counts.refcount_eq_countP hs rfl
    glyphs := s.font.glyphs.lists
    glyphEntries := Std.HashMap.length_toList.symm
    glyphBytes := foldr_eq_sum _ _
    strings := hlist.lists
    stringEntries := by
      rw [StringCache.contents, List.length_map, hlist.entries_eq]
      exact hlist.size_eq
    stringBytes := hlist.footprint_eq_sum
    evictions := rfl
    maxHeight := rfl
    baseline := rfl }

/-- The listing of a registry in use does not depend on the order of its slots. It has the fonts in
strict order, one entry for each of them and no other; the entry says how many live handles are on
the font, how many glyphs and strings can be found in its caches, how many bytes these take, and the
measures if they are known. The totals are those of all fonts. Listings leave every font as it was:
among any calls they can be left out, and the other calls are answered in the same way and leave the
same registry behind. -/
theorem stats_complete (h : InUse r drawing idle) :
    (∀ slots : List (Slot σ), slots.Perm r.slots →
      ({ r with slots } : Registry β σ).stats = r.stats) ∧
    r.stats.fonts.Pairwise (fun a b => a.key.Before b.key) ∧
    (∃ slots : List (Slot σ), slots.Perm r.slots ∧
      List.Forall₂ (Slot.Figures (drawing ++ idle)) slots r.stats.fonts) ∧
    r.stats.totalStringBytes =
      (r.slots.map fun s => (s.font.strings.entries.map StringCache.Entry.footprint).sum).sum ∧
    r.stats.totalGlyphBytes =
      (r.slots.map fun s =>
        (s.font.glyphs.entries.toList.map fun p => p.2.data.size).sum).sum ∧
    ∀ (marks : List Bool) (calls : List Call),
      (∀ p ∈ marks.zip calls, p.1 = false → p.2 = .stats) →
      kept marks (answerAll answer r calls).1 = (answerAll answer r (kept marks calls)).1 ∧
        (answerAll answer r calls).2 = (answerAll answer r (kept marks calls)).2 := by
  have hkeys := h.counts.keys
  refine ⟨fun slots hp => ?_, ?_, ⟨inOrder r.slots, inOrder_perm _, ?_⟩, ?_, ?_, ?_⟩
  · have hfonts : ({ r with slots } : Registry β σ).stats.fonts = r.stats.fonts := by
      rw [fonts_stats, fonts_stats, inOrder_eq_of_perm hkeys hp]
    exact congrArg RegistryStats.mk hfonts
  · rw [fonts_stats, List.pairwise_map]
    exact pairwise_before_inOrder hkeys
  · rw [fonts_stats]
    refine List.forall₂_map_right_iff.2 (List.forall₂_same.2 fun s hs => ?_)
    exact h.figures ((inOrder_perm r.slots).mem_iff.1 hs)
  · rw [RegistryStats.totalStringBytes, foldr_eq_sum, fonts_stats, List.map_map,
      ((inOrder_perm r.slots).map _).sum_nat]
    exact congrArg List.sum (List.map_congr_left fun s hs => (h.figures hs).stringBytes)
  · rw [RegistryStats.totalGlyphBytes, foldr_eq_sum, fonts_stats, List.map_map,
      ((inOrder_perm r.slots).map _).sum_nat]
    exact congrArg List.sum (List.map_congr_left fun s hs => (h.figures hs).glyphBytes)
  · exact fun marks calls hcalls => answerAll_kept_stats r hcalls

/-- Two fonts are loaded in the wrong order, and a text is measured with the second of them. -/
theorem stats_complete_two_fonts :
    let square : RasterGlyph :=
      { width := 2, height := 2, pitch := 2, left := 0, top := 2, advance := 3, format := .alpha8,
        data := #[1, 2, 3, 4] }
    let library : TableBackend := { others := some (.face { others := some { glyph := square } }) }
    let a : Handle := ⟨⟨⟨"x//a.ttf"⟩, 16, 96⟩, 1⟩
    let b : Handle := ⟨⟨⟨"x/b.ttf"⟩, 16, 96⟩, 0⟩
    let start : Registry TableBackend TableFace := .empty library (.ofNat 1 1)
    let loaded := ((start.acquire b.key).2.1.acquire a.key).2.1
    let r := (loaded.answer (.ask a (.measure "aba"))).2
    r.slots.map (fun s => s.font.key) = [b.key, a.key] ∧
      ({ r with slots := r.slots.reverse } : Registry TableBackend TableFace).stats = r.stats ∧
      r.stats.fonts.Pairwise (fun e e' => e.key.Before e'.key) ∧ r.stats.fonts.length = 2 ∧
      (answerAll answer r [.stats, .refcount a, .stats]).2 =
        (answerAll answer r [.refcount a]).2 := by
  intro square library a b start loaded r
  have hfirst : InUse (start.acquire b.key).2.1 [] [b] :=
    (InUse.empty library (.ofNat 1 1)).acquired (by rfl)
  have hloaded : InUse loaded [] [a, b] := hfirst.acquired (by decide +kernel)
  have hasked : (loaded.ask a (Font.reply · (.measure "aba"))).isSome = true := by decide +kernel
  obtain ⟨p, hp⟩ := Option.isSome_iff_exists.1 hasked
  have hr : InUse r [] [a, b] := by
    have hlast : r = p.2.1 := by simp only [r, answer, hp]
    exact hlast ▸ hloaded.asked List.mem_cons_self hp
  obtain ⟨hperm, hsorted, ⟨slots, hslots, hlisted⟩, -, -, hkept⟩ := stats_complete hr
  refine ⟨by decide +kernel, hperm _ r.slots.reverse_perm, hsorted, ?_,
    (hkept [false, true, false] _ (by simp)).2⟩
  have htwo : r.slots.length = 2 := by decide +kernel
  exact hlisted.length_eq.symm.trans (hslots.length_eq.trans htwo)

end InUse

end Reached

end Registry

end BitmapText
