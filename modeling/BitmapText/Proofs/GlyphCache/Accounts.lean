import BitmapText.Proofs.Face.Recorded
import BitmapText.Proofs.Shaping.Inquiries

/-!
# Accounts of a glyph cache

What a glyph cache holds can be told from the calls on the face: it is what the face has rendered
through the cache, each glyph once. The face is not asked again about a glyph that it has rendered,
neither to render it nor to measure it, and a failure leaves nothing behind.

## Main definitions

* `Bench.rendered`: the glyphs that the face has rendered for a bench.
* `Bench.Accounted`: the glyph cache holds them, and no glyph is rendered twice.

## Main statements

* `Bench.rasterize_of_peek?`, `Bench.rasterize_of_peek?_eq_none`: when the face is asked.
* `Bench.Accounted.after`: every inquiry leaves a bench accounted for.
-/

namespace BitmapText

/-- A glyph that is kept comes to the others. -/
theorem GlyphCache.toList_insert_perm {cache : GlyphCache} {glyph : GlyphIndex}
    (h : cache.peek? glyph = none) (entry : RasterGlyph) :
    (cache.entries.insert glyph entry).toList.Perm ((glyph, entry) :: cache.entries.toList) := by
  refine Std.HashMap.toList_insert_perm.trans (List.Perm.of_eq ?_)
  have hothers : ∀ p ∈ cache.entries.toList, decide (¬ (glyph == p.1) = true) = true := by
    intro p hp
    have hfound : cache.peek? p.1 = some p.2 := Std.HashMap.mem_toList_iff_getElem?_eq_some.1 hp
    have hne : glyph ≠ p.1 := by
      rintro rfl
      cases h.symm.trans hfound
    simpa using hne
  rw [List.filter_eq_self.2 hothers]

namespace Bench

variable {σ : Type} [Face σ] {bench : Bench (RecordedFace σ)} {glyph : GlyphIndex}

/-- The glyphs that the face has rendered, in order, with what came of them. -/
def rendered (bench : Bench (RecordedFace σ)) : List (GlyphIndex × RasterGlyph) :=
  bench.face.calls.filterMap Face.Call.rendered?

/-- The face makes one more call. -/
def called (bench : Bench (RecordedFace σ)) (face : σ) (call : Face.Call) :
    Bench (RecordedFace σ) :=
  { bench with face := { face, calls := bench.face.calls ++ [call] } }

/-- A rendered glyph comes into the cache. -/
def keep (bench : Bench σ) (glyph : GlyphIndex) (entry : RasterGlyph) : Bench σ :=
  { bench with glyphs := ⟨bench.glyphs.entries.insert glyph entry⟩ }

/-! ## When the face is asked -/

/-- A glyph that is in the cache is not asked for. -/
theorem rasterize_of_peek? {entry : RasterGlyph} (h : bench.glyphs.peek? glyph = some entry) :
    bench.rasterize glyph = (.ok entry, bench) := by
  simp only [rasterize, GlyphCache.getOrRasterize, h]

/-- A glyph that is not in the cache is asked for once, however often it has failed before. A
failure leaves the cache as it is. -/
theorem rasterize_of_peek?_eq_none (h : bench.glyphs.peek? glyph = none) :
    let asked := Face.rasterize bench.face.face glyph
    let called := bench.called asked.2 (.rasterize glyph asked.1)
    (bench.rasterize glyph).1 = asked.1 ∧
      (∀ e, asked.1 = .error e → (bench.rasterize glyph).2 = called) ∧
      ∀ entry, asked.1 = .ok entry → (bench.rasterize glyph).2 = called.keep glyph entry := by
  intro asked called
  have hrecorded : Face.rasterize bench.face glyph = (asked.1, called.face) := rfl
  have hend := bench.rasterization glyph
  generalize (bench.rasterize glyph).1 = result, (bench.rasterize glyph).2 = next at hend ⊢
  cases hend with
  | cached entry hc => cases h.symm.trans hc
  | failed e face hc hr =>
    obtain ⟨hresult, rfl⟩ := Prod.mk.inj (hrecorded.symm.trans hr)
    refine ⟨hresult.symm, fun _ _ => rfl, fun entry he => ?_⟩
    cases hresult.symm.trans he
  | rendered entry face hc hr =>
    obtain ⟨hresult, rfl⟩ := Prod.mk.inj (hrecorded.symm.trans hr)
    refine ⟨hresult.symm, fun e he => ?_, fun found hf => ?_⟩
    · cases hresult.symm.trans he
    · obtain rfl := Except.ok.inj (hresult.symm.trans hf)
      rfl

/-! ## Accounts -/

/-- The glyph cache holds the glyphs that the face has rendered, and no glyph that has been rendered
is asked for again. -/
structure Accounted (bench : Bench (RecordedFace σ)) : Prop where
  peek?_eq : ∀ glyph, bench.glyphs.peek? glyph = bench.rendered.lookup glyph
  once : bench.face.calls.Pairwise fun c c' => c.rendered?.isSome = true → c'.glyph ≠ c.glyph
  perm : bench.glyphs.entries.toList.Perm bench.rendered

namespace Accounted

omit [Face σ] in
theorem opened (face : σ) (log : Array Log.Record) :
    Accounted { face := { face }, glyphs := .empty, log } where
  peek?_eq _ := by simp [GlyphCache.peek?, GlyphCache.empty, rendered]
  once := .nil
  perm := by simp [GlyphCache.empty, rendered]

omit [Face σ] in
/-- A glyph that is not in the cache has not been rendered. -/
theorem ne_of_rendered (h : bench.Accounted) (hn : bench.glyphs.peek? glyph = none) :
    ∀ c ∈ bench.face.calls, c.rendered?.isSome = true → glyph ≠ c.glyph := by
  rintro c hc hr rfl
  obtain ⟨p, hp⟩ := Option.isSome_iff_exists.1 hr
  have hkey : p.1 = c.glyph := by
    cases c with
    | probe _ _ => cases hp
    | rasterize _ result =>
      cases result with
      | error _ => cases hp
      | ok entry => rw [← Option.some.inj hp]; rfl
  have hmem : p ∈ bench.rendered := List.mem_filterMap.2 ⟨c, hc, hp⟩
  have hmissing := List.lookup_eq_none_iff.1 ((h.peek?_eq _).symm.trans hn) p hmem
  simp [hkey] at hmissing

omit [Face σ] in
/-- The face may be asked about a glyph that is not in the cache. -/
theorem pairwise_called (h : bench.Accounted) (hn : bench.glyphs.peek? glyph = none)
    {call : Face.Call} (hc : call.glyph = glyph) :
    (bench.face.calls ++ [call]).Pairwise
      fun c c' => c.rendered?.isSome = true → c'.glyph ≠ c.glyph := by
  rw [List.pairwise_append]
  refine ⟨h.once, List.pairwise_singleton _ _, fun c hmem c' hc' hr => ?_⟩
  rw [List.mem_singleton.1 hc', hc]
  exact h.ne_of_rendered hn c hmem hr

omit [Face σ] in
/-- A call that renders nothing leaves the accounts as they are. -/
theorem call (h : bench.Accounted) (hn : bench.glyphs.peek? glyph = none) (face : σ)
    {call : Face.Call} (hc : call.glyph = glyph) (hr : call.rendered? = none) :
    (bench.called face call).Accounted := by
  have hrendered : (bench.called face call).rendered = bench.rendered := by
    simp [rendered, called, hr]
  constructor
  case peek?_eq => rw [hrendered]; exact h.peek?_eq
  case once => exact h.pairwise_called hn hc
  case perm => rw [hrendered]; exact h.perm

omit [Face σ] in
/-- A glyph that is rendered comes into the cache. -/
theorem insert (h : bench.Accounted) (hn : bench.glyphs.peek? glyph = none) (face : σ)
    (entry : RasterGlyph) :
    ((bench.called face (.rasterize glyph (.ok entry))).keep glyph entry).Accounted := by
  have hrendered : ((bench.called face (.rasterize glyph (.ok entry))).keep glyph entry).rendered =
      bench.rendered ++ [(glyph, entry)] := by
    simp [rendered, called, keep, Face.Call.rendered?]
  constructor
  case once => exact h.pairwise_called hn rfl
  case perm =>
    rw [hrendered]
    refine (GlyphCache.toList_insert_perm hn entry).trans ?_
    exact (h.perm.cons _).trans (List.perm_append_singleton _ _).symm
  case peek?_eq =>
    intro other
    rw [hrendered, List.lookup_append, ← h.peek?_eq]
    refine (GlyphCache.peek?_insert bench.glyphs glyph entry other).trans ?_
    split
    · next he =>
      subst he
      simp [hn]
    · next he =>
      have hother : (other == glyph) = false := by simpa using Ne.symm he
      simp [List.lookup_cons, hother]

/-- Every inquiry leaves a bench accounted for. -/
theorem after (bench : Bench (RecordedFace σ)) (inquiry : Inquiry) (h : bench.Accounted) :
    (bench.after inquiry).Accounted := by
  cases inquiry with
  | form glyph =>
    rw [Bench.after]
    cases hc : bench.glyphs.peek? glyph with
    | some entry =>
      rw [rasterize_of_peek? hc]
      exact h
    | none =>
      obtain ⟨-, hfailed, hrendered⟩ := rasterize_of_peek?_eq_none hc
      cases hr : (Face.rasterize bench.face.face glyph).1 with
      | error e =>
        rw [hfailed e hr, hr]
        exact h.call hc _ rfl rfl
      | ok entry =>
        rw [hrendered entry hr, hr]
        exact h.insert hc _ entry
  | range glyph =>
    rw [Bench.after]
    split
    · exact h
    · next hc =>
      have hprobed : { bench with face := (Face.probe bench.face glyph).2 } =
          bench.called (Face.probe bench.face.face glyph).2
            (.probe glyph (Face.probe bench.face.face glyph).1) := rfl
      rw [hprobed]
      exact h.call hc _ rfl rfl
  | kerning left right =>
    rw [Bench.after, Bench.kerning]
    split
    · exact ⟨h.peek?_eq, h.once, h.perm⟩
    · exact h
  | warning e => exact ⟨h.peek?_eq, h.once, h.perm⟩

omit [Face σ] in
theorem size_eq (h : bench.Accounted) : bench.glyphs.size = bench.rendered.length := by
  rw [GlyphCache.size, ← Std.HashMap.length_toList]
  exact h.perm.length_eq

omit [Face σ] in
theorem bitmapBytes_eq (h : bench.Accounted) :
    bench.glyphs.bitmapBytes =
      bench.rendered.foldr (fun p total => p.2.data.size + total) 0 := by
  refine h.perm.foldr_eq' (fun p _ p' _ total => ?_) 0
  exact Nat.add_left_comm p'.2.data.size p.2.data.size total

end Accounted

end Bench

end BitmapText
