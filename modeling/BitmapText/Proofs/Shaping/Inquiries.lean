import BitmapText.Proofs.Face.Steady
import BitmapText.Proofs.Shaping.Clipping

/-!
# What a pass asks for

Whatever a pass over glyphs makes of the answers, it deals with its bench in four ways only: it asks
for the rendered form of a glyph, for the vertical range of one, and for the kerning of a pair, and
it makes a record. What holds through each of these holds through every pass. For the two that are
about a glyph it is told how often they come, and for rendered forms which glyphs they are of.

## Main definitions

* `Bench.Rasterization`: how a request for the rendered form of a glyph can end.
* `Bench.Inquiry`, `Bench.after`: one dealing with a bench, and the bench after it.
* `Bench.Consults`: what a bench is asked for between two moments.

## Main statements

* `Bench.later_after`, `Bench.peek?_after`, `Bench.peek?_after_cases`: what an inquiry does to the
  face and to the glyph cache.
* `Bench.Consults.keeps`: what holds through every inquiry holds from one moment to the other.
* `Shaping.fit_consults`, `Shaping.composite_consults`, `Shaping.measureFont_consults`,
  `Shaping.render_consults`: what each pass asks for.
-/

namespace BitmapText

/-- A glyph that is kept is found under its own number, and changes nothing else. -/
theorem GlyphCache.peek?_insert (cache : GlyphCache) (glyph : GlyphIndex) (entry : RasterGlyph)
    (other : GlyphIndex) :
    (⟨cache.entries.insert glyph entry⟩ : GlyphCache).peek? other =
      if glyph = other then some entry else cache.peek? other := by
  simp only [GlyphCache.peek?, Std.HashMap.getElem?_insert, beq_iff_eq]

namespace Bench

/-! ## One dealing -/

section Rasterization

variable {σ : Type} [Face σ]

/-- How a request for the rendered form of a glyph can end. -/
inductive Rasterization (bench : Bench σ) (glyph : GlyphIndex) :
    Except FontError RasterGlyph → Bench σ → Prop where
  /-- The glyph has been rendered before. The face is not asked. -/
  | cached (entry : RasterGlyph) (h : bench.glyphs.peek? glyph = some entry) :
      Rasterization bench glyph (.ok entry) bench
  | rendered (entry : RasterGlyph) (face : σ) (h : bench.glyphs.peek? glyph = none)
      (hr : Face.rasterize bench.face glyph = (.ok entry, face)) :
      Rasterization bench glyph (.ok entry)
        { bench with face, glyphs := ⟨bench.glyphs.entries.insert glyph entry⟩ }
  | failed (e : FontError) (face : σ) (h : bench.glyphs.peek? glyph = none)
      (hr : Face.rasterize bench.face glyph = (.error e, face)) :
      Rasterization bench glyph (.error e) { bench with face }

theorem rasterization (bench : Bench σ) (glyph : GlyphIndex) :
    Rasterization bench glyph (bench.rasterize glyph).1 (bench.rasterize glyph).2 := by
  obtain ⟨face, glyphs, log⟩ := bench
  cases hc : glyphs.peek? glyph with
  | some entry =>
    simp only [rasterize, GlyphCache.getOrRasterize, hc]
    exact .cached entry hc
  | none =>
    cases hr : Face.rasterize face glyph with
    | mk result next =>
      simp only [rasterize, GlyphCache.getOrRasterize, hc, hr]
      cases result with
      | ok entry => exact .rendered entry next hc hr
      | error e => exact .failed e next hc hr

end Rasterization

/-- One dealing with a bench. -/
inductive Inquiry where
  /-- The rendered form of a glyph. -/
  | form (glyph : GlyphIndex)
  /-- The vertical range of a glyph. -/
  | range (glyph : GlyphIndex)
  | kerning (left right : GlyphIndex)
  | warning (e : FontError)

namespace Inquiry

/-- The glyph whose rendered form is asked for. -/
def form? : Inquiry → Option GlyphIndex
  | form glyph => some glyph
  | _ => none

def isRange : Inquiry → Bool
  | range _ => true
  | _ => false

end Inquiry

variable {σ : Type} [Face σ]

/-- The bench after an inquiry. A face is asked for a range only if the glyph is not in the
cache. -/
def after (bench : Bench σ) : Inquiry → Bench σ
  | .form glyph => (bench.rasterize glyph).2
  | .range glyph =>
    match bench.glyphs.peek? glyph with
    | some _ => bench
    | none => { bench with face := (Face.probe bench.face glyph).2 }
  | .kerning left right => (bench.kerning left right).2
  | .warning e => bench.warn e

section After

variable {bench : Bench σ} {glyph : GlyphIndex} {entry : RasterGlyph}

/-- An inquiry asks the face something, or nothing. -/
theorem later_after {first : σ} (h : Face.Later first bench.face) (inquiry : Inquiry) :
    Face.Later first (bench.after inquiry).face := by
  cases inquiry with
  | form glyph =>
    have hasked := h.rasterize glyph
    have hend := bench.rasterization glyph
    rw [after]
    generalize (bench.rasterize glyph).1 = result, (bench.rasterize glyph).2 = next at hend
    cases hend with
    | cached entry hc => exact h
    | rendered entry face hc hr => rwa [hr] at hasked
    | failed e face hc hr => rwa [hr] at hasked
  | range glyph =>
    rw [after]
    split
    · exact h
    · exact h.probe glyph
  | kerning left right =>
    rw [after, Bench.kerning]
    split
    · exact h.kerning left right
    · exact h
  | warning e => exact h

/-- Only a request for a rendered form changes the cache. -/
theorem glyphs_after (bench : Bench σ) (inquiry : Inquiry) (h : inquiry.form? = none) :
    (bench.after inquiry).glyphs = bench.glyphs := by
  cases inquiry with
  | form glyph => cases h
  | range glyph =>
    rw [after]
    split <;> rfl
  | kerning left right =>
    rw [after, Bench.kerning]
    split <;> rfl
  | warning e => rfl

/-- A glyph that is in the cache stays there as it is. -/
theorem peek?_after (h : bench.glyphs.peek? glyph = some entry) (inquiry : Inquiry) :
    (bench.after inquiry).glyphs.peek? glyph = some entry := by
  cases hi : inquiry.form? with
  | none => rw [bench.glyphs_after inquiry hi, h]
  | some other =>
    obtain rfl : inquiry = .form other := by
      cases inquiry <;> cases hi
      rfl
    have hend := bench.rasterization other
    rw [after]
    generalize (bench.rasterize other).1 = result, (bench.rasterize other).2 = next at hend
    cases hend with
    | cached _ _ => exact h
    | failed _ _ _ _ => exact h
    | rendered found face hc hr =>
      have hne : other ≠ glyph := by
        rintro rfl
        cases hc.symm.trans h
      rw [GlyphCache.peek?_insert, if_neg hne, h]

/-- A glyph that is in the cache after an inquiry was there before, or the face has just rendered
it. -/
theorem peek?_after_cases {inquiry : Inquiry}
    (h : (bench.after inquiry).glyphs.peek? glyph = some entry) :
    bench.glyphs.peek? glyph = some entry ∨ (Face.rasterize bench.face glyph).1 = .ok entry := by
  cases hi : inquiry.form? with
  | none => exact .inl (bench.glyphs_after inquiry hi ▸ h)
  | some other =>
    obtain rfl : inquiry = .form other := by
      cases inquiry <;> cases hi
      rfl
    have hend := bench.rasterization other
    rw [after] at h
    generalize (bench.rasterize other).1 = result, (bench.rasterize other).2 = next at hend h
    cases hend with
    | cached _ _ => exact .inl h
    | failed _ _ _ _ => exact .inl h
    | rendered found face hc hr =>
      rw [GlyphCache.peek?_insert] at h
      split at h
      · next he =>
        subst he
        rw [hr, Option.some.inj h]
        exact .inr rfl
      · exact .inl h

end After

/-- Between the two benches, the rendered forms of the glyphs `forms` are asked for, in order, and
`ranges` vertical ranges. Kerning and records come in between as they like. -/
def Consults (bench : Bench σ) (forms : List GlyphIndex) (ranges : Nat) (last : Bench σ) : Prop :=
  ∃ inquiries : List Inquiry, inquiries.foldl after bench = last ∧
    inquiries.filterMap Inquiry.form? = forms ∧ inquiries.countP Inquiry.isRange = ranges

namespace Consults

variable {bench next last : Bench σ} {forms others : List GlyphIndex} {ranges more : Nat}

theorem refl (bench : Bench σ) : bench.Consults [] 0 bench := ⟨[], rfl, rfl, rfl⟩

theorem trans (h : bench.Consults forms ranges next) (h' : next.Consults others more last) :
    bench.Consults (forms ++ others) (ranges + more) last := by
  obtain ⟨is, rfl, rfl, rfl⟩ := h
  obtain ⟨is', rfl, rfl, rfl⟩ := h'
  exact ⟨is ++ is', List.foldl_append, List.filterMap_append, List.countP_append⟩

theorem rasterize (bench : Bench σ) (glyph : GlyphIndex) :
    bench.Consults [glyph] 0 (bench.rasterize glyph).2 :=
  ⟨[.form glyph], rfl, rfl, rfl⟩

theorem kerning (bench : Bench σ) (left right : GlyphIndex) :
    bench.Consults [] 0 (bench.kerning left right).2 :=
  ⟨[.kerning left right], rfl, rfl, rfl⟩

theorem warn (bench : Bench σ) (e : FontError) : bench.Consults [] 0 (bench.warn e) :=
  ⟨[.warning e], rfl, rfl, rfl⟩

/-- What holds through every inquiry holds from one moment to the other. -/
theorem keeps {P : Bench σ → Prop} (h : bench.Consults forms ranges last)
    (step : ∀ bench inquiry, P bench → P (after bench inquiry)) (hb : P bench) : P last := by
  obtain ⟨is, rfl, -, -⟩ := h
  induction is generalizing bench with
  | nil => exact hb
  | cons i is ih => exact ih (step bench i hb)

end Consults

end Bench

namespace Shaping

variable {σ : Type} [Face σ]

/-! ## Fits -/

/-- A fit that goes on never counts less. -/
theorem le_glyphs_fitFrom (budget : Option Int) (bench : Bench σ) (previous : GlyphIndex)
    (sofar : Fit) (glyphs : List GlyphIndex) :
    sofar.glyphs ≤ (fitFrom budget bench previous sofar glyphs).1.glyphs := by
  induction glyphs generalizing bench previous sofar with
  | nil => exact Nat.le_refl _
  | cons glyph rest ih =>
    have hnext (after : Bench σ) (width : Int) := ih after glyph ⟨sofar.glyphs + 1, width⟩
    rw [fitFrom]
    split
    · exact Nat.le_of_succ_le (hnext _ _)
    · dsimp only
      split
      · exact Nat.le_refl _
      · exact Nat.le_of_succ_le (hnext _ _)

/-- A fit asks for the glyphs that it counts, and for the one that it stops at. -/
theorem fitFrom_consults (budget : Option Int) (bench : Bench σ) (previous : GlyphIndex)
    (sofar : Fit) (glyphs : List GlyphIndex) :
    let fitting := fitFrom budget bench previous sofar glyphs
    bench.Consults (glyphs.take (fitting.1.glyphs - sofar.glyphs + 1)) 0 fitting.2 := by
  induction glyphs generalizing bench previous sofar with
  | nil => exact .refl bench
  | cons glyph rest ih =>
    have hasked := Bench.Consults.rasterize bench glyph
    -- One glyph is asked for, and then those of a fit that starts with one glyph more.
    have hnext {asked next : Bench σ} (width : Int) (ha : bench.Consults [glyph] 0 asked)
        (hn : asked.Consults [] 0 next) :
        let fitting := fitFrom budget next glyph ⟨sofar.glyphs + 1, width⟩ rest
        bench.Consults ((glyph :: rest).take (fitting.1.glyphs - sofar.glyphs + 1)) 0
          fitting.2 := by
      intro fitting
      have hle : sofar.glyphs + 1 ≤ fitting.1.glyphs :=
        le_glyphs_fitFrom budget next glyph ⟨sofar.glyphs + 1, width⟩ rest
      have hcount : fitting.1.glyphs - sofar.glyphs =
          fitting.1.glyphs - (sofar.glyphs + 1) + 1 := by omega
      rw [List.take_succ_cons, hcount]
      exact (ha.trans hn).trans (ih next glyph ⟨sofar.glyphs + 1, width⟩)
    intro fitting
    simp only [fitting, fitFrom]
    cases hb : bench.rasterize glyph with
    | mk result asked =>
      rw [hb] at hasked
      cases result with
      | error e => exact hnext _ hasked (.warn asked e)
      | ok entry =>
        dsimp only
        split
        · rw [Nat.sub_self, List.take_succ_cons, List.take_zero]
          exact hasked.trans (.kerning asked previous glyph)
        · exact hnext _ hasked (.kerning asked previous glyph)

/-- A fit asks for the glyphs that it counts, and for the one that it stops at. -/
theorem fit_consults (budget : Option Int) (bench : Bench σ) (glyphs : List GlyphIndex) :
    let fitting := fit budget bench glyphs
    bench.Consults (glyphs.take (fitting.1.glyphs + 1)) 0 fitting.2 :=
  fitFrom_consults budget bench 0 ⟨0, 0⟩ glyphs

/-! ## Compositions -/

/-- A composition asks for each of its glyphs. -/
theorem compositeFrom_consults (baseline : Int) (bench : Bench σ) (previous : GlyphIndex)
    (pen : Int) (surface : Bitmap) (glyphs : List GlyphIndex) :
    bench.Consults glyphs 0 (compositeFrom baseline bench previous pen surface glyphs).2 := by
  induction glyphs generalizing bench previous pen surface with
  | nil => exact .refl bench
  | cons glyph rest ih =>
    have hasked := (Bench.Consults.kerning bench previous glyph).trans (.rasterize _ glyph)
    rw [compositeFrom]
    dsimp only
    split
    · next hb =>
      rw [hb] at hasked
      exact (hasked.trans (.warn _ _)).trans (ih ..)
    · next hb =>
      rw [hb] at hasked
      split
      · exact hasked.trans (ih ..)
      · exact (hasked.trans (.warn _ _)).trans (ih ..)

theorem composite_consults (bench : Bench σ) (glyphs : List GlyphIndex) (width : Int)
    (metrics : FontMetrics) :
    bench.Consults glyphs 0 (composite bench glyphs width metrics).2 :=
  compositeFrom_consults ..

/-! ## Measures -/

/-- Bounds ask for one range for each code point, and for nothing else. -/
theorem boundsFrom_consults (glyphs : GlyphCache) (log : Array Log.Record) (face : σ)
    (bounds : Option Extents) (codePoints : List Nat) :
    Bench.Consults { face, glyphs, log } [] codePoints.length
      { face := (boundsFrom glyphs face bounds codePoints).2, glyphs, log } := by
  induction codePoints generalizing face bounds with
  | nil => exact .refl _
  | cons codePoint rest ih =>
    let bench : Bench σ := { face, glyphs, log }
    have hasked : bench.Consults [] 1 (bench.after (.range (Face.charIndex face codePoint))) :=
      ⟨[.range (Face.charIndex face codePoint)], rfl, rfl, rfl⟩
    simp only [bench, Bench.after] at hasked
    rw [List.length_cons, Nat.add_comm, boundsFrom]
    cases hc : glyphs.peek? (Face.charIndex face codePoint) with
    | some entry =>
      rw [hc] at hasked
      exact hasked.trans (ih ..)
    | none =>
      rw [hc] at hasked
      cases hp : Face.probe face (Face.charIndex face codePoint) with
      | mk result next =>
        rw [hp] at hasked
        cases result with
        | ok extents => exact hasked.trans (ih ..)
        | error e => exact hasked.trans (ih ..)

theorem measureFont_consults (bench : Bench σ) (size : UInt32) :
    bench.Consults [] measuredCodePoints.length (measureFont bench size).2 := by
  obtain ⟨face, glyphs, log⟩ := bench
  exact boundsFrom_consults glyphs log face none measuredCodePoints

/-- Only measures that are not kept are taken. -/
theorem keptMetrics_consults (bench : Bench σ) (kept : Option FontMetrics) (size : UInt32) :
    bench.Consults [] (if kept.isNone then measuredCodePoints.length else 0)
      (keptMetrics bench kept size).2 := by
  cases kept with
  | none => exact measureFont_consults bench size
  | some metrics => exact .refl bench

/-! ## Renderings -/

/-- The glyphs that a rendering asks for: those of the fit, and those that are composited. -/
def renderedForms (size : UInt32) (text : String) (budget : Option Int) (bench : Bench σ)
    (kept : Option FontMetrics) : List GlyphIndex :=
  let glyphs := glyphIndices bench.face text
  let fitting := fit budget bench glyphs
  let measuring := keptMetrics fitting.2 kept size
  glyphs.take (fitting.1.glyphs + 1) ++
    if measuring.1.maxHeight ≤ 0 then [] else glyphs.take fitting.1.glyphs

theorem render_consults (size : UInt32) (text : String) (budget : Option Int) (bench : Bench σ)
    (kept : Option FontMetrics) :
    bench.Consults (renderedForms size text budget bench kept)
      (if kept.isNone then measuredCodePoints.length else 0)
      (render size text budget (bench, kept)).2.1 := by
  have hfit := fit_consults budget bench (glyphIndices bench.face text)
  have hmeasured := hfit.trans (keptMetrics_consults _ kept size)
  simp only [List.append_nil, Nat.zero_add] at hmeasured
  rw [render_eq, renderedForms]
  dsimp only
  split
  · rw [List.append_nil]
    exact hmeasured
  · exact hmeasured.trans (composite_consults ..)

end Shaping

end BitmapText
