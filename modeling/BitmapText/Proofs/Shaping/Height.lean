import BitmapText.Proofs.Shaping.Inquiries

/-!
# The height of a font

The measures of a font are made of the vertical ranges of the printable ASCII glyphs that can be
measured at the time, some from the cache and others from the face. If no range is upside down, the
height is at least the quarter of the size that is added, and it is no more than that only if these
glyphs are flat and all at one level. Without a height nothing is rendered, and nothing else keeps a
text from being rendered.

## Main definitions

* `Face.Upright`: a face that gives no range upside down.
* `Shaping.ranges`: the ranges that measures are made of.
* `Shaping.Flat`: these ranges are empty and at one level.

## Main statements

* `Bench.Upright.after`: no inquiry brings in a range that is upside down.
* `Bench.Upright.maxHeight_measureFont`: how high a font is.
* `Shaping.render_error_iff`: how a rendering can fail.
-/

namespace BitmapText

/-! ## Upright faces -/

namespace Face

variable {σ : Type} [Face σ]

/-- No range that the face gives is upside down, and the height of every bitmap is a coordinate. So
the range of a bitmap is not upside down either. Everything may fail at any time. -/
structure Upright (first : σ) : Prop where
  probe : ∀ face, Later first face → ∀ glyph extents,
    (Face.probe face glyph).1 = .ok extents → extents.yMin ≤ extents.yMax
  rasterize : ∀ face, Later first face → ∀ glyph entry,
    (Face.rasterize face glyph).1 = .ok entry → (entry.height : Int) ≤ Coord.highest

end Face

theorem RasterGlyph.yMin_le_yMax {entry : RasterGlyph} (h : (entry.height : Int) ≤ Coord.highest) :
    entry.extents.yMin ≤ entry.extents.yMax := by
  simp only [extents, Coord.ofSize_of_le h]
  omega

/-- A face that measures glyphs by rendering them is upright if the heights of its bitmaps are
coordinates. -/
theorem Face.ProbesByRendering.upright {σ : Type} [Face σ] {first : σ}
    (hp : ProbesByRendering first)
    (hr : ∀ face, Later first face → ∀ glyph entry,
      (Face.rasterize face glyph).1 = .ok entry → (entry.height : Int) ≤ Coord.highest) :
    Upright first where
  probe face hl glyph extents he := by
    rw [hp face hl glyph] at he
    cases hrendered : (Face.rasterize face glyph).1 with
    | error e => simp [hrendered, Except.map] at he
    | ok entry =>
      obtain rfl : entry.extents = extents := by simpa [hrendered, Except.map] using he
      exact RasterGlyph.yMin_le_yMax (hr face hl glyph entry hrendered)
  rasterize := hr

theorem TableFace.upright_uniform {glyph : RasterGlyph} (h : (glyph.height : Int) ≤ Coord.highest) :
    Face.Upright (TableFace.uniform glyph) := by
  refine (TableFace.probesByRendering_uniform glyph).upright fun face hl index entry he => ?_
  rw [(TableFace.steady_uniform glyph).rasterize face hl, TableFace.rasterize_uniform] at he
  exact Except.ok.inj he ▸ h

namespace Bench

variable {σ : Type} [Face σ]

/-- The bench is over a face that `first` turned into, and no range in its cache is upside down. -/
structure Upright (first : σ) (bench : Bench σ) : Prop where
  face : Face.Later first bench.face
  glyphs : ∀ glyph entry, bench.glyphs.peek? glyph = some entry →
    entry.extents.yMin ≤ entry.extents.yMax

theorem Upright.opened (face : σ) (log : Array Log.Record) :
    Bench.Upright face { face, glyphs := .empty, log } where
  face := .first
  glyphs := by simp [GlyphCache.peek?, GlyphCache.empty]

/-- No inquiry brings in a range that is upside down. -/
theorem Upright.after {first : σ} (hu : Face.Upright first) (bench : Bench σ) (inquiry : Inquiry)
    (h : bench.Upright first) : (bench.after inquiry).Upright first where
  face := later_after h.face inquiry
  glyphs glyph entry hf := by
    rcases peek?_after_cases hf with hbefore | hrendered
    · exact h.glyphs glyph entry hbefore
    · exact RasterGlyph.yMin_le_yMax (hu.rasterize _ h.face glyph entry hrendered)

end Bench

namespace Shaping

variable {σ : Type} [Face σ]

/-! ## Ranges -/

/-- The ranges of the glyphs of some code points, from the cache where it has them and from the face
elsewhere. Glyphs that cannot be measured have none. -/
def rangesFrom (glyphs : GlyphCache) (face : σ) : List Nat → List Extents
  | [] => []
  | codePoint :: rest =>
    match glyphs.peek? (Face.charIndex face codePoint) with
    | some entry => entry.extents :: rangesFrom glyphs face rest
    | none =>
      match Face.probe face (Face.charIndex face codePoint) with
      | (.ok extents, face) => extents :: rangesFrom glyphs face rest
      | (.error _, face) => rangesFrom glyphs face rest

/-- The ranges that the measures of a font are made of if they are taken now. -/
def ranges (bench : Bench σ) : List Extents :=
  rangesFrom bench.glyphs bench.face measuredCodePoints

/-- All glyphs that decide the measures and can be measured now are without height, and their tops
are at one level. There may be none. -/
def Flat (bench : Bench σ) : Prop := ∃ top, ∀ extents ∈ ranges bench, extents = ⟨top, top⟩

theorem boundsFrom_eq_foldl (glyphs : GlyphCache) (face : σ) (bounds : Option Extents)
    (codePoints : List Nat) :
    (boundsFrom glyphs face bounds codePoints).1 =
      (rangesFrom glyphs face codePoints).foldl (fun bounds e => some (widen bounds e)) bounds := by
  induction codePoints generalizing face bounds with
  | nil => rfl
  | cons codePoint rest ih =>
    rw [boundsFrom, rangesFrom]
    cases glyphs.peek? (Face.charIndex face codePoint) with
    | some entry => exact ih ..
    | none =>
      cases Face.probe face (Face.charIndex face codePoint) with
      | mk result next =>
        cases result with
        | ok extents => exact ih ..
        | error e => exact ih ..

/-- The range around upright ranges is upright, and it is flat only if all of them are flat and at
its level. -/
theorem foldl_widen {b : Extents} (hb : b.yMin ≤ b.yMax) {es : List Extents}
    (hes : ∀ e ∈ es, e.yMin ≤ e.yMax) :
    ∃ hull, es.foldl (fun bounds e => some (widen bounds e)) (some b) = some hull ∧
      hull.yMin ≤ hull.yMax ∧
      ∀ top, hull = ⟨top, top⟩ ↔ b = ⟨top, top⟩ ∧ ∀ e ∈ es, e = ⟨top, top⟩ := by
  induction es generalizing b with
  | nil => exact ⟨b, rfl, hb, fun top => by simp⟩
  | cons e rest ih =>
    obtain ⟨he, hrest⟩ := List.forall_mem_cons.1 hes
    have hwider : (b.union e).yMin ≤ (b.union e).yMax := by
      simp only [Extents.union]
      omega
    have hboth (top : Int) : b.union e = ⟨top, top⟩ ↔ b = ⟨top, top⟩ ∧ e = ⟨top, top⟩ := by
      obtain ⟨bMin, bMax⟩ := b
      obtain ⟨eMin, eMax⟩ := e
      simp only [Extents.union, Extents.mk.injEq] at hb he ⊢
      omega
    obtain ⟨hull, hfold, hup, hflat⟩ := ih hwider hrest
    refine ⟨hull, hfold, hup, fun top => ?_⟩
    rw [hflat, hboth, List.forall_mem_cons, and_assoc]

end Shaping

namespace Bench.Upright

variable {σ : Type} [Face σ] {first : σ} {bench : Bench σ}

theorem rangesFrom (hu : Face.Upright first) {face : σ} {glyphs : GlyphCache}
    (h : Bench.Upright first { face, glyphs }) (codePoints : List Nat) :
    ∀ e ∈ Shaping.rangesFrom glyphs face codePoints, e.yMin ≤ e.yMax := by
  induction codePoints generalizing face with
  | nil => exact fun e he => absurd he List.not_mem_nil
  | cons codePoint rest ih =>
    rw [Shaping.rangesFrom]
    split
    · next entry hc => exact List.forall_mem_cons.2 ⟨h.glyphs _ entry hc, ih h⟩
    · have hlater := Face.Later.probe h.face (Face.charIndex face codePoint)
      split
      · next extents next hp =>
        rw [hp] at hlater
        have hextents := hu.probe face h.face _ extents (by rw [hp])
        exact List.forall_mem_cons.2 ⟨hextents, ih ⟨hlater, h.glyphs⟩⟩
      · next hp =>
        rw [hp] at hlater
        exact ih ⟨hlater, h.glyphs⟩

/-- The height of a font is at least a quarter of the size, and no more than that exactly if the
glyphs that decide it are flat. -/
theorem maxHeight_measureFont (hu : Face.Upright first) (h : bench.Upright first) (size : UInt32) :
    ((size.toNat / 4 : Nat) : Int) ≤ (Shaping.measureFont bench size).1.maxHeight ∧
      ((Shaping.measureFont bench size).1.maxHeight = ((size.toNat / 4 : Nat) : Int) ↔
        Shaping.Flat bench) := by
  obtain ⟨face, glyphs, log⟩ := bench
  have hup : ∀ e ∈ Shaping.ranges ({ face, glyphs, log } : Bench σ), e.yMin ≤ e.yMax :=
    rangesFrom hu ⟨h.face, h.glyphs⟩ Shaping.measuredCodePoints
  have hmeasures : (Shaping.measureFont ({ face, glyphs, log } : Bench σ) size).1 =
      Shaping.metricsOf ((Shaping.ranges ({ face, glyphs, log } : Bench σ)).foldl
        (fun bounds e => some (Shaping.widen bounds e)) none) size :=
    congrArg (Shaping.metricsOf · size)
      (Shaping.boundsFrom_eq_foldl glyphs face none Shaping.measuredCodePoints)
  rw [hmeasures, Shaping.Flat]
  -- Without any range the font has no height of its own; otherwise the first range starts the hull.
  cases hranges : Shaping.ranges ({ face, glyphs, log } : Bench σ) with
  | nil => simp [Shaping.metricsOf]
  | cons e rest =>
    rw [hranges] at hup
    obtain ⟨he, hrest⟩ := List.forall_mem_cons.1 hup
    obtain ⟨⟨low, high⟩, hfold, hhull, hflat⟩ := Shaping.foldl_widen he hrest
    have hbounds : (e :: rest).foldl (fun bounds e => some (Shaping.widen bounds e)) none =
        some ⟨low, high⟩ := hfold
    rw [hbounds]
    simp only [Shaping.metricsOf, Option.getD_some, List.forall_mem_cons, ← hflat,
      Extents.mk.injEq]
    dsimp only at hhull
    refine ⟨by omega, fun hheight => ⟨high, by omega, rfl⟩, ?_⟩
    rintro ⟨top, rfl, rfl⟩
    omega

end Bench.Upright

namespace Shaping

variable {σ : Type} [Face σ]

/-! ## Failures -/

/-- A rendering knows the measures afterwards, which it takes after the fit unless they are known.
It fails if they leave no height, and in no other way: no glyph makes it fail. -/
theorem render_error_iff (size : UInt32) (text : String) (budget : Option Int) (bench : Bench σ)
    (kept : Option FontMetrics) (e : FontError) :
    let rendering := render size text budget (bench, kept)
    let fitted := (fit budget bench (glyphIndices bench.face text)).2
    let metrics := (keptMetrics fitted kept size).1
    rendering.2.2 = some metrics ∧
      (rendering.1 = .error e ↔ e = .metricsUnavailable ∧ metrics.maxHeight ≤ 0) := by
  intro rendering fitted metrics
  have hrendering := render_eq size text budget bench kept
  by_cases hheight : metrics.maxHeight ≤ 0
  · have hfailed := hrendering.trans (if_pos hheight)
    simp only [rendering, hfailed, Except.error.injEq, hheight, and_true]
    exact ⟨rfl, eq_comm⟩
  · have hdrawn := hrendering.trans (if_neg hheight)
    simp only [rendering, hdrawn, hheight, and_false, reduceCtorEq, and_true]
    rfl

end Shaping

end BitmapText
