import BitmapText.Shaping

/-!
# Faces that write down their calls

To have something to say about what a face is asked for, it is made to write down each glyph that it
is asked about, with its answer. Shaping goes on as without writing down, on every face: nothing in
it depends on more of a face than its answers.

## Main definitions

* `Face.Call`: a glyph that a face was asked about, with the answer.
* `RecordedFace`: a face with its calls so far.
* `Face.Plain`: forgetting a part of a face leaves a face that answers alike.

## Main statements

* `Face.Plain.fit`, `Face.Plain.composite`, `Face.Plain.measureFont`, `Face.Plain.render`: shaping
  goes on as without that part.
-/

namespace BitmapText

namespace Face

/-! ## Calls -/

/-- What a face was asked about a glyph, and what it answered. -/
inductive Call where
  | rasterize (glyph : GlyphIndex) (result : Except FontError RasterGlyph)
  | probe (glyph : GlyphIndex) (result : Except FontError Extents)

namespace Call

/-- The glyph that the face was asked about. -/
def glyph : Call → GlyphIndex
  | rasterize glyph _ | probe glyph _ => glyph

/-- The glyph with its rendered form, if the face was asked for that and had it. -/
def rendered? : Call → Option (GlyphIndex × RasterGlyph)
  | rasterize glyph (.ok entry) => some (glyph, entry)
  | _ => none

end Call

end Face

/-- A face that writes down the glyphs that it is asked about, in order. -/
structure RecordedFace (σ : Type) where
  face : σ
  calls : List Face.Call := []

namespace RecordedFace

variable {σ : Type} [Face σ]

instance : Face (RecordedFace σ) where
  charIndex r := Face.charIndex r.face
  rasterize r glyph :=
    match Face.rasterize r.face glyph with
    | (result, face) => (result, { face, calls := r.calls ++ [.rasterize glyph result] })
  probe r glyph :=
    match Face.probe r.face glyph with
    | (result, face) => (result, { face, calls := r.calls ++ [.probe glyph result] })
  hasKerning r := Face.hasKerning r.face
  kerning r left right :=
    match Face.kerning r.face left right with
    | (delta, face) => (delta, { r with face })

end RecordedFace

/-! ## Forgetting a part of a face -/

section Plain

variable {τ σ : Type} [Face τ] [Face σ]

/-- The faces of one type answer as those of another one that `plain` makes of them. -/
structure Face.Plain (plain : τ → σ) : Prop where
  charIndex : ∀ face, Face.charIndex (plain face) = Face.charIndex face
  rasterize : ∀ face glyph,
    Face.rasterize (plain face) glyph = Prod.map id plain (Face.rasterize face glyph)
  probe : ∀ face glyph, Face.probe (plain face) glyph = Prod.map id plain (Face.probe face glyph)
  hasKerning : ∀ face, Face.hasKerning (plain face) = Face.hasKerning face
  kerning : ∀ face left right,
    Face.kerning (plain face) left right = Prod.map id plain (Face.kerning face left right)

theorem RecordedFace.plain_face : Face.Plain (RecordedFace.face : RecordedFace σ → σ) where
  charIndex _ := rfl
  rasterize _ _ := rfl
  probe _ _ := rfl
  hasKerning _ := rfl
  kerning _ _ _ := rfl

/-- The bench with its face changed to another one. -/
def Bench.mapFace {τ σ : Type} (plain : τ → σ) (bench : Bench τ) : Bench σ :=
  { face := plain bench.face, glyphs := bench.glyphs, log := bench.log }

namespace Face.Plain

variable {plain : τ → σ}

theorem benchRasterize (h : Face.Plain plain) (bench : Bench τ) (glyph : GlyphIndex) :
    (bench.mapFace plain).rasterize glyph =
      Prod.map id (Bench.mapFace plain) (bench.rasterize glyph) := by
  obtain ⟨face, glyphs, log⟩ := bench
  simp only [Bench.mapFace, Bench.rasterize, GlyphCache.getOrRasterize, h.rasterize]
  cases glyphs.peek? glyph with
  | some entry => rfl
  | none =>
    cases Face.rasterize face glyph with
    | mk result next => cases result <;> rfl

theorem benchKerning (h : Face.Plain plain) (bench : Bench τ) (left right : GlyphIndex) :
    (bench.mapFace plain).kerning left right =
      Prod.map id (Bench.mapFace plain) (bench.kerning left right) := by
  obtain ⟨face, glyphs, log⟩ := bench
  simp only [Bench.mapFace, Bench.kerning, h.hasKerning, h.kerning]
  split <;> rfl

theorem glyphIndices (h : Face.Plain plain) (face : τ) (text : String) :
    Shaping.glyphIndices (plain face) text = Shaping.glyphIndices face text := by
  rw [Shaping.glyphIndices, Shaping.glyphIndices, h.charIndex]

theorem fitFrom (h : Face.Plain plain) (budget : Option Int) (bench : Bench τ)
    (previous : GlyphIndex) (sofar : Fit) (glyphs : List GlyphIndex) :
    Shaping.fitFrom budget (bench.mapFace plain) previous sofar glyphs =
      Prod.map id (Bench.mapFace plain) (Shaping.fitFrom budget bench previous sofar glyphs) := by
  induction glyphs generalizing bench previous sofar with
  | nil => rfl
  | cons glyph rest ih =>
    rw [Shaping.fitFrom, Shaping.fitFrom, h.benchRasterize]
    cases bench.rasterize glyph with
    | mk result asked =>
      cases result with
      | error e => exact ih (asked.warn e) glyph _
      | ok entry =>
        dsimp only [Prod.map, id]
        rw [h.benchKerning]
        dsimp only [Prod.map, id]
        split
        · rfl
        · exact ih ..

theorem fit (h : Face.Plain plain) (budget : Option Int) (bench : Bench τ)
    (glyphs : List GlyphIndex) :
    Shaping.fit budget (bench.mapFace plain) glyphs =
      Prod.map id (Bench.mapFace plain) (Shaping.fit budget bench glyphs) :=
  h.fitFrom budget bench 0 ⟨0, 0⟩ glyphs

theorem compositeFrom (h : Face.Plain plain) (baseline : Int) (bench : Bench τ)
    (previous : GlyphIndex) (pen : Int) (surface : Bitmap) (glyphs : List GlyphIndex) :
    Shaping.compositeFrom baseline (bench.mapFace plain) previous pen surface glyphs =
      Prod.map id (Bench.mapFace plain)
        (Shaping.compositeFrom baseline bench previous pen surface glyphs) := by
  induction glyphs generalizing bench previous pen surface with
  | nil => rfl
  | cons glyph rest ih =>
    rw [Shaping.compositeFrom, Shaping.compositeFrom, h.benchKerning]
    dsimp only [Prod.map, id]
    rw [h.benchRasterize]
    cases (bench.kerning previous glyph).2.rasterize glyph with
    | mk result asked =>
      cases result with
      | error e => exact ih (asked.warn e) glyph _ _
      | ok entry =>
        dsimp only [Prod.map, id]
        split
        · exact ih ..
        · exact ih (asked.warn _) ..

theorem composite (h : Face.Plain plain) (bench : Bench τ) (glyphs : List GlyphIndex) (width : Int)
    (metrics : FontMetrics) :
    Shaping.composite (bench.mapFace plain) glyphs width metrics =
      Prod.map id (Bench.mapFace plain) (Shaping.composite bench glyphs width metrics) :=
  h.compositeFrom metrics.baseline bench 0 0 _ glyphs

theorem boundsFrom (h : Face.Plain plain) (glyphs : GlyphCache) (face : τ)
    (bounds : Option Extents) (codePoints : List Nat) :
    Shaping.boundsFrom glyphs (plain face) bounds codePoints =
      Prod.map id plain (Shaping.boundsFrom glyphs face bounds codePoints) := by
  induction codePoints generalizing face bounds with
  | nil => rfl
  | cons codePoint rest ih =>
    rw [Shaping.boundsFrom, Shaping.boundsFrom, h.charIndex]
    cases glyphs.peek? (Face.charIndex face codePoint) with
    | some entry => exact ih ..
    | none =>
      dsimp only
      rw [h.probe]
      cases Face.probe face (Face.charIndex face codePoint) with
      | mk result next =>
        cases result with
        | ok extents => exact ih ..
        | error e => exact ih ..

theorem measureFont (h : Face.Plain plain) (bench : Bench τ) (size : UInt32) :
    Shaping.measureFont (bench.mapFace plain) size =
      Prod.map id (Bench.mapFace plain) (Shaping.measureFont bench size) := by
  obtain ⟨face, glyphs, log⟩ := bench
  simp only [Bench.mapFace, Shaping.measureFont, h.boundsFrom]
  rfl

theorem keptMetrics (h : Face.Plain plain) (bench : Bench τ) (kept : Option FontMetrics)
    (size : UInt32) :
    Shaping.keptMetrics (bench.mapFace plain) kept size =
      Prod.map id (Bench.mapFace plain) (Shaping.keptMetrics bench kept size) := by
  cases kept with
  | none => exact h.measureFont bench size
  | some metrics => rfl

theorem render (h : Face.Plain plain) (size : UInt32) (text : String) (budget : Option Int)
    (bench : Bench τ) (kept : Option FontMetrics) :
    Shaping.render size text budget (bench.mapFace plain, kept) =
      Prod.map id (Prod.map (Bench.mapFace plain) id)
        (Shaping.render size text budget (bench, kept)) := by
  have hface : (bench.mapFace plain).face = plain bench.face := rfl
  simp only [Shaping.render, hface, h.glyphIndices, h.fit, Prod.map, id, h.keptMetrics]
  split
  · rfl
  · rw [h.composite]
    rfl

end Face.Plain

end Plain

end BitmapText
