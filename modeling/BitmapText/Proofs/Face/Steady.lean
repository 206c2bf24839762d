import BitmapText.Face.TableFace

/-!
# Steady faces

A face may change whenever it is asked something. What shaping gives can be foretold only for faces
whose answers depend on the questions alone, so that it does not matter when, and how often, they
are asked.

## Main definitions

* `Face.Later`: the faces that a face turns into.
* `Face.Steady`: a face whose answers never change.
* `Face.SteadyLooks`: a face on which at least the looks of glyphs never change.
* `Face.ProbesByRendering`: a face that measures a glyph as it renders it.
* `TableFace.uniform`: a face on which all glyphs look alike.

## Main statements

* `TableFace.steady`: a table without passing failures makes a steady face.
-/

namespace BitmapText

namespace Face

variable {σ : Type} [Face σ]

/-- The faces that `first` turns into when it is asked questions. -/
inductive Later (first : σ) : σ → Prop where
  | first : Later first first
  | rasterize {face : σ} (h : Later first face) (glyph : GlyphIndex) :
      Later first (Face.rasterize face glyph).2
  | probe {face : σ} (h : Later first face) (glyph : GlyphIndex) :
      Later first (Face.probe face glyph).2
  | kerning {face : σ} (h : Later first face) (left right : GlyphIndex) :
      Later first (Face.kerning face left right).2

/-- Glyphs look the same at any time. -/
def SteadyRendering (first : σ) : Prop :=
  ∀ face, Later first face → ∀ glyph,
    (Face.rasterize face glyph).1 = (Face.rasterize first glyph).1

/-- Code points keep their glyphs, and glyphs their looks. Nothing is said about kerning. -/
structure SteadyLooks (first : σ) : Prop where
  charIndex : ∀ face, Later first face → ∀ codePoint,
    Face.charIndex face codePoint = Face.charIndex first codePoint
  rendering : SteadyRendering first

/-- Glyphs look the same and are kerned the same at any time. -/
structure SteadyGlyphs (first : σ) : Prop where
  rasterize : ∀ face, Later first face → ∀ glyph,
    (Face.rasterize face glyph).1 = (Face.rasterize first glyph).1
  hasKerning : ∀ face, Later first face → Face.hasKerning face = Face.hasKerning first
  kerning : ∀ face, Later first face → ∀ left right,
    (Face.kerning face left right).1 = (Face.kerning first left right).1

/-- The answers depend on the questions alone. Nothing is said about the vertical ranges of glyphs,
which come into it only through `ProbesByRendering`. -/
structure Steady (first : σ) : Prop extends SteadyGlyphs first where
  charIndex : ∀ face, Later first face → ∀ codePoint,
    Face.charIndex face codePoint = Face.charIndex first codePoint

theorem Steady.looks {first : σ} (h : Steady first) : SteadyLooks first :=
  ⟨h.charIndex, h.rasterize⟩

/-- The vertical range of a glyph is that of its bitmap, whenever it is asked for. -/
def ProbesByRendering (first : σ) : Prop :=
  ∀ face, Later first face → ∀ glyph,
    (Face.probe face glyph).1 = (Face.rasterize face glyph).1.map RasterGlyph.extents

end Face

namespace TableFace

/-! ## Tables -/

@[simp] theorem table_rasterize (face : TableFace) (glyph : GlyphIndex) :
    (face.rasterize glyph).2.table = face.table := by
  unfold rasterize
  dsimp only
  split
  · rfl
  · split <;> rfl

@[simp] theorem table_probe (face : TableFace) (glyph : GlyphIndex) :
    (face.probe glyph).2.table = face.table := by
  unfold probe
  split
  · dsimp only
    split <;> rfl
  · exact table_rasterize face glyph

theorem table_eq_of_later {first face : TableFace} (h : Face.Later first face) :
    face.table = first.table := by
  induction h with
  | first => rfl
  | rasterize _ glyph ih => exact (table_rasterize _ glyph).trans ih
  | probe _ glyph ih => exact (table_probe _ glyph).trans ih
  | kerning _ left right ih => exact ih

/-- A face whose entries never fail at first renders what its table says. -/
theorem rasterize_of_failures_eq_zero {face : TableFace} {glyph : GlyphIndex}
    (h : ∀ e, face.table.entry? glyph = some e → e.failures = 0) :
    (face.rasterize glyph).1 =
      match face.table.entry? glyph with
      | none => .error (.glyphLoad glyph)
      | some e => .ok e.glyph := by
  cases he : face.table.entry? glyph with
  | none => simp only [rasterize, he]
  | some e => simp only [rasterize, he, h e he, Nat.not_lt_zero, if_false]

/-- A table without failures that pass makes a steady face. -/
theorem steady {first : TableFace}
    (h : ∀ glyph e, first.table.entry? glyph = some e → e.failures = 0) : Face.Steady first where
  rasterize face hl glyph := by
    have ht : face.table = first.table := table_eq_of_later hl
    refine (rasterize_of_failures_eq_zero (by rw [ht]; exact h glyph)).trans ?_
    rw [ht]
    exact (rasterize_of_failures_eq_zero (h glyph)).symm
  hasKerning face hl := congrArg Table.hasKerning (table_eq_of_later hl)
  kerning face hl left right :=
    congrArg (fun t : Table => t.kerning.getD (left, right) 0) (table_eq_of_later hl)
  charIndex face hl codePoint :=
    congrArg (fun t : Table => t.charIndex codePoint) (table_eq_of_later hl)

/-- A table without ranges of its own measures glyphs by rendering them. -/
theorem probesByRendering {first : TableFace} (h : first.table.probes = none) :
    Face.ProbesByRendering first := by
  intro face hl glyph
  change (face.probe glyph).1 = (face.rasterize glyph).1.map RasterGlyph.extents
  have hp : face.table.probes = none := by rw [table_eq_of_later hl, h]
  simp only [probe, hp]

/-- A face on which every glyph looks alike and none are kerned. -/
def uniform (glyph : RasterGlyph) : TableFace := .ofTable { others := some { glyph } }

theorem entry?_uniform (glyph : RasterGlyph) (index : GlyphIndex) :
    (uniform glyph).table.entry? index = some { glyph } := by
  simp [uniform, ofTable, Table.entry?]

theorem failures_uniform (glyph : RasterGlyph) (index : GlyphIndex) (e : GlyphEntry)
    (he : (uniform glyph).table.entry? index = some e) : e.failures = 0 := by
  obtain rfl := Option.some.inj ((entry?_uniform glyph index).symm.trans he)
  rfl

@[simp] theorem rasterize_uniform (glyph : RasterGlyph) (index : GlyphIndex) :
    (Face.rasterize (uniform glyph) index).1 = .ok glyph := by
  refine (rasterize_of_failures_eq_zero (failures_uniform glyph index)).trans ?_
  rw [entry?_uniform]

theorem steady_uniform (glyph : RasterGlyph) : Face.Steady (uniform glyph) :=
  steady (failures_uniform glyph)

theorem probesByRendering_uniform (glyph : RasterGlyph) :
    Face.ProbesByRendering (uniform glyph) := probesByRendering rfl

/-- A face on which every glyph looks alike, but for one that is missing. That one is kerned with
one glyph before it; no other pair is kerned. -/
def gapped (glyph : RasterGlyph) (before missing : GlyphIndex) (delta : Int) : TableFace :=
  .ofTable
    { glyphs := Std.HashMap.ofList [(missing, none)]
      others := some { glyph }
      hasKerning := true
      kerning := Std.HashMap.ofList [((before, missing), delta)] }

section Gapped

variable (glyph : RasterGlyph) (before missing : GlyphIndex) (delta : Int)

theorem entry?_gapped (index : GlyphIndex) :
    (gapped glyph before missing delta).table.entry? index =
      if index = missing then none else some { glyph } := by
  by_cases h : index = missing
  · simp [gapped, ofTable, Table.entry?, h]
  · simp [gapped, ofTable, Table.entry?, Ne.symm h, h]

theorem failures_gapped (index : GlyphIndex) (e : GlyphEntry)
    (he : (gapped glyph before missing delta).table.entry? index = some e) : e.failures = 0 := by
  rw [entry?_gapped] at he
  split at he
  · cases he
  · obtain rfl := Option.some.inj he
    rfl

theorem rasterize_gapped (index : GlyphIndex) :
    (Face.rasterize (gapped glyph before missing delta) index).1 =
      if index = missing then .error (.glyphLoad index) else .ok glyph := by
  refine (rasterize_of_failures_eq_zero (failures_gapped glyph before missing delta index)).trans ?_
  rw [entry?_gapped]
  by_cases h : index = missing
  · simp only [h, if_true]
  · simp only [h, if_false]

@[simp] theorem hasKerning_gapped :
    Face.hasKerning (gapped glyph before missing delta) = true := rfl

theorem kerning_gapped (left right : GlyphIndex) :
    (Face.kerning (gapped glyph before missing delta) left right).1 =
      if (left, right) = (before, missing) then delta else 0 := by
  change (gapped glyph before missing delta).table.kerning.getD (left, right) 0 = _
  by_cases h : (left, right) = (before, missing)
  · simp [gapped, ofTable, h]
  · have hne : ¬ (before, missing) = (left, right) := fun he => h he.symm
    simp only [gapped, ofTable, Std.HashMap.ofList_singleton, Std.HashMap.getD_insert, beq_iff_eq,
      hne, h, if_false, Std.HashMap.getD_empty]

theorem steady_gapped : Face.Steady (gapped glyph before missing delta) :=
  steady (failures_gapped glyph before missing delta)

end Gapped

end TableFace

end BitmapText
