import BitmapText.Proofs.Shaping.Inquiries
import Mathlib.Algebra.Ring.Int.Defs

/-!
# The way of the pen

For a steady face, how far each glyph of a list moves the pen and where it is drawn can be written
down without a bench: neither depends on what the bench has rendered before. A move is a sum of
integers; the pen itself is a coordinate, and a move takes it to the coordinate that the sum comes
back to.

## Main definitions

* `Shaping.moves`, `Fit.ofMoves`: the moves of the pen, and how many of them fit.
* `Shaping.placements`: the rendered glyphs with the pen positions they are drawn at.
* `Bench.Follows`: a bench over a face, with rendered glyphs of that face.

## Main statements

* `Bench.Follows.after`, `Bench.Follows.consulted`: a bench follows its first face through one
  inquiry, and through any number of them.
* `Bench.Follows.fit`: fitting counts the moves that fit.
* `Bench.Follows.composite`: compositing puts the glyphs where their placements say.
-/

namespace BitmapText

variable {σ : Type} [Face σ]

namespace Shaping

/-! ## Moves -/

/-- The kerning between two glyphs that follow each other. Missing glyphs are not kerned. -/
def pairKerning (face : σ) (left right : GlyphIndex) : Int :=
  if left ≠ 0 ∧ right ≠ 0 ∧ Face.hasKerning face then (Face.kerning face left right).1 else 0

/-- How far a glyph moves the pen after another one; `none` when it cannot be rendered. -/
def move? (face : σ) (previous glyph : GlyphIndex) : Option Int :=
  match (Face.rasterize face glyph).1 with
  | .error _ => none
  | .ok entry => some (entry.advance + pairKerning face previous glyph)

/-- The moves of glyphs in order, after the glyph `previous`. -/
def moves (face : σ) (previous : GlyphIndex) : List GlyphIndex → List (Option Int)
  | [] => []
  | glyph :: rest => move? face previous glyph :: moves face glyph rest

end Shaping

/-- Add moves to a fit up to the first one that passes the budget. A glyph without a move counts
and takes no room. -/
def Fit.ofMoves (budget : Option Int) (sofar : Fit) : List (Option Int) → Fit
  | [] => sofar
  | none :: rest => ofMoves budget ⟨sofar.glyphs + 1, sofar.width⟩ rest
  | some move :: rest =>
    if budget.any (· < Coord.add sofar.width move) then sofar
    else ofMoves budget ⟨sofar.glyphs + 1, Coord.add sofar.width move⟩ rest

/-- Without a budget all moves fit, and a glyph without a move adds nothing. -/
theorem Fit.ofMoves_none (sofar : Fit) (h : Coord.InRange sofar.width)
    (moves : List (Option Int)) :
    Fit.ofMoves none sofar moves =
      ⟨sofar.glyphs + moves.length, Coord.add sofar.width (moves.map (·.getD 0)).sum⟩ := by
  induction moves generalizing sofar with
  | nil => simp [Fit.ofMoves, Coord.add_zero h]
  | cons first rest ih =>
    have hlength : sofar.glyphs + (first :: rest).length = sofar.glyphs + 1 + rest.length := by
      rw [List.length_cons]
      omega
    rw [List.map_cons, List.sum_cons, hlength]
    cases first with
    | none =>
      rw [Fit.ofMoves, ih ⟨sofar.glyphs + 1, sofar.width⟩ h, Option.getD_none, Int.zero_add]
    | some move =>
      rw [Fit.ofMoves, Option.any_none, if_neg Bool.false_ne_true,
        ih ⟨sofar.glyphs + 1, Coord.add sofar.width move⟩ (Coord.inRange_add ..), Option.getD_some,
        Coord.add_assoc, Coord.add_add_right]

namespace Shaping

def fitOf (face : σ) (budget : Option Int) (glyphs : List GlyphIndex) : Fit :=
  Fit.ofMoves budget ⟨0, 0⟩ (moves face 0 glyphs)

/-! ## Placements -/

/-- The glyphs that can be rendered, each with the pen position it is drawn at. -/
def placements (face : σ) (previous : GlyphIndex) (pen : Int) :
    List GlyphIndex → List (RasterGlyph × Int)
  | [] => []
  | glyph :: rest =>
    let pen := Coord.add pen (pairKerning face previous glyph)
    match (Face.rasterize face glyph).1 with
    | .error _ => placements face glyph pen rest
    | .ok entry => (entry, pen) :: placements face glyph (Coord.add pen entry.advance) rest

/-- Put a rendered glyph on a surface, if its layout is one that is composited. -/
def placeAlpha8 (baseline : Int) (surface : Bitmap) (placed : RasterGlyph × Int) : Bitmap :=
  if placed.1.format = .alpha8 then place surface placed.1 placed.2 baseline else surface

/-- The glyphs on a surface of the given width and of the font's height. -/
def surfaceOf (face : σ) (glyphs : List GlyphIndex) (width : Int) (metrics : FontMetrics) :
    Bitmap :=
  (placements face 0 0 glyphs).foldl (placeAlpha8 metrics.baseline)
    (.blank width.toNat metrics.maxHeight.toNat)

@[simp] theorem width_placeAlpha8 (baseline : Int) (surface : Bitmap)
    (placed : RasterGlyph × Int) : (placeAlpha8 baseline surface placed).width = surface.width := by
  unfold placeAlpha8
  split
  · exact width_place ..
  · rfl

theorem width_foldl_placeAlpha8 (baseline : Int) (surface : Bitmap)
    (placed : List (RasterGlyph × Int)) :
    (placed.foldl (placeAlpha8 baseline) surface).width = surface.width := by
  induction placed generalizing surface with
  | nil => rfl
  | cons first rest ih => exact (ih _).trans (width_placeAlpha8 ..)

/-- A surface is as wide as it was asked to be, and never narrower than nothing. -/
@[simp] theorem width_surfaceOf (face : σ) (glyphs : List GlyphIndex) (width : Int)
    (metrics : FontMetrics) : (surfaceOf face glyphs width metrics).width = width.toNat :=
  width_foldl_placeAlpha8 ..

end Shaping

/-! ## Benches -/

namespace Bench

/-- The bench is over a face that `first` turned into, and what it has rendered is what `first`
renders. -/
structure Follows (first : σ) (bench : Bench σ) : Prop where
  face : Face.Later first bench.face
  glyphs : ∀ glyph entry, bench.glyphs.peek? glyph = some entry →
    (Face.rasterize first glyph).1 = .ok entry

namespace Follows

variable {first : σ} {bench : Bench σ}

theorem opened (face : σ) (log : Array Log.Record) :
    Bench.Follows face { face, glyphs := .empty, log } where
  face := .first
  glyphs := by simp [GlyphCache.peek?, GlyphCache.empty]

theorem warn (h : bench.Follows first) (e : FontError) : (bench.warn e).Follows first :=
  ⟨h.face, h.glyphs⟩

/-- Whatever the face is asked, what it renders in answer is what `first` renders. -/
theorem after (hs : Face.SteadyRendering first) (h : bench.Follows first) (inquiry : Inquiry) :
    (bench.after inquiry).Follows first where
  face := later_after h.face inquiry
  glyphs glyph entry hp := by
    rcases peek?_after_cases hp with hold | hnew
    · exact h.glyphs glyph entry hold
    · rw [← hs bench.face h.face glyph, hnew]

/-- A bench follows `first` through everything that it is asked for. -/
theorem consulted (hs : Face.SteadyRendering first) (h : bench.Follows first)
    {forms : List GlyphIndex} {ranges : Nat} {last : Bench σ}
    (hc : bench.Consults forms ranges last) : last.Follows first :=
  hc.keeps (fun _ inquiry hb => hb.after hs inquiry) h

/-- A glyph is rendered as at first, whether it was rendered before or not. -/
theorem rasterize (hs : Face.SteadyRendering first) (h : bench.Follows first)
    (glyph : GlyphIndex) :
    (bench.rasterize glyph).1 = (Face.rasterize first glyph).1 ∧
      (bench.rasterize glyph).2.Follows first := by
  refine ⟨?_, h.after hs (.form glyph)⟩
  have hend := bench.rasterization glyph
  generalize (bench.rasterize glyph).1 = result, (bench.rasterize glyph).2 = next at hend
  rw [← hs bench.face h.face glyph]
  cases hend with
  | cached entry hc => rw [hs bench.face h.face glyph, h.glyphs glyph entry hc]
  | rendered entry face hc hr => rw [hr]
  | failed e face hc hr => rw [hr]

theorem kerning (hs : Face.SteadyGlyphs first) (h : bench.Follows first)
    (left right : GlyphIndex) :
    (bench.kerning left right).1 = Shaping.pairKerning first left right ∧
      (bench.kerning left right).2.Follows first := by
  refine ⟨?_, h.after hs.rasterize (.kerning left right)⟩
  rw [Bench.kerning, Shaping.pairKerning, hs.hasKerning bench.face h.face]
  split
  · exact hs.kerning bench.face h.face left right
  · rfl

theorem fitFrom (hs : Face.SteadyGlyphs first) (h : bench.Follows first) (budget : Option Int)
    (previous : GlyphIndex) (sofar : Fit) (glyphs : List GlyphIndex) :
    (Shaping.fitFrom budget bench previous sofar glyphs).1 =
        Fit.ofMoves budget sofar (Shaping.moves first previous glyphs) ∧
      (Shaping.fitFrom budget bench previous sofar glyphs).2.Follows first := by
  -- After each glyph the bench follows `first` again, so it may be another one in each step.
  induction glyphs generalizing bench previous sofar with
  | nil => exact ⟨rfl, h⟩
  | cons glyph rest ih =>
    obtain ⟨hfirst, hr⟩ := h.rasterize hs.rasterize glyph
    rw [Shaping.fitFrom, Shaping.moves, Shaping.move?, ← hfirst]
    cases hb : bench.rasterize glyph with
    | mk result bench' =>
      rw [hb] at hr
      cases result with
      | error e => exact ih (hr.warn e) glyph _
      | ok entry =>
        obtain ⟨hdelta, hk⟩ := hr.kerning hs previous glyph
        simp only [Fit.ofMoves, ← hdelta, Coord.add_add_right]
        split
        · exact ⟨rfl, hk⟩
        · exact ih hk glyph _

/-- Fitting counts the moves that fit, whatever the bench has rendered before. -/
theorem fit (hs : Face.SteadyGlyphs first) (h : bench.Follows first) (budget : Option Int)
    (glyphs : List GlyphIndex) :
    (Shaping.fit budget bench glyphs).1 = Shaping.fitOf first budget glyphs ∧
      (Shaping.fit budget bench glyphs).2.Follows first :=
  h.fitFrom hs budget 0 ⟨0, 0⟩ glyphs

theorem compositeFrom (hs : Face.SteadyGlyphs first) (h : bench.Follows first) (baseline : Int)
    (previous : GlyphIndex) (pen : Int) (surface : Bitmap) (glyphs : List GlyphIndex) :
    (Shaping.compositeFrom baseline bench previous pen surface glyphs).1 =
        (Shaping.placements first previous pen glyphs).foldl (Shaping.placeAlpha8 baseline)
          surface ∧
      (Shaping.compositeFrom baseline bench previous pen surface glyphs).2.Follows first := by
  induction glyphs generalizing bench previous pen surface with
  | nil => exact ⟨rfl, h⟩
  | cons glyph rest ih =>
    obtain ⟨hdelta, hk⟩ := h.kerning hs previous glyph
    rw [Shaping.compositeFrom, Shaping.placements, ← hdelta]
    cases hkern : bench.kerning previous glyph with
    | mk delta bench₁ =>
      rw [hkern] at hk
      obtain ⟨hfirst, hr⟩ := hk.rasterize hs.rasterize glyph
      simp only [← hfirst]
      cases hb : bench₁.rasterize glyph with
      | mk result bench₂ =>
        rw [hb] at hr
        cases result with
        | error e => exact ih (hr.warn e) glyph _ _
        | ok entry =>
          simp only [List.foldl_cons, Shaping.placeAlpha8]
          split
          · exact ih hr glyph _ _
          · exact ih (hr.warn _) glyph _ _

/-- Compositing puts every glyph where its placement says, whatever the bench has rendered
before. -/
theorem composite (hs : Face.SteadyGlyphs first) (h : bench.Follows first)
    (glyphs : List GlyphIndex) (width : Int) (metrics : FontMetrics) :
    (Shaping.composite bench glyphs width metrics).1 =
        Shaping.surfaceOf first glyphs width metrics ∧
      (Shaping.composite bench glyphs width metrics).2.Follows first :=
  h.compositeFrom hs metrics.baseline 0 0 _ glyphs

end Follows

end Bench

end BitmapText
