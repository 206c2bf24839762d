import BitmapText.Proofs.Shaping.Pen

/-!
# The strings of a steady face

What a steady face makes of a text, and which measures it has, without a bench. Measures are taken
from cached glyphs where there are any and from the face elsewhere; for a face that measures glyphs
by rendering them, that makes no difference.

## Main definitions

* `Shaping.metricsOfFace`: the measures of a face.
* `Shaping.stringOf`: the composited form of a text.
* `Shaping.Uses`: the measures that a font uses.

## Main statements

* `Bench.Follows.render`: rendering gives the composited form of the text, or fails for want of
  height.
-/

namespace BitmapText

variable {σ : Type} [Face σ]

namespace Shaping

def boundsOf (face : σ) (bounds : Option Extents) : List Nat → Option Extents
  | [] => bounds
  | codePoint :: rest =>
    match (Face.rasterize face (Face.charIndex face codePoint)).1 with
    | .error _ => boundsOf face bounds rest
    | .ok entry => boundsOf face (some (widen bounds entry.extents)) rest

/-- The measures of a face. -/
def metricsOfFace (face : σ) (size : UInt32) : FontMetrics :=
  metricsOf (boundsOf face none measuredCodePoints) size

/-- A font of the face `first` uses `metrics` when it has kept `kept`: what it has kept, or else
measures taken now, which are those of `first` if that face measures glyphs by rendering them. -/
structure Uses (first : σ) (size : UInt32) (kept : Option FontMetrics) (metrics : FontMetrics) :
    Prop where
  eq_of_kept : ∀ known, kept = some known → metrics = known
  eq_of_taken : Face.ProbesByRendering first → kept = none → metrics = metricsOfFace first size

/-- How much of a text fits into a width. -/
def textFit (face : σ) (text : String) (budget : Option Int) : Fit :=
  fitOf face budget (glyphIndices face text)

/-- The composited form of a text within a width, under given measures. -/
def stringOf (face : σ) (text : String) (budget : Option Int) (metrics : FontMetrics) :
    RenderedString where
  surface := surfaceOf face ((glyphIndices face text).take (textFit face text budget).glyphs)
    (textFit face text budget).width metrics
  glyphCount := (textFit face text budget).glyphs

/-- The composited form of a text, for a font that has some height. -/
def rendered (face : σ) (text : String) (budget : Option Int) (metrics : FontMetrics) :
    Except FontError RenderedString :=
  if metrics.maxHeight ≤ 0 then .error .metricsUnavailable
  else .ok (stringOf face text budget metrics)

@[simp] theorem width_stringOf (face : σ) (text : String) (budget : Option Int)
    (metrics : FontMetrics) :
    (stringOf face text budget metrics).surface.width = (textFit face text budget).width.toNat :=
  width_surfaceOf ..

theorem rendered_eq_ok_iff {face : σ} {text : String} {budget : Option Int}
    {metrics : FontMetrics} {s : RenderedString} :
    rendered face text budget metrics = .ok s ↔
      0 < metrics.maxHeight ∧ s = stringOf face text budget metrics := by
  unfold rendered
  split
  · next h => simp [Int.not_lt.2 h]
  · next h => simp [Int.not_le.1 h, eq_comm]

/-! ### Uniform faces -/

theorem moves_uniform (glyph : RasterGlyph) (previous : GlyphIndex) (glyphs : List GlyphIndex) :
    moves (TableFace.uniform glyph) previous glyphs =
      List.replicate glyphs.length (some glyph.advance) := by
  induction glyphs generalizing previous with
  | nil => rfl
  | cons first rest ih =>
    have hkern : pairKerning (TableFace.uniform glyph) previous first = 0 :=
      if_neg fun h => Bool.false_ne_true h.2.2
    simp only [moves, move?, TableFace.rasterize_uniform, hkern, Int.add_zero, ih,
      List.length_cons, List.replicate_succ]

theorem textFit_uniform (glyph : RasterGlyph) (text : String) :
    textFit (TableFace.uniform glyph) text none =
      ⟨(CodePoints.ofText text).length,
        Coord.wrap ((CodePoints.ofText text).length * glyph.advance)⟩ := by
  rw [textFit, fitOf, moves_uniform, Fit.ofMoves_none ⟨0, 0⟩ Coord.inRange_zero, glyphIndices,
    List.length_map, List.length_replicate, List.map_replicate, Option.getD_some,
    List.sum_replicate_int, Coord.add]
  simp

theorem metricsOfFace_uniform (glyph : RasterGlyph) (size : UInt32) :
    metricsOfFace (TableFace.uniform glyph) size = metricsOf (some glyph.extents) size := by
  have hbounds (codePoints : List Nat) :
      boundsOf (TableFace.uniform glyph) (some glyph.extents) codePoints =
        some glyph.extents := by
    induction codePoints with
    | nil => rfl
    | cons codePoint rest ih => simpa [boundsOf, widen, Extents.union] using ih
  have hcons : measuredCodePoints = 0x21 :: List.range' 0x22 93 := rfl
  rw [metricsOfFace, hcons, boundsOf, TableFace.rasterize_uniform]
  exact congrArg (metricsOf · size) (hbounds _)

end Shaping

namespace Bench.Follows

variable {first : σ} {bench : Bench σ}

theorem glyphIndices (hs : Face.SteadyLooks first) (h : bench.Follows first) (text : String) :
    Shaping.glyphIndices bench.face text = Shaping.glyphIndices first text :=
  List.map_congr_left fun codePoint _ => hs.charIndex bench.face h.face codePoint

/-- The bounds are those of the face, whichever glyphs come from the cache. -/
theorem boundsFrom (hs : Face.SteadyLooks first) (hp : Face.ProbesByRendering first) {face : σ}
    {glyphs : GlyphCache} (h : Bench.Follows first { face, glyphs }) (bounds : Option Extents)
    (codePoints : List Nat) :
    (Shaping.boundsFrom glyphs face bounds codePoints).1 =
      Shaping.boundsOf first bounds codePoints := by
  induction codePoints generalizing face bounds with
  | nil => rfl
  | cons codePoint rest ih =>
    have hl : Face.Later first face := h.face
    have hindex : Face.charIndex face codePoint = Face.charIndex first codePoint :=
      hs.charIndex face hl codePoint
    rw [Shaping.boundsFrom, Shaping.boundsOf, hindex]
    cases hc : glyphs.peek? (Face.charIndex first codePoint) with
    | some entry =>
      -- A cached glyph has the bounds that the face would give it.
      rw [h.glyphs _ entry hc]
      exact ih h _
    | none =>
      have hnext := hl.probe (Face.charIndex first codePoint)
      have hext := hp face hl (Face.charIndex first codePoint)
      rw [hs.rendering face hl] at hext
      cases hprobe : Face.probe face (Face.charIndex first codePoint) with
      | mk result face' =>
        rw [hprobe] at hext hnext
        dsimp only at hext
        cases hr : (Face.rasterize first (Face.charIndex first codePoint)).1 with
        | error e =>
          rw [hr] at hext
          subst hext
          exact ih ⟨hnext, h.glyphs⟩ _
        | ok entry =>
          rw [hr] at hext
          subst hext
          exact ih ⟨hnext, h.glyphs⟩ _

theorem measureFont (hs : Face.SteadyLooks first) (h : bench.Follows first) (size : UInt32) :
    (Shaping.measureFont bench size).2.Follows first ∧
      (Face.ProbesByRendering first →
        (Shaping.measureFont bench size).1 = Shaping.metricsOfFace first size) := by
  refine ⟨h.consulted hs.rendering (Shaping.measureFont_consults bench size), fun hp => ?_⟩
  have hb : Bench.Follows first { face := bench.face, glyphs := bench.glyphs } :=
    ⟨h.face, h.glyphs⟩
  exact congrArg (Shaping.metricsOf · size) (hb.boundsFrom hs hp none Shaping.measuredCodePoints)

/-- Kept measures stay as they are; when there are none they are taken now. -/
theorem keptMetrics (hs : Face.SteadyLooks first) (h : bench.Follows first)
    (kept : Option FontMetrics) (size : UInt32) :
    (Shaping.keptMetrics bench kept size).2.Follows first ∧
      Shaping.Uses first size kept (Shaping.keptMetrics bench kept size).1 := by
  cases kept with
  | some metrics => exact ⟨h, fun _ hm => Option.some.inj hm, fun _ hn => nomatch hn⟩
  | none =>
    obtain ⟨hmeasured, htaken⟩ := h.measureFont hs size
    exact ⟨hmeasured, fun _ hm => (nomatch hm), fun hp _ => htaken hp⟩

/-- A text is rendered to its composited form under the measures of the font, which are kept from
then on. -/
theorem render (hs : Face.Steady first) (h : bench.Follows first) (kept : Option FontMetrics)
    (size : UInt32) (text : String) (budget : Option Int) :
    ∃ metrics bench',
      Shaping.render size text budget (bench, kept) =
          (Shaping.rendered first text budget metrics, bench', some metrics) ∧
        bench'.Follows first ∧ Shaping.Uses first size kept metrics := by
  let glyphs := Shaping.glyphIndices first text
  let fitting := Shaping.fit budget bench glyphs
  let measuring := Shaping.keptMetrics fitting.2 kept size
  obtain ⟨hfit, hfitted⟩ := h.fit hs.toSteadyGlyphs budget glyphs
  obtain ⟨hmeasured, huses⟩ := hfitted.keptMetrics hs.looks kept size
  obtain ⟨hsurface, -⟩ := hmeasured.composite hs.toSteadyGlyphs (glyphs.take fitting.1.glyphs)
    fitting.1.width measuring.1
  have hlast : (Shaping.render size text budget (bench, kept)).2.1.Follows first :=
    h.consulted hs.rasterize (Shaping.render_consults size text budget bench kept)
  refine ⟨measuring.1, _, ?_, hlast, huses⟩
  rw [Shaping.render_eq, h.glyphIndices hs.looks, Shaping.rendered, Shaping.stringOf,
    Shaping.textFit, ← hfit]
  by_cases hheight : measuring.1.maxHeight ≤ 0
  · simp only [measuring, fitting, glyphs, if_pos hheight]
  · simp only [measuring, fitting, glyphs, if_neg hheight, hsurface]

end Bench.Follows

end BitmapText
