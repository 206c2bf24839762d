import BitmapText.Proofs.Shaping.Pen

/-!
# How far the pen runs

A fit and a composition walk the same glyphs, each with a pen of its own. The two pens agree as long
as every glyph can be rendered. A glyph that cannot be rendered leaves the pen of a fit where it is;
a composition has moved its pen by the kerning before the glyph when it finds out. That kerning is
stray: it stays in the pen, and no fit has counted it.

## Main definitions

* `Shaping.penAfter`: where a composition leaves its pen.
* `Shaping.strayKerning`: the kerning before glyphs that cannot be rendered.

## Main statements

* `Bench.Follows.compositeFrom_append`: a composition goes on where `penAfter` says.
* `Bench.Follows.composite_append_eq`: which is the measured width and the stray kerning.
-/

namespace BitmapText

variable {σ : Type} [Face σ]

namespace Shaping

/-! ## The pen of a composition -/

/-- Where a composition leaves its pen, when it starts at `pen` after the glyph `previous`. -/
def penAfter (face : σ) (previous : GlyphIndex) (pen : Int) : List GlyphIndex → Int
  | [] => pen
  | glyph :: rest =>
    let pen := Coord.add pen (pairKerning face previous glyph)
    match (Face.rasterize face glyph).1 with
    | .error _ => penAfter face glyph pen rest
    | .ok entry => penAfter face glyph (Coord.add pen entry.advance) rest

/-- The kerning between the glyphs that cannot be rendered and those before them. -/
def strayKerning (face : σ) (previous : GlyphIndex) : List GlyphIndex → Int
  | [] => 0
  | glyph :: rest =>
    match (Face.rasterize face glyph).1 with
    | .error _ => Coord.add (pairKerning face previous glyph) (strayKerning face glyph rest)
    | .ok _ => strayKerning face glyph rest

theorem inRange_strayKerning (face : σ) (previous : GlyphIndex) (glyphs : List GlyphIndex) :
    Coord.InRange (strayKerning face previous glyphs) := by
  induction glyphs generalizing previous with
  | nil => exact Coord.inRange_zero
  | cons glyph rest ih =>
    rw [strayKerning]
    split
    · exact Coord.inRange_add ..
    · exact ih glyph

/-- A composition moves its pen by all the moves and by the stray kerning. -/
theorem penAfter_eq (face : σ) (previous : GlyphIndex) {pen : Int} (h : Coord.InRange pen)
    (glyphs : List GlyphIndex) :
    penAfter face previous pen glyphs =
      Coord.add (Coord.add pen ((moves face previous glyphs).map (·.getD 0)).sum)
        (strayKerning face previous glyphs) := by
  induction glyphs generalizing previous pen with
  | nil => simp [penAfter, moves, strayKerning, Coord.add_zero h]
  | cons glyph rest ih =>
    rw [penAfter, moves, move?, strayKerning, List.map_cons, List.sum_cons]
    generalize pairKerning face previous glyph = kerning
    cases hr : (Face.rasterize face glyph).1 with
    | error e =>
      -- The kerning stays in the pen, and it is stray.
      dsimp only
      rw [ih glyph (Coord.inRange_add ..), Option.getD_none, Int.zero_add]
      generalize ((moves face glyph rest).map (·.getD 0)).sum = moved
      rw [Coord.add_assoc pen, Coord.add_comm kerning, ← Coord.add_assoc pen, Coord.add_assoc]
    | ok entry =>
      dsimp only
      rw [ih glyph (Coord.inRange_add ..), Option.getD_some]
      simp only [Coord.add_add_left]
      congr 1
      omega

/-- A composition that starts on the left leaves its pen behind the measured width. -/
theorem penAfter_eq_width_add (face : σ) (glyphs : List GlyphIndex) :
    penAfter face 0 0 glyphs =
      Coord.add (fitOf face none glyphs).width (strayKerning face 0 glyphs) := by
  rw [penAfter_eq face 0 Coord.inRange_zero, fitOf, Fit.ofMoves_none ⟨0, 0⟩ Coord.inRange_zero]

/-- No kerning is stray where missing glyphs are not kerned with those before them. -/
theorem strayKerning_eq_zero (face : σ) (previous : GlyphIndex) (glyphs : List GlyphIndex)
    (hk : ∀ left glyph e, [left, glyph] <:+: previous :: glyphs →
      (Face.rasterize face glyph).1 = .error e → pairKerning face left glyph = 0) :
    strayKerning face previous glyphs = 0 := by
  induction glyphs generalizing previous with
  | nil => rfl
  | cons glyph rest ih =>
    have hrest : strayKerning face glyph rest = 0 :=
      ih glyph fun left other e hi => hk left other e (hi.trans (List.infix_cons List.infix_rfl))
    rw [strayKerning]
    cases hr : (Face.rasterize face glyph).1 with
    | error e =>
      have hfirst : [previous, glyph] <:+: previous :: glyph :: rest :=
        (List.prefix_append [previous, glyph] rest).isInfix
      simp only [hk previous glyph e hfirst hr, hrest, Coord.add_zero Coord.inRange_zero]
    | ok entry => exact hrest

end Shaping

/-! ## Compositions in parts -/

namespace Bench.Follows

variable {first : σ} {bench measuring : Bench σ}

/-- One glyph that can be rendered is put where the kerning before it has moved the pen. -/
theorem compositeFrom_cons_of_ok (hs : Face.SteadyGlyphs first) (h : bench.Follows first)
    (baseline : Int) (previous : GlyphIndex) (pen : Int) (surface : Bitmap) {glyph : GlyphIndex}
    {entry : RasterGlyph} (he : (Face.rasterize first glyph).1 = .ok entry)
    (rest : List GlyphIndex) :
    let start := Coord.add pen (Shaping.pairKerning first previous glyph)
    ∃ after : Bench σ, after.Follows first ∧
      Shaping.compositeFrom baseline bench previous pen surface (glyph :: rest) =
        Shaping.compositeFrom baseline after glyph (Coord.add start entry.advance)
          (Shaping.placeAlpha8 baseline surface (entry, start)) rest := by
  intro start
  obtain ⟨hdelta, hk⟩ := h.kerning hs previous glyph
  obtain ⟨hfirst, hr⟩ := hk.rasterize hs.rasterize glyph
  have hresult := hfirst.trans he
  rw [Shaping.compositeFrom]
  dsimp only
  rw [hdelta]
  cases hb : (bench.kerning previous glyph).2.rasterize glyph with
  | mk result rendered =>
    rw [hb] at hresult hr
    obtain rfl : result = .ok entry := hresult
    dsimp only [Shaping.placeAlpha8]
    split
    · exact ⟨rendered, hr, rfl⟩
    · exact ⟨_, hr.warn _, rfl⟩

/-- A composition of more glyphs goes on where the one of the first glyphs has left the pen. -/
theorem compositeFrom_append (hs : Face.SteadyGlyphs first) (h : bench.Follows first)
    (baseline : Int) (previous : GlyphIndex) (pen : Int) (surface : Bitmap)
    (front rest : List GlyphIndex) :
    let drawn := Shaping.compositeFrom baseline bench previous pen surface front
    Shaping.compositeFrom baseline bench previous pen surface (front ++ rest) =
      Shaping.compositeFrom baseline drawn.2 (front.getLastD previous)
        (Shaping.penAfter first previous pen front) drawn.1 rest := by
  -- The bench of the second part is the one that the first part leaves behind.
  induction front generalizing bench previous pen surface with
  | nil => rfl
  | cons glyph front ih =>
    obtain ⟨hdelta, hk⟩ := h.kerning hs previous glyph
    obtain ⟨hfirst, hr⟩ := hk.rasterize hs.rasterize glyph
    rw [List.cons_append, List.getLastD_cons, Shaping.compositeFrom, Shaping.compositeFrom,
      Shaping.penAfter, ← hdelta, ← hfirst]
    dsimp only
    cases hb : (bench.kerning previous glyph).2.rasterize glyph with
    | mk result rendered =>
      rw [hb] at hr
      cases result with
      | error e => exact ih (hr.warn e) glyph _ _
      | ok entry =>
        dsimp only
        split
        · exact ih hr glyph _ _
        · exact ih (hr.warn _) glyph _ _

/-- Behind some glyphs, the pen of a composition stands where a fit measures their end, and further
on by their stray kerning. There the composition goes on with whatever follows, and there, moved by
the kerning of the pair, it puts the next glyph if that can be rendered. So the two pens agree
exactly when the stray kerning is zero, as it is when no glyph that cannot be rendered is kerned
with the one before it. A surface of the measured width has no room for stray kerning. -/
theorem composite_append_eq (hs : Face.SteadyGlyphs first) (h : bench.Follows first)
    (hm : measuring.Follows first) (front rest : List GlyphIndex) (width : Int)
    (metrics : FontMetrics) :
    let measured := (Shaping.fit none measuring front).1.width
    let stray := Shaping.strayKerning first 0 front
    let pen := Coord.add measured stray
    let previous := front.getLastD 0
    let drawn := Shaping.composite bench front width metrics
    Shaping.composite bench (front ++ rest) width metrics =
        Shaping.compositeFrom metrics.baseline drawn.2 previous pen drawn.1 rest ∧
      (∀ glyph entry more, rest = glyph :: more → (Face.rasterize first glyph).1 = .ok entry →
        let start := Coord.add pen (Shaping.pairKerning first previous glyph)
        ∃ after : Bench σ, after.Follows first ∧
          Shaping.composite bench (front ++ rest) width metrics =
            Shaping.compositeFrom metrics.baseline after glyph (Coord.add start entry.advance)
              (Shaping.placeAlpha8 metrics.baseline drawn.1 (entry, start)) more) ∧
      (pen = measured ↔ stray = 0) ∧
      ((∀ left glyph e, [left, glyph] <:+: front → (Face.rasterize first glyph).1 = .error e →
        Shaping.pairKerning first left glyph = 0) → stray = 0) ∧
      ((Shaping.composite bench front measured metrics).1.width : Int) = max 0 measured := by
  intro measured stray pen previous drawn
  have hmeasured : measured = (Shaping.fitOf first none front).width :=
    congrArg Fit.width (hm.fit hs none front).1
  have hrange : Coord.InRange measured := by
    rw [hmeasured, Shaping.fitOf, Fit.ofMoves_none ⟨0, 0⟩ Coord.inRange_zero]
    exact Coord.inRange_add ..
  have hpen : Shaping.penAfter first 0 0 front = pen := by
    rw [Shaping.penAfter_eq_width_add, ← hmeasured]
  have happend : Shaping.composite bench (front ++ rest) width metrics =
      Shaping.compositeFrom metrics.baseline drawn.2 previous pen drawn.1 rest := by
    rw [← hpen]
    exact h.compositeFrom_append hs metrics.baseline 0 0 _ front rest
  have hdrawn : drawn.2.Follows first := (h.composite hs front width metrics).2
  have hagree : pen = measured ↔ stray = 0 :=
    Coord.add_eq_left_iff hrange (Shaping.inRange_strayKerning first 0 front)
  refine ⟨happend, ?_, hagree, fun hk => ?_, ?_⟩
  · rintro glyph entry more rfl he
    rw [happend]
    exact hdrawn.compositeFrom_cons_of_ok hs metrics.baseline previous pen drawn.1 he more
  · refine Shaping.strayKerning_eq_zero first 0 front fun left glyph e hi he => ?_
    rcases List.infix_cons_iff.1 hi with hfirst | hlater
    · -- Nothing stands before the first glyph, so it is not kerned.
      obtain rfl : left = 0 := (List.cons_prefix_cons.1 hfirst).1
      exact if_neg fun hk => hk.1 rfl
    · exact hk left glyph e hlater he
  · rw [(h.composite hs front measured metrics).1, Shaping.width_surfaceOf]
    omega

/-- Of three glyphs the second is missing and kerned by three pixels. The third is put three pixels
behind the place that was measured for it, which is past the end of a surface of the measured
width. -/
theorem composite_append_eq_kerned_gap :
    let dot : RasterGlyph :=
      { width := 1, height := 1, pitch := 1, left := 0, top := 1, advance := 3, format := .alpha8,
        data := #[255] }
    let face := TableFace.gapped dot 97 98 3
    let bench : Bench TableFace := { face, glyphs := .empty }
    let drawn := Shaping.composite bench [97, 98] 6 ⟨1, 1⟩
    (Shaping.fit none bench [97, 98]).1.width = 3 ∧
      (Shaping.fit none bench [97, 98, 99]).1.width = 6 ∧
      Shaping.strayKerning face 0 [97, 98] = 3 ∧
      ∃ after : Bench TableFace, after.Follows face ∧
        Shaping.composite bench [97, 98, 99] 6 ⟨1, 1⟩ =
          Shaping.compositeFrom 1 after 99 9 (Shaping.placeAlpha8 1 drawn.1 (dot, 6)) [] := by
  intro dot face bench drawn
  have hs : Face.SteadyGlyphs face := (TableFace.steady_gapped dot 97 98 3).toSteadyGlyphs
  have hb : bench.Follows face := .opened face #[]
  have hfit (glyphs : List GlyphIndex) :
      (Shaping.fit none bench glyphs).1 = Shaping.fitOf face none glyphs :=
    (hb.fit hs none glyphs).1
  have hkern (left right : GlyphIndex) : Shaping.pairKerning face left right =
      if left ≠ 0 ∧ right ≠ 0 then if (left, right) = (97, 98) then 3 else 0 else 0 := by
    rw [Shaping.pairKerning, TableFace.kerning_gapped]
    simp [face, TableFace.hasKerning_gapped]
  have hstray : Shaping.strayKerning face 0 [97, 98] = 3 := by
    simp [Shaping.strayKerning, face, TableFace.rasterize_gapped, hkern, Coord.add, Coord.wrap]
  have hmeasured : (Shaping.fit none bench [97, 98]).1.width = 3 := by
    rw [hfit, Shaping.fitOf, Fit.ofMoves_none ⟨0, 0⟩ Coord.inRange_zero]
    simp [Shaping.moves, Shaping.move?, face, TableFace.rasterize_gapped, hkern, dot, Coord.add,
      Coord.wrap]
  have hwhole : (Shaping.fit none bench [97, 98, 99]).1.width = 6 := by
    rw [hfit, Shaping.fitOf, Fit.ofMoves_none ⟨0, 0⟩ Coord.inRange_zero]
    simp [Shaping.moves, Shaping.move?, face, TableFace.rasterize_gapped, hkern, dot, Coord.add,
      Coord.wrap]
  obtain ⟨-, hnext, -⟩ := composite_append_eq hs hb hb [97, 98] [99] 6 ⟨1, 1⟩
  obtain ⟨after, hafter, hgoes⟩ := hnext 99 dot [] rfl (by simp [face, TableFace.rasterize_gapped])
  have hlast : Shaping.pairKerning face ([97, 98].getLastD 0) 99 = 0 := by simp [hkern]
  rw [hmeasured, hstray, hlast] at hgoes
  exact ⟨hmeasured, hwhole, hstray, after, hafter, hgoes⟩

end Bench.Follows

end BitmapText
