import BitmapText.Proofs.Font.Shape
import BitmapText.Proofs.Shaping.Ink
import BitmapText.Proofs.Shaping.Placing

/-!
# No row is cut off

A font takes its measures once, at a time when some glyphs have been rendered and others have not,
and its strings are made later, or were kept from before. If the glyphs of its face always look the
same, and are measured as they are rendered, then none of this matters: each string has room for
every row of every printable ASCII glyph in it, and a quarter of the size above. How the face kerns
does not matter either.

## Main definitions

* `Font.Inked`: what a font keeps was rendered from glyphs as its face renders them.

## Main statements

* `Font.Inked.string`: a text is answered with a string that was rendered like that.
* `Font.Reached.printable_rows_land`: so the rows of its printable glyphs land on it.
-/

namespace BitmapText

namespace Font

variable {σ : Type} [Face σ]

/-- The glyphs of the font, its measures and its strings are made from the glyphs of the face
`first`. -/
structure Inked (first : σ) (font : Font σ) : Prop
    extends Keeps (fun key metrics s => Shaping.Drawn first key.text metrics s) font where
  bench : font.bench.Follows first
  measured : ∀ known, font.metrics = some known →
    known = Shaping.metricsOfFace first font.key.size

namespace Inked

variable {first : σ} {font : Font σ}

theorem opened (key : FontKey) (face : σ) (limits : StringCache.Limits) :
    Inked face (opened key face limits) where
  toKeeps := .opened _ key face limits
  bench := .opened face #[]
  measured _ hk := nomatch hk

/-- What a request for a text leaves to shape with, and the measures that it leaves. -/
theorem world (hs : Face.SteadyLooks first) (hp : Face.ProbesByRendering first)
    (h : Inked first font) (text : String) (maxWidth : Option Int) :
    let request := font.strings.getOrRender ⟨text, maxWidth⟩
      (Shaping.render font.key.size text maxWidth) (font.bench, font.metrics)
    request.world.1.Follows first ∧
      ∀ known, request.world.2 = some known →
        known = Shaping.metricsOfFace first font.key.size := by
  intro request
  cases hc : font.strings.peek? ⟨text, maxWidth⟩ with
  | some s =>
    obtain ⟨-, hworld⟩ := StringCache.getOrRender_of_peek? hc
      (Shaping.render font.key.size text maxWidth) (font.bench, font.metrics)
    rw [hworld]
    exact ⟨h.bench, h.measured⟩
  | none =>
    obtain ⟨-, hworld⟩ := StringCache.getOrRender_of_peek?_eq_none hc
      (Shaping.render font.key.size text maxWidth) (font.bench, font.metrics)
    obtain ⟨hbench, hmetrics, -⟩ := h.bench.render_drawn hs hp h.measured text maxWidth
    rw [hworld]
    refine ⟨hbench, fun known hk => ?_⟩
    exact Option.some.inj (hk.symm.trans hmetrics)

/-- A text is answered with a string that is made of the glyphs of the face under its measures. -/
theorem string (hs : Face.SteadyLooks first) (hp : Face.ProbesByRendering first)
    (h : Inked first font) (text : String) (maxWidth : Option Int) :
    Inked first (font.string text maxWidth).font ∧
      ∀ s, (font.string text maxWidth).answer = .ok s →
        (font.string text maxWidth).font.metrics =
            some (Shaping.metricsOfFace first font.key.size) ∧
          Shaping.Drawn first text (Shaping.metricsOfFace first font.key.size) s := by
  obtain ⟨-, hrendered, hdrawn⟩ := h.bench.render_drawn hs hp h.measured text maxWidth
  obtain ⟨hkeeps, hanswer⟩ := h.toKeeps.string text maxWidth fun metrics s hmetrics hs => by
    obtain rfl : metrics = _ := Option.some.inj (hmetrics.symm.trans hrendered)
    exact hdrawn s hs
  obtain ⟨hbench, hmeasured⟩ := h.world hs hp text maxWidth
  refine ⟨⟨hkeeps, ⟨hbench.face, hbench.glyphs⟩, hmeasured⟩, fun s hs => ?_⟩
  obtain ⟨metrics, hmetrics, hstring⟩ := hanswer s hs
  obtain rfl : metrics = _ := hmeasured metrics hmetrics
  exact ⟨hmetrics, hstring⟩

theorem fit (hs : Face.SteadyLooks first) (h : Inked first font) (text : String)
    (maxWidth : Option Int) : Inked first (font.fit text maxWidth).font where
  toKeeps := h.toKeeps.fit text maxWidth
  bench := by
    unfold Font.fit
    split
    · exact h.bench
    · have hfitted := h.bench.consulted hs.rendering
        (Shaping.fit_consults maxWidth font.bench (Shaping.glyphIndices font.face text))
      exact ⟨hfitted.face, hfitted.glyphs⟩
  measured := by simpa using h.measured

theorem measures (hs : Face.SteadyLooks first) (hp : Face.ProbesByRendering first)
    (h : Inked first font) : Inked first font.measures.font := by
  obtain ⟨hbench, huses⟩ := h.bench.keptMetrics hs font.metrics font.key.size
  refine ⟨h.toKeeps.measures, ⟨hbench.face, hbench.glyphs⟩, fun known hk => ?_⟩
  obtain rfl : font.measures.answer = known := Option.some.inj hk
  cases hm : font.metrics with
  | none => exact huses.eq_of_taken hp hm
  | some known => exact (huses.eq_of_kept known hm).trans (h.measured known hm)

/-- Every question leaves a font inked. -/
theorem reply (hs : Face.SteadyLooks first) (hp : Face.ProbesByRendering first)
    (h : Inked first font) (q : Query) : Inked first (font.reply q).font := by
  cases q with
  | measure text => exact (h.string hs hp text none).1
  | fit text maxWidth => exact h.fit hs text maxWidth
  | boundedMeasure text maxWidth => exact h.fit hs text (some maxWidth)
  | maxHeight => exact h.measures hs hp
  | baseline => exact h.measures hs hp
  | render text x y right bottom =>
    rw [Font.reply, font_map, Font.render]
    split
    · exact h
    · exact (h.string hs hp text _).1

end Inked

namespace Reached

variable {face : σ} {key : FontKey} {limits : StringCache.Limits} {font : Font σ}

theorem inked (hs : Face.SteadyLooks face) (hp : Face.ProbesByRendering face)
    (h : Reached (opened key face limits) font) : Inked face font := by
  induction h with
  | start => exact .opened key face limits
  | asked _ q ih => exact ih.reply hs hp q

/-- Of a text that a font answers with a string, whatever the font has kept and however its face
kerns. The string is as high as the font says and has the rendered glyphs of the text on it, as many
as it counts. Each of them that stands for a printable ASCII character begins a quarter of the size
below the top edge, or lower, and ends above the bottom edge. So wherever it is placed on a surface
of this height, all its rows that are there are written, at the rows that the baseline gives them,
as far as the surface is wide. -/
theorem printable_rows_land (hs : Face.SteadyLooks face) (hp : Face.ProbesByRendering face)
    (h : Reached (opened key face limits) font) (text : String) (maxWidth : Option Int)
    (s : RenderedString) (hanswer : (font.string text maxWidth).answer = .ok s) :
    ∃ (metrics : FontMetrics) (placed : List (RasterGlyph × Int)),
      (font.string text maxWidth).font.metrics = some metrics ∧
        (s.surface.height : Int) = metrics.maxHeight ∧
        s.surface = placed.foldl (Shaping.placeAlpha8 metrics.baseline)
          (.blank s.surface.width s.surface.height) ∧
        placed.map Prod.fst =
          Shaping.entriesOf face ((Shaping.glyphIndices face text).take s.glyphCount) ∧
        ∀ codePoint ∈ (CodePoints.ofText text).take s.glyphCount,
          0x21 ≤ codePoint → codePoint ≤ 0x7e →
          ∀ entry, (Face.rasterize face (Face.charIndex face codePoint)).1 = .ok entry →
            (entry.height : Int) ≤ Coord.highest →
              (∃ pen, (entry, pen) ∈ placed) ∧
                ((key.size.toNat / 4 : Nat) : Int) ≤ metrics.baseline - entry.top ∧
                metrics.baseline - entry.top + entry.height ≤ s.surface.height ∧
                ∀ (surface : Bitmap) (pen : Int) (x y : Nat),
                  surface.height = s.surface.height →
                  (x : Int) < Coord.ofSize entry.width → entry.HasRow y →
                  0 ≤ pen + entry.left + x →
                  pen + entry.left + x < Coord.ofSize surface.width →
                    (Shaping.place surface entry pen metrics.baseline).pixel?
                        (pen + entry.left + x).toNat (metrics.baseline - entry.top + y).toNat =
                      entry.coverage? x y := by
  obtain ⟨-, hstring⟩ := (h.inked hs hp).string hs hp text maxWidth
  obtain ⟨hmetrics, hheight, placed, hplaced, hsurface⟩ := hstring s hanswer
  have hkey : font.key = key := h.key_eq
  rw [hkey] at hmetrics hheight hsurface
  refine ⟨_, placed, hmetrics, hheight, hsurface, hplaced, ?_⟩
  intro codePoint hmem hlow hhigh entry he hcoord
  obtain ⟨htop, hbottom⟩ := Shaping.rows_within_height he
    (Shaping.mem_measuredCodePoints.2 ⟨hlow, hhigh⟩) hcoord key.size
  refine ⟨?_, htop, by omega, ?_⟩
  · have hentry : entry ∈
        Shaping.entriesOf face ((Shaping.glyphIndices face text).take s.glyphCount) := by
      rw [Shaping.entriesOf, List.mem_filterMap, Shaping.glyphIndices, ← List.map_take]
      exact ⟨_, List.mem_map_of_mem hmem, by rw [he]; rfl⟩
    rw [← hplaced, List.mem_map] at hentry
    obtain ⟨⟨_, pen⟩, hpen, rfl⟩ := hentry
    exact ⟨pen, hpen⟩
  · intro surface pen x y hsize hx hrow hleft hright
    have hy : y < entry.height := hrow.1
    apply Shaping.pixel?_place_of_row hcoord hx hrow hleft hright
    · omega
    · omega

/-- The glyphs of a text are two rows high and stand on the baseline. They were rendered for a fit
before the measures were taken. -/
theorem printable_rows_land_after_fit :
    let square : RasterGlyph :=
      { width := 2, height := 2, pitch := 2, left := 0, top := 2, advance := 3, format := .alpha8,
        data := #[1, 2, 3, 4] }
    let start := opened ⟨⟨"a.ttf"⟩, 16, 96⟩ (TableFace.uniform square) (.ofNat 1 1)
    let font := (start.fit "ab" none).font
    ∃ s, (font.string "ab" none).answer = .ok s ∧
      (font.string "ab" none).font.metrics = some ⟨6, 6⟩ ∧ s.surface.height = 6 ∧
      (Shaping.place s.surface square 3 6).pixel? 4 5 = some 4 := by
  intro square start font
  have hs := TableFace.steady_uniform square
  have hp := TableFace.probesByRendering_uniform square
  have hfont : Reached start font := Reached.start.asked (.fit "ab" none)
  obtain ⟨metrics, hanswer, huses, hafter, -⟩ := (hfont.faithful hs).string hs "ab" none
  have hnone : font.metrics = none := metrics_fit start "ab" none
  have hkey : font.key.size = 16 := congrArg FontKey.size hfont.key_eq
  have hmetrics : metrics = ⟨6, 6⟩ := by
    rw [huses.eq_of_taken hp hnone, hkey, Shaping.metricsOfFace_uniform]
    decide +kernel
  subst hmetrics
  have hcount : Shaping.textFit (TableFace.uniform square) "ab" none = ⟨2, 6⟩ :=
    (Shaping.textFit_uniform square "ab").trans (by decide +kernel)
  let s := Shaping.stringOf (TableFace.uniform square) "ab" none ⟨6, 6⟩
  have hstring : (font.string "ab" none).answer = .ok s := hanswer
  obtain ⟨metrics, placed, hknown, hheight, -, -, hrows⟩ :=
    hfont.printable_rows_land hs.looks hp "ab" none s hstring
  obtain rfl : metrics = ⟨6, 6⟩ := Option.some.inj (hknown.symm.trans hafter)
  have hmem : 97 ∈ (CodePoints.ofText "ab").take s.glyphCount := by
    change 97 ∈ (CodePoints.ofText "ab").take
      (Shaping.textFit (TableFace.uniform square) "ab" none).glyphs
    rw [hcount]
    decide +kernel
  have hwidth : s.surface.width = 6 := by
    rw [Shaping.width_stringOf, hcount]
    rfl
  obtain ⟨-, -, -, hpixels⟩ := hrows 97 hmem (by decide) (by decide) square
    (TableFace.rasterize_uniform square _) (by decide)
  have hpixel := hpixels s.surface 3 1 1 rfl (by decide) (by decide) (by decide)
    (by rw [hwidth]; decide)
  refine ⟨s, hstring, hafter, ?_, hpixel⟩
  change (s.surface.height : Int) = 6 at hheight
  omega

end Reached

end Font

end BitmapText
