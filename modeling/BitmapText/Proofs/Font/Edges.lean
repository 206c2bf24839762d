import BitmapText.Proofs.Font.Failures
import BitmapText.Proofs.Font.Picture

/-!
# Edges of a drawing

A text is drawn left of a right edge and above a bottom edge, where these are given. The bottom edge
cuts the bitmap off when it is drawn. The right edge does not: the bitmap was composited for the
room that there is, perhaps long ago, and is no wider than that. Either way the clip rectangle ends
at the edges, or at the end of the coordinate range.

An edge at the text, or before it, leaves nothing to draw. There is one exception: at the end of the
coordinate range the bottom of a bitmap is no further down than its top, and an edge there is not
seen to cut anything off. Even then no pixel is touched.

## Main definitions

* `Font.DrawCall.Within`: a bitmap is drawn at its place and within the edges.

## Main statements

* `Font.Orderly.string_fits`: what is composited for the room that there is fits into it.
* `Font.Reached.render_within`: what is drawn stays within the edges.
* `Font.Reached.draws_nothing`: what is left to draw at an edge.
-/

namespace BitmapText

namespace Coord

theorem satAdd_eq_min {a : Int} (ha : InRange a) (n : Nat) :
    satAdd a n = min (a + n) highest := by
  simp only [InRange, satAdd, clamp, lowest, highest] at *
  omega

end Coord

namespace Font

/-! ## Edges -/

/-- A bitmap is drawn at `(x, y)`, clipped to its own rectangle and to the edges. -/
structure DrawCall.Within (call : DrawCall) (x y : Int) (right bottom : Option Int) : Prop where
  x_eq : call.x = x
  y_eq : call.y = y
  left_eq : call.clip.left = x
  top_eq : call.clip.top = y
  right_eq : call.clip.right = min (x + call.surface.width) Coord.highest
  bottom_eq : call.clip.bottom =
    let lower := min (y + call.surface.height) Coord.highest
    bottom.elim lower (min lower)
  right_le : ∀ r ∈ right, call.clip.right ≤ r
  bottom_le : ∀ l ∈ bottom, call.clip.bottom ≤ l
  le_bottom : y ≤ call.clip.bottom

/-- The pixels of a canvas that lie outside the edges keep their values. -/
theorem DrawCall.Within.pixel?_draw {call : DrawCall} {x y : Int} {right bottom : Option Int}
    (h : call.Within x y right bottom) (canvas : Bitmap) {px py : Nat}
    (hout : (px : Int) < x ∨ (py : Int) < y ∨ (∃ r ∈ right, r ≤ px) ∨ ∃ l ∈ bottom, l ≤ py) :
    (canvas.draw call.surface call.x call.y call.clip).pixel? px py = canvas.pixel? px py := by
  apply Bitmap.pixel?_draw_of_clipped
  rintro ⟨⟨hleft, hright⟩, htop, hbottom⟩
  rw [h.left_eq] at hleft
  rw [h.top_eq] at htop
  rcases hout with hx | hy | ⟨r, hr, hpx⟩ | ⟨l, hl, hpy⟩
  · omega
  · omega
  · have := h.right_le r hr
    omega
  · have := h.bottom_le l hl
    omega

/-- The rectangle of a string that is drawn down to `edge`. -/
theorem DrawCall.Within.of_edge (surface : Bitmap) {x y edge : Int} (hx : Coord.InRange x)
    {right bottom : Option Int} (hroom : ∀ r ∈ right, x + surface.width ≤ r)
    (hedge : edge = bottom.elim (min (y + surface.height) Coord.highest)
      (min (min (y + surface.height) Coord.highest)))
    (hle : y ≤ edge) :
    DrawCall.Within ⟨surface, x, y, ⟨x, y, Coord.satAdd x surface.width, edge⟩⟩ x y right bottom :=
  { x_eq := rfl
    y_eq := rfl
    left_eq := rfl
    top_eq := rfl
    right_eq := Coord.satAdd_eq_min hx surface.width
    bottom_eq := hedge
    right_le := by
      intro r hr
      have hlow : Coord.lowest ≤ r := by
        have := hx.1
        have := hroom r hr
        omega
      exact Coord.satAdd_le hlow (hroom r hr)
    bottom_le := by
      intro l hl
      obtain rfl := Option.mem_def.1 hl
      rw [hedge]
      exact Int.min_le_right ..
    le_bottom := hle }

/-- A string with as much room as it is wide is drawn within the edges, unless the bottom edge is at
its top or above it. -/
theorem Drawing.ofString_within (s : RenderedString) {x y : Int} (hx : Coord.InRange x)
    (hy : Coord.InRange y) {right : Option Int} (hroom : ∀ r ∈ right, x + s.surface.width ≤ r)
    (bottom : Option Int) :
    (Drawing.ofString s x y bottom = .nothing ∧ ∃ l ∈ bottom, l ≤ y) ∨
      ∃ call, Drawing.ofString s x y bottom = ⟨s.glyphCount, some call⟩ ∧
        call.surface = s.surface ∧ call.Within x y right bottom := by
  have hlower := Coord.satAdd_eq_min hy s.surface.height
  have hle : y ≤ Coord.satAdd y s.surface.height := by
    have := hy.2
    omega
  rw [Drawing.ofString.eq_def]
  cases bottom with
  | none => exact .inr ⟨_, rfl, rfl, .of_edge _ hx hroom hlower hle⟩
  | some edge =>
    dsimp only
    split
    · next hdeep =>
      refine .inr ⟨_, rfl, rfl, .of_edge _ hx hroom ?_ hle⟩
      rw [Option.elim_some]
      omega
    · split
      · next hcut habove => exact .inl ⟨rfl, edge, rfl, habove⟩
      · next hcut hbelow =>
        refine .inr ⟨_, rfl, rfl, .of_edge _ hx hroom ?_ (by omega)⟩
        rw [Option.elim_some]
        omega

/-- Where the bottom edge is at the text or above it, nothing is left of a string that has some
height, unless text and edge are both at the end of the range. -/
theorem Drawing.ofString_of_le {s : RenderedString} (hs : 0 < s.surface.height) {x y l : Int}
    (hy : Coord.InRange y) (hl : l ≤ y) :
    Drawing.ofString s x y (some l) =
      if l = Coord.highest then
        ⟨s.glyphCount, some ⟨s.surface, x, y, ⟨x, y, Coord.satAdd x s.surface.width, y⟩⟩⟩
      else .nothing := by
  have hlower := Coord.satAdd_eq_min hy s.surface.height
  have hend := hy.2
  rw [Drawing.ofString.eq_def]
  dsimp only
  split
  · next hedge =>
    have hlast : l = Coord.highest ∧ Coord.satAdd y s.surface.height = y := by omega
    rw [if_pos hlast.1, hlast.2]
  · next hedge =>
    have hbefore : l ≠ Coord.highest := by omega
    rw [if_neg hbefore]

/-! ## Room -/

variable {σ : Type} [Face σ] {font : Font σ}

/-- Either there is no room, and nothing is left to draw, or the string of the text is drawn in the
room that there is. -/
theorem answer_render_cases (font : Font σ) (text : String) (x y : Int)
    (right bottom : Option Int) :
    let answer := (font.render text x y right bottom).answer
    let string := (font.string text (right.map (Coord.satSub · x))).answer
    (∃ r ∈ right, r ≤ x) ∧ answer = .ok .nothing ∨
      (∀ r ∈ right, x < r) ∧ answer = string.map (Drawing.ofString · x y bottom) := by
  intro answer string
  by_cases hroom : ∀ r ∈ right, x < r
  · exact .inr ⟨hroom, font.answer_render_of_lt text hroom y bottom⟩
  · obtain ⟨r, hr, hle⟩ : ∃ r ∈ right, r ≤ x := by simpa using hroom
    obtain rfl := Option.mem_def.1 hr
    exact .inl ⟨⟨r, rfl, hle⟩, font.answer_render_of_le text hle y bottom⟩

/-- A text is answered with a string that is shaped for it. -/
theorem Orderly.answer_string (h : Orderly font) (text : String) {maxWidth : Option Int}
    (hw : ∀ limit, maxWidth = some limit → 1 ≤ limit) {s : RenderedString}
    (hs : (font.string text maxWidth).answer = .ok s) :
    ∃ metrics, Shaping.Shaped text maxWidth metrics s := by
  obtain ⟨-, hanswer⟩ := h.keeps.string text maxWidth fun metrics s hmetrics hs => by
    obtain ⟨metrics', hmetrics', -, hshape⟩ :=
      Shaping.render_spec font.key.size text maxWidth font.bench font.metrics
    obtain rfl : metrics = metrics' := Option.some.inj (hmetrics.symm.trans hmetrics')
    exact ⟨hshape s hs, hw⟩
  obtain ⟨metrics, -, hshape, -⟩ := hanswer s hs
  exact ⟨metrics, hshape⟩

/-- The string that is drawn is higher than nothing and no wider than the room for it. -/
theorem Orderly.string_fits (h : Orderly font) (text : String) {x : Int} {right : Option Int}
    (hroom : ∀ r ∈ right, x < r) {s : RenderedString}
    (hs : (font.string text (right.map (Coord.satSub · x))).answer = .ok s) :
    0 < s.surface.height ∧ ∀ r ∈ right, x + s.surface.width ≤ r := by
  have hbudget (limit : Int) (hl : right.map (Coord.satSub · x) = some limit) : 1 ≤ limit := by
    obtain ⟨r, hr, rfl⟩ := Option.map_eq_some_iff.1 hl
    exact Coord.satSub_pos (hroom r hr)
  obtain ⟨metrics, hshape⟩ := h.answer_string text hbudget hs
  constructor
  · have := hshape.height
    have := hshape.maxHeight_pos
    omega
  · intro r hr
    have hlimit : right.map (Coord.satSub · x) = some (Coord.satSub r x) := by
      rw [Option.mem_def.1 hr, Option.map_some]
    have hwidth := hshape.width_le _ hlimit (Int.le_of_lt (Coord.satSub_pos (hroom r hr)))
    have hdistance := Coord.satSub_eq_min (hroom r hr)
    omega

/-- A text is not answered only for want of height. -/
theorem eq_of_string_error {text : String} {maxWidth : Option Int} {e : FontError}
    (he : (font.string text maxWidth).answer = .error e) : e = .metricsUnavailable := by
  by_cases hc : font.Caches text maxWidth
  · exact absurd he ((font.string_of_caches text maxWidth hc).1 e)
  · let key : StringKey := ⟨text, maxWidth⟩
    have hmissing : ¬ font.Caches key.text key.maxWidth := hc
    exact (((font.string_error_iff hmissing).2 e).1 he).1

/-- A font that has just been opened on a face of one glyph is as high as that glyph and its
padding. If that is some height, a text is answered with as much of it as fits. -/
theorem string_opened_uniform (glyph : RasterGlyph) (key : FontKey) (limits : StringCache.Limits)
    (text : String) (maxWidth : Option Int)
    (hheight : 0 < (Shaping.metricsOf (some glyph.extents) key.size).maxHeight) :
    ∃ s, ((opened key (TableFace.uniform glyph) limits).string text maxWidth).answer = .ok s ∧
      s.glyphCount = (Shaping.textFit (TableFace.uniform glyph) text maxWidth).glyphs ∧
      s.surface.width = (Shaping.textFit (TableFace.uniform glyph) text maxWidth).width.toNat ∧
      s.surface.height = (Shaping.metricsOf (some glyph.extents) key.size).maxHeight.toNat := by
  have hs := TableFace.steady_uniform glyph
  have hstart : Faithful (TableFace.uniform glyph) (opened key (TableFace.uniform glyph) limits) :=
    .opened _ _ _
  obtain ⟨metrics, hanswer, huses, -⟩ := hstart.string hs text maxWidth
  obtain rfl : metrics = Shaping.metricsOf (some glyph.extents) key.size :=
    (huses.eq_of_taken (TableFace.probesByRendering_uniform glyph) rfl).trans
      (Shaping.metricsOfFace_uniform glyph key.size)
  exact ⟨_, hanswer.trans (Shaping.rendered_eq_ok_iff.2 ⟨hheight, rfl⟩), rfl,
    Shaping.width_stringOf .., Shaping.height_stringOf ..⟩

/-! ## Drawings -/

namespace Reached

variable {key : FontKey} {face : σ} {limits : StringCache.Limits}

/-- Whatever a font has been asked before, it draws the string of the text in the room that there
is, unless an edge is at the text or before it, or that string fails: then nothing is drawn and no
glyph is counted, or the drawing fails like the string. The string is drawn once, at the place that
was asked for, and clipped to its own rectangle, to the edges and to the end of the range. So no
pixel past an edge is touched. -/
theorem render_within (h : Reached (opened key face limits) font) (text : String) {x y : Int}
    (hx : Coord.InRange x) (hy : Coord.InRange y) (right bottom : Option Int) :
    let answer := (font.render text x y right bottom).answer
    let string := (font.string text (right.map (Coord.satSub · x))).answer
    (∃ e, string = .error e ∧ answer = .error e) ∨
      (((∃ r ∈ right, r ≤ x) ∨ ∃ l ∈ bottom, l ≤ y) ∧ answer = .ok ⟨0, none⟩) ∨
      ∃ s call, string = .ok s ∧ answer = .ok ⟨s.glyphCount, some call⟩ ∧
        call.surface = s.surface ∧ call.Within x y right bottom ∧
        ∀ (canvas : Bitmap) (px py : Nat),
          (px : Int) < x ∨ (py : Int) < y ∨ (∃ r ∈ right, r ≤ px) ∨ (∃ l ∈ bottom, l ≤ py) →
            (canvas.draw call.surface call.x call.y call.clip).pixel? px py =
              canvas.pixel? px py := by
  intro answer string
  rcases font.answer_render_cases text x y right bottom with ⟨hedge, hnone⟩ |
    ⟨hroom, (hanswer : answer = string.map (Drawing.ofString · x y bottom))⟩
  · exact .inr (.inl ⟨.inl hedge, hnone⟩)
  · rw [hanswer]
    cases hs : string with
    | error e => exact .inl ⟨e, rfl, rfl⟩
    | ok s =>
      obtain ⟨-, hwidth⟩ := h.orderly.string_fits text hroom hs
      rcases Drawing.ofString_within s hx hy hwidth bottom with
        ⟨hnone, habove⟩ | ⟨call, hcall, hsame, hin⟩
      · exact .inr (.inl ⟨.inr habove, congrArg Except.ok hnone⟩)
      · refine .inr (.inr ⟨s, call, rfl, congrArg Except.ok hcall, hsame, hin, ?_⟩)
        intro canvas px py hout
        exact hin.pixel?_draw canvas hout

/-- Two of three glyphs fit between the third column and the tenth, and three of six rows between
the second row and the fifth. -/
theorem render_within_two_of_three :
    let square : RasterGlyph :=
      { width := 2, height := 2, pitch := 2, left := 0, top := 2, advance := 3, format := .alpha8,
        data := #[1, 2, 3, 4] }
    let start := opened ⟨⟨"a.ttf"⟩, 16, 96⟩ (TableFace.uniform square) (.ofNat 1 1)
    ∃ call, (start.render "abc" 3 2 (some 10) (some 5)).answer = .ok ⟨2, some call⟩ ∧
      call.Within 3 2 (some 10) (some 5) ∧ call.clip = ⟨3, 2, 9, 5⟩ ∧
      ∀ (canvas : Bitmap) (py : Nat),
        (canvas.draw call.surface call.x call.y call.clip).pixel? 10 py = canvas.pixel? 10 py := by
  intro square start
  have hmetrics : Shaping.metricsOf (some square.extents) 16 = ⟨6, 6⟩ := by decide +kernel
  have htext : (CodePoints.ofText "abc").length = 3 := by decide +kernel
  have hfit : Shaping.textFit (TableFace.uniform square) "abc" (some 7) = ⟨2, 6⟩ := by
    rw [Shaping.textFit, Shaping.fitOf, Shaping.moves_uniform, Shaping.length_glyphIndices, htext]
    decide
  obtain ⟨s, hstring, hcount, hwidth, hheight⟩ :=
    string_opened_uniform square ⟨⟨"a.ttf"⟩, 16, 96⟩ (.ofNat 1 1) "abc" (some 7)
      (by rw [hmetrics]; decide)
  rw [hfit] at hcount hwidth
  rw [hmetrics] at hheight
  have hdrawn : (start.render "abc" 3 2 (some 10) (some 5)).answer =
      .ok ⟨2, some ⟨s.surface, 3, 2, ⟨3, 2, 9, 5⟩⟩⟩ := by
    have hbudget : (some 10 : Option Int).map (Coord.satSub · 3) = some 7 := by decide
    rw [answer_render_of_lt start "abc" (by simp), hbudget, hstring, Except.map]
    rw [Drawing.ofString.eq_def, hcount, hwidth, hheight]
    rfl
  have hstart : Reached start start := .start
  have hx : Coord.InRange 3 := by decide
  have hy : Coord.InRange 2 := by decide
  rcases hstart.render_within "abc" hx hy (some 10) (some 5) with
    ⟨e, -, he⟩ | ⟨-, hnone⟩ | ⟨t, call, -, hcall, -, hin, hpixel⟩
  · cases hdrawn.symm.trans he
  · cases hdrawn.symm.trans hnone
  · obtain ⟨hglyphs, rfl⟩ :
        2 = t.glyphCount ∧ (⟨s.surface, 3, 2, ⟨3, 2, 9, 5⟩⟩ : DrawCall) = call := by
      simpa using hdrawn.symm.trans hcall
    refine ⟨_, hdrawn, hin, rfl, fun canvas py => ?_⟩
    apply hpixel canvas 10 py
    exact .inr (.inr (.inl ⟨10, rfl, Int.le_refl 10⟩))

/-- Whatever a font has been asked before, a text with an edge at it or before it is not drawn, as
long as text and bottom edge are not both at the end of the range. If they are, and there is room
before the right edge, the string of the text is drawn in a clip rectangle without rows. Either way
no canvas changes. A drawing can fail only where there is room before the right edge, and only for
want of height, as the string of the text does. -/
theorem draws_nothing (h : Reached (opened key face limits) font) (text : String) {x y : Int}
    (hy : Coord.InRange y) {right bottom : Option Int}
    (hedge : (∃ r ∈ right, r ≤ x) ∨ ∃ l ∈ bottom, l ≤ y) :
    let answer := (font.render text x y right bottom).answer
    let string := (font.string text (right.map (Coord.satSub · x))).answer
    let atEnd := (∀ r ∈ right, x < r) ∧ y = Coord.highest ∧ bottom = some Coord.highest
    (∀ e, answer = .error e → e = .metricsUnavailable ∧ string = .error e ∧ ∀ r ∈ right, x < r) ∧
      ∀ d, answer = .ok d →
        (¬ atEnd → d = ⟨0, none⟩) ∧
        (atEnd → ∃ s, string = .ok s ∧ d = ⟨s.glyphCount,
          some ⟨s.surface, x, y, ⟨x, y, Coord.satAdd x s.surface.width, y⟩⟩⟩) ∧
        ∀ canvas, d.paint canvas = canvas := by
  intro answer string atEnd
  rcases font.answer_render_cases text x y right bottom with
    ⟨⟨r, hr, hle⟩, (hnone : answer = .ok .nothing)⟩ |
    ⟨hroom, (hanswer : answer = string.map (Drawing.ofString · x y bottom))⟩
  · rw [hnone]
    refine ⟨fun e he => (nomatch he), ?_⟩
    rintro _ ⟨⟩
    exact ⟨fun _ => rfl, fun hend => absurd (hend.1 r hr) (Int.not_lt.2 hle), fun canvas => rfl⟩
  · obtain ⟨l, hl, hle⟩ : ∃ l ∈ bottom, l ≤ y := by
      rcases hedge with ⟨r, hr, hle⟩ | hbottom
      · exact absurd (hroom r hr) (Int.not_lt.2 hle)
      · exact hbottom
    obtain rfl := Option.mem_def.1 hl
    rw [hanswer]
    cases hs : string with
    | error e =>
      refine ⟨?_, fun d hd => (nomatch hd)⟩
      rintro _ ⟨⟩
      exact ⟨eq_of_string_error hs, rfl, hroom⟩
    | ok s =>
      obtain ⟨hheight, -⟩ := h.orderly.string_fits text hroom hs
      refine ⟨fun e he => (nomatch he), ?_⟩
      intro d hd
      obtain rfl : Drawing.ofString s x y (some l) = d := Except.ok.inj hd
      rw [Drawing.ofString_of_le hheight hy hle]
      by_cases hlast : l = Coord.highest
      · have hend : y = Coord.highest := by
          have := hy.2
          omega
        rw [if_pos hlast]
        refine ⟨fun hnot => absurd ⟨hroom, hend, congrArg some hlast⟩ hnot,
          fun _ => ⟨s, rfl, rfl⟩, fun canvas => ?_⟩
        exact canvas.draw_of_bottom_le_top s.surface x y (Int.le_refl y)
      · rw [if_neg hlast]
        exact ⟨fun _ => rfl, fun hend => absurd (Option.some.inj hend.2.2) hlast,
          fun canvas => rfl⟩

/-- A text with both its top and the bottom edge in the last row of all is handed on to be drawn,
without a row of it. One row further up it is not. -/
theorem draws_nothing_at_the_end :
    let square : RasterGlyph :=
      { width := 2, height := 2, pitch := 2, left := 0, top := 2, advance := 3, format := .alpha8,
        data := #[1, 2, 3, 4] }
    let start := opened ⟨⟨"a.ttf"⟩, 16, 96⟩ (TableFace.uniform square) (.ofNat 1 1)
    let last := Coord.highest
    (∃ s, (start.render "ab" 0 last none (some last)).answer =
        .ok ⟨2, some ⟨s, 0, last, ⟨0, last, 6, last⟩⟩⟩ ∧
      ∀ canvas : Bitmap, canvas.draw s 0 last ⟨0, last, 6, last⟩ = canvas) ∧
      (start.render "ab" 0 (last - 1) none (some (last - 1))).answer = .ok ⟨0, none⟩ := by
  intro square start last
  have hmetrics : Shaping.metricsOf (some square.extents) 16 = ⟨6, 6⟩ := by decide +kernel
  have hfit : Shaping.textFit (TableFace.uniform square) "ab" none = ⟨2, 6⟩ :=
    (Shaping.textFit_uniform square "ab").trans (by decide +kernel)
  obtain ⟨s, hstring, hcount, hwidth, -⟩ :=
    string_opened_uniform square ⟨⟨"a.ttf"⟩, 16, 96⟩ (.ofNat 1 1) "ab" none
      (by rw [hmetrics]; decide)
  rw [hfit] at hcount hwidth
  have hanswer (y : Int) : (start.render "ab" 0 y none (some y)).answer =
      .ok (Drawing.ofString s 0 y (some y)) := by
    rw [answer_render_of_lt start "ab" (by simp), Option.map_none, hstring, Except.map]
  have hstart : Reached start start := .start
  have hedge (y : Int) : (∃ r ∈ (none : Option Int), r ≤ 0) ∨ ∃ l ∈ some y, l ≤ y :=
    .inr ⟨y, rfl, Int.le_refl y⟩
  constructor
  · obtain ⟨-, hok⟩ :=
      hstart.draws_nothing "ab" (show Coord.InRange last by decide) (hedge last)
    obtain ⟨-, hend, hpaint⟩ := hok _ (hanswer last)
    obtain ⟨t, ht, hdrawn⟩ := hend ⟨by simp, rfl, rfl⟩
    obtain rfl : s = t := Except.ok.inj (hstring.symm.trans ht)
    rw [hcount, hwidth] at hdrawn
    refine ⟨s.surface, (hanswer last).trans (congrArg Except.ok hdrawn), fun canvas => ?_⟩
    rw [hdrawn] at hpaint
    exact hpaint canvas
  · obtain ⟨-, hok⟩ :=
      hstart.draws_nothing "ab" (show Coord.InRange (last - 1) by decide) (hedge (last - 1))
    obtain ⟨hnone, -⟩ := hok _ (hanswer (last - 1))
    have hbefore : ¬ ((∀ r ∈ (none : Option Int), 0 < r) ∧ last - 1 = Coord.highest ∧
        some (last - 1) = some Coord.highest) := by decide
    rw [hanswer, hnone hbefore]

end Reached

end Font

end BitmapText
