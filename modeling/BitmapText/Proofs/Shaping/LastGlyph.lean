import BitmapText.Proofs.Shaping.Pen
import BitmapText.Proofs.Shaping.Slices

/-!
# The last glyph wins

What a composition makes of its glyphs can be said pixel by pixel. A glyph stands where the pen has
come to: moved by all the kerning so far and by the advances of the glyphs before it, those of
glyphs that could not be rendered excepted. Of the glyphs that have a pixel at some place of the
surface, the last one decides its value; where no glyph has one, the surface stays blank.

This holds for every face, also for one that answers differently each time: it is about the answers
that were given. And it holds for every pen, size and pitch, in the words that these are computed
in: a pen that leaves the range of coordinates comes back at its other end, a bitmap so wide or high
that its columns or rows are no coordinates has them counted as words, and a row is looked up where
its product of number and pitch leads. For glyphs where none of this happens (`Shaping.Unwrapped`)
the same is said in plain integers.

## Main definitions

* `Shaping.Answer`, `Shaping.answersFrom`: what a composition is told about its glyphs.
* `Shaping.penSum`, `Shaping.penAt`: where the pen stands for a glyph, as a sum and as a coordinate.
* `Shaping.Lands`: a pixel of a glyph lands on a pixel of the surface.
* `Shaping.LandsExactly`: the same, in plain integers.
* `Shaping.LastWins`: a value is that of the last glyph that has one.

## Main statements

* `Shaping.LastWins.cons`: one glyph more, before the others.
* `Shaping.Unwrapped.lands_iff`: where nothing is wrapped, pixels land where plain integers say.
* `Shaping.composite_last_glyph`: every pixel of a composition, and no slice missed on the way.
-/

namespace BitmapText

/-! ## What a composition is told -/

variable {σ : Type} [Face σ]

namespace Bench

/-- A record makes no difference to the face and to the glyphs. -/
theorem kerning_warn (bench : Bench σ) (e : FontError) (left right : GlyphIndex) :
    (bench.warn e).kerning left right = Prod.map id (·.warn e) (bench.kerning left right) := by
  have hface : (bench.warn e).face = bench.face := rfl
  rw [Bench.kerning, Bench.kerning, hface]
  split <;> rfl

theorem rasterize_warn (bench : Bench σ) (e : FontError) (glyph : GlyphIndex) :
    (bench.warn e).rasterize glyph = Prod.map id (·.warn e) (bench.rasterize glyph) := rfl

end Bench

namespace Shaping

/-- What a composition is told about one glyph: the kerning between it and the glyph before it, and
its rendered form. -/
structure Answer where
  delta : Int
  result : Except FontError RasterGlyph

/-- How far a glyph moves the pen after it has been placed. -/
def Answer.advance (answer : Answer) : Int :=
  match answer.result with
  | .ok entry => entry.advance
  | .error _ => 0

/-- What a composition is told, glyph after glyph, after the glyph `previous`. -/
def answersFrom (bench : Bench σ) (previous : GlyphIndex) : List GlyphIndex → List Answer
  | [] => []
  | glyph :: rest =>
    let kerned := bench.kerning previous glyph
    let drawn := kerned.2.rasterize glyph
    ⟨kerned.1, drawn.1⟩ :: answersFrom drawn.2 glyph rest

@[simp] theorem length_answersFrom (bench : Bench σ) (previous : GlyphIndex)
    (glyphs : List GlyphIndex) : (answersFrom bench previous glyphs).length = glyphs.length := by
  induction glyphs generalizing bench previous with
  | nil => rfl
  | cons glyph rest ih => rw [answersFrom, List.length_cons, ih, List.length_cons]

/-- A record makes no difference to what a composition is told. -/
@[simp] theorem answersFrom_warn (bench : Bench σ) (e : FontError) (previous : GlyphIndex)
    (glyphs : List GlyphIndex) :
    answersFrom (bench.warn e) previous glyphs = answersFrom bench previous glyphs := by
  induction glyphs generalizing bench previous with
  | nil => rfl
  | cons glyph rest ih =>
    simp only [answersFrom, Bench.kerning_warn, Bench.rasterize_warn, Prod.map, id, ih]

/-! ## Pixels of glyphs -/

/-- How far the pen has been moved for the glyph at place `i`, when it starts at `pen`: by all the
kerning up to that glyph, and by the advances of the glyphs before. -/
def penSum (pen : Int) (answers : List Answer) (i : Nat) : Int :=
  pen + (((answers.take (i + 1)).map Answer.delta).sum +
    ((answers.take i).map Answer.advance).sum)

/-- Where the pen stands for the glyph at place `i`. -/
def penAt (pen : Int) (answers : List Answer) (i : Nat) : Int := Coord.wrap (penSum pen answers i)

@[simp] theorem penAt_cons_zero (pen : Int) (first : Answer) (rest : List Answer) :
    penAt pen (first :: rest) 0 = Coord.add pen first.delta := by
  simp [penAt, penSum, Coord.add]

@[simp] theorem penAt_cons_succ (pen : Int) (first : Answer) (rest : List Answer) (i : Nat) :
    penAt pen (first :: rest) (i + 1) =
      penAt (Coord.add (Coord.add pen first.delta) first.advance) rest i := by
  have hadd (p : Int) (answers : List Answer) (k : Nat) : penAt p answers k =
      Coord.add p (((answers.take (k + 1)).map Answer.delta).sum +
        ((answers.take k).map Answer.advance).sum) := rfl
  rw [hadd, hadd, Coord.add_add_left pen, Coord.add_add_left, Coord.add, Coord.add]
  simp only [List.take_succ_cons, List.map_cons, List.sum_cons]
  congr 1
  omega

/-- The glyph at place `i` has been rendered in a layout that is composited, and its pixel in column
`dx` of row `dy`, a row that is wholly there, lands on the pixel in column `x` of row `y`. -/
structure Lands (baseline pen : Int) (answers : List Answer) (x y : Int) (i : Nat)
    (entry : RasterGlyph) (dx dy : Nat) : Prop where
  rendered : ∃ delta, answers[i]? = some ⟨delta, .ok entry⟩
  alpha8 : entry.format = .alpha8
  column : x = penAt pen answers i + entry.left + dx
  row : y = baseline - entry.top + Coord.ofSize dy
  lt_width : (dx : Int) < Coord.ofSize entry.width
  row_there : entry.HasRow dy

/-- The same in plain integers, for a pen that starts on the left edge. -/
structure LandsExactly (baseline : Int) (answers : List Answer) (x y : Int) (i : Nat)
    (entry : RasterGlyph) (dx dy : Nat) : Prop where
  rendered : ∃ delta, answers[i]? = some ⟨delta, .ok entry⟩
  alpha8 : entry.format = .alpha8
  column : x = penSum 0 answers i + entry.left + dx
  row : y = baseline - entry.top + dy
  lt_width : dx < entry.width
  lt_height : dy < entry.height
  row_there : dy * entry.pitch + entry.width ≤ entry.data.size

/-- Of the pixels that land, the value is that of the last glyph, and of its lowest row if there are
several; it is `old` if none lands. `start` tells where the rows of a bitmap start. -/
def LastWins (lands : Nat → RasterGlyph → Nat → Nat → Prop) (start : RasterGlyph → Nat → Nat)
    (old : UInt8) (value : Option UInt8) : Prop :=
  (∃ i entry dx dy v, lands i entry dx dy ∧
    (∀ j entry' dx' dy', lands j entry' dx' dy' → j < i ∨ j = i ∧ dy' ≤ dy) ∧
    entry.data[start entry dy + dx]? = some v ∧ value = some v) ∨
  (∀ i entry dx dy, ¬ lands i entry dx dy) ∧ value = some old

/-- It only matters which pixels land, and where the rows of these start. -/
theorem LastWins.congr {lands lands' : Nat → RasterGlyph → Nat → Nat → Prop}
    {start start' : RasterGlyph → Nat → Nat} {old : UInt8} {value : Option UInt8}
    (hlands : ∀ i entry dx dy, lands i entry dx dy ↔ lands' i entry dx dy)
    (hstart : ∀ i entry dx dy, lands i entry dx dy → start entry dy = start' entry dy)
    (h : LastWins lands start old value) : LastWins lands' start' old value := by
  rcases h with ⟨i, entry, dx, dy, v, hl, hlast, hv, rfl⟩ | ⟨hnone, rfl⟩
  · refine .inl ⟨i, entry, dx, dy, v, (hlands ..).1 hl, fun j entry' dx' dy' hj => ?_, ?_, rfl⟩
    · exact hlast j entry' dx' dy' ((hlands ..).2 hj)
    · rw [← hstart i entry dx dy hl, hv]
  · exact .inr ⟨fun i entry dx dy hl => hnone i entry dx dy ((hlands ..).2 hl), rfl⟩

/-- The value that a glyph has for a pixel of the surface, if it stands at `pen` before its
kerning. -/
def Answer.valueAt? (answer : Answer) (baseline pen x y : Int) : Option UInt8 :=
  match answer.result with
  | .error _ => none
  | .ok entry =>
    if entry.format = .alpha8 then
      entry.valueAt? (x - (Coord.add pen answer.delta + entry.left)) (y - (baseline - entry.top))
    else none

section Lands

variable {baseline pen x y : Int} {first : Answer} {rest : List Answer} {i : Nat}
  {entry : RasterGlyph} {dx dy : Nat}

theorem lands_cons_succ :
    Lands baseline pen (first :: rest) x y (i + 1) entry dx dy ↔
      Lands baseline (Coord.add (Coord.add pen first.delta) first.advance) rest x y i entry dx
        dy := by
  constructor
  · rintro ⟨hr, ha, hx, hy, hw, hd⟩
    exact ⟨by simpa using hr, ha, by simpa using hx, hy, hw, hd⟩
  · rintro ⟨hr, ha, hx, hy, hw, hd⟩
    exact ⟨by simpa using hr, ha, by simpa using hx, hy, hw, hd⟩

/-- A pixel of the first glyph that lands has a value in its row. -/
theorem exists_columnByte?_of_lands (h : Lands baseline pen (first :: rest) x y 0 entry dx dy) :
    first.result = .ok entry ∧ entry.format = .alpha8 ∧ dy < entry.height ∧
      y - (baseline - entry.top) = Coord.ofSize dy ∧
      ∃ v, entry.columnByte? (x - (Coord.add pen first.delta + entry.left)) dy = some v := by
  obtain ⟨⟨delta, hr⟩, ha, hx, hy, hw, hd⟩ := h
  obtain rfl : first = ⟨delta, .ok entry⟩ := by simpa using hr
  rw [penAt_cons_zero] at hx
  obtain ⟨v, -, -, hv⟩ := RasterGlyph.columnByte?_of_hasRow hd hw
  have hcolumn : x - (Coord.add pen delta + entry.left) = dx := by
    dsimp only at hx
    omega
  exact ⟨rfl, ha, hd.1, by omega, v, by rw [hcolumn, hv]⟩

/-- What the first glyph has for a pixel: the value of its lowest row that lands there, or nothing
if none does. -/
theorem valueAt?_cases (baseline pen x y : Int) (first : Answer) (rest : List Answer) :
    (first.valueAt? baseline pen x y = none ∧
      ∀ entry dx dy, ¬ Lands baseline pen (first :: rest) x y 0 entry dx dy) ∨
    ∃ entry dx dy v, Lands baseline pen (first :: rest) x y 0 entry dx dy ∧
      (∀ entry' dx' dy', Lands baseline pen (first :: rest) x y 0 entry' dx' dy' → dy' ≤ dy) ∧
      entry.data[entry.rowStart dy + dx]? = some v ∧
      first.valueAt? baseline pen x y = some v := by
  obtain ⟨delta, result⟩ := first
  cases result with
  | error e =>
    refine .inl ⟨rfl, fun entry dx dy h => ?_⟩
    cases (exists_columnByte?_of_lands h).1
  | ok entry =>
    by_cases hformat : entry.format = .alpha8
    · have hvalue : (⟨delta, .ok entry⟩ : Answer).valueAt? baseline pen x y =
          entry.valueAt? (x - (Coord.add pen delta + entry.left)) (y - (baseline - entry.top)) := by
        simp only [Answer.valueAt?, hformat, if_true]
      rw [hvalue, RasterGlyph.valueAt?]
      rcases entry.valueBelow?_cases (x - (Coord.add pen delta + entry.left))
        (y - (baseline - entry.top)) entry.height with ⟨hnone, hrows⟩ | ⟨dy, v, hdy, hrow, hbyte,
          hv, hlowest⟩
      · refine .inl ⟨hnone, fun entry' dx dy h => ?_⟩
        obtain ⟨hr, -, hdy, hrow, v, hv⟩ := exists_columnByte?_of_lands h
        obtain rfl : entry = entry' := Except.ok.inj hr
        rw [hrows dy hdy hrow] at hv
        cases hv
      · obtain ⟨dx, hcolumn, hwidth, hthere, hdata⟩ :=
          RasterGlyph.exists_of_columnByte?_eq_some hbyte
        refine .inr ⟨entry, dx, dy, v, ⟨⟨delta, rfl⟩, hformat, ?_, ?_, hwidth, hthere⟩, ?_, hdata,
          hv⟩
        · rw [penAt_cons_zero]
          dsimp only
          omega
        · omega
        · intro entry' dx' dy' h
          obtain ⟨hr, -, hdy', hrow', v', hv'⟩ := exists_columnByte?_of_lands h
          obtain rfl : entry = entry' := Except.ok.inj hr
          exact hlowest dy' hdy' hrow' v' hv'
    · refine .inl ⟨by simp only [Answer.valueAt?, hformat, if_false], fun entry' dx dy h => ?_⟩
      obtain ⟨hr, hformat', -⟩ := exists_columnByte?_of_lands h
      obtain rfl : entry = entry' := Except.ok.inj hr
      exact hformat hformat'

/-- One glyph more, before the others: what the others leave blank has the value of that glyph if
it has one there. -/
theorem LastWins.cons {old : UInt8} {value : Option UInt8}
    (h : LastWins (Lands baseline (Coord.add (Coord.add pen first.delta) first.advance) rest x y)
      RasterGlyph.rowStart ((first.valueAt? baseline pen x y).getD old) value) :
    LastWins (Lands baseline pen (first :: rest) x y) RasterGlyph.rowStart old value := by
  rcases h with ⟨i, entry, dx, dy, v, hlands, hlast, hv, rfl⟩ | ⟨hnone, rfl⟩
  · refine .inl ⟨i + 1, entry, dx, dy, v, lands_cons_succ.2 hlands, ?_, hv, rfl⟩
    intro j entry' dx' dy' hj
    cases j with
    | zero => exact .inl (Nat.succ_pos i)
    | succ j =>
      have := hlast j entry' dx' dy' (lands_cons_succ.1 hj)
      omega
  · have hlater (j : Nat) (entry' dx' dy') :
        ¬ Lands baseline pen (first :: rest) x y (j + 1) entry' dx' dy' :=
      fun hj => hnone j entry' dx' dy' (lands_cons_succ.1 hj)
    rcases valueAt?_cases baseline pen x y first rest with
      ⟨hblank, hnot⟩ | ⟨entry, dx, dy, v, hlands, hlowest, hv, hvalue⟩
    · rw [hblank, Option.getD_none]
      refine .inr ⟨fun j entry' dx' dy' hj => ?_, rfl⟩
      cases j with
      | zero => exact hnot entry' dx' dy' hj
      | succ j => exact hlater j entry' dx' dy' hj
    · rw [hvalue, Option.getD_some]
      refine .inl ⟨0, entry, dx, dy, v, hlands, fun j entry' dx' dy' hj => ?_, hv, rfl⟩
      cases j with
      | zero => exact .inr ⟨rfl, hlowest entry' dx' dy' hj⟩
      | succ j => exact absurd hj (hlater j entry' dx' dy')

end Lands

/-! ## Plain integers -/

/-- Nothing is wrapped for a glyph that is composited: the pen for it is a coordinate, its columns
and rows are, and the places where its rows start are words. -/
def Unwrapped (answers : List Answer) : Prop :=
  ∀ i delta entry, answers[i]? = some ⟨delta, .ok entry⟩ → entry.format = .alpha8 →
    Coord.InRange (penSum 0 answers i) ∧
      (entry.width : Int) ≤ Coord.highest ∧ (entry.height : Int) ≤ Coord.highest ∧
      ∀ dy < entry.height, dy * entry.pitch < 18446744073709551616

/-- Where nothing is wrapped, a bitmap has the rows that plain integers say. -/
theorem hasRow_iff_of_unwrapped {entry : RasterGlyph} (hformat : entry.format = .alpha8)
    (hwidth : (entry.width : Int) ≤ Coord.highest) {dy : Nat}
    (hstart : dy < entry.height → dy * entry.pitch < 18446744073709551616) :
    entry.HasRow dy ↔
      dy < entry.height ∧ dy * entry.pitch + entry.width ≤ entry.data.size := by
  have hlength : entry.rowLength = entry.width := by
    rw [RasterGlyph.rowLength, hformat, PixelFormat.bytesPerPixel, Nat.mul_one, Size.wrap_of_lt]
    simp only [Coord.highest] at hwidth
    omega
  rw [RasterGlyph.HasRow, hlength]
  refine and_congr_right fun hdy => ?_
  rw [RasterGlyph.rowStart, Size.wrap_of_lt (hstart hdy)]

/-- Where nothing is wrapped, the pixels land where plain integers say, and rows start there too. -/
theorem Unwrapped.lands_iff {answers : List Answer} (h : Unwrapped answers) (baseline x y : Int)
    (i : Nat) (entry : RasterGlyph) (dx dy : Nat) :
    (Lands baseline 0 answers x y i entry dx dy ↔
      LandsExactly baseline answers x y i entry dx dy) ∧
    (Lands baseline 0 answers x y i entry dx dy → entry.rowStart dy = dy * entry.pitch) := by
  by_cases hentry : (∃ delta, answers[i]? = some ⟨delta, .ok entry⟩) ∧ entry.format = .alpha8
  · obtain ⟨⟨delta, hr⟩, ha⟩ := hentry
    obtain ⟨hpen, hwidth, hheight, hstart⟩ := h i delta entry hr ha
    have hrow := hasRow_iff_of_unwrapped ha hwidth (hstart dy)
    have hcolumns : (dx : Int) < Coord.ofSize entry.width ↔ dx < entry.width := by
      rw [Coord.ofSize_of_le hwidth]
      omega
    have hrows : dy < entry.height → Coord.ofSize dy = dy :=
      fun hdy => Coord.ofSize_of_le (by omega)
    have hat : penAt 0 answers i = penSum 0 answers i := Coord.wrap_of_inRange hpen
    refine ⟨⟨fun hl => ?_, fun hl => ?_⟩, fun hl => ?_⟩
    · obtain ⟨hdy, hbytes⟩ := hrow.1 hl.row_there
      exact ⟨hl.rendered, ha, hat ▸ hl.column, hrows hdy ▸ hl.row, hcolumns.1 hl.lt_width, hdy,
        hbytes⟩
    · exact ⟨hl.rendered, ha, hat.symm ▸ hl.column, (hrows hl.lt_height).symm ▸ hl.row,
        hcolumns.2 hl.lt_width, hrow.2 ⟨hl.lt_height, hl.row_there⟩⟩
    · exact Size.wrap_of_lt (hstart dy hl.row_there.1)
  · have hno : ¬ Lands baseline 0 answers x y i entry dx dy :=
      fun hl => hentry ⟨hl.rendered, hl.alpha8⟩
    refine ⟨⟨fun hl => absurd hl hno, fun hl => ?_⟩, fun hl => absurd hl hno⟩
    exact absurd ⟨hl.rendered, hl.alpha8⟩ hentry

/-! ## Compositions -/

/-- Every pixel of a composition has the value of the last glyph that has one for it, and otherwise
the value it had before. -/
theorem compositeFrom_lastWins (baseline : Int) (bench : Bench σ) (previous : GlyphIndex)
    (pen : Int) (surface : Bitmap) (glyphs : List GlyphIndex) {x y : Nat}
    (hx : (x : Int) < Coord.ofSize surface.width) {old : UInt8}
    (h : surface.pixel? x y = some old) :
    LastWins (Lands baseline pen (answersFrom bench previous glyphs) x y) RasterGlyph.rowStart old
      ((compositeFrom baseline bench previous pen surface glyphs).1.pixel? x y) := by
  induction glyphs generalizing bench previous pen surface old with
  | nil => exact .inr ⟨fun i entry dx dy hl => by simpa [answersFrom] using hl.rendered, h⟩
  | cons glyph rest ih =>
    rw [compositeFrom, answersFrom]
    dsimp only
    cases hb : (bench.kerning previous glyph).2.rasterize glyph with
    | mk result drawn =>
      cases result with
      | error e =>
        apply LastWins.cons
        have hnext := ih (drawn.warn e) glyph (Coord.add pen (bench.kerning previous glyph).1)
          surface hx h
        rw [answersFrom_warn] at hnext
        simpa [Answer.advance, Answer.valueAt?, Coord.add_zero (Coord.inRange_add ..)] using hnext
      | ok entry =>
        dsimp only
        apply LastWins.cons
        split
        · next hformat =>
          refine ih drawn glyph _ _ ?_ ?_
          · rwa [width_place]
          · rw [pixel?_place, h, Option.map_some, if_pos hx]
            simp only [Answer.valueAt?, hformat, if_true]
        · next hformat =>
          have hnext := ih (drawn.warn (.unsupportedFormat glyph entry.format)) glyph
            (Coord.add (Coord.add pen (bench.kerning previous glyph).1) entry.advance) surface hx h
          rw [answersFrom_warn] at hnext
          simpa [Answer.advance, Answer.valueAt?, hformat] using hnext

end Shaping

end BitmapText
