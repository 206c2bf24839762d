import BitmapText.Proofs.Bitmap.Draw
import BitmapText.Proofs.Shaping.Placing

/-!
# Placing a glyph by checked slices

To put a row of a bitmap on a surface, a part of the row is cut out and copied over a part of a row
of the surface. Cutting a part out of a row goes wrong if the row does not have that part, so there
is something to show: whatever the size, the bearings and the bytes of a bitmap are, and wherever
the pen stands, both parts are always there.

## Main definitions

* `Slices.part?`: a part of a row, if the row has it.
* `Slices.placeRow?`, `Slices.place?`, `Slices.compositeFrom?`: placing a row, a glyph and many
  glyphs, with every part of a row looked up.

## Main statements

* `Slices.placeRow?_eq`, `Slices.place?_eq`: no slice of a row or of a glyph is missed.
* `Slices.composite?_eq`: nor is one in a composition.
-/

namespace BitmapText

namespace Slices

open Shaping (firstColumn endColumn placeRow)

/-! ## Slices -/

/-- The values of a row from `start` up to, and without, `stop`; `none` if the row does not have
them all. -/
def part? (row : Array UInt8) (start stop : Int) : Option (Array UInt8) :=
  if 0 ≤ start ∧ start ≤ stop ∧ stop ≤ row.size then some (row.extract start.toNat stop.toNat)
  else none

/-- Row `y` of a surface, if there is one. -/
def surfaceRow? (surface : Bitmap) (y : Nat) : Option (Array UInt8) :=
  if y < surface.height then some (surface.row y) else none

/-- Put row `y` of a bitmap on a surface; `none` if the bitmap or the surface does not have the part
that is cut out of it. -/
def placeRow? (entry : RasterGlyph) (left top : Int) (surface : Bitmap) (y : Nat) :
    Option Bitmap :=
  let row := top + Coord.ofSize y
  if row < 0 then some surface
  else
    match entry.row? y, surfaceRow? surface row.toNat with
    | some src, some dst => do
      let values ← part? src (firstColumn left) (endColumn entry surface.width left)
      let start := left + firstColumn left
      let _ ← part? dst start (start + values.size)
      some (surface.write start.toNat row.toNat values)
    | _, _ => some surface

/-- Put a rendered glyph on a surface, row by row. -/
def place? (surface : Bitmap) (entry : RasterGlyph) (pen baseline : Int) : Option Bitmap :=
  let left := pen + entry.left
  let top := baseline - entry.top
  if endColumn entry surface.width left ≤ firstColumn left then some surface
  else (List.range entry.height).foldlM (placeRow? entry left top) surface

/-! ## One row -/

theorem part?_eq_some {row : Array UInt8} {start stop : Int} (hstart : 0 ≤ start)
    (hle : start ≤ stop) (hstop : stop ≤ row.size) :
    part? row start stop = some (row.extract start.toNat stop.toNat) :=
  if_pos ⟨hstart, hle, hstop⟩

theorem size_row {surface : Bitmap} {y : Nat} (h : y < surface.height) :
    (surface.row y).size = surface.width := by
  have hend := surface.row_end_le h
  rw [Bitmap.row, Array.size_extract]
  omega

/-- Values for a row below the last one are not written. -/
theorem write_of_height_le {surface : Bitmap} {y : Nat} (h : surface.height ≤ y) (x : Nat)
    (values : Array UInt8) : surface.write x y values = surface := by
  refine Bitmap.ext_pixel? rfl rfl fun px py => ?_
  rw [Bitmap.pixel?_write]
  cases hp : surface.pixel? px py with
  | none => rfl
  | some old =>
    have hin := Bitmap.lt_of_pixel?_eq_some hp
    rw [Option.map_some, if_neg (by omega)]

/-- The bytes of a row that is there are at least as many as the columns of the bitmap, when these
are counted as coordinates. -/
theorem width_le_size_of_row? {entry : RasterGlyph} {y : Nat} {src : Array UInt8}
    (h : entry.row? y = some src) : Coord.ofSize entry.width ≤ src.size := by
  have hlength := entry.toNat_ofSize_width_le_rowLength
  rw [RasterGlyph.row?] at h
  split at h
  · next hrow =>
    have hbytes := hrow.2
    obtain rfl := Option.some.inj h
    rw [Array.size_extract]
    omega
  · cases h

variable {entry : RasterGlyph} {left : Int} {surface : Bitmap}

/-- Both rows have the part that is cut out of them, if some column of the bitmap lies over the
surface. -/
theorem exists_parts {src dst : Array UInt8} (hsrc : Coord.ofSize entry.width ≤ src.size)
    (hdst : Coord.ofSize surface.width ≤ dst.size)
    (hover : firstColumn left < endColumn entry surface.width left) :
    ∃ values under,
      part? src (firstColumn left) (endColumn entry surface.width left) = some values ∧
        values = src.extract (firstColumn left).toNat (endColumn entry surface.width left).toNat ∧
        part? dst (left + firstColumn left) (left + firstColumn left + values.size) =
          some under := by
  have hfirst : firstColumn left = max (-left) 0 := rfl
  have hend : endColumn entry surface.width left =
      min (Coord.ofSize entry.width) (Coord.ofSize surface.width - left) := rfl
  generalize endColumn entry surface.width left = stop at *
  generalize Coord.ofSize entry.width = width at *
  generalize Coord.ofSize surface.width = room at *
  have hsize : (src.extract (firstColumn left).toNat stop.toNat).size =
      stop.toNat - (firstColumn left).toNat := by
    rw [Array.size_extract]
    omega
  refine ⟨_, _, part?_eq_some (by omega) (by omega) (by omega), rfl, part?_eq_some ?_ ?_ ?_⟩
  · omega
  · omega
  · rw [hsize]
    omega

/-- No slice of a row is missed. -/
theorem placeRow?_eq (top : Int) (y : Nat)
    (hover : firstColumn left < endColumn entry surface.width left) :
    placeRow? entry left top surface y = some (placeRow entry left top surface y) := by
  rw [placeRow?, placeRow]
  by_cases habove : top + Coord.ofSize y < 0
  · rw [if_pos habove, if_pos habove]
  rw [if_neg habove, if_neg habove]
  cases hsrc : entry.row? y with
  | none => rfl
  | some src =>
    by_cases hrow : (top + Coord.ofSize y).toNat < surface.height
    · have hdst : Coord.ofSize surface.width ≤ (surface.row (top + Coord.ofSize y).toNat).size := by
        rw [size_row hrow]
        exact Coord.ofSize_le surface.width
      obtain ⟨values, under, hvalues, hpart, hunder⟩ :=
        exists_parts (width_le_size_of_row? hsrc) hdst hover
      simp only [surfaceRow?, if_pos hrow, hvalues, hunder, ← hpart, Option.bind_eq_bind,
        Option.bind_some]
    · simp only [surfaceRow?, if_neg hrow, write_of_height_le (Nat.le_of_not_lt hrow)]

/-! ## One glyph -/

theorem foldlM_placeRow?_eq (top : Int) (rows : List Nat)
    (hover : firstColumn left < endColumn entry surface.width left) :
    rows.foldlM (placeRow? entry left top) surface =
      some (rows.foldl (placeRow entry left top) surface) := by
  induction rows generalizing surface with
  | nil => rfl
  | cons y rest ih =>
    rw [List.foldlM_cons, placeRow?_eq top y hover, Option.bind_eq_bind, Option.bind_some,
      List.foldl_cons]
    apply ih
    rwa [(Shaping.size_placeRow entry left top surface y).1]

/-- No slice of a glyph is missed. -/
theorem place?_eq (surface : Bitmap) (entry : RasterGlyph) (pen baseline : Int) :
    place? surface entry pen baseline = some (Shaping.place surface entry pen baseline) := by
  rw [place?, Shaping.place]
  split
  · rfl
  · next hover => exact foldlM_placeRow?_eq _ _ (Int.not_le.1 hover)

/-! ## Compositions -/

variable {σ : Type} [Face σ]

/-- Continue a composition by slices; `none` if some part of a row is not there. -/
def compositeFrom? (baseline : Int) (bench : Bench σ) (previous : GlyphIndex) (pen : Int)
    (surface : Bitmap) : List GlyphIndex → Option (Bitmap × Bench σ)
  | [] => some (surface, bench)
  | glyph :: rest =>
    match bench.kerning previous glyph with
    | (delta, bench) =>
      let pen := Coord.add pen delta
      match bench.rasterize glyph with
      | (.error e, bench) => compositeFrom? baseline (bench.warn e) glyph pen surface rest
      | (.ok entry, bench) =>
        if entry.format = .alpha8 then do
          let surface ← place? surface entry pen baseline
          compositeFrom? baseline bench glyph (Coord.add pen entry.advance) surface rest
        else
          compositeFrom? baseline (bench.warn (.unsupportedFormat glyph entry.format)) glyph
            (Coord.add pen entry.advance) surface rest

/-- The glyphs side by side, placed by slices. -/
def composite? (bench : Bench σ) (glyphs : List GlyphIndex) (width : Int) (metrics : FontMetrics) :
    Option (Bitmap × Bench σ) :=
  compositeFrom? metrics.baseline bench 0 0 (.blank width.toNat metrics.maxHeight.toNat) glyphs

theorem compositeFrom?_eq (baseline : Int) (bench : Bench σ) (previous : GlyphIndex) (pen : Int)
    (surface : Bitmap) (glyphs : List GlyphIndex) :
    compositeFrom? baseline bench previous pen surface glyphs =
      some (Shaping.compositeFrom baseline bench previous pen surface glyphs) := by
  induction glyphs generalizing bench previous pen surface with
  | nil => rfl
  | cons glyph rest ih =>
    rw [compositeFrom?, Shaping.compositeFrom]
    dsimp only
    cases (bench.kerning previous glyph).2.rasterize glyph with
    | mk result drawn =>
      cases result with
      | error e => exact ih ..
      | ok entry =>
        dsimp only
        split
        · rw [place?_eq, Option.bind_eq_bind, Option.bind_some]
          exact ih ..
        · exact ih ..

/-- No slice of a composition is missed. -/
theorem composite?_eq (bench : Bench σ) (glyphs : List GlyphIndex) (width : Int)
    (metrics : FontMetrics) :
    composite? bench glyphs width metrics = some (Shaping.composite bench glyphs width metrics) :=
  compositeFrom?_eq ..

end Slices

end BitmapText
