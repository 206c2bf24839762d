import BitmapText.Proofs.Bitmap.Region
import BitmapText.Shaping

/-!
# Pixels of a placed glyph

A bitmap is put on a surface row by row. A pixel of the surface takes the value that some row has
for it, and if several rows have one, as happens where row numbers are so large that they come back
as coordinates, the lowest of them decides. The rows of a bitmap of ordinary height all lie on
different rows of the surface, so there is at most one to look for.

## Main definitions

* `RasterGlyph.coverage?`: a byte of a row.
* `RasterGlyph.columnByte?`: the byte that a row has in a column, counted as a coordinate.
* `RasterGlyph.valueAt?`: what a bitmap has for a pixel at a distance from its corner.

## Main statements

* `RasterGlyph.valueBelow?_cases`: the lowest row that has a value decides.
* `Shaping.pixel?_placeRow`, `Shaping.pixel?_place`: the pixels of a surface that a row, and a whole
  bitmap, is put on.
-/

namespace BitmapText

/-! ## Bytes of a bitmap -/

namespace RasterGlyph

/-- The byte in column `x` of row `y`, if that row is there and has a byte in that column. -/
def coverage? (g : RasterGlyph) (x y : Nat) : Option UInt8 := (g.row? y).bind fun bytes => bytes[x]?

/-- The byte that row `y` has in a column, counted from the left edge as a coordinate. -/
def columnByte? (g : RasterGlyph) (dx : Int) (y : Nat) : Option UInt8 :=
  if 0 ≤ dx ∧ dx < Coord.ofSize g.width then g.coverage? dx.toNat y else none

/-- What the first `n` rows have for a pixel that is `dx` columns right of the corner and `dy` rows
below it. The lowest row that has something decides. -/
def valueBelow? (g : RasterGlyph) (dx dy : Int) : Nat → Option UInt8
  | 0 => none
  | n + 1 =>
    if dy = Coord.ofSize n then (g.columnByte? dx n).or (g.valueBelow? dx dy n)
    else g.valueBelow? dx dy n

/-- What a bitmap has for a pixel that is `dx` columns right of its corner and `dy` rows below
it. -/
def valueAt? (g : RasterGlyph) (dx dy : Int) : Option UInt8 := g.valueBelow? dx dy g.height

variable {g : RasterGlyph}

theorem coverage?_of_hasRow {x y : Nat} (hrow : g.HasRow y) (hx : x < g.rowLength) :
    g.coverage? x y = g.data[g.rowStart y + x]? := by
  have hbytes := hrow.2
  rw [coverage?, row?, if_pos hrow, Option.bind_some, Array.getElem?_extract, if_pos (by omega)]

theorem hasRow_of_coverage?_eq_some {x y : Nat} {v : UInt8} (h : g.coverage? x y = some v) :
    g.HasRow y := by
  apply Decidable.byContradiction
  intro hrow
  rw [coverage?, row?, if_neg hrow] at h
  cases h

/-- No column outside the bitmap has a byte, and no column has more bytes than a row. -/
theorem toNat_ofSize_width_le_rowLength (g : RasterGlyph) :
    (Coord.ofSize g.width).toNat ≤ g.rowLength := by
  cases hf : g.format <;>
    simp only [rowLength, hf, PixelFormat.bytesPerPixel, Coord.ofSize, Coord.wrap_eq, Size.wrap] <;>
    omega

/-- In a row that is there, the columns of the bitmap have the bytes of the row. -/
theorem columnByte?_of_hasRow {x y : Nat} (hrow : g.HasRow y)
    (hx : (x : Int) < Coord.ofSize g.width) :
    ∃ v, g.data[g.rowStart y + x]? = some v ∧ g.coverage? x y = some v ∧
      g.columnByte? x y = some v := by
  have hbytes := hrow.2
  have hlength := g.toNat_ofSize_width_le_rowLength
  obtain ⟨v, hv⟩ : ∃ v, g.data[g.rowStart y + x]? = some v :=
    ⟨_, Array.getElem?_eq_getElem (by omega)⟩
  have hcoverage : g.coverage? x y = some v := by
    rw [coverage?_of_hasRow hrow (by omega), hv]
  refine ⟨v, hv, hcoverage, ?_⟩
  rw [columnByte?, if_pos ⟨Int.natCast_nonneg x, hx⟩, Int.toNat_natCast, hcoverage]

theorem exists_of_columnByte?_eq_some {dx : Int} {y : Nat} {v : UInt8}
    (h : g.columnByte? dx y = some v) :
    ∃ x : Nat, dx = x ∧ (x : Int) < Coord.ofSize g.width ∧ g.HasRow y ∧
      g.data[g.rowStart y + x]? = some v := by
  rw [columnByte?] at h
  split at h
  · next hin =>
    have hrow := hasRow_of_coverage?_eq_some h
    have hx : ((dx.toNat : Nat) : Int) < Coord.ofSize g.width := by omega
    obtain ⟨w, hw, hcoverage, -⟩ := columnByte?_of_hasRow hrow hx
    refine ⟨dx.toNat, by omega, hx, hrow, ?_⟩
    rw [hw, ← hcoverage, h]
  · cases h

/-- Of the first `n` rows, the lowest one that has a byte for a pixel decides. -/
theorem valueBelow?_cases (g : RasterGlyph) (dx dy : Int) (n : Nat) :
    (g.valueBelow? dx dy n = none ∧ ∀ y < n, dy = Coord.ofSize y → g.columnByte? dx y = none) ∨
      ∃ y v, y < n ∧ dy = Coord.ofSize y ∧ g.columnByte? dx y = some v ∧
        g.valueBelow? dx dy n = some v ∧
        ∀ y' < n, dy = Coord.ofSize y' → ∀ v', g.columnByte? dx y' = some v' → y' ≤ y := by
  induction n with
  | zero => exact .inl ⟨rfl, fun y hy => absurd hy (Nat.not_lt_zero y)⟩
  | succ n ih =>
    rw [valueBelow?]
    by_cases hrow : dy = Coord.ofSize n
    · rw [if_pos hrow]
      cases hbyte : g.columnByte? dx n with
      | some v => exact .inr ⟨n, v, by omega, hrow, hbyte, rfl, fun y' hy' _ _ _ => by omega⟩
      | none =>
        rw [Option.none_or]
        grind
    · rw [if_neg hrow]
      grind

/-- Where row numbers are coordinates, a pixel has one row of the bitmap to look for. -/
theorem valueAt?_of_hasRow {x y : Nat} (hheight : (g.height : Int) ≤ Coord.highest)
    (hrow : g.HasRow y) (hx : (x : Int) < Coord.ofSize g.width) :
    g.valueAt? x y = g.coverage? x y := by
  obtain ⟨v, -, hcoverage, hv⟩ := columnByte?_of_hasRow hrow hx
  have hy := hrow.1
  have hsize {z : Nat} (hz : z < g.height) : Coord.ofSize z = z := Coord.ofSize_of_le (by omega)
  rw [valueAt?, hcoverage]
  rcases g.valueBelow?_cases x y g.height with ⟨-, hnone⟩ | ⟨z, w, hz, hrows, hw, hvalue, -⟩
  · exact absurd (hnone y hy (hsize hy).symm) (by simp [hv])
  · obtain rfl : y = z := by
      rw [hsize hz] at hrows
      omega
    rw [hvalue, ← hw, hv]

end RasterGlyph

/-! ## Pixels of a surface -/

namespace Shaping

variable (entry : RasterGlyph) (left top : Int) (surface : Bitmap)

/-- On the surface, the first column that is put there is the left edge of the bitmap or that of the
surface. -/
theorem firstColumn_le_iff {px : Nat} :
    (left + firstColumn left).toNat ≤ px ↔ 0 ≤ (px : Int) - left := by
  simp only [firstColumn]
  omega

/-- The part of a row that is put on a surface, read where it stands on the surface. -/
theorem getElem?_extract_columns {bytes : Array UInt8} {y : Nat}
    (hbytes : entry.row? y = some bytes) (surfaceWidth : Nat) {px : Nat} (hleft : 0 ≤ (px : Int) - left) :
    (bytes.extract (firstColumn left).toNat (endColumn entry surfaceWidth left).toNat)[
        px - (left + firstColumn left).toNat]? =
      if (px : Int) < Coord.ofSize surfaceWidth then entry.columnByte? (px - left) y else none := by
  have hfirst : firstColumn left = max (-left) 0 := rfl
  have hend : endColumn entry surfaceWidth left =
      min (Coord.ofSize entry.width) (Coord.ofSize surfaceWidth - left) := rfl
  have hcolumn : (firstColumn left).toNat + (px - (left + firstColumn left).toNat) =
      ((px : Int) - left).toNat := by omega
  rw [Array.getElem?_extract, hcolumn, RasterGlyph.columnByte?, RasterGlyph.coverage?, hbytes,
    Option.bind_some]
  generalize Coord.ofSize entry.width = width at hend ⊢
  generalize Coord.ofSize surfaceWidth = room at hend ⊢
  generalize endColumn entry surfaceWidth left = stop at hend ⊢
  by_cases hin : (px : Int) < room ∧ (px : Int) - left < width
  · rw [if_pos hin.1, if_pos (And.intro hleft hin.2)]
    by_cases hbyte : ((px : Int) - left).toNat < bytes.size
    · rw [if_pos (by omega)]
    · rw [Array.getElem?_eq_none (by omega), ite_self]
  · rw [if_neg (by omega)]
    grind

/-- A row of a bitmap that is put on a surface changes the pixels that it has a byte for, in the
columns of the surface that are coordinates. -/
theorem pixel?_placeRow (y px py : Nat) :
    (placeRow entry left top surface y).pixel? px py = (surface.pixel? px py).map fun old =>
      if (py : Int) - top = Coord.ofSize y ∧ (px : Int) < Coord.ofSize surface.width then
        (entry.columnByte? (px - left) y).getD old
      else old := by
  cases hold : surface.pixel? px py with
  | none =>
    rw [Option.map_none, ← Option.not_isSome_iff_eq_none, Bitmap.isSome_pixel?,
      (size_placeRow entry left top surface y).1, (size_placeRow entry left top surface y).2,
      ← Bitmap.isSome_pixel?, hold]
    exact Bool.false_ne_true
  | some old =>
    rw [Option.map_some, placeRow]
    by_cases habove : top + Coord.ofSize y < 0
    · rw [if_pos habove, hold, if_neg (by omega)]
    rw [if_neg habove]
    cases hbytes : entry.row? y with
    | none =>
      have hnone : entry.columnByte? (px - left) y = none := by
        simp [RasterGlyph.columnByte?, RasterGlyph.coverage?, hbytes]
      simp only [hold, hnone, Option.getD_none, ite_self]
    | some bytes =>
      have hrows : py = (top + Coord.ofSize y).toNat ↔ (py : Int) - top = Coord.ofSize y := by omega
      dsimp only
      simp only [Bitmap.pixel?_write, hold, Option.map_some, hrows, firstColumn_le_iff]
      by_cases hcolumn : 0 ≤ (px : Int) - left
      · rw [getElem?_extract_columns entry left hbytes surface.width hcolumn]
        by_cases hx : (px : Int) < Coord.ofSize surface.width
        · simp only [hcolumn, hx, and_true, if_true]
        · simp only [hcolumn, hx, and_true, and_false, if_false, Option.getD_none, ite_self]
      · have hnone : entry.columnByte? (px - left) y = none := if_neg fun h => hcolumn h.1
        simp only [hcolumn, hnone, and_false, if_false, Option.getD_none, ite_self]

/-- The rows of a bitmap above row `n`, put on a surface. -/
theorem pixel?_foldl_placeRow (n px py : Nat) :
    ((List.range n).foldl (placeRow entry left top) surface).pixel? px py =
      (surface.pixel? px py).map fun old =>
        if (px : Int) < Coord.ofSize surface.width then
          (entry.valueBelow? (px - left) (py - top) n).getD old
        else old := by
  induction n with
  | zero => simp only [List.range_zero, List.foldl_nil, RasterGlyph.valueBelow?, Option.getD_none,
      ite_self, Option.map_id']
  | succ n ih =>
    rw [List.range_succ, List.foldl_append, List.foldl_cons, List.foldl_nil, pixel?_placeRow,
      (size_foldl_placeRow entry left top surface (List.range n)).1, ih, Option.map_map]
    refine congrArg (fun f => Option.map f (surface.pixel? px py)) (funext fun old => ?_)
    rw [Function.comp_apply, RasterGlyph.valueBelow?]
    by_cases hx : (px : Int) < Coord.ofSize surface.width
    · by_cases hrow : (py : Int) - top = Coord.ofSize n
      · rw [if_pos ⟨hrow, hx⟩, if_pos hx, if_pos hx, if_pos hrow]
        cases entry.columnByte? (px - left) n with
        | none => rw [Option.getD_none, Option.none_or]
        | some v => rw [Option.getD_some, Option.some_or, Option.getD_some]
      · rw [if_neg fun h => hrow h.1, if_pos hx, if_pos hx, if_neg hrow]
    · rw [if_neg fun h => hx h.2, if_neg hx, if_neg hx]

variable {entry left surface}

/-- A bitmap that has no column over a surface has nothing for any pixel of it. -/
theorem valueAt?_eq_none_of_endColumn_le (h : endColumn entry surface.width left ≤ firstColumn left)
    {px : Nat} (hx : (px : Int) < Coord.ofSize surface.width) (dy : Int) :
    entry.valueAt? (px - left) dy = none := by
  have hcolumn (y : Nat) : entry.columnByte? (px - left) y = none := by
    rw [RasterGlyph.columnByte?, if_neg]
    simp only [firstColumn, endColumn] at h
    omega
  rw [RasterGlyph.valueAt?]
  rcases entry.valueBelow?_cases (px - left) dy entry.height with ⟨hnone, -⟩ | ⟨y, v, -, -, hv, -⟩
  · exact hnone
  · rw [hcolumn] at hv
    cases hv

variable (entry surface)

/-- A pixel of a surface takes the value that a bitmap has for it, if it stands in a column that is
a coordinate, and keeps its own if there is none. -/
theorem pixel?_place (pen baseline : Int) (px py : Nat) :
    (place surface entry pen baseline).pixel? px py = (surface.pixel? px py).map fun old =>
      if (px : Int) < Coord.ofSize surface.width then
        (entry.valueAt? (px - (pen + entry.left)) (py - (baseline - entry.top))).getD old
      else old := by
  rw [place]
  split
  · next hover =>
    cases surface.pixel? px py with
    | none => rfl
    | some old =>
      rw [Option.map_some]
      split
      · next hx => rw [valueAt?_eq_none_of_endColumn_le hover hx, Option.getD_none]
      · rfl
  · exact pixel?_foldl_placeRow ..

/-- A row that lands on the surface is written there, as far as the surface is wide. -/
theorem pixel?_place_of_row {surface : Bitmap} {entry : RasterGlyph} {pen baseline : Int}
    {x y : Nat} (hheight : (entry.height : Int) ≤ Coord.highest)
    (hx : (x : Int) < Coord.ofSize entry.width) (hrow : entry.HasRow y)
    (hleft : 0 ≤ pen + entry.left + x)
    (hright : pen + entry.left + x < Coord.ofSize surface.width)
    (htop : 0 ≤ baseline - entry.top + y) (hbottom : baseline - entry.top + y < surface.height) :
    (place surface entry pen baseline).pixel? (pen + entry.left + x).toNat
        (baseline - entry.top + y).toNat = entry.coverage? x y := by
  obtain ⟨px, hpx⟩ := Int.eq_ofNat_of_zero_le hleft
  obtain ⟨py, hpy⟩ := Int.eq_ofNat_of_zero_le htop
  have hdx : (px : Int) - (pen + entry.left) = x := by omega
  have hdy : (py : Int) - (baseline - entry.top) = y := by omega
  have hroom : (px : Int) < Coord.ofSize surface.width := by omega
  have hwidth := Coord.ofSize_le surface.width
  have hin : (surface.pixel? px py).isSome = true := by
    rw [Bitmap.isSome_pixel?]
    omega
  obtain ⟨old, hold⟩ := Option.isSome_iff_exists.1 hin
  obtain ⟨v, -, hcoverage, -⟩ := RasterGlyph.columnByte?_of_hasRow hrow hx
  rw [hpx, hpy, Int.toNat_natCast, Int.toNat_natCast, pixel?_place, hold, Option.map_some,
    if_pos hroom, hdx, hdy, RasterGlyph.valueAt?_of_hasRow hheight hrow hx, hcoverage,
    Option.getD_some]

end Shaping

end BitmapText
