import BitmapText.Bitmap

/-!
# Pixels of a changed rectangle

Changing the values of a rectangle changes the pixels inside the rectangle and no others. The bytes
of a bitmap stand row after row, so a pixel is found by what stands before its row and its column.

## Main statements

* `Bitmap.getElem?_modifyRun`, `Bitmap.getElem?_modifyRuns`: which bytes are changed.
* `Bitmap.pixel?_modifyRegion`: which pixels are changed.
* `Bitmap.pixel?_write`: the pixels of a row that is written to.
-/

namespace BitmapText

namespace Bitmap

/-- A run changes the values at its places. -/
theorem getElem?_modifyRun (data : Array UInt8) (start count : Nat) (f : Nat → UInt8 → UInt8)
    (k : Nat) :
    (modifyRun data start count f)[k]? =
      data[k]?.map fun old =>
        if start ≤ k ∧ k < start + count then f (k - start) old else old := by
  induction count with
  | zero =>
    have hout : ¬ (start ≤ k ∧ k < start + 0) := by omega
    simp only [modifyRun, Nat.fold_zero, if_neg hout, Option.map_id']
  | succ n ih =>
    have hstep : modifyRun data start (n + 1) f =
        (modifyRun data start n f).modify (start + n) (f n) := by
      simp only [modifyRun, Nat.fold_succ]
    rw [hstep, Array.getElem?_modify]
    split
    · next hk =>
      -- The last place of the run, which the places before leave as it is.
      subst hk
      have hbefore : ¬ (start ≤ start + n ∧ start + n < start + n) := by omega
      have hnow : start ≤ start + n ∧ start + n < start + (n + 1) := by omega
      rw [ih, Option.map_map]
      simp only [if_neg hbefore, if_pos hnow, Nat.add_sub_cancel_left, Function.comp_def]
    · next hk =>
      have hsame : (start ≤ k ∧ k < start + (n + 1)) ↔ start ≤ k ∧ k < start + n := by omega
      simp only [ih, hsame]

/-- Two places that are less than a row behind the starts of their rows are the same place only in
the same row. -/
theorem row_col_eq_iff {w x x' y y' : Nat} (hx : x < w) (hx' : x' < w) :
    y * w + x = y' * w + x' ↔ y = y' ∧ x = x' := by
  constructor
  · intro h
    have hdiv : y = y' := by
      have hleft : (y * w + x) / w = y := by
        rw [Nat.mul_comm, Nat.mul_add_div (by omega), Nat.div_eq_of_lt hx, Nat.add_zero]
      have hright : (y' * w + x') / w = y' := by
        rw [Nat.mul_comm, Nat.mul_add_div (by omega), Nat.div_eq_of_lt hx', Nat.add_zero]
      rw [← hleft, h, hright]
    subst hdiv
    omega
  · rintro ⟨rfl, rfl⟩
    rfl

/-- A run of a row that does not leave the row meets the place of a pixel if it is in that row and
the pixel in its columns. -/
theorem mem_run_iff {w x y left count j : Nat} (hx : x < w) (hrun : 0 < count → left + count ≤ w) :
    (j * w + left ≤ y * w + x ∧ y * w + x < j * w + left + count) ↔
      y = j ∧ left ≤ x ∧ x < left + count := by
  constructor
  · rintro ⟨hle, hlt⟩
    -- The place is the column `c` of row `j`.
    obtain ⟨c, hc⟩ := Nat.exists_eq_add_of_le (Nat.le_trans (Nat.le_add_right _ left) hle)
    have hwidth := hrun (by omega)
    obtain ⟨rfl, rfl⟩ := (row_col_eq_iff hx (by omega)).1 hc
    omega
  · rintro ⟨rfl, hle, hlt⟩
    omega

/-- Runs below each other change the values at the places of a rectangle. -/
theorem getElem?_modifyRuns (data : Array UInt8) {w left count : Nat}
    (hrun : 0 < count → left + count ≤ w) (top rows : Nat) (f : Nat → Nat → UInt8 → UInt8)
    {x y : Nat} (hx : x < w) :
    (modifyRuns data (top * w + left) w count rows f)[y * w + x]? =
      data[y * w + x]?.map fun old =>
        if (left ≤ x ∧ x < left + count) ∧ top ≤ y ∧ y < top + rows then f (x - left) (y - top) old
        else old := by
  induction rows with
  | zero =>
    have hout : ¬ ((left ≤ x ∧ x < left + count) ∧ top ≤ y ∧ y < top + 0) := by omega
    simp only [modifyRuns, Nat.fold_zero, if_neg hout, Option.map_id']
  | succ n ih =>
    have hstep : modifyRuns data (top * w + left) w count (n + 1) f =
        modifyRun (modifyRuns data (top * w + left) w count n f) ((top + n) * w + left) count
          fun i => f i n := by
      have hstart : top * w + left + n * w = (top + n) * w + left := by
        rw [Nat.add_mul]
        omega
      simp only [modifyRuns, Nat.fold_succ, hstart]
    rw [hstep, getElem?_modifyRun, ih, Option.map_map]
    refine congrArg (fun g => Option.map g data[y * w + x]?) (funext fun old => ?_)
    simp only [Function.comp_def, mem_run_iff hx hrun]
    by_cases hrow : y = top + n
    · subst hrow
      have hcol : (top + n) * w + x - ((top + n) * w + left) = x - left := by omega
      grind
    · grind

/-- Changing a rectangle changes the pixels inside it. -/
theorem pixel?_modifyRegion (b : Bitmap) (left top right bottom : Nat)
    (f : Nat → Nat → UInt8 → UInt8) (x y : Nat) :
    (b.modifyRegion left top right bottom f).pixel? x y =
      (b.pixel? x y).map fun old =>
        if (left ≤ x ∧ x < right) ∧ top ≤ y ∧ y < bottom then f x y old else old := by
  unfold pixel?
  rw [width_modifyRegion, height_modifyRegion]
  split
  · next hin =>
    obtain ⟨hx, hy⟩ := hin
    have hrun : 0 < min right b.width - left → left + (min right b.width - left) ≤ b.width := by
      omega
    refine (getElem?_modifyRuns b.data hrun top _ _ hx).trans ?_
    refine congrArg (fun g => Option.map g b.data[y * b.width + x]?) (funext fun old => ?_)
    by_cases hmem : (left ≤ x ∧ x < right) ∧ top ≤ y ∧ y < bottom
    · have hcut : (left ≤ x ∧ x < left + (min right b.width - left)) ∧
          top ≤ y ∧ y < top + (min bottom b.height - top) := by omega
      rw [if_pos hmem, if_pos hcut]
      congr 1 <;> omega
    · have hcut : ¬ ((left ≤ x ∧ x < left + (min right b.width - left)) ∧
          top ≤ y ∧ y < top + (min bottom b.height - top)) := by omega
      rw [if_neg hmem, if_neg hcut]
  · rfl

/-- Values that are written into a row change the pixels under them. -/
theorem pixel?_write (b : Bitmap) (x y : Nat) (values : Array UInt8) (px py : Nat) :
    (b.write x y values).pixel? px py = (b.pixel? px py).map fun old =>
      if py = y ∧ x ≤ px then values[px - x]?.getD old else old := by
  rw [write, pixel?_modifyRegion]
  refine congrArg (fun f => Option.map f (b.pixel? px py)) (funext fun old => ?_)
  by_cases hin : (x ≤ px ∧ px < x + values.size) ∧ y ≤ py ∧ py < y + 1
  · have hin' : py = y ∧ x ≤ px := by omega
    rw [if_pos hin, if_pos hin', Array.getD_eq_getD_getElem?]
  · rw [if_neg hin]
    split
    · next hin' => rw [Array.getElem?_eq_none (by omega), Option.getD_none]
    · rfl

end Bitmap

end BitmapText
