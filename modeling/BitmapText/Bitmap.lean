/-!
# Coverage bitmaps

A rectangle of 8-bit coverage values, kept row by row without gaps. Composited strings are bitmaps,
and so are the canvases they are drawn on.

The area is a natural number here. A program can only hold a bitmap whose area fits into a 64-bit
word; a bitmap that is larger has no counterpart there, and what is said of it says nothing about a
program.

## Main definitions

* `Bitmap`: the type; the number of bytes always is the area.
* `Bitmap.blank`: no coverage anywhere.
* `Bitmap.pixel?`: the coverage at a position.
* `Bitmap.modifyRegion`: change the pixels of a rectangle.
* `Bitmap.write`: replace a part of a row.
* `Bitmap.inkedRows`: the rows down to the last one with coverage.
-/

namespace BitmapText

/-- A rectangle of coverage values. -/
structure Bitmap where
  width : Nat
  height : Nat
  data : Array UInt8
  size_data : data.size = width * height
deriving DecidableEq

namespace Bitmap

/-- No coverage anywhere. A program has this bitmap only if `width * height` fits into 64 bits. -/
def blank (width height : Nat) : Bitmap where
  width := width
  height := height
  data := Array.replicate (width * height) 0
  size_data := by simp

instance : Inhabited Bitmap := ⟨blank 0 0⟩

/-- The coverage at column `x` of row `y`, or `none` outside the bitmap. -/
def pixel? (b : Bitmap) (x y : Nat) : Option UInt8 :=
  if x < b.width ∧ y < b.height then b.data[y * b.width + x]? else none

def byteSize (b : Bitmap) : Nat := b.data.size

/-- The values of row `y`; empty below the last row. -/
def row (b : Bitmap) (y : Nat) : Array UInt8 :=
  b.data.extract (y * b.width) (y * b.width + b.width)

/-! ## Changing a rectangle -/

/-- Apply `f i` to the value at `start + i`, for each `i` below `count`. -/
def modifyRun (data : Array UInt8) (start count : Nat) (f : Nat → UInt8 → UInt8) : Array UInt8 :=
  count.fold (fun i _ d => d.modify (start + i) (f i)) data

@[simp] theorem size_modifyRun (data : Array UInt8) (start count : Nat)
    (f : Nat → UInt8 → UInt8) : (modifyRun data start count f).size = data.size := by
  induction count with
  | zero => rfl
  | succ n ih => simpa [modifyRun, Nat.fold_succ] using ih

/-- Apply `f` to the runs of `count` values that start at `start`, at `start + stride`, and so on,
`rows` of them. -/
def modifyRuns (data : Array UInt8) (start stride count rows : Nat)
    (f : Nat → Nat → UInt8 → UInt8) : Array UInt8 :=
  rows.fold (fun j _ d => modifyRun d (start + j * stride) count fun i => f i j) data

@[simp] theorem size_modifyRuns (data : Array UInt8) (start stride count rows : Nat)
    (f : Nat → Nat → UInt8 → UInt8) :
    (modifyRuns data start stride count rows f).size = data.size := by
  induction rows with
  | zero => rfl
  | succ n ih => simpa [modifyRuns, Nat.fold_succ] using ih

/-- Apply `f x y` to each value of the rectangle from column `left` of row `top` up to, and without,
column `right` and row `bottom`. Positions outside the bitmap are passed over. -/
def modifyRegion (b : Bitmap) (left top right bottom : Nat) (f : Nat → Nat → UInt8 → UInt8) :
    Bitmap where
  width := b.width
  height := b.height
  data := modifyRuns b.data (top * b.width + left) b.width (min right b.width - left)
    (min bottom b.height - top) fun i j => f (left + i) (top + j)
  size_data := by simp [b.size_data]

/-- Replace the values of row `y` from column `x` on. Values that would lie outside the bitmap are
left out. -/
def write (b : Bitmap) (x y : Nat) (values : Array UInt8) : Bitmap :=
  b.modifyRegion x y (x + values.size) (y + 1) fun column _ old => values.getD (column - x) old

/-! ## Ink -/

/-- Row `y` has some coverage. -/
def isInked (b : Bitmap) (y : Nat) : Bool := (b.row y).any (· != 0)

/-- The number of rows above `n`, down to the last one with coverage. -/
def inkedRowsBelow (b : Bitmap) : Nat → Nat
  | 0 => 0
  | n + 1 => if b.isInked n then n + 1 else b.inkedRowsBelow n

/-- The number of rows down to the last one with coverage. -/
def inkedRows (b : Bitmap) : Nat := b.inkedRowsBelow b.height

/-! ## Small laws -/

@[simp] theorem width_blank (w h : Nat) : (blank w h).width = w := rfl

@[simp] theorem height_blank (w h : Nat) : (blank w h).height = h := rfl

@[simp] theorem byteSize_eq (b : Bitmap) : b.byteSize = b.width * b.height := b.size_data

@[simp] theorem width_modifyRegion (b : Bitmap) (l t r d : Nat) (f : Nat → Nat → UInt8 → UInt8) :
    (b.modifyRegion l t r d f).width = b.width := rfl

@[simp] theorem height_modifyRegion (b : Bitmap) (l t r d : Nat) (f : Nat → Nat → UInt8 → UInt8) :
    (b.modifyRegion l t r d f).height = b.height := rfl

@[simp] theorem width_write (b : Bitmap) (x y : Nat) (values : Array UInt8) :
    (b.write x y values).width = b.width := rfl

@[simp] theorem height_write (b : Bitmap) (x y : Nat) (values : Array UInt8) :
    (b.write x y values).height = b.height := rfl

/-- A row ends within the bytes of its bitmap. -/
theorem row_end_le (b : Bitmap) {y : Nat} (hy : y < b.height) :
    y * b.width + b.width ≤ b.data.size := by
  calc y * b.width + b.width = (y + 1) * b.width := by rw [Nat.add_mul, Nat.one_mul]
    _ ≤ b.height * b.width := Nat.mul_le_mul_right _ hy
    _ = b.data.size := by rw [b.size_data, Nat.mul_comm]

/-- A position has a pixel exactly when it lies inside. -/
theorem isSome_pixel? (b : Bitmap) (x y : Nat) :
    (b.pixel? x y).isSome = true ↔ x < b.width ∧ y < b.height := by
  unfold pixel?
  split
  · next hin =>
    have hend := b.row_end_le hin.2
    have hbyte : y * b.width + x < b.data.size := by omega
    simp [hbyte, hin]
  · simp_all

/-- A position that has a value lies inside. -/
theorem lt_of_pixel?_eq_some {b : Bitmap} {x y : Nat} {v : UInt8} (h : b.pixel? x y = some v) :
    x < b.width ∧ y < b.height :=
  (isSome_pixel? b x y).1 (by rw [h]; rfl)

end Bitmap

end BitmapText
