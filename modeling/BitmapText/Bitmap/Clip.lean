import BitmapText.Bitmap
import BitmapText.Coord

/-!
# Clip rectangles

A rectangle of target pixels whose right and bottom edges lie outside it, and drawing within one:
each pixel of the canvas inside the clip rectangle keeps the larger of its own value and the value
of the drawn bitmap above it.

## Main definitions

* `ClipRect`: the four edges.
* `Bitmap.draw`: draw a bitmap on another.
-/

namespace BitmapText

/-- A rectangle of target pixels; the right and bottom edges are outside. -/
structure ClipRect where
  left : Int
  top : Int
  right : Int
  bottom : Int
deriving Repr, DecidableEq

namespace ClipRect

/-- The horizontal extent, stopped at the end of the coordinate range. -/
def width (c : ClipRect) : Int := Coord.satSub c.right c.left

/-- The vertical extent, stopped at the end of the coordinate range. -/
def height (c : ClipRect) : Int := Coord.satSub c.bottom c.top

/-- No pixel is inside. -/
def isEmpty (c : ClipRect) : Bool := c.width ≤ 0 || c.height ≤ 0

end ClipRect

namespace Bitmap

/-- Draw `surface` with its top left corner at `(x, y)`, touching only pixels inside `clip`. -/
def draw (canvas surface : Bitmap) (x y : Int) (clip : ClipRect) : Bitmap :=
  let left := max clip.left (max x 0)
  let top := max clip.top (max y 0)
  let right := min clip.right
    (min (Coord.satAdd x (Coord.ofSize surface.width)) (Coord.ofSize canvas.width))
  let bottom := min clip.bottom
    (min (Coord.satAdd y (Coord.ofSize surface.height)) (Coord.ofSize canvas.height))
  canvas.modifyRegion left.toNat top.toNat right.toNat bottom.toNat fun px py old =>
    match surface.pixel? (px - x).toNat (py - y).toNat with
    | some value => max old value
    | none => old

@[simp] theorem width_draw (canvas surface : Bitmap) (x y : Int) (clip : ClipRect) :
    (canvas.draw surface x y clip).width = canvas.width := by
  rw [draw, width_modifyRegion]

@[simp] theorem height_draw (canvas surface : Bitmap) (x y : Int) (clip : ClipRect) :
    (canvas.draw surface x y clip).height = canvas.height := by
  rw [draw, height_modifyRegion]

end Bitmap

end BitmapText
