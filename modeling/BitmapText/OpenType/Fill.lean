import BitmapText.OpenType.Outline
import BitmapText.Single

/-!
# Filling outlines

The bitmap of an outline at a scale. The bitmap covers every pixel that the outline touches, and a
pixel is set when the contours go round its middle. Outlines whose edges lie between pixels are
drawn exactly that way. Like the outlines, the bitmaps are those of `OpenType.Library.standard`, and
no result about faces depends on how they are filled.

## Main definitions

* `OpenType.Scale`: pixels for font units.
* `OpenType.PixelBox`: the pixels that a bitmap covers.
* `OpenType.PixelBox.fill`: the bytes of a bitmap.
-/

namespace BitmapText

namespace OpenType

/-- So many pixels for so many font units. -/
structure Scale where
  pixels : Nat
  units : Nat
deriving Repr, DecidableEq

namespace Scale

/-- The scale at which an em of `units` font units has `perEm` pixels. -/
def ofEm (perEm : Float32) (units : Nat) : Scale :=
  let (pixels, divisor) := (Single.parts perEm).fraction
  if units = 0 then ⟨1, 1⟩ else ⟨pixels.toNat, divisor * units⟩

/-- The last pixel edge that is not above a place. -/
def floor (s : Scale) (place : Int) : Int := place * s.pixels / s.units

/-- The first pixel edge that is not below a place. -/
def ceil (s : Scale) (place : Int) : Int := -(-place * s.pixels / s.units)

/-- The middle of the pixel above an edge lies between two places. -/
def middleLies (s : Scale) (low high edge : Int) : Bool :=
  let middle := (2 * edge + 1) * s.units
  2 * low * s.pixels ≤ middle && middle < 2 * high * s.pixels

end Scale

/-- The pixels between four edges, which count to the right and upwards. -/
structure PixelBox where
  left : Int
  right : Int
  bottom : Int
  top : Int
deriving Repr, DecidableEq

namespace PixelBox

def width (b : PixelBox) : Nat := (b.right - b.left).toNat

def height (b : PixelBox) : Nat := (b.top - b.bottom).toNat

/-- The pixels that a contour touches. -/
def ofContour (s : Scale) (c : Contour) : PixelBox :=
  ⟨s.floor c.xMin, s.ceil c.xMax, s.floor c.yMin, s.ceil c.yMax⟩

def union (a b : PixelBox) : PixelBox :=
  ⟨min a.left b.left, max a.right b.right, min a.bottom b.bottom, max a.top b.top⟩

/-- The pixels that contours touch; without contours there are none. -/
def ofContours (s : Scale) : List Contour → PixelBox
  | [] => ⟨0, 0, 0, 0⟩
  | first :: rest => rest.foldl (fun box c => box.union (ofContour s c)) (ofContour s first)

/-- How often contours go round the middle of the pixel in column `x` of row `y`. -/
def turnsAround (s : Scale) (contours : List Contour) (x y : Int) : Int :=
  contours.foldr (fun c total =>
    if s.middleLies c.xMin c.xMax x && s.middleLies c.yMin c.yMax y then c.turns + total
    else total) 0

/-- The bytes of the bitmap, row after row from the top. -/
def fill (b : PixelBox) (s : Scale) (contours : List Contour) : Array UInt8 :=
  Array.ofFn fun i : Fin (b.width * b.height) =>
    let x := b.left + (i.val % b.width : Nat)
    let y := b.top - 1 - (i.val / b.width : Nat)
    if turnsAround s contours x y = 0 then 0 else 255

end PixelBox

end OpenType

end BitmapText
