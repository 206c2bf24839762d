import BitmapText.OpenType.Data

/-!
# Glyph outlines

The contours of a glyph in font units. A glyph may have none, and a font may lack the outline of a
glyph altogether.

Contours are kept by the rectangle around them and by the direction in which they turn: fonts whose
contours are upright rectangles are drawn exactly from that. This is part of the small library that
programs of this project run with, `OpenType.Library.standard`; results about faces are stated for
any library and do not depend on it.

## Main definitions

* `OpenType.Contour`: the rectangle and the direction of a contour.
* `OpenType.outline?`: the contours of a glyph.
* `OpenType.layers?`: the glyphs of which a coloured glyph is made.
-/

namespace BitmapText

namespace OpenType

/-- A contour, by the rectangle around it. -/
structure Contour where
  xMin : Int
  xMax : Int
  yMin : Int
  yMax : Int
  /-- How often, and in which direction, the contour goes round what is inside. -/
  turns : Int
deriving Repr, DecidableEq

/-- A corner of a contour. -/
structure Point where
  x : Int
  y : Int
deriving Repr, DecidableEq

namespace Contour

/-- Twice the area that the walk along these points, and back to `first`, leaves to its left. -/
def area (first : Point) : List Point → Int
  | [] => 0
  | [last] => last.x * first.y - first.x * last.y
  | p :: q :: rest => p.x * q.y - q.x * p.y + area first (q :: rest)

def ofPoints? (points : List Point) : Option Contour :=
  match points with
  | [] => none
  | first :: rest => some
    { xMin := rest.foldl (fun m p => min m p.x) first.x
      xMax := rest.foldl (fun m p => max m p.x) first.x
      yMin := rest.foldl (fun m p => min m p.y) first.y
      yMax := rest.foldl (fun m p => max m p.y) first.y
      turns := (area first points).sign }

end Contour

/-! ## Reading an outline -/

/-- The flags of `count` points from a position on, and where they end. A flag may stand for several
points in a row. -/
def readFlags (d : Data) (pos count : Nat) : Option (List Nat × Nat) :=
  match count with
  | 0 => some ([], pos)
  | count + 1 =>
    match u8? d pos with
    | none => none
    | some flag =>
      if flag / 8 % 2 = 1 then
        match u8? d (pos + 1) with
        | none => none
        | some more =>
          let run := min more count
          (readFlags d (pos + 2) (count - run)).map fun (flags, stop) =>
            (List.replicate (run + 1) flag ++ flags, stop)
      else
        (readFlags d (pos + 1) count).map fun (flags, stop) => (flag :: flags, stop)
termination_by count

/-- The coordinates of the points with these flags, and where they end. The bit `short` of a flag
tells that the step from the point before takes one byte; the bit `same` is then its sign, and tells
otherwise that there is no step. -/
def readCoordinates (d : Data) (short same : Nat) (pos : Nat) (before : Int) :
    List Nat → Option (List Int × Nat)
  | [] => some ([], pos)
  | flag :: flags =>
    let step : Option (Int × Nat) :=
      if flag / short % 2 = 1 then
        (u8? d pos).map fun n => (if flag / same % 2 = 1 then (n : Int) else -n, pos + 1)
      else if flag / same % 2 = 1 then some (0, pos)
      else (i16? d pos).map fun n => (n, pos + 2)
    match step with
    | none => none
    | some (delta, next) =>
      (readCoordinates d short same next (before + delta) flags).map fun (others, stop) =>
        ((before + delta) :: others, stop)

/-- The numbers of the last points of `count` contours. -/
def readEnds (d : Data) (pos : Nat) : Nat → Option (List Nat)
  | 0 => some []
  | count + 1 =>
    match u16? d pos with
    | none => none
    | some last => (readEnds d (pos + 2) count).map (last :: ·)

/-- Split points into contours; `taken` points have been used. -/
def splitContours (points : List Point) (taken : Nat) : List Nat → List (List Point)
  | [] => []
  | last :: ends =>
    points.take (last + 1 - taken) ::
      splitContours (points.drop (last + 1 - taken)) (last + 1) ends

/-- The contours of the outline that starts at a position. -/
def readOutline (d : Data) (start : Nat) : Option (List Contour) :=
  match i16? d start with
  | none => none
  | some count =>
    if count < 0 then none
    else
      let ends := start + 10
      let instructions := ends + 2 * count.toNat
      match readEnds d ends count.toNat, u16? d instructions with
      | some [], _ => some []
      | some lasts, some length =>
        let points := lasts.getLast?.elim 0 (· + 1)
        match readFlags d (instructions + 2 + length) points with
        | none => none
        | some (flags, afterFlags) =>
          match readCoordinates d 2 16 afterFlags 0 flags with
          | none => none
          | some (xs, afterXs) =>
            match readCoordinates d 4 32 afterXs 0 flags with
            | none => none
            | some (ys, _) =>
              let corners := (xs.zip ys).map fun (x, y) => Point.mk x y
              some ((splitContours corners 0 lasts).filterMap Contour.ofPoints?)
      | _, _ => none

/-- Where the outline of a glyph lies, by the location table in its short or long form. -/
def location? (d : Data) (start glyph : Nat) (long : Bool) : Option (Nat × Nat) :=
  if long then
    match u32? d (start + 4 * glyph), u32? d (start + 4 * glyph + 4) with
    | some first, some stop => some (first, stop)
    | _, _ => none
  else
    match u16? d (start + 2 * glyph), u16? d (start + 2 * glyph + 2) with
    | some first, some stop => some (2 * first, 2 * stop)
    | _, _ => none

def glyphCount? (d : Data) (directory : Nat) : Option Nat :=
  match wholeTable? d directory "maxp" 0 with
  | some start => u16? d (start + 4)
  | none => none

def outline? (d : Data) (directory glyph : Nat) : Option (List Contour) :=
  match glyphCount? d directory, wholeTable? d directory "head" 0, table? d directory "loca",
      table? d directory "glyf" with
  | some count, some head, some loca, some glyf =>
    if glyph < count then
      match u16? d (head + 50) with
      | none => none
      | some form =>
        match location? d loca.start glyph (form ≠ 0) with
        | none => none
        | some (first, stop) =>
          if first < stop then readOutline d (glyf.start + first) else some []
    else none
  | _, _, _, _ => none

/-! ## Coloured glyphs -/

/-- The layers of a coloured glyph among `count` records from a position on: the first one and their
number. -/
def searchBase (d : Data) (glyph pos : Nat) : Nat → Option (Nat × Nat)
  | 0 => none
  | count + 1 =>
    match u16? d pos, u16? d (pos + 2), u16? d (pos + 4) with
    | some base, some first, some layers =>
      if base = glyph then some (first, layers) else searchBase d glyph (pos + 6) count
    | _, _, _ => none

/-- The glyphs of `count` layers from a position on. -/
def readLayers (d : Data) (pos : Nat) : Nat → Option (List Nat)
  | 0 => some []
  | count + 1 =>
    match u16? d pos with
    | none => none
    | some glyph => (readLayers d (pos + 4) count).map (glyph :: ·)

/-- The glyphs of which a coloured glyph is made, if it is coloured and the font has colours. -/
def layers? (d : Data) (directory glyph : Nat) : Option (List Nat) :=
  match table? d directory "COLR", table? d directory "CPAL" with
  | some colr, some _ =>
    match u16? d colr.start, u16? d (colr.start + 2), u32? d (colr.start + 4),
        u32? d (colr.start + 8) with
    | some 0, some count, some bases, some layers =>
      match searchBase d glyph (colr.start + bases) count with
      | some (first, number) => readLayers d (colr.start + layers + 4 * first) number
      | none => none
    | _, _, _, _ => none
  | _, _ => none

end OpenType

end BitmapText
