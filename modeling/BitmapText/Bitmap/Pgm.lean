import BitmapText.Bitmap

/-!
# Binary graymaps

The binary PGM form of a bitmap: a header of three lines (magic number, size, largest value) and
then the values, row by row. Beside it stands a reader of such graymaps that knows nothing of
bitmaps: the magic number, three decimal numbers with blanks before them, one blank, and then the
values, row after row.

## Main definitions

* `Bitmap.toPgm`: the encoding.
* `Graymap`: a size and rows of values.
* `Graymap.read?`: the graymap at the start of some bytes, and the bytes behind it.
-/

namespace BitmapText

namespace Bitmap

def pgmHeader (width height : Nat) : String :=
  "P5\n" ++ toString width ++ " " ++ toString height ++ "\n255\n"

def toPgm (b : Bitmap) : Array UInt8 :=
  (pgmHeader b.width b.height).toUTF8.data ++ b.data

end Bitmap

/-- A graymap that has been read. -/
structure Graymap where
  width : Nat
  height : Nat
  /-- The values from the top row to the bottom one. -/
  rows : List (List UInt8)
deriving Repr, DecidableEq

namespace Graymap

def pixel? (image : Graymap) (x y : Nat) : Option UInt8 := image.rows[y]?.bind fun row => row[x]?

/-! ## Reading -/

/-- A blank, a tab, or one of the ends of a line or page. -/
def isBlank (byte : UInt8) : Bool := byte = 32 || 9 ≤ byte && byte ≤ 13

def isDigit (byte : UInt8) : Bool := 48 ≤ byte && byte ≤ 57

/-- The number that some digits write. -/
def valueOfDigits (digits : List UInt8) : Nat :=
  digits.foldl (fun n digit => 10 * n + (digit.toNat - 48)) 0

/-- The decimal number at the start, and what follows it. -/
def number? (bytes : List UInt8) : Option (Nat × List UInt8) :=
  let digits := bytes.takeWhile isDigit
  if digits = [] then none else some (valueOfDigits digits, bytes.dropWhile isDigit)

/-- What follows the blanks at the start, of which there has to be one. -/
def skipBlanks? : List UInt8 → Option (List UInt8)
  | byte :: rest => if isBlank byte then some (rest.dropWhile isBlank) else none
  | [] => none

/-- The blank at the start taken away. -/
def skipBlank? : List UInt8 → Option (List UInt8)
  | byte :: rest => if isBlank byte then some rest else none
  | [] => none

/-- So many rows of `width` values, and what follows them. -/
def rows? (width : Nat) : Nat → List UInt8 → Option (List (List UInt8) × List UInt8)
  | 0, bytes => some ([], bytes)
  | height + 1, bytes =>
    if bytes.length < width then none
    else
      (rows? width height (bytes.drop width)).map fun (rows, rest) =>
        (bytes.take width :: rows, rest)

/-- The graymap at the start of some bytes, with values up to 255, and what follows it. -/
def read? : List UInt8 → Option (Graymap × List UInt8)
  | 80 :: 53 :: bytes => do
    let (width, bytes) ← number? (← skipBlanks? bytes)
    let (height, bytes) ← number? (← skipBlanks? bytes)
    let (largest, bytes) ← number? (← skipBlanks? bytes)
    if largest ≠ 255 then none
    let (rows, rest) ← rows? width height (← skipBlank? bytes)
    return ({ width, height, rows }, rest)
  | _ => none

end Graymap

end BitmapText
