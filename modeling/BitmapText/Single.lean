/-!
# Single precision numbers, exactly

Sizes and distances of scalable fonts are computed in single precision. This module takes such a
number apart into a mantissa and a power of two, and from there on everything is exact: rounding to
a whole number, and the decimal text with two places.

Whole numbers are clamped to the signed 32-bit range, and what is not a number counts as zero.

## Main definitions

* `Single.Parts`: mantissa and exponent.
* `Single.floor`, `Single.ceil`, `Single.round`: whole numbers near a number.
* `Single.text`: the decimal text.
-/

namespace BitmapText

namespace Single

/-- A number `mantissa * 2 ^ exponent`. -/
structure Parts where
  mantissa : Int
  exponent : Int
deriving Repr, DecidableEq

/-- The parts of a number. Infinities are treated as the next number beyond the largest one. -/
def parts (x : Float32) : Parts :=
  let bits := x.toBits.toNat
  let field := bits / 8388608 % 256
  let fraction := bits % 8388608
  let magnitude : Nat := if field = 0 then fraction else 8388608 + fraction
  let exponent : Int := if field = 0 then -149 else (field : Int) - 150
  if field = 255 ∧ fraction ≠ 0 then ⟨0, 0⟩
  else ⟨if bits < 2147483648 then magnitude else -magnitude, exponent⟩

namespace Parts

/-- The number as a fraction with numerator and denominator. -/
def fraction (p : Parts) : Int × Nat :=
  if 0 ≤ p.exponent then (p.mantissa * (Nat.pow 2 p.exponent.toNat : Nat), 1)
  else (p.mantissa, Nat.pow 2 (-p.exponent).toNat)

def floor (p : Parts) : Int := p.fraction.1 / p.fraction.2

def ceil (p : Parts) : Int := -(-p.fraction.1 / p.fraction.2)

/-- The nearest whole number; a half goes away from zero. -/
def round (p : Parts) : Int :=
  let n := p.fraction.1
  let d := p.fraction.2
  let magnitude := (2 * n.natAbs + d) / (2 * d)
  if n < 0 then -magnitude else magnitude

/-- The nearest number of hundredths; a half goes to the even neighbour. -/
def hundredths (p : Parts) : Nat :=
  let n := p.fraction.1.natAbs * 100
  let d := p.fraction.2
  let below := n / d
  let rest := 2 * (n % d)
  if rest < d then below
  else if d < rest then below + 1
  else below + below % 2

end Parts

def clamp (n : Int) : Int := max (-2147483648) (min 2147483647 n)

/-- The largest whole number that is not above `x`. -/
def floor (x : Float32) : Int := clamp (parts x).floor

/-- The smallest whole number that is not below `x`. -/
def ceil (x : Float32) : Int := clamp (parts x).ceil

/-- The whole number nearest to `x`; a half goes away from zero. -/
def round (x : Float32) : Int := clamp (parts x).round

/-- A whole number of at most 16 bits and a sign. -/
def ofInt (n : Int) : Float32 :=
  if n < 0 then -(UInt32.ofNat n.natAbs).toFloat32 else (UInt32.ofNat n.natAbs).toFloat32

/-- The decimal text of a number that is not negative, with two places. -/
def text (x : Float32) : String :=
  let n := (parts x).hundredths
  toString (n / 100) ++ "." ++ toString (n / 10 % 10) ++ toString (n % 10)

end Single

end BitmapText
