/-!
# Target coordinates and sizes

Positions, bearings and advances are signed 32-bit pixel counts, and they are kept as plain integers
here. What a text is measured by, and the pen that is moved over it, are running sums of any length:
these are kept within a word (`add`), so they come back at the other end of the range when they pass
one. Edges that a caller may put at the very end of the range stop there (`satAdd`, `satSub`), and a
size that is used as a coordinate is read as a signed word (`ofSize`).

Other sums are exact: where one bitmap stands, and how high a font is. What is proved about them is
about the integers, and so about the words wherever the sums are in the range. Where a result needs
a sum or a size to be in the range, it says so.

Sizes of buffers are unsigned 64-bit words. The product of two sizes loses its high part
(`Size.wrap`) where a bitmap that comes from a face is looked up in its bytes.

## Main definitions

* `Coord.lowest`, `Coord.highest`: the two ends of the range.
* `Coord.wrap`: an integer as a signed word.
* `Coord.add`: the sum of two coordinates, as a signed word.
* `Coord.satAdd`, `Coord.satSub`: sum and difference, stopped at the ends.
* `Coord.ofSize`: an unsigned size read as a coordinate.
* `Size.wrap`: a natural number as an unsigned word.
-/

namespace BitmapText

namespace Coord

def lowest : Int := -2147483648

def highest : Int := 2147483647

/-- `n` is a coordinate. -/
def InRange (n : Int) : Prop := lowest ≤ n ∧ n ≤ highest

instance (n : Int) : Decidable (InRange n) := inferInstanceAs (Decidable (_ ∧ _))

/-! ## Words -/

/-- `n` as a signed word: the coordinate that differs from `n` by a multiple of `2 ^ 32`. -/
def wrap (n : Int) : Int := Int.bmod n 4294967296

/-- `a + b` as a signed word. -/
def add (a b : Int) : Int := wrap (a + b)

/-- A buffer size as a coordinate: sizes from `2 ^ 31` on wrap to negative values. -/
def ofSize (n : Nat) : Int := wrap n

theorem wrap_eq (n : Int) :
    wrap n =
      if n % 4294967296 < 2147483648 then n % 4294967296 else n % 4294967296 - 4294967296 := rfl

theorem wrap_of_inRange {n : Int} (h : InRange n) : wrap n = n := by
  simp only [InRange, lowest, highest] at h
  exact Int.bmod_eq_of_le (by omega) (by omega)

theorem inRange_wrap (n : Int) : InRange (wrap n) := by
  have hlow : -2147483648 ≤ Int.bmod n 4294967296 := Int.le_bmod (by omega)
  have hhigh : Int.bmod n 4294967296 < 2147483648 := Int.bmod_lt (by omega)
  simp only [InRange, lowest, highest, wrap]
  omega

theorem inRange_zero : InRange 0 := by decide

@[simp] theorem wrap_zero : wrap 0 = 0 := wrap_of_inRange inRange_zero

/-- A sum is the same word whether its parts are words already or not. -/
@[simp] theorem add_wrap_left (a b : Int) : add (wrap a) b = add a b := Int.bmod_add_bmod

@[simp] theorem add_wrap_right (a b : Int) : add a (wrap b) = add a b := Int.add_bmod_bmod

/-- A sum inside another one may as well be exact. -/
theorem add_add_left (a b c : Int) : add (add a b) c = add (a + b) c := add_wrap_left ..

theorem add_add_right (a b c : Int) : add a (add b c) = add a (b + c) := add_wrap_right ..

theorem inRange_add (a b : Int) : InRange (add a b) := inRange_wrap (a + b)

theorem add_zero {a : Int} (h : InRange a) : add a 0 = a := by
  rw [add, Int.add_zero, wrap_of_inRange h]

theorem zero_add (a : Int) : add 0 a = wrap a := by
  rw [add, Int.zero_add]

theorem add_assoc (a b c : Int) : add (add a b) c = add a (add b c) := by
  rw [add_add_left, add_add_right, add, add, Int.add_assoc]

theorem add_comm (a b : Int) : add a b = add b a := by
  rw [add, add, Int.add_comm]

/-- Of two words, the sum is the first one only if the second one is zero. -/
theorem add_eq_left_iff {a b : Int} (ha : InRange a) (hb : InRange b) : add a b = a ↔ b = 0 := by
  simp only [InRange, lowest, highest, add, wrap_eq] at *
  omega

theorem ofSize_of_lt {n : Nat} (h : n < 2147483648) : ofSize n = n :=
  wrap_of_inRange ⟨by simp only [lowest]; omega, by simp only [highest]; omega⟩

/-- A size in the range is read as it is. -/
theorem ofSize_of_le {n : Nat} (h : (n : Int) ≤ highest) : ofSize n = n :=
  ofSize_of_lt (by simp only [highest] at h; omega)

theorem ofSize_le (n : Nat) : ofSize n ≤ n := by
  rw [ofSize, wrap_eq]
  omega

/-! ## Edges -/

/-- The coordinate nearest to `n`. -/
def clamp (n : Int) : Int := max lowest (min highest n)

/-- `a + b`, stopped at the ends of the range. -/
def satAdd (a b : Int) : Int := clamp (a + b)

/-- `a - b`, stopped at the ends of the range. -/
def satSub (a b : Int) : Int := clamp (a - b)

theorem clamp_of_inRange {n : Int} (h : InRange n) : clamp n = n := by
  simp only [InRange, clamp, lowest, highest] at *; omega

/-- A saturated sum never passes an in-range upper bound of the exact sum. -/
theorem satAdd_le {a b c : Int} (hc : lowest ≤ c) (h : a + b ≤ c) : satAdd a b ≤ c := by
  simp only [satAdd, clamp, lowest, highest] at *; omega

end Coord

namespace Size

/-- `n` as an unsigned word. -/
def wrap (n : Nat) : Nat := n % 18446744073709551616

theorem wrap_of_lt {n : Nat} (h : n < 18446744073709551616) : wrap n = n := Nat.mod_eq_of_lt h

end Size

end BitmapText
