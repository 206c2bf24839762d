import BitmapText.Text.Integer

/-!
# Decimal numbers of 32 bits

Which texts are numbers, said without the reading: digits behind at most one sign, whose value is
one of 32 bits. Reading stops at the first digit that makes the number too large, which is right
because the digits behind it cannot make it smaller again.

## Main definitions

* `Text.IsInteger`: a text and the number it writes.

## Main statements

* `Text.parseInteger_eq_ok_iff`: these are the texts that can be read, with these numbers.
-/

namespace BitmapText

namespace Text

/-- `s` writes `n` with decimal digits and at most one sign, and `n` is a number of 32 bits. -/
def IsInteger (s : String) (n : Int) : Prop :=
  -2147483648 ≤ n ∧ n ≤ 2147483647 ∧ ∃ digits : List Char, digits ≠ [] ∧
    (∀ c ∈ digits, c.isDigit = true) ∧
    ((s.toList = digits ∨ s.toList = '+' :: digits) ∧ n = Nat.ofDigitChars 10 digits 0 ∨
      s.toList = '-' :: digits ∧ n = -Nat.ofDigitChars 10 digits 0)

/-! ## Digits -/

/-- Digits that are appended do not make a number smaller. -/
theorem le_ofDigitChars (cs : List Char) (m : Nat) : m ≤ Nat.ofDigitChars 10 cs m := by
  induction cs generalizing m with
  | nil => exact Nat.le_refl m
  | cons c rest ih =>
    rw [Nat.ofDigitChars_cons]
    exact Nat.le_trans (by omega) (ih _)

theorem appendDigits_eq_ok_iff (cs : List Char) {m : Nat} {n : Int} (hm : m ≤ 2147483647) :
    appendDigits m cs = .ok n ↔
      (∀ c ∈ cs, c.isDigit = true) ∧ n = Nat.ofDigitChars 10 cs m ∧ n ≤ 2147483647 := by
  induction cs generalizing m with
  | nil =>
    rw [appendDigits, Nat.ofDigitChars_nil]
    constructor
    · intro h
      obtain rfl := Except.ok.inj h
      exact ⟨by simp, rfl, by omega⟩
    · rintro ⟨-, rfl, -⟩
      rfl
  | cons c rest ih =>
    have hnext : (m : Int) * 10 + (c.toNat - '0'.toNat : Nat) =
        ((10 * m + (c.toNat - '0'.toNat) : Nat) : Int) := by omega
    rw [appendDigits, hnext, Nat.ofDigitChars_cons, List.forall_mem_cons]
    have hle := le_ofDigitChars rest (10 * m + (c.toNat - '0'.toNat))
    generalize 10 * m + (c.toNat - '0'.toNat) = next at hle
    by_cases hc : c.isDigit = true
    · by_cases hlarge : 2147483647 < (next : Int)
      · simp only [hc, not_true, if_false, if_pos hlarge, reduceCtorEq, false_iff]
        omega
      · simp only [hc, not_true, if_false, if_neg hlarge, true_and]
        exact ih (by omega)
    · simp [hc]

theorem appendNegativeDigits_eq_ok_iff (cs : List Char) {m : Nat} {n : Int} (hm : m ≤ 2147483648) :
    appendNegativeDigits (-m) cs = .ok n ↔
      (∀ c ∈ cs, c.isDigit = true) ∧ n = -Nat.ofDigitChars 10 cs m ∧ -2147483648 ≤ n := by
  induction cs generalizing m with
  | nil =>
    rw [appendNegativeDigits, Nat.ofDigitChars_nil]
    constructor
    · intro h
      obtain rfl := Except.ok.inj h
      exact ⟨by simp, rfl, by omega⟩
    · rintro ⟨-, rfl, -⟩
      rfl
  | cons c rest ih =>
    have hnext : -(m : Int) * 10 - (c.toNat - '0'.toNat : Nat) =
        -((10 * m + (c.toNat - '0'.toNat) : Nat) : Int) := by omega
    rw [appendNegativeDigits, hnext, Nat.ofDigitChars_cons, List.forall_mem_cons]
    have hle := le_ofDigitChars rest (10 * m + (c.toNat - '0'.toNat))
    generalize 10 * m + (c.toNat - '0'.toNat) = next at hle
    by_cases hc : c.isDigit = true
    · by_cases hsmall : -(next : Int) < -2147483648
      · simp only [hc, not_true, if_false, if_pos hsmall, reduceCtorEq, false_iff]
        omega
      · simp only [hc, not_true, if_false, if_neg hsmall, true_and]
        exact ih (by omega)
    · simp [hc]

/-! ## Signs -/

theorem ne_sign_cons {digits : List Char} (h : ∀ c ∈ digits, c.isDigit = true) (rest : List Char) :
    digits ≠ '+' :: rest ∧ digits ≠ '-' :: rest := by
  constructor
  · rintro rfl
    exact absurd (h '+' List.mem_cons_self) (by decide)
  · rintro rfl
    exact absurd (h '-' List.mem_cons_self) (by decide)

/-- The texts that can be read are those that write a number of 32 bits, and it is the number that
is read. -/
theorem parseInteger_eq_ok_iff {s : String} {n : Int} :
    parseInteger s = .ok n ↔ IsInteger s n := by
  unfold parseInteger IsInteger
  generalize s.toList = cs
  split
  case h_1 => grind
  -- A sign alone has no digits.
  case h_2 | h_3 =>
    refine iff_of_false (by simp) ?_
    rintro ⟨-, -, digits, hne, hdigits, h⟩
    grind [ne_sign_cons hdigits []]
  case h_4 digits hne =>
    refine (appendDigits_eq_ok_iff digits (m := 0) (by decide)).trans ⟨?_, ?_⟩
    · rintro ⟨hdigits, hn, hle⟩
      exact ⟨by omega, hle, digits, hne, hdigits, .inl ⟨.inr rfl, hn⟩⟩
    · rintro ⟨-, hle, digits', -, hdigits, h⟩
      grind [ne_sign_cons hdigits digits]
  case h_5 digits hne =>
    refine (appendNegativeDigits_eq_ok_iff digits (m := 0) (by decide)).trans ⟨?_, ?_⟩
    · rintro ⟨hdigits, hn, hle⟩
      exact ⟨hle, by omega, digits, hne, hdigits, .inr ⟨rfl, hn⟩⟩
    · rintro ⟨hle, -, digits', -, hdigits, h⟩
      grind [ne_sign_cons hdigits digits]
  case h_6 hne _ _ hplus hminus =>
    refine (appendDigits_eq_ok_iff cs (m := 0) (by decide)).trans ⟨?_, ?_⟩
    · rintro ⟨hdigits, hn, hle⟩
      exact ⟨by omega, hle, cs, hne, hdigits, .inl ⟨.inl rfl, hn⟩⟩
    · rintro ⟨-, hle, digits', -, hdigits, h⟩
      grind

end Text

end BitmapText
