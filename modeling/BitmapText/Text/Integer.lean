/-!
# Integers in a command line

The decimal text of a signed 32-bit number: digits behind at most one sign. Reading goes from left
to right and stops at the first character that is wrong or makes the number too large.

## Main definitions

* `Text.IntegerError`: why a text is no number.
* `Text.parseInteger`: the number of a text.
-/

namespace BitmapText

namespace Text

/-- Why a text is no number. -/
inductive IntegerError where
  | empty
  | invalidDigit
  | tooLarge
  | tooSmall
deriving Repr, DecidableEq

def IntegerError.message : IntegerError → String
  | empty => "cannot parse integer from empty string"
  | invalidDigit => "invalid digit found in string"
  | tooLarge => "number too large to fit in target type"
  | tooSmall => "number too small to fit in target type"

/-- Append digits to a number that is not negative, up to `2147483647`. -/
def appendDigits (n : Int) : List Char → Except IntegerError Int
  | [] => .ok n
  | c :: rest =>
    if ¬ c.isDigit then .error .invalidDigit
    else
      let next := n * 10 + (c.toNat - '0'.toNat : Nat)
      if 2147483647 < next then .error .tooLarge else appendDigits next rest

/-- Append digits to a number that is not positive, down to `-2147483648`. -/
def appendNegativeDigits (n : Int) : List Char → Except IntegerError Int
  | [] => .ok n
  | c :: rest =>
    if ¬ c.isDigit then .error .invalidDigit
    else
      let next := n * 10 - (c.toNat - '0'.toNat : Nat)
      if next < -2147483648 then .error .tooSmall else appendNegativeDigits next rest

def parseInteger (s : String) : Except IntegerError Int :=
  match s.toList with
  | [] => .error .empty
  | ['+'] => .error .invalidDigit
  | ['-'] => .error .invalidDigit
  | '+' :: digits => appendDigits 0 digits
  | '-' :: digits => appendNegativeDigits 0 digits
  | digits => appendDigits 0 digits

end Text

end BitmapText
