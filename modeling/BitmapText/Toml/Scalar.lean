import BitmapText.Toml.Characters
import BitmapText.Toml.Value

/-!
# Values without quotes

Integers, numbers with a fraction, booleans, dates and times: values that are written as one word.
A date may be followed by a space and a time, which makes it two words.

## Main definitions

* `Toml.integer?`: decimal, hexadecimal, octal and binary integers of 64 bits.
* `Toml.isFloat`: numbers with a fraction or an exponent.
* `Toml.isDatetime`: dates, times, and both together.
* `Toml.scalar?`: a value in front of other text.
-/

namespace BitmapText

namespace Toml

/-! ## Digits -/

def ungroup (isDigit : Char → Bool) : List Char → Option (List Char)
  | [] => none
  | [c] => if isDigit c then some [c] else none
  | c :: '_' :: rest => if isDigit c then (ungroup isDigit rest).map (c :: ·) else none
  | c :: rest => if isDigit c then (ungroup isDigit rest).map (c :: ·) else none

/-- `c` is a decimal digit. -/
def isDecimal (c : Char) : Bool := '0' ≤ c && c ≤ '9'

/-- `c` is a hexadecimal digit. -/
def isHexadecimal (c : Char) : Bool :=
  isDecimal c || ('a' ≤ c && c ≤ 'f') || ('A' ≤ c && c ≤ 'F')

/-- `c` is an octal digit. -/
def isOctal (c : Char) : Bool := '0' ≤ c && c ≤ '7'

/-- `c` is a binary digit. -/
def isBinary (c : Char) : Bool := c = '0' || c = '1'

def digitValue (c : Char) : Nat :=
  if c ≤ '9' then c.toNat - 0x30
  else if c ≤ 'F' then c.toNat - 0x41 + 10
  else c.toNat - 0x61 + 10

def natOfDigits (base : Nat) (digits : List Char) : Nat :=
  digits.foldl (fun n c => n * base + digitValue c) 0

/-- The digits of a decimal number, which starts with `0` only if that is all. -/
def decimalDigits? (cs : List Char) : Option (List Char) :=
  match ungroup isDecimal cs with
  | some ('0' :: _ :: _) => none
  | some digits => if cs.head? = some '0' ∧ 1 < cs.length then none else some digits
  | none => none

/-- A sign, if there is one, and the rest; a minus is `true`. -/
def splitSign : List Char → Bool × List Char
  | '-' :: rest => (true, rest)
  | '+' :: rest => (false, rest)
  | cs => (false, cs)

/-! ## Integers -/

/-- `n` is an integer of 64 bits. -/
def isInteger64 (n : Int) : Bool := -9223372036854775808 ≤ n && n ≤ 9223372036854775807

/-- `n` if it is an integer of 64 bits. -/
def integer64? (n : Int) : Option Int := if isInteger64 n then some n else none

def integer? (word : List Char) : Option Int :=
  match word with
  | '0' :: 'x' :: rest =>
    (ungroup isHexadecimal rest).bind fun ds => integer64? (natOfDigits 16 ds)
  | '0' :: 'o' :: rest => (ungroup isOctal rest).bind fun ds => integer64? (natOfDigits 8 ds)
  | '0' :: 'b' :: rest => (ungroup isBinary rest).bind fun ds => integer64? (natOfDigits 2 ds)
  | _ =>
    match splitSign word with
    | (negative, digits) =>
      (decimalDigits? digits).bind fun ds =>
        let n : Int := natOfDigits 10 ds
        integer64? (if negative then -n else n)

/-! ## Numbers with a fraction -/

/-- The least number that rounds to infinity in double precision. -/
def doubleOverflow : Nat := Nat.pow 2 1024 - Nat.pow 2 970

/-- `mantissa * 10 ^ exponent` rounds to infinity in double precision. The number of digits alone
settles it far from the limit. -/
def overflowsDouble (mantissa : Nat) (exponent : Int) : Bool :=
  let magnitude : Int := (Nat.toDigits 10 mantissa).length + exponent
  if mantissa = 0 ∨ magnitude < 300 then false
  else if 320 < magnitude then true
  else if 0 ≤ exponent then decide (doubleOverflow ≤ mantissa * Nat.pow 10 exponent.toNat)
  else decide (doubleOverflow * Nat.pow 10 (-exponent).toNat ≤ mantissa)

/-- The digits after the point, and what follows them. Without a point there are none. -/
def fraction? (cs : List Char) : Option (List Char × List Char) :=
  match cs with
  | '.' :: rest =>
    match rest.span (fun c => isDecimal c || c = '_') with
    | (digits, rest) => (ungroup isDecimal digits).map (·, rest)
  | _ => some ([], cs)

/-- The exponent, which ends the word. Without one it is zero. -/
def exponent? (cs : List Char) : Option Int :=
  match cs with
  | [] => some 0
  | e :: rest =>
    if e = 'e' ∨ e = 'E' then
      match splitSign rest with
      | (negative, digits) =>
        (ungroup isDecimal digits).map fun ds =>
          let n : Int := natOfDigits 10 ds
          if negative then -n else n
    else none

/-- A word is a number with a fraction or an exponent. A positive number that is too large for
double precision is none. -/
def isFloat (word : List Char) : Bool :=
  match splitSign word with
  | (negative, body) =>
    if body = ['i', 'n', 'f'] ∨ body = ['n', 'a', 'n'] then true
    else
      match body.span (fun c => isDecimal c || c = '_') with
      | (whole, rest) =>
        match decimalDigits? whole, fraction? rest with
        | some wholeDigits, some (fractionDigits, tail) =>
          match exponent? tail with
          | some e =>
            !rest.isEmpty &&
              (negative || !overflowsDouble (natOfDigits 10 (wholeDigits ++ fractionDigits))
                (e - fractionDigits.length))
          | none => false
        | _, _ => false

/-! ## Dates and times -/

def twoDigits? (a b : Char) : Option Nat :=
  if isDecimal a ∧ isDecimal b then some (natOfDigits 10 [a, b]) else none

def daysInMonth (year month : Nat) : Nat :=
  if month = 2 then
    if year % 4 = 0 ∧ (year % 100 ≠ 0 ∨ year % 400 = 0) then 29 else 28
  else if month = 4 ∨ month = 6 ∨ month = 9 ∨ month = 11 then 30
  else 31

/-- What follows a date, if `cs` starts with one. -/
def date? : List Char → Option (List Char)
  | y₁ :: y₂ :: y₃ :: y₄ :: '-' :: m₁ :: m₂ :: '-' :: d₁ :: d₂ :: rest =>
    match twoDigits? y₁ y₂, twoDigits? y₃ y₄, twoDigits? m₁ m₂, twoDigits? d₁ d₂ with
    | some century, some year, some month, some day =>
      if 1 ≤ month ∧ month ≤ 12 ∧ 1 ≤ day ∧ day ≤ daysInMonth (century * 100 + year) month then
        some rest
      else none
    | _, _, _, _ => none
  | _ => none

/-- What follows a fraction of a second, if one may stand in front of `cs`. -/
def secondFraction? : List Char → Option (List Char)
  | '.' :: c :: rest => if isDecimal c then some (rest.dropWhile isDecimal) else none
  | '.' :: [] => none
  | cs => some cs

/-- What follows a time of day, if `cs` starts with one. A minute may have a second more. -/
def time? : List Char → Option (List Char)
  | h₁ :: h₂ :: ':' :: m₁ :: m₂ :: ':' :: s₁ :: s₂ :: rest =>
    match twoDigits? h₁ h₂, twoDigits? m₁ m₂, twoDigits? s₁ s₂ with
    | some hour, some minute, some second =>
      if hour ≤ 23 ∧ minute ≤ 59 ∧ second ≤ 60 then secondFraction? rest else none
    | _, _, _ => none
  | _ => none

/-- `cs` is a distance from universal time, or nothing. -/
def isOffset (cs : List Char) : Bool :=
  match cs with
  | [] => true
  | ['Z'] => true
  | ['z'] => true
  | [sign, h₁, h₂, ':', m₁, m₂] =>
    if sign = '+' ∨ sign = '-' then
      match twoDigits? h₁ h₂, twoDigits? m₁ m₂ with
      | some hour, some minute => decide (hour ≤ 23 ∧ minute ≤ 59)
      | _, _ => false
    else false
  | _ => false

/-- A word is a date, a time of day, or a date with a time of day. -/
def isDatetime (word : List Char) : Bool :=
  match date? word with
  | some [] => true
  | some (t :: rest) =>
    if t = 'T' ∨ t = 't' ∨ t = ' ' then
      match time? rest with
      | some tail => isOffset tail
      | none => false
    else false
  | none => time? word = some []

/-! ## Words -/

def scalarOfWord? (word : List Char) : Option Value :=
  if word = ['t', 'r', 'u', 'e'] then some (.boolean true)
  else if word = ['f', 'a', 'l', 's', 'e'] then some (.boolean false)
  else
    match integer? word with
    | some n => some (.integer n)
    | none =>
      if isFloat word then some (.float (String.ofList word))
      else if isDatetime word then some (.datetime (String.ofList word))
      else none

/-- `word` is a date, and `rest` goes on with a space and a digit. -/
def datePauses (word rest : List Char) : Bool :=
  match rest with
  | ' ' :: c :: _ => isDecimal c && date? word = some []
  | _ => false

/-- A value without quotes, if one stands in front, and what follows it. -/
def scalar? (cs : List Char) : Option (Value × List Char) :=
  match cs.span (!isDelimiter ·) with
  | (word, rest) =>
    if datePauses word rest then
      match rest.tail.span (!isDelimiter ·) with
      | (time, rest) => (scalarOfWord? (word ++ ' ' :: time)).map (·, rest)
    else (scalarOfWord? word).map (·, rest)

end Toml

end BitmapText
