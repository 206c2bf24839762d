import BitmapText.Text.Printable

/-!
# Quoted text

The form in which a text is shown inside a message: between double quotes, with escapes for the
quote, the backslash, four control characters by name, and every other unprintable character by
its number. A single quote stands for itself.

## Main definitions

* `Text.quotedChars`: the characters of the quoted form.
* `Text.quoted`: the quoted form of a text.
-/

namespace BitmapText

namespace Text

/-- `n` in lower-case hexadecimal, without leading zeros. -/
def hexDigits (n : Nat) : List Char := Nat.toDigits 16 n

/-- How `c` is written inside quotes. -/
def quotedChar (c : Char) : List Char :=
  match c with
  | '"' => ['\\', '"']
  | '\\' => ['\\', '\\']
  | '\n' => ['\\', 'n']
  | '\r' => ['\\', 'r']
  | '\t' => ['\\', 't']
  | '\x00' => ['\\', '0']
  | c => if isPrintable c then [c] else "\\u\x7b".toList ++ hexDigits c.toNat ++ ['}']

def quotedChars (cs : List Char) : List Char :=
  '"' :: cs.flatMap quotedChar ++ ['"']

def quoted (s : String) : String := String.ofList (quotedChars s.toList)

end Text

end BitmapText
