import BitmapText.Toml.Value

/-!
# Libraries for TOML

TOML is read and written by a library. The documents that are written are plain: sections of keys
with strings and integers. What a text is read as may be any value. What is done with the value is
the same whatever the library is, so the library is a parameter.

## Main definitions

* `Toml.Plain`, `Toml.Section`: values that are written, and tables of them.
* `Toml.Library`: what is asked of the library.
-/

namespace BitmapText

namespace Toml

/-- A value that is written. -/
inductive Plain where
  | string (text : String)
  | integer (n : Nat)
deriving Repr, DecidableEq

def Plain.value : Plain → Value
  | string text => .string text
  | integer n => .integer n

/-- A table of plain values, in the order in which they are written. -/
structure Section where
  name : String
  entries : List (String × Plain)
deriving Repr, DecidableEq

/-- What is asked of the library. An error is the text that tells what is wrong. -/
structure Library where
  read : String → Except String Value
  write : List Section → Except String String

end Toml

end BitmapText
