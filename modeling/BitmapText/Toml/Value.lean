/-!
# TOML values

What a TOML document assigns to its keys. Numbers with a fraction and dates are kept as they are
written: they are read to be told from mistakes, not to be computed with.

## Main definitions

* `Toml.Value`: the values.
* `Toml.Value.get?`: the value of a key in a table.
-/

namespace BitmapText

namespace Toml

/-- A value of a document. -/
inductive Value where
  | string (text : String)
  | integer (n : Int)
  /-- A number with a fraction or an exponent, infinity, or not a number, as it is written. -/
  | float (literal : String)
  | boolean (b : Bool)
  /-- A date, a time, or both, as it is written. -/
  | datetime (literal : String)
  | array (items : List Value)
  /-- Keys with their values; no key comes twice. -/
  | table (entries : List (String × Value))
deriving Repr

namespace Value

def get? (v : Value) (key : String) : Option Value :=
  match v with
  | table entries => entries.lookup key
  | _ => none

end Value

end Toml

end BitmapText
