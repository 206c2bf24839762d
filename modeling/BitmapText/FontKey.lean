import BitmapText.Path

/-!
# Font keys

What identifies a loaded font: where it was loaded from, its size, and the resolution it is for.
Paths are compared by their components, so that two spellings of one place share a font.

## Main definitions

* `FontKey`: path, size and resolution.
* `FontKey.Same`: two keys ask for the same font.
* `FontKey.order`: the order of fonts in a listing.
-/

namespace BitmapText

/-- What a font is asked for by. -/
structure FontKey where
  path : Path
  /-- The size in quarter points. -/
  size : UInt32
  /-- The resolution in dots per inch. -/
  dpi : UInt32
deriving Repr, DecidableEq

namespace FontKey

/-- What two keys of the same font have in common. -/
def identity (k : FontKey) : List Path.Component × UInt32 × UInt32 :=
  (k.path.components, k.size, k.dpi)

def Same (a b : FontKey) : Prop := a.identity = b.identity

instance (a b : FontKey) : Decidable (a.Same b) := inferInstanceAs (Decidable (_ = _))

/-- Keys are ordered by path, then by size, then by resolution. -/
def order (a b : FontKey) : Ordering :=
  (a.path.order b.path).then
    ((compare a.size.toNat b.size.toNat).then (compare a.dpi.toNat b.dpi.toNat))

def label (k : FontKey) : String :=
  k.path.text ++ " " ++ toString k.size.toNat ++ "@" ++ toString k.dpi.toNat ++ "dpi"

end FontKey

end BitmapText
