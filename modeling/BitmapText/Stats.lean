import BitmapText.FontKey

/-!
# Cache diagnostics

What loaded fonts hold at one moment, and how that is shown.

## Main definitions

* `FontStats`: the figures of one font.
* `RegistryStats`: the figures of all loaded fonts.
* `RegistryStats.text`: the listing.
-/

namespace BitmapText

/-- The figures of one loaded font. -/
structure FontStats where
  key : FontKey
  refcount : Nat
  maxHeight : Option Int
  baseline : Option Int
  glyphEntries : Nat
  glyphBytes : Nat
  stringEntries : Nat
  /-- The bytes of the cached strings, about. -/
  stringBytes : Nat
  /-- The number of batches of strings dropped so far. -/
  evictions : Nat
deriving Repr, DecidableEq

namespace FontStats

def measureText : Option Int → String
  | none => "-"
  | some n => toString n

def text (s : FontStats) : String :=
  s.key.path.text ++ " size=" ++ toString s.key.size.toNat ++ " dpi=" ++
    toString s.key.dpi.toNat ++ " refs=" ++ toString s.refcount ++ "\n" ++
  "  max_height=" ++ measureText s.maxHeight ++ " baseline=" ++ measureText s.baseline ++ "\n" ++
  "  glyphs: " ++ toString s.glyphEntries ++ " entries, " ++ toString s.glyphBytes ++ " bytes\n" ++
  "  strings: " ++ toString s.stringEntries ++ " entries, " ++ toString s.stringBytes ++
    " bytes, " ++ toString s.evictions ++ " evictions"

end FontStats

/-- The figures of all loaded fonts, in the order of a listing. -/
structure RegistryStats where
  fonts : List FontStats
deriving Repr, DecidableEq

namespace RegistryStats

/-- The bytes of all cached strings, about. -/
def totalStringBytes (s : RegistryStats) : Nat :=
  s.fonts.foldr (fun font total => font.stringBytes + total) 0

def totalGlyphBytes (s : RegistryStats) : Nat :=
  s.fonts.foldr (fun font total => font.glyphBytes + total) 0

/-- The listing: four lines for each font and one for the totals. -/
def text (s : RegistryStats) : String :=
  String.join (s.fonts.map fun font => font.text ++ "\n") ++
    toString s.fonts.length ++ " fonts, " ++ toString s.totalStringBytes ++ " string bytes, " ++
    toString s.totalGlyphBytes ++ " glyph bytes"

end RegistryStats

end BitmapText
