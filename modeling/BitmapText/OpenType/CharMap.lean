import BitmapText.Glyph
import BitmapText.OpenType.Data

/-!
# Character maps

Which glyph a code point has. A font may have several maps: one for symbols is preferred to all
others, and among those for Unicode a map that reaches beyond 16 bits is preferred to the first one.

## Main definitions

* `OpenType.CharMap`: a map that was chosen.
* `OpenType.CharMap.find?`: choose a map.
* `OpenType.CharMap.glyph`: the glyph of a code point.
-/

namespace BitmapText

namespace OpenType

/-- The layout of a map. -/
inductive CharMap.Layout where
  | segments
  | groups
deriving Repr, DecidableEq

/-- A map of code points. -/
structure CharMap where
  layout : CharMap.Layout
  start : Nat
  /-- The map is for symbols, whose code points stand at `0xF000`. -/
  symbol : Bool
deriving Repr, DecidableEq

namespace CharMap

def Layout.ofFormat? (format : Nat) : Option Layout :=
  if format = 4 then some .segments else if format = 12 then some .groups else none

/-- A map of Unicode has this platform and encoding. -/
def isUnicode (platform encoding : Nat) : Bool :=
  platform = 0 || (platform = 3 && (encoding = 1 || encoding = 10))

/-- Look at `count` records from a position on; `best` is the map that was best so far. -/
def choose (d : Data) (table : Nat) (best : Option CharMap) (record : Nat) :
    Nat → Option CharMap
  | 0 => best
  | count + 1 =>
    match u16? d record, u16? d (record + 2), u32? d (record + 4) with
    | some platform, some encoding, some offset =>
      let start := table + offset
      match (u16? d start).bind Layout.ofFormat? with
      | none => choose d table best (record + 8) count
      | some layout =>
        if platform = 3 ∧ encoding = 0 then some ⟨layout, start, true⟩
        else if isUnicode platform encoding ∧ (best.isNone ∨ layout = .groups) then
          choose d table (some ⟨layout, start, false⟩) (record + 8) count
        else choose d table best (record + 8) count
    | _, _, _ => best

def find? (d : Data) (directory : Nat) : Option CharMap :=
  match table? d directory "cmap" with
  | none => none
  | some table =>
    match u16? d (table.start + 2) with
    | none => none
    | some count => choose d table.start none (table.start + 4) count

/-! ## Segments -/

/-- Look for the segment of a code point among those from `low` up to, and without, `high`. -/
def searchSegment (d : Data) (start count codePoint low high : Nat) : Option Nat :=
  if low < high then
    let middle := (low + high) / 2
    let ends := start + 14
    let starts := ends + 2 * count + 2
    match u16? d (ends + 2 * middle), u16? d (starts + 2 * middle) with
    | some last, some first =>
      if codePoint < first then searchSegment d start count codePoint low middle
      else if last < codePoint then searchSegment d start count codePoint (middle + 1) high
      else
        match u16? d (starts + 2 * count + 2 * middle),
            u16? d (starts + 4 * count + 2 * middle) with
        | some delta, some 0 => some ((codePoint + delta) % 65536)
        | some delta, some range =>
          match u16? d (starts + 4 * count + 2 * middle + range + 2 * (codePoint - first)) with
          | some 0 => some 0
          | some glyph => some ((glyph + delta) % 65536)
          | none => none
        | _, _ => none
    | _, _ => none
  else none
termination_by high - low

/-- The glyph of a code point in a map of segments. -/
def segmentGlyph? (d : Data) (start codePoint : Nat) : Option Nat :=
  if 65535 ≤ codePoint then none
  else
    match u16? d (start + 6) with
    | none => none
    | some doubled => searchSegment d start (doubled / 2) codePoint 0 (doubled / 2)

/-! ## Groups -/

/-- Look for the group of a code point among those from `low` up to, and without, `high`. -/
def searchGroup (d : Data) (start codePoint low high : Nat) : Option Nat :=
  if low < high then
    let middle := (low + high) / 2
    let record := start + 16 + 12 * middle
    match u32? d record, u32? d (record + 4), u32? d (record + 8) with
    | some first, some last, some glyph =>
      if codePoint < first then searchGroup d start codePoint low middle
      else if last < codePoint then searchGroup d start codePoint (middle + 1) high
      else some ((codePoint - first + glyph) % 65536)
    | _, _, _ => none
  else none
termination_by high - low

/-- The glyph of a code point in a map of groups. -/
def groupGlyph? (d : Data) (start codePoint : Nat) : Option Nat :=
  match u32? d (start + 12) with
  | none => none
  | some count => searchGroup d start codePoint 0 count

/-! ## Looking up -/

/-- The number of the glyph that stands at a code point, or `0`. -/
def numberAt (d : Data) (m : CharMap) (codePoint : Nat) : Nat :=
  match m.layout with
  | .segments => (segmentGlyph? d m.start codePoint).getD 0
  | .groups => (groupGlyph? d m.start codePoint).getD 0

/-- The glyph of a code point. Symbols are looked for at their own code points as well. -/
def glyph (d : Data) (m : CharMap) (codePoint : Nat) : GlyphIndex :=
  let number := numberAt d m codePoint
  if number = 0 ∧ m.symbol ∧ codePoint ≤ 0xff then
    UInt16.ofNat (numberAt d m (codePoint + 0xf000))
  else UInt16.ofNat number

end CharMap

end OpenType

end BitmapText
