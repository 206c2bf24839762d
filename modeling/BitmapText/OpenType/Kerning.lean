import BitmapText.OpenType.Library

/-!
# Reading kerning tables

How much closer two glyphs stand than their advances say. There are two layouts of the table, with
headers of their own; both hold subtables with lists of pairs. Other kinds of subtables are not
read: at the first one of them, as at one that is not whole, the list of subtables ends.

## Main definitions

* `OpenType.Kerning.PairTable`: a list of pairs and what it is for.
* `OpenType.Kerning.PairTable.units?`: the kerning of a pair in font units.
* `OpenType.Kerning.subtables?`: the kerning table of a font.
-/

namespace BitmapText

namespace OpenType

namespace Kerning

/-- A pair of glyphs with its kerning. -/
structure Pair where
  left : GlyphIndex
  right : GlyphIndex
  units : Int
deriving Repr, DecidableEq

/-- A subtable with a list of pairs, in ascending order. -/
structure PairTable where
  horizontal : Bool
  variation : Bool
  pairs : Array Pair
deriving Repr, DecidableEq

/-- The place of a pair in the order of pairs. -/
def rank (left right : GlyphIndex) : Nat := left.toNat * 65536 + right.toNat

/-- The place of the last pair that is not after the wanted one, among `size` pairs from `base` on.
The first of them counts as such a pair. -/
def lastNotAfter (pairs : Array Pair) (wanted base size : Nat) : Nat :=
  if size ≤ 1 then base
  else
    let half := size / 2
    let middle := base + half
    if (pairs[middle]?).all fun p => rank p.left p.right ≤ wanted then
      lastNotAfter pairs wanted middle (size - half)
    else lastNotAfter pairs wanted base (size - half)
termination_by size
decreasing_by all_goals omega

/-- The kerning of a pair in a subtable that lists it. -/
def PairTable.units? (s : PairTable) (left right : GlyphIndex) : Option Int :=
  match s.pairs[lastNotAfter s.pairs (rank left right) 0 s.pairs.size]? with
  | none => none
  | some pair => if rank pair.left pair.right = rank left right then some pair.units else none

def PairTable.toSubtable (s : PairTable) : Subtable := ⟨s.horizontal, s.variation, s.units?⟩

/-! ## Reading -/

/-- The pairs of `count` records from a position on. -/
def readPairs (d : Data) (pos : Nat) : Nat → Option (List Pair)
  | 0 => some []
  | count + 1 =>
    match u16? d pos, u16? d (pos + 2), i16? d (pos + 4) with
    | some left, some right, some units =>
      (readPairs d (pos + 6) count).map fun others =>
        ⟨UInt16.ofNat left, UInt16.ofNat right, units⟩ :: others
    | _, _, _ => none

/-- The list of pairs that starts at `start` and has to end at `stop`. -/
def pairList? (d : Data) (start stop : Nat) : Option (Array Pair) :=
  match u16? d start with
  | none => none
  | some count =>
    if start + 8 + 6 * count ≤ stop then (readPairs d (start + 8) count).map List.toArray
    else none

/-- The subtables from a position on, in the older layout: `left` of `count` are still to be read,
and the table ends at `stop`. A table with one subtable belongs to it as a whole. -/
def readClassic (d : Data) (count stop pos : Nat) : Nat → List PairTable
  | 0 => []
  | left + 1 =>
    match u16? d (pos + 2), u8? d (pos + 4), u8? d (pos + 5) with
    | some length, some format, some coverage =>
      let start := pos + 6
      let next := if count = 1 then stop else pos + length
      if start ≤ stop ∧ start ≤ next ∧ next ≤ stop ∧ format = 0 then
        match pairList? d start next with
        | some pairs =>
          ⟨coverage % 2 = 1, false, pairs⟩ :: readClassic d count stop next left
        | none => []
      else []
    | _, _, _ => []

/-- The subtables from a position on, in the newer layout. -/
def readExtended (d : Data) (stop pos : Nat) : Nat → List PairTable
  | 0 => []
  | left + 1 =>
    match u32? d pos, u8? d (pos + 4), u8? d (pos + 5) with
    | some length, some coverage, some format =>
      let start := pos + 8
      let next := pos + length
      if start ≤ next ∧ next ≤ stop ∧ format = 0 then
        match pairList? d start next with
        | some pairs =>
          ⟨coverage < 128, coverage / 32 % 2 = 1, pairs⟩ :: readExtended d stop next left
        | none => []
      else []
    | _, _, _ => []

def pairTables (d : Data) (table : Table) : List PairTable :=
  let stop := table.start + table.length
  if d.size < stop ∨ table.length < 2 then []
  else
    match u16? d table.start with
    | some 0 =>
      if table.length < 4 then []
      else
        match u16? d (table.start + 2) with
        | some count => readClassic d count stop (table.start + 4) count
        | none => []
    | some _ =>
      if table.length < 8 then []
      else
        match u32? d (table.start + 4) with
        | some count => readExtended d stop (table.start + 8) (min count table.length)
        | none => []
    | none => []

/-- The kerning table of a font, if it has one. -/
def subtables? (d : Data) (directory : Nat) : Option (List Subtable) :=
  (table? d directory "kern").map fun table => (pairTables d table).map PairTable.toSubtable

end Kerning

end OpenType

end BitmapText
