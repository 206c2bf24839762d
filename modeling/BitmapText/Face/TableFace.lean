import Std.Data.HashMap
import BitmapText.Face

/-!
# Faces given by a table

A face whose answers are listed: which glyph a code point has, what each glyph looks like, how often
it fails before it renders, and what pairs are moved by. It counts the renderings and measurements
that it is asked for.

## Main definitions

* `GlyphEntry`: what the table says about one glyph.
* `TableFace.Table`: all the answers.
* `TableFace`: a table with the counts so far.
-/

namespace BitmapText

/-- The table's answer for one glyph. -/
structure GlyphEntry where
  glyph : RasterGlyph
  /-- The number of requests that fail before the first one succeeds. -/
  failures : Nat := 0
deriving Repr

namespace TableFace

/-- The vertical ranges of a face that measures glyphs without rendering them. -/
structure ProbeTable where
  /-- Listed glyphs; `none` marks one that cannot be measured. -/
  listed : Std.HashMap GlyphIndex (Option Extents) := ∅
  /-- The range of every other glyph, if they can be measured. -/
  others : Option Extents := none

/-- The answers of a face. -/
structure Table where
  /-- Glyphs of code points; a code point that is not listed has the glyph of its own number. -/
  charMap : Std.HashMap Nat GlyphIndex := ∅
  /-- Listed glyphs; `none` marks one that never renders. -/
  glyphs : Std.HashMap GlyphIndex (Option GlyphEntry) := ∅
  /-- The entry of every other glyph, if they render. -/
  others : Option GlyphEntry := none
  hasKerning : Bool := false
  /-- Adjustments of pairs; a pair that is not listed is not adjusted. -/
  kerning : Std.HashMap (GlyphIndex × GlyphIndex) Int := ∅
  /-- How glyphs are measured, if not by rendering them. -/
  probes : Option ProbeTable := none

def Table.charIndex (t : Table) (codePoint : Nat) : GlyphIndex :=
  match t.charMap[codePoint]? with
  | some glyph => glyph
  | none => if codePoint < 65536 then UInt16.ofNat codePoint else 0

/-- What the table says about a glyph. -/
def Table.entry? (t : Table) (glyph : GlyphIndex) : Option GlyphEntry :=
  match t.glyphs[glyph]? with
  | some entry => entry
  | none => t.others

def ProbeTable.extents? (t : ProbeTable) (glyph : GlyphIndex) : Option Extents :=
  match t.listed[glyph]? with
  | some extents => extents
  | none => t.others

end TableFace

/-- A table with what has been asked of it. -/
structure TableFace where
  table : TableFace.Table
  failed : Std.HashMap GlyphIndex Nat := ∅
  rasterizes : Nat := 0
  /-- The number of measurements answered from the table's ranges. -/
  probes : Nat := 0

namespace TableFace

def ofTable (table : Table) : TableFace := { table }

/-- Render a glyph: requests fail until the entry's failures are used up. -/
def rasterize (face : TableFace) (glyph : GlyphIndex) :
    Except FontError RasterGlyph × TableFace :=
  let face := { face with rasterizes := face.rasterizes + 1 }
  match face.table.entry? glyph with
  | none => (.error (.glyphLoad glyph), face)
  | some entry =>
    let soFar := face.failed.getD glyph 0
    if soFar < entry.failures then
      (.error (.glyphLoad glyph), { face with failed := face.failed.insert glyph (soFar + 1) })
    else (.ok entry.glyph, face)

/-- Measure a glyph from the table's ranges, or by rendering it when there are none. -/
def probe (face : TableFace) (glyph : GlyphIndex) : Except FontError Extents × TableFace :=
  match face.table.probes with
  | some ranges =>
    let face := { face with probes := face.probes + 1 }
    match ranges.extents? glyph with
    | some extents => (.ok extents, face)
    | none => (.error (.glyphLoad glyph), face)
  | none =>
    match face.rasterize glyph with
    | (result, face) => (result.map RasterGlyph.extents, face)

instance : Face TableFace where
  charIndex face := face.table.charIndex
  rasterize := rasterize
  probe := probe
  hasKerning face := face.table.hasKerning
  kerning face left right := (face.table.kerning.getD (left, right) 0, face)

end TableFace

end BitmapText
