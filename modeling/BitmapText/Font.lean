import BitmapText.Bitmap.Clip
import BitmapText.Shaping
import BitmapText.Stats

/-!
# Loaded fonts

A face together with what has been learned from it: its rendered glyphs, its composited strings, and
the measures that all its strings share.

## Main definitions

* `Font`: a loaded font.
* `Font.measure`, `Font.fit`, `Font.maxHeight`, `Font.baseline`: questions about a font.
* `Font.render`: what drawing a text comes to, as a `Font.Drawing`.
* `Font.picture`: a text on a canvas that is just large enough for it, as a `Picture`.
-/

namespace BitmapText

/-- A loaded font. -/
structure Font (σ : Type) where
  key : FontKey
  face : σ
  glyphs : GlyphCache
  strings : StringCache
  /-- The measures of the font, from the first time they are needed. -/
  metrics : Option FontMetrics

namespace Font

/-- A font about which nothing has been learned yet. -/
def opened {σ : Type} (key : FontKey) (face : σ) (limits : StringCache.Limits) : Font σ where
  key := key
  face := face
  glyphs := .empty
  strings := .empty limits
  metrics := none

/-- The figures of a font with the given number of handles. -/
def stats {σ : Type} (font : Font σ) (refcount : Nat) : FontStats where
  key := font.key
  refcount := refcount
  maxHeight := font.metrics.map FontMetrics.maxHeight
  baseline := font.metrics.map FontMetrics.baseline
  glyphEntries := font.glyphs.size
  glyphBytes := font.glyphs.bitmapBytes
  stringEntries := font.strings.size
  stringBytes := font.strings.footprint
  evictions := font.strings.evictions

/-- What a question leaves behind. -/
structure Outcome (σ α : Type) where
  answer : α
  font : Font σ
  log : Array Log.Record

def Outcome.map {σ α γ : Type} (f : α → γ) (o : Outcome σ α) : Outcome σ γ :=
  { answer := f o.answer, font := o.font, log := o.log }

variable {σ : Type} [Face σ]

/-- The composited form of a text within a width, from the cache if it is there. -/
def string (font : Font σ) (text : String) (maxWidth : Option Int) :
    Outcome σ (Except FontError RenderedString) :=
  match font with
  | { key, face, glyphs, strings, metrics } =>
    match strings.getOrRender ⟨text, maxWidth⟩ (Shaping.render key.size text maxWidth)
        ({ face, glyphs }, metrics) with
    | { result, cache, eviction, world := ({ face, glyphs, log }, metrics) } =>
      { answer := result
        font := { key, face, glyphs, strings := cache, metrics }
        log := match eviction with
          | none => log
          | some e => log.push e.record }

/-- The width of a text without a limit. The text is composited for it and stays in the cache. -/
def measure (font : Font σ) (text : String) : Outcome σ (Except FontError Int) :=
  (font.string text none).map fun result => result.map fun s => (s.surface.width : Int)

/-- How much of a text fits into a width. A cached string answers at once, which does not count as
use of it; otherwise the glyphs are measured and nothing is composited. -/
def fit (font : Font σ) (text : String) (maxWidth : Option Int) : Outcome σ Fit :=
  match font.strings.peek? ⟨text, maxWidth⟩ with
  | some s => { answer := ⟨s.glyphCount, s.surface.width⟩, font, log := #[] }
  | none =>
    match font with
    | { key, face, glyphs, strings, metrics } =>
      let indices := Shaping.glyphIndices face text
      match Shaping.fit maxWidth { face, glyphs } indices with
      | (answer, { face, glyphs, log }) =>
        { answer, font := { key, face, glyphs, strings, metrics }, log }

/-- How many leading glyphs of a text fit into a width. -/
def boundedMeasure (font : Font σ) (text : String) (maxWidth : Int) : Outcome σ Nat :=
  (font.fit text (some maxWidth)).map Fit.glyphs

def measures (font : Font σ) : Outcome σ FontMetrics :=
  match font with
  | { key, face, glyphs, strings, metrics } =>
    match Shaping.keptMetrics { face, glyphs } metrics key.size with
    | (answer, { face, glyphs, log }) =>
      { answer, font := { key, face, glyphs, strings, metrics := some answer }, log }

def maxHeight (font : Font σ) : Outcome σ Int := font.measures.map FontMetrics.maxHeight

/-- The distance from the top of a composited string down to the baseline. -/
def baseline (font : Font σ) : Outcome σ Int := font.measures.map FontMetrics.baseline

/-! ## Drawing -/

/-- A bitmap to be drawn on a target. -/
structure DrawCall where
  surface : Bitmap
  x : Int
  y : Int
  /-- The pixels that may be touched. -/
  clip : ClipRect
deriving DecidableEq

/-- What drawing a text comes to. -/
structure Drawing where
  glyphs : Nat
  /-- What the target is asked to draw; at most one bitmap. -/
  call : Option DrawCall
deriving DecidableEq

def Drawing.nothing : Drawing := ⟨0, none⟩

def Drawing.paint (drawing : Drawing) (canvas : Bitmap) : Bitmap :=
  match drawing.call with
  | none => canvas
  | some call => canvas.draw call.surface call.x call.y call.clip

/-- The drawing of a composited string at `(x, y)`, above the edge `bottom`. -/
def Drawing.ofString (s : RenderedString) (x y : Int) (bottom : Option Int) : Drawing :=
  let lower := Coord.satAdd y s.surface.height
  let clip (bottom : Int) : ClipRect :=
    { left := x, top := y, right := Coord.satAdd x s.surface.width, bottom }
  let drawn (bottom : Int) : Drawing := ⟨s.glyphCount, some ⟨s.surface, x, y, clip bottom⟩⟩
  match bottom with
  | none => drawn lower
  | some edge =>
    if lower ≤ edge then drawn lower
    else if edge ≤ y then .nothing
    else drawn edge

/-- Draw a text with its top left corner at `(x, y)`, left of the edge `right` and above the edge
`bottom`. Glyphs that would pass the right edge are left out; rows below the bottom edge are
clipped. -/
def render (font : Font σ) (text : String) (x y : Int) (right bottom : Option Int) :
    Outcome σ (Except FontError Drawing) :=
  let budget := right.map (Coord.satSub · x)
  if budget.any (· ≤ 0) then { answer := .ok .nothing, font, log := #[] }
  else
    (font.string text budget).map fun result =>
      result.map fun s => Drawing.ofString s x y bottom

end Font

/-! ## Pictures -/

/-- A canvas with a text on it. -/
structure Picture where
  canvas : Bitmap
  glyphs : Nat
deriving DecidableEq

/-- A picture of a text, or of as much of it as fits into a width. -/
def Font.picture {σ : Type} [Face σ] (font : Font σ) (text : String) (maxWidth : Option Int) :
    Outcome σ (Except FontError Picture) :=
  match font.fit text maxWidth with
  | { answer := fit, font, log := fitLog } =>
    match font.maxHeight with
    | { answer := height, font, log := heightLog } =>
      match font.render text 0 0 maxWidth none with
      | { answer := drawing, font, log := drawingLog } =>
        let canvas := Bitmap.blank fit.width.toNat height.toNat
        { answer := drawing.map fun d => ⟨d.paint canvas, d.glyphs⟩
          font
          log := fitLog ++ heightLog ++ drawingLog }

end BitmapText
