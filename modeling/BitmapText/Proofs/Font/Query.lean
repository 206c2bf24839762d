import BitmapText.Font

/-!
# Questions about a font

The questions that a font answers as one type, so that a statement about every sequence of them has
something to range over.

## Main definitions

* `Font.Query`, `Font.Reply`: the questions, and what is answered.
* `Font.reply`: the answer to a question, with the font as it is afterwards.
-/

namespace BitmapText

namespace Font

/-- A question about a font. -/
inductive Query where
  | measure (text : String)
  | fit (text : String) (maxWidth : Option Int)
  | boundedMeasure (text : String) (maxWidth : Int)
  | maxHeight
  | baseline
  /-- What drawing a text comes to. -/
  | render (text : String) (x y : Int) (right bottom : Option Int)
deriving DecidableEq

/-- The answer to a question. -/
inductive Reply where
  | width (result : Except FontError Int)
  | fit (fit : Fit)
  | glyphs (count : Nat)
  | pixels (n : Int)
  | drawing (result : Except FontError Drawing)

variable {σ : Type}

@[simp] theorem font_map {α γ : Type} (f : α → γ) (o : Outcome σ α) : (o.map f).font = o.font := rfl

@[simp] theorem answer_map {α γ : Type} (f : α → γ) (o : Outcome σ α) :
    (o.map f).answer = f o.answer := rfl

variable [Face σ]

/-- Answer a question. -/
def reply (font : Font σ) : Query → Outcome σ Reply
  | .measure text => (font.measure text).map .width
  | .fit text maxWidth => (font.fit text maxWidth).map .fit
  | .boundedMeasure text maxWidth => (font.boundedMeasure text maxWidth).map .glyphs
  | .maxHeight => font.maxHeight.map .pixels
  | .baseline => font.baseline.map .pixels
  | .render text x y right bottom => (font.render text x y right bottom).map .drawing

/-! ## Keys -/

@[simp] theorem key_string (font : Font σ) (text : String) (maxWidth : Option Int) :
    (font.string text maxWidth).font.key = font.key := rfl

@[simp] theorem key_fit (font : Font σ) (text : String) (maxWidth : Option Int) :
    (font.fit text maxWidth).font.key = font.key := by
  unfold fit
  split <;> rfl

@[simp] theorem key_measures (font : Font σ) : font.measures.font.key = font.key := rfl

@[simp] theorem key_measure (font : Font σ) (text : String) :
    (font.measure text).font.key = font.key := rfl

@[simp] theorem key_render (font : Font σ) (text : String) (x y : Int) (right bottom : Option Int) :
    (font.render text x y right bottom).font.key = font.key := by
  unfold render
  dsimp only
  split <;> rfl

/-- No question changes the key of a font. -/
@[simp] theorem key_reply (font : Font σ) (q : Query) : (font.reply q).font.key = font.key := by
  cases q <;> simp [reply, boundedMeasure, maxHeight, baseline]

end Font

end BitmapText
