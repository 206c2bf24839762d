import BitmapText.Proofs.Font.Faithful

/-!
# Caches that nobody can see

What a client is told by a font does not depend on what the font has kept: every call of a run is
answered as on a font that has just been opened. The face has to be steady and to measure glyphs by
rendering them; then the measures of the font do not depend on the glyphs that were rendered before
they were taken.

A client may call the font while a text of that font is being drawn. There is one thing that a
client can tell from a fit: the width of a text that moves the pen back is negative, but zero once
the text is cached. `Reply.seen` hides the difference.

## Main definitions

* `Font.Call`, `Font.calls`: calls of a client, answered one after the other.
* `Font.Exact`: a faithful font with the measures of its face.

## Main statements

* `Font.calls_eq_calls_afresh`: every run is answered as by fonts just opened.
-/

namespace BitmapText

namespace Font

/-! ## Clients -/

inductive Call where
  | ask (q : Query)
  /-- Draw a text on a target that makes calls of its own when it is asked to draw. -/
  | draw (text : String) (x y : Int) (right bottom : Option Int) (onDraw : List Call)

def Reply.draws : Reply → Bool
  | .drawing (.ok d) => d.call.isSome
  | _ => false

/-- A reply in which no width is negative. Only a fit has such widths. -/
def Reply.seen : Reply → Reply
  | .fit f => .fit ⟨f.glyphs, max 0 f.width⟩
  | reply => reply

section Calls

variable {τ : Type} (answer : τ → Query → Reply × τ)

mutual

/-- What a call is answered with, the calls that it leads to included. -/
def call (s : τ) : Call → List Reply × τ
  | .ask q =>
    match answer s q with
    | (reply, s) => ([reply], s)
  | .draw text x y right bottom onDraw =>
    match answer s (.render text x y right bottom) with
    | (reply, s) =>
      if reply.draws then
        match calls s onDraw with
        | (inner, s) => (reply :: inner, s)
      else ([reply], s)

/-- What calls in order are answered with, each in the state that the one before left behind. -/
def calls (s : τ) : List Call → List Reply × τ
  | [] => ([], s)
  | first :: rest =>
    match call s first with
    | (replies, s) =>
      match calls s rest with
      | (others, s) => (replies ++ others, s)

end

end Calls

section Alike

variable {σ τ : Type} {f : σ → Query → Reply × σ} {g : τ → Query → Reply × τ} (R : σ → τ → Prop)

mutual

theorem call_alike (step : ∀ s t q, R s t → (f s q).1 = (g t q).1 ∧ R (f s q).2 (g t q).2)
    {s : σ} {t : τ} (h : R s t) (c : Call) :
    (call f s c).1 = (call g t c).1 ∧ R (call f s c).2 (call g t c).2 := by
  cases c with
  | ask q =>
    obtain ⟨hreply, hnext⟩ := step s t q h
    rw [call, call]
    exact ⟨congrArg (fun reply => [reply]) hreply, hnext⟩
  | draw text x y right bottom onDraw =>
    obtain ⟨hreply, hnext⟩ := step s t (.render text x y right bottom) h
    obtain ⟨hinner, hlast⟩ := calls_alike step hnext onDraw
    rw [call, call]
    simp only [hreply]
    split
    · exact ⟨congrArg (List.cons _) hinner, hlast⟩
    · exact ⟨rfl, hnext⟩

/-- Two systems that answer alike, and stay alike in `R`, answer every run alike. -/
theorem calls_alike (step : ∀ s t q, R s t → (f s q).1 = (g t q).1 ∧ R (f s q).2 (g t q).2)
    {s : σ} {t : τ} (h : R s t) (cs : List Call) :
    (calls f s cs).1 = (calls g t cs).1 ∧ R (calls f s cs).2 (calls g t cs).2 := by
  cases cs with
  | nil =>
    rw [calls, calls]
    exact ⟨rfl, h⟩
  | cons first rest =>
    obtain ⟨hfirst, hnext⟩ := call_alike step h first
    obtain ⟨hrest, hlast⟩ := calls_alike step hnext rest
    rw [calls, calls]
    exact ⟨by simp only [hfirst, hrest], hlast⟩

end

end Alike

/-! ## Measures of the face -/

variable {σ : Type} [Face σ] {first : σ} {font other : Font σ}

/-- The font keeps what its face gives, its measures included. -/
structure Exact (first : σ) (font : Font σ) : Prop extends Faithful first font where
  metrics : ∀ known, font.metrics = some known →
    known = Shaping.metricsOfFace first font.key.size

namespace Exact

theorem opened (key : FontKey) (face : σ) (limits : StringCache.Limits) :
    Exact face (opened key face limits) :=
  ⟨.opened key face limits, fun _ hk => nomatch hk⟩

/-- The measures that the font uses are those of the face, whether it has kept them or not. -/
theorem eq_of_uses (h : Exact first font) (hp : Face.ProbesByRendering first)
    {metrics : FontMetrics} (hu : Shaping.Uses first font.key.size font.metrics metrics) :
    metrics = Shaping.metricsOfFace first font.key.size := by
  cases hm : font.metrics with
  | none => exact hu.eq_of_taken hp hm
  | some known => exact (hu.eq_of_kept known hm).trans (h.metrics known hm)

theorem uses_unique (h : Exact first font) (h' : Exact first other)
    (hp : Face.ProbesByRendering first) (hsize : font.key.size = other.key.size)
    {metrics metrics' : FontMetrics}
    (hu : Shaping.Uses first font.key.size font.metrics metrics)
    (hu' : Shaping.Uses first other.key.size other.metrics metrics') : metrics = metrics' := by
  rw [h.eq_of_uses hp hu, h'.eq_of_uses hp hu', hsize]

theorem reply (hs : Face.Steady first) (hp : Face.ProbesByRendering first)
    (h : Exact first font) (q : Query) : Exact first (font.reply q).font := by
  obtain ⟨hfaithful, hmetrics⟩ := h.toFaithful.reply hs q
  refine ⟨hfaithful, fun known hk => ?_⟩
  rw [key_reply]
  rcases hmetrics with hsame | ⟨metrics, huses, hnow⟩
  · exact h.metrics known (hsame.symm.trans hk)
  · rw [← h.eq_of_uses hp huses]
    exact Option.some.inj (hk.symm.trans hnow)

/-- Two exact fonts of one face and size reply alike, whatever each of them has kept. -/
theorem seen_reply_eq (hs : Face.Steady first) (hp : Face.ProbesByRendering first)
    (h : Exact first font) (h' : Exact first other) (hsize : font.key.size = other.key.size)
    (q : Query) : (font.reply q).answer.seen = (other.reply q).answer.seen := by
  cases q with
  | measure text =>
    obtain ⟨metrics, hanswer, huses, -⟩ := h.string hs text none
    obtain ⟨metrics', hanswer', huses', -⟩ := h'.string hs text none
    obtain rfl := h.uses_unique h' hp hsize huses huses'
    simp only [Font.reply, measure, answer_map, hanswer, hanswer']
  | fit text maxWidth =>
    obtain ⟨hglyphs, hwidth, -⟩ := h.fit hs text maxWidth
    obtain ⟨hglyphs', hwidth', -⟩ := h'.fit hs text maxWidth
    have hmax : max 0 (font.fit text maxWidth).answer.width =
        max 0 (other.fit text maxWidth).answer.width := by
      -- One text may be cached and the other not; both widths are the same up to a move back.
      rw [hwidth, hwidth']
      grind
    simp only [Font.reply, answer_map, Reply.seen, hglyphs, hglyphs', hmax]
  | boundedMeasure text maxWidth =>
    obtain ⟨hglyphs, -⟩ := h.fit hs text (some maxWidth)
    obtain ⟨hglyphs', -⟩ := h'.fit hs text (some maxWidth)
    simp only [Font.reply, boundedMeasure, answer_map, hglyphs, hglyphs']
  | maxHeight =>
    have hmeasures := h.uses_unique h' hp hsize (h.measures hs).1 (h'.measures hs).1
    simp only [Font.reply, maxHeight, answer_map, hmeasures]
  | baseline =>
    have hmeasures := h.uses_unique h' hp hsize (h.measures hs).1 (h'.measures hs).1
    simp only [Font.reply, baseline, answer_map, hmeasures]
  | render text x y right bottom =>
    have hrender := h.render hs text x y right bottom
    have hrender' := h'.render hs text x y right bottom
    dsimp only at hrender hrender'
    split at hrender
    · next hnone =>
      rw [if_pos hnone] at hrender'
      simp only [Font.reply, answer_map, hrender.1, hrender'.1]
    · next hsome =>
      rw [if_neg hsome] at hrender'
      obtain ⟨metrics, hanswer, huses, -⟩ := hrender
      obtain ⟨metrics', hanswer', huses', -⟩ := hrender'
      obtain rfl := h.uses_unique h' hp hsize huses huses'
      simp only [Font.reply, answer_map, hanswer, hanswer']

end Exact

/-- Every font that comes about from an opened one is exact. -/
theorem Reached.exact {face : σ} {key : FontKey} {limits : StringCache.Limits}
    (hs : Face.Steady face) (hp : Face.ProbesByRendering face)
    (h : Reached (opened key face limits) font) : Exact face font := by
  induction h with
  | start => exact .opened key face limits
  | asked _ q ih => exact ih.reply hs hp q

/-! ## Runs -/

/-- Answer a question and keep the font as it is afterwards. -/
def seen (font : Font σ) (q : Query) : Reply × Font σ :=
  ((font.reply q).answer.seen, (font.reply q).font)

/-- Answer every question with the font as it was opened. -/
def seenAfresh (fresh : Font σ) (q : Query) : Reply × Font σ :=
  ((fresh.reply q).answer.seen, fresh)

/-- Whatever a client has called before, and whatever has been cached, dropped or measured on the
way, each of its calls is answered as by a font that has just been opened. -/
theorem calls_eq_calls_afresh {face : σ} (hs : Face.Steady face) (hp : Face.ProbesByRendering face)
    (key : FontKey) (limits : StringCache.Limits) (cs : List Call) :
    (calls seen (opened key face limits) cs).1 =
      (calls seenAfresh (opened key face limits) cs).1 := by
  refine (calls_alike (fun font fresh => (Exact face font ∧ font.key = key) ∧
    fresh = Font.opened key face limits) ?_ ⟨⟨.opened key face limits, rfl⟩, rfl⟩ cs).1
  rintro font fresh q ⟨⟨hfont, hkey⟩, rfl⟩
  have hsize : font.key.size = (Font.opened key face limits).key.size := by rw [hkey]; rfl
  exact ⟨hfont.seen_reply_eq hs hp (.opened key face limits) hsize q,
    ⟨hfont.reply hs hp q, (key_reply font q).trans hkey⟩, rfl⟩

/-- A cache with room for one string, which loses the outer text to the one measured while it is
drawn. -/
theorem calls_eq_calls_afresh_one_entry :
    let square : RasterGlyph :=
      { width := 2, height := 2, pitch := 2, left := 0, top := 2, advance := 3, format := .alpha8,
        data := #[1, 2, 3, 4] }
    let start := opened ⟨⟨"a.ttf"⟩, 16, 96⟩ (TableFace.uniform square) (.ofNat 1 1)
    let cs : List Call :=
      [.draw "ab" 0 0 none none [.ask (.measure "b"), .ask .maxHeight], .ask (.measure "ab")]
    Face.Steady (TableFace.uniform square) ∧
      Face.ProbesByRendering (TableFace.uniform square) ∧
      (calls seen start cs).1 = (calls seenAfresh start cs).1 := by
  intro square start cs
  have hs := TableFace.steady_uniform square
  have hp := TableFace.probesByRendering_uniform square
  exact ⟨hs, hp, calls_eq_calls_afresh hs hp _ _ cs⟩

end Font

end BitmapText
