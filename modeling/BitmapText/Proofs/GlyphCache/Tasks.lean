import BitmapText.Face.TableFace
import BitmapText.Proofs.GlyphCache.Accounts
import BitmapText.Proofs.Shaping.Clipping

/-!
# Glyphs are rendered once

Glyphs come into a cache from every pass of shaping, and a face may answer as it likes: a glyph may
fail and be rendered later, or look different each time. Whatever is done with one cache, in any
order, each glyph in it is as the face rendered it first, and the face is not asked about that glyph
again. Measuring a font brings no glyph in, and through the slot for the measures it happens once.

## Main definitions

* `Shaping.Task`, `Shaping.Task.perform`: what can be done with a glyph cache and a slot for
  measures.
* `Shaping.Task.forms`, `Shaping.Task.measures`: what a task asks for.
* `Shaping.measurings`: how often a run takes measures for the slot.

## Main statements

* `Shaping.Task.perform_consults`: a task asks for these glyphs and measures, and for nothing else.
* `Shaping.measurings_le_one`: measures are taken for the slot once.
* `Shaping.glyphs_rendered_once`: what a cache holds at any time, and when the face is asked.
-/

namespace BitmapText

namespace Shaping

/-- What can be done with a bench and with the slot for the measures of its font. -/
inductive Task where
  /-- Ask for the rendered form of a glyph. -/
  | form (glyph : GlyphIndex)
  | fit (budget : Option Int) (glyphs : List GlyphIndex)
  | composite (glyphs : List GlyphIndex) (width : Int) (metrics : FontMetrics)
  /-- Measure the font, whether or not the slot is filled. -/
  | measure (size : UInt32)
  /-- Ask the slot for the measures. They are taken if the slot is empty. -/
  | slot (size : UInt32)
  | render (size : UInt32) (text : String) (budget : Option Int)

namespace Task

variable {σ τ : Type} [Face σ] [Face τ]

/-- The bench and the slot after a task. -/
def perform (s : Bench σ × Option FontMetrics) : Task → Bench σ × Option FontMetrics
  | .form glyph => ((s.1.rasterize glyph).2, s.2)
  | .fit budget glyphs => ((Shaping.fit budget s.1 glyphs).2, s.2)
  | .composite glyphs width metrics => ((Shaping.composite s.1 glyphs width metrics).2, s.2)
  | .measure size => ((measureFont s.1 size).2, s.2)
  | .slot size => ((keptMetrics s.1 s.2 size).2, some (keptMetrics s.1 s.2 size).1)
  | .render size text budget => (Shaping.render size text budget s).2

/-- The glyphs whose rendered forms a task asks for, in order. -/
def forms (s : Bench σ × Option FontMetrics) : Task → List GlyphIndex
  | .form glyph => [glyph]
  | .fit budget glyphs => glyphs.take ((Shaping.fit budget s.1 glyphs).1.glyphs + 1)
  | .composite glyphs _ _ => glyphs
  | .measure _ | .slot _ => []
  | .render size text budget => renderedForms size text budget s.1 s.2

/-- The task uses the slot. -/
def usesSlot : Task → Bool
  | .slot _ | .render .. => true
  | .form _ | .fit .. | .composite .. | .measure _ => false

/-- The task measures the font. -/
def measures (s : Bench σ × Option FontMetrics) : Task → Bool
  | .measure _ => true
  | .slot _ | .render .. => s.2.isNone
  | .form _ | .fit .. | .composite .. => false

omit [Face σ] in
theorem measures_of_usesSlot {s : Bench σ × Option FontMetrics} {task : Task}
    (h : task.usesSlot = true) : task.measures s = s.2.isNone := by
  cases task with
  | slot _ | render _ _ _ => rfl
  | form _ | fit _ _ | composite _ _ _ | measure _ => cases h

/-- A task asks for its glyphs, for the ranges that decide the measures if it takes these, and for
nothing else. -/
theorem perform_consults (s : Bench σ × Option FontMetrics) (task : Task) :
    s.1.Consults (task.forms s) (if task.measures s then measuredCodePoints.length else 0)
      (task.perform s).1 := by
  cases task with
  | form glyph => exact .rasterize s.1 glyph
  | fit budget glyphs => exact fit_consults budget s.1 glyphs
  | composite glyphs width metrics => exact composite_consults s.1 glyphs width metrics
  | measure size => exact measureFont_consults s.1 size
  | slot size => exact keptMetrics_consults s.1 s.2 size
  | render size text budget => exact render_consults size text budget s.1 s.2

/-- A part of the face that nothing depends on may be forgotten before a task or after it. -/
theorem perform_mapFace {plain : τ → σ} (h : Face.Plain plain) (s : Bench τ × Option FontMetrics)
    (task : Task) :
    task.perform (s.1.mapFace plain, s.2) =
      ((task.perform s).1.mapFace plain, (task.perform s).2) := by
  cases task with
  | form glyph => simp only [perform, h.benchRasterize, Prod.map_snd]
  | fit budget glyphs => simp only [perform, h.fit, Prod.map_snd]
  | composite glyphs width metrics => simp only [perform, h.composite, Prod.map_snd]
  | measure size => simp only [perform, h.measureFont, Prod.map_snd]
  | slot size => simp only [perform, h.keptMetrics, Prod.map_snd, Prod.map_fst, id]
  | render size text budget =>
    simp only [perform, h.render, Prod.map_snd]
    rfl

end Task

section Runs

variable {σ τ : Type} [Face σ] [Face τ]

/-- The bench and the slot after tasks. -/
def performAll (s : Bench σ × Option FontMetrics) (tasks : List Task) :
    Bench σ × Option FontMetrics :=
  tasks.foldl Task.perform s

theorem performAll_mapFace {plain : τ → σ} (h : Face.Plain plain)
    (s : Bench τ × Option FontMetrics) (tasks : List Task) :
    performAll (s.1.mapFace plain, s.2) tasks =
      ((performAll s tasks).1.mapFace plain, (performAll s tasks).2) := by
  induction tasks generalizing s with
  | nil => rfl
  | cons task rest ih =>
    rw [performAll, List.foldl_cons, task.perform_mapFace h]
    exact ih (task.perform s)

/-- What every inquiry keeps is kept by tasks. -/
theorem performAll_keeps {P : Bench σ → Prop}
    (step : ∀ bench inquiry, P bench → P (Bench.after bench inquiry))
    {s : Bench σ × Option FontMetrics} (h : P s.1) (tasks : List Task) :
    P (performAll s tasks).1 := by
  induction tasks generalizing s with
  | nil => exact h
  | cons task rest ih => exact ih ((task.perform_consults s).keeps step h)

/-! ## The slot -/

/-- How often a run takes measures for the slot. -/
def measurings (s : Bench σ × Option FontMetrics) : List Task → Nat
  | [] => 0
  | task :: rest =>
    (if task.usesSlot && task.measures s then 1 else 0) + measurings (task.perform s) rest

/-- A task that uses the slot leaves it filled, and no other task changes it. -/
theorem perform_slot (s : Bench σ × Option FontMetrics) (task : Task) :
    (task.usesSlot = true → (task.perform s).2.isSome = true) ∧
      (task.usesSlot = false → (task.perform s).2 = s.2) := by
  cases task with
  | slot size => exact ⟨fun _ => rfl, fun h => nomatch h⟩
  | render size text budget =>
    obtain ⟨metrics, hmetrics, -⟩ := render_spec size text budget s.1 s.2
    refine ⟨fun _ => ?_, fun h => nomatch h⟩
    exact Option.isSome_iff_exists.2 ⟨metrics, hmetrics⟩
  | form _ | fit _ _ | composite _ _ _ | measure _ => exact ⟨fun h => (nomatch h), fun _ => rfl⟩

/-- Measures are taken for the slot only while it is empty, so once at most. -/
theorem measurings_le (s : Bench σ × Option FontMetrics) (tasks : List Task) :
    measurings s tasks ≤ if s.2.isSome then 0 else 1 := by
  induction tasks generalizing s with
  | nil => exact Nat.zero_le _
  | cons task rest ih =>
    obtain ⟨hfilled, hsame⟩ := perform_slot s task
    have hrest := ih (task.perform s)
    rw [measurings]
    cases hslot : task.usesSlot with
    | false =>
      rw [hsame hslot] at hrest
      simpa using hrest
    | true =>
      rw [hfilled hslot, if_pos rfl] at hrest
      rw [Task.measures_of_usesSlot hslot]
      cases s.2 with
      | none => simp [Nat.le_zero.1 hrest]
      | some metrics => simp [Nat.le_zero.1 hrest]

end Runs

section Recorded

variable {σ : Type} [Face σ]

/-- Bounds ask the face for ranges only, and only for those of glyphs that are not in the cache. -/
theorem calls_boundsFrom (glyphs : GlyphCache) (face : RecordedFace σ) (bounds : Option Extents)
    (codePoints : List Nat) :
    ∃ probes : List (GlyphIndex × Except FontError Extents),
      (boundsFrom glyphs face bounds codePoints).2.calls =
          face.calls ++ probes.map (fun p => .probe p.1 p.2) ∧
        ∀ p ∈ probes, glyphs.peek? p.1 = none := by
  induction codePoints generalizing face bounds with
  | nil => exact ⟨[], by simp [boundsFrom], by simp⟩
  | cons codePoint rest ih =>
    rw [boundsFrom]
    cases hc : glyphs.peek? (Face.charIndex face codePoint) with
    | some entry => exact ih ..
    | none =>
      let glyph := Face.charIndex face codePoint
      have hcalls : (Face.probe face glyph).2.calls =
          face.calls ++ [.probe glyph (Face.probe face glyph).1] := rfl
      -- One call for this glyph comes before the calls for the others.
      have hnext (bounds : Option Extents) :
          ∃ probes : List (GlyphIndex × Except FontError Extents),
            (boundsFrom glyphs (Face.probe face glyph).2 bounds rest).2.calls =
                face.calls ++ probes.map (fun p => .probe p.1 p.2) ∧
              ∀ p ∈ probes, glyphs.peek? p.1 = none := by
        obtain ⟨probes, hprobes, hmissing⟩ := ih (Face.probe face glyph).2 bounds
        refine ⟨(glyph, (Face.probe face glyph).1) :: probes, ?_,
          List.forall_mem_cons.2 ⟨hc, hmissing⟩⟩
        rw [hprobes, hcalls, List.append_assoc]
        rfl
      dsimp only
      split
      · next hp =>
        rw [hp] at hnext
        exact hnext _
      · next hp =>
        rw [hp] at hnext
        exact hnext _

/-- Measuring a font changes no glyph of the cache, and asks only for the ranges of glyphs that are
not there. -/
theorem calls_measureFont (bench : Bench (RecordedFace σ)) (size : UInt32) :
    let measured := (measureFont bench size).2
    measured.glyphs = bench.glyphs ∧
      ∃ probes : List (GlyphIndex × Except FontError Extents),
        measured.face.calls = bench.face.calls ++ probes.map (fun p => .probe p.1 p.2) ∧
          ∀ p ∈ probes, bench.glyphs.peek? p.1 = none := by
  obtain ⟨face, glyphs, log⟩ := bench
  exact ⟨rfl, calls_boundsFrom glyphs face none measuredCodePoints⟩

/-- Whatever a face answers, and however its answers change, for one glyph cache that begins empty
and a slot for the measures beside it. Tasks of any kind are done with them in any order, and
`bench` is what there is at some moment after these tasks, also in the midst of another one.

The face that writes down its calls does not change the tasks. Every glyph in the cache is as the
face first rendered it, no glyph is asked about again once it has been rendered, and the number and
the bytes of the entries are those of the renderings.

A glyph that is in the cache is answered from it and stays as it is; for any other the face is asked
once, and a failure changes nothing in the cache.

Each task asks for the glyphs `Task.forms`, and it takes measures if `Task.measures` says so.
Measuring changes no glyph and asks only for ranges of glyphs that are not in the cache, and it
happens once for the slot. -/
theorem glyphs_rendered_once (face : σ) (log : Array Log.Record) (tasks : List Task)
    (inquiries : List Bench.Inquiry) :
    let start : Bench (RecordedFace σ) × Option FontMetrics :=
      ({ face := { face }, glyphs := .empty, log }, none)
    let s := performAll start tasks
    let bench := inquiries.foldl Bench.after s.1
    performAll ({ face, glyphs := .empty, log }, none) tasks =
        (s.1.mapFace RecordedFace.face, s.2) ∧
      (∀ glyph, bench.glyphs.peek? glyph = bench.rendered.lookup glyph) ∧
      bench.face.calls.Pairwise (fun c c' => c.rendered?.isSome = true → c'.glyph ≠ c.glyph) ∧
      bench.glyphs.size = bench.rendered.length ∧
      bench.glyphs.bitmapBytes =
        bench.rendered.foldr (fun p total => p.2.data.size + total) 0 ∧
      (∀ glyph entry, bench.glyphs.peek? glyph = some entry →
        bench.rasterize glyph = (.ok entry, bench) ∧
          ∀ more : List Bench.Inquiry,
            (more.foldl Bench.after bench).glyphs.peek? glyph = some entry) ∧
      (∀ glyph, bench.glyphs.peek? glyph = none →
        let asked := Face.rasterize bench.face.face glyph
        let called := bench.called asked.2 (.rasterize glyph asked.1)
        (bench.rasterize glyph).1 = asked.1 ∧
          (∀ e, asked.1 = .error e → (bench.rasterize glyph).2 = called) ∧
          ∀ entry, asked.1 = .ok entry → (bench.rasterize glyph).2 = called.keep glyph entry) ∧
      (∀ task, s.1.Consults (Task.forms s task)
        (if Task.measures s task then measuredCodePoints.length else 0) (task.perform s).1) ∧
      (∀ size, (measureFont bench size).2.glyphs = bench.glyphs ∧
        ∃ probes : List (GlyphIndex × Except FontError Extents),
          (measureFont bench size).2.face.calls =
              bench.face.calls ++ probes.map (fun p => .probe p.1 p.2) ∧
            ∀ p ∈ probes, bench.glyphs.peek? p.1 = none) ∧
      measurings start tasks ≤ 1 := by
  intro start s bench
  have hstart : start.1.Accounted := .opened face log
  have hbench : bench.Accounted :=
    Bench.Consults.keeps ⟨inquiries, rfl, rfl, rfl⟩ Bench.Accounted.after
      (performAll_keeps Bench.Accounted.after hstart tasks)
  refine ⟨performAll_mapFace RecordedFace.plain_face start tasks, hbench.peek?_eq, hbench.once,
    hbench.size_eq, hbench.bitmapBytes_eq, fun glyph entry hc =>
      ⟨Bench.rasterize_of_peek? hc, fun more => ?_⟩,
    fun glyph hc => Bench.rasterize_of_peek?_eq_none hc, fun task => task.perform_consults s,
    calls_measureFont bench, measurings_le start tasks⟩
  exact Bench.Consults.keeps (P := fun bench => bench.glyphs.peek? glyph = some entry)
    ⟨more, rfl, rfl, rfl⟩ (fun _ inquiry h => Bench.peek?_after h inquiry) hc

/-- Every glyph fails once. One is asked for again after its failure and is rendered then. The fit
that comes after does not ask the face for it. -/
theorem glyphs_rendered_once_after_failure :
    let square : RasterGlyph :=
      { width := 2, height := 2, pitch := 2, left := 0, top := 2, advance := 3, format := .alpha8,
        data := #[1, 2, 3, 4] }
    let face : TableFace := .ofTable { others := some { glyph := square, failures := 1 } }
    let start : Bench (RecordedFace TableFace) := { face := { face }, glyphs := .empty }
    let s := performAll (start, none) [.form 97, .form 97, .fit none [97]]
    s.1.glyphs.peek? 97 = some square ∧ s.1.glyphs.peek? 98 = none ∧ s.1.glyphs.size = 1 ∧
      s.1.glyphs.bitmapBytes = 4 ∧ s.1.rasterize 97 = (.ok square, s.1) := by
  intro square face start s
  obtain ⟨-, hpeek, -, hsize, hbytes, hcached, -⟩ := glyphs_rendered_once face #[]
    [.form 97, .form 97, .fit none [97]] []
  rw [List.foldl_nil] at hsize hbytes
  simp only [List.foldl_nil] at hpeek hcached
  have hcalls : s.1.face.calls =
      [.rasterize 97 (.error (.glyphLoad 97)), .rasterize 97 (.ok square)] := by
    simp [s, start, face, performAll, Task.perform, fit, fitFrom, Bench.rasterize, Bench.kerning,
      GlyphCache.getOrRasterize, GlyphCache.peek?, GlyphCache.empty, Face.rasterize,
      Face.hasKerning, TableFace.rasterize, TableFace.Table.entry?, TableFace.ofTable]
  have hrendered : s.1.rendered = [(97, square)] :=
    congrArg (List.filterMap Face.Call.rendered?) hcalls
  have hfound (glyph : GlyphIndex) :
      s.1.glyphs.peek? glyph = [(97, square)].lookup glyph := hrendered ▸ hpeek glyph
  have hone : s.1.glyphs.size = 1 := hsize.trans (congrArg List.length hrendered)
  have hfour : s.1.glyphs.bitmapBytes = 4 := by
    refine hbytes.trans ?_
    change s.1.rendered.foldr (fun p total => p.2.data.size + total) 0 = 4
    rw [hrendered]
    rfl
  exact ⟨hfound 97, hfound 98, hone, hfour, (hcached 97 square (hfound 97)).1⟩

end Recorded

end Shaping

end BitmapText
