import BitmapText.Registry

/-!
# Sessions

A registry in use: handles kept under names, canvases kept under names, and a sequence of steps.
While a text is drawn on a target of the caller's own, the target may run steps itself. During such
a step the handle that draws cannot be named, but it still counts.

Every step answers with a report: what came of it, the records made since the last report, and the
registry as the step left it.

## Main definitions

* `Session`: the registry with everything that is kept under a name.
* `Action`, `Step`: what can be done.
* `Answer`, `Report`: what comes of it.
* `Session.run`: run a sequence of steps.
-/

namespace BitmapText

/-- What a handle says about its font. -/
structure HandleInfo where
  handle : Handle
  refcount : Nat
deriving Repr, DecidableEq

/-- Something that can be done at any time. -/
inductive Action where
  /-- Ask for a font and keep the handle under a name. -/
  | acquire (name : String) (key : FontKey)
  | clone (name copy : String)
  | release (name : String)
  | info (name : String)
  | same (name other : String)
  | measure (name text : String)
  /-- Measure the texts that start with `stem` and end with a number, from `first` up to, and
  without, `last`. -/
  | measureNumbered (name stem : String) (first last : Nat)
  | fit (name text : String) (maxWidth : Option Int)
  | boundedMeasure (name text : String) (maxWidth : Int)
  | maxHeight (name : String)
  | baseline (name : String)
  | paint (name text : String) (x y : Int) (right bottom : Option Int) (canvas : String)
  | stats
  | registry
  | canvas (name : String)
deriving Repr, DecidableEq

/-- One step of a session. -/
inductive Step where
  | act (action : Action)
  /-- Draw a text on a target that runs steps of its own when it is asked to draw. -/
  | draw (name text : String) (x y : Int) (right bottom : Option Int) (onDraw : List Step)

/-- What comes of a step. -/
inductive Answer where
  | noHandle
  | failed (e : FontError)
  | done
  | info (i : HandleInfo)
  /-- The fonts of two handles are, or are not, the same; `none` when there is no other handle. -/
  | same (result : Option Bool)
  | number (n : Int)
  /-- The sum of the widths and the number of failures. -/
  | total (widths : Int) (failures : Nat)
  | fit (f : Fit)
  | painted (glyphs : Nat)
  | drawn (drawing : Font.Drawing)
  | stats (s : RegistryStats)
  | registry (size : Nat) (text : String)
  | canvas (c : Option Bitmap)
deriving DecidableEq

/-- What a step reports. -/
structure Report (β σ : Type) where
  answer : Answer
  log : Array Log.Record
  after : Registry β σ
  /-- What the steps of the target reported, if the step drew. -/
  inner : List (Report β σ) := []

/-- A registry in use. -/
structure Session (β σ : Type) where
  registry : Registry β σ
  handles : List (String × Handle) := []
  canvases : List (String × Bitmap) := []
  log : Array Log.Record := #[]

namespace Session

variable {β σ : Type}

def handle? (s : Session β σ) (name : String) : Option Handle := s.handles.lookup name

/-- Forget the handle of a name without giving it back. -/
def forget (s : Session β σ) (name : String) : Session β σ :=
  { s with handles := s.handles.filter fun entry => entry.1 ≠ name }

/-- Take over a registry and the records that came with it. -/
def update (s : Session β σ) (registry : Registry β σ) (log : Array Log.Record) : Session β σ :=
  { s with registry, log := s.log ++ log }

/-- Report an answer, with the records made since the report before. -/
def report (s : Session β σ) (answer : Answer) (inner : List (Report β σ) := []) :
    Report β σ × Session β σ :=
  ({ answer, log := s.log, after := s.registry, inner }, { s with log := #[] })

/-- What a handle says about its font now. -/
def infoOf (s : Session β σ) (handle : Handle) : HandleInfo :=
  ⟨handle, s.registry.refcount handle.key⟩

/-- Put a question to the font of a named handle. -/
def ask {α : Type} (s : Session β σ) (name : String) (question : Font σ → Font.Outcome σ α) :
    Option (α × Session β σ) :=
  match s.handle? name with
  | none => none
  | some handle =>
    match s.registry.ask handle question with
    | none => none
    | some (answer, registry, log) => some (answer, s.update registry log)

/-- Answer a question about the font of a named handle. -/
def answerWith {α : Type} (s : Session β σ) (name : String)
    (question : Font σ → Font.Outcome σ α) (show_ : α → Answer) : Answer × Session β σ :=
  match s.ask name question with
  | none => (.noHandle, s)
  | some (answer, s) => (show_ answer, s)

def orFailed {α : Type} (show_ : α → Answer) : Except FontError α → Answer
  | .ok value => show_ value
  | .error e => .failed e

/-- Measure numbered texts, adding to the sum of the widths and to the number of failures. -/
def measureNumbered [Face σ] (s : Session β σ) (name stem : String) (widths : Int)
    (failures : Nat) : List Nat → Int × Nat × Session β σ
  | [] => (widths, failures, s)
  | n :: rest =>
    match s.ask name (Font.measure · (stem ++ toString n)) with
    | none => (widths, failures, s)
    | some (.ok width, s) => measureNumbered s name stem (widths + width) failures rest
    | some (.error _, s) => measureNumbered s name stem widths (failures + 1) rest

/-- Do what a drawing asks for on a canvas. -/
def paintOn (s : Session β σ) (canvas : String) (drawing : Font.Drawing) : Session β σ :=
  { s with canvases := s.canvases.map fun entry =>
      if entry.1 = canvas then (entry.1, drawing.paint entry.2) else entry }

variable [Backend β σ]

def giveBack (s : Session β σ) (handle : Handle) : Session β σ :=
  match s.registry.release handle.key with
  | (registry, log) => s.update registry log

/-- Keep a handle under a name. A handle that had this name is given back. -/
def keep (s : Session β σ) (name : String) (handle : Handle) : Session β σ :=
  let s' := { s.forget name with handles := (name, handle) :: (s.forget name).handles }
  match s.handle? name with
  | none => s'
  | some old => s'.giveBack old

variable [Face σ]

def perform (s : Session β σ) : Action → Answer × Session β σ
  | .acquire name key =>
    match s.registry.acquire key with
    | (.error e, registry, log) => (.failed e, s.update registry log)
    | (.ok handle, registry, log) =>
      let s := s.update registry log
      (.info (s.infoOf handle), s.keep name handle)
  | .clone name copy =>
    match s.handle? name with
    | none => (.noHandle, s)
    | some handle =>
      let s := s.update (s.registry.retain handle.key) #[]
      (.info (s.infoOf handle), s.keep copy handle)
  | .release name =>
    match s.handle? name with
    | none => (.noHandle, s)
    | some handle => (.done, (s.forget name).giveBack handle)
  | .info name =>
    match s.handle? name with
    | none => (.noHandle, s)
    | some handle => (.info (s.infoOf handle), s)
  | .same name other =>
    match s.handle? name with
    | none => (.noHandle, s)
    | some handle => (.same ((s.handle? other).map fun o => handle.id == o.id), s)
  | .measure name text => s.answerWith name (Font.measure · text) (orFailed .number)
  | .measureNumbered name stem first last =>
    match s.handle? name with
    | none => (.noHandle, s)
    | some _ =>
      match s.measureNumbered name stem 0 0 (List.range' first (last - first)) with
      | (widths, failures, s) => (.total widths failures, s)
  | .fit name text maxWidth => s.answerWith name (Font.fit · text maxWidth) .fit
  | .boundedMeasure name text maxWidth =>
    s.answerWith name (Font.boundedMeasure · text maxWidth) fun n => .number n
  | .maxHeight name => s.answerWith name Font.maxHeight .number
  | .baseline name => s.answerWith name Font.baseline .number
  | .paint name text x y right bottom canvas =>
    match s.ask name (Font.render · text x y right bottom) with
    | none => (.noHandle, s)
    | some (.error e, s) => (.failed e, s)
    | some (.ok drawing, s) => (.painted drawing.glyphs, s.paintOn canvas drawing)
  | .stats => (.stats s.registry.stats, s)
  | .registry => (.registry s.registry.size s.registry.text, s)
  | .canvas name => (.canvas (s.canvases.lookup name), s)

mutual

def step (s : Session β σ) : Step → Report β σ × Session β σ
  | .act action =>
    match s.perform action with
    | (answer, s) => s.report answer
  | .draw name text x y right bottom onDraw =>
    match s.handle? name with
    | none => s.report .noHandle
    | some handle =>
      match s.ask name (Font.render · text x y right bottom) with
      | none => s.report .noHandle
      | some (.error e, s) => s.report (.failed e)
      | some (.ok drawing, s) =>
        match drawing.call with
        | none => s.report (.drawn drawing)
        | some _ =>
          match run (s.forget name) onDraw with
          | (inner, s) => (s.keep name handle).report (.drawn drawing) inner

/-- Do steps in order and report each. -/
def run (s : Session β σ) : List Step → List (Report β σ) × Session β σ
  | [] => ([], s)
  | first :: rest =>
    match step s first with
    | (report, s) =>
      match run s rest with
      | (reports, s) => (report :: reports, s)

end

end Session

end BitmapText
