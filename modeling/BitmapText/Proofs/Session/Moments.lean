import BitmapText.Proofs.Registry.InUse
import BitmapText.Session

/-!
# Moments of a session

A session keeps its handles under names and runs steps that may run steps while they draw. At every
moment between two steps, however deep, its registry is in use with the named handles idle and the
handles of the surrounding drawings drawing.

## Main definitions

* `Session.Moment`: the session between two steps of a run, at any depth.
* `Session.Live`: names are unique and the registry is in use.

## Main statements

* `Session.live_run`: a run keeps that.
* `Session.Moment.live`: so it holds at every moment.
* `Session.Moment.counts`: and the registry counts the live handles.
-/

namespace BitmapText

namespace Registry

variable {β σ : Type}

theorem ask_map {α γ : Type} (r : Registry β σ) (h : Handle) (question : Font σ → Font.Outcome σ α)
    (f : α → γ) : (r.ask h fun font => (question font).map f) =
      (r.ask h question).map fun p => (f p.1, p.2) := by
  unfold ask
  cases r.find? h.key <;> rfl

end Registry

namespace Session

variable {β σ : Type} {s t : Session β σ} {name : String} {h : Handle}

/-! ## Names -/

def named (s : Session β σ) : List Handle := s.handles.map Prod.snd

def NamesUnique (s : Session β σ) : Prop := (s.handles.map Prod.fst).Nodup

theorem filter_of_forall_ne {entries : List (String × Handle)}
    (hn : ∀ entry ∈ entries, entry.1 ≠ name) :
    (entries.filter fun entry => entry.1 ≠ name) = entries :=
  List.filter_eq_self.2 fun entry he => decide_eq_true (hn entry he)

theorem namesUnique_forget (hu : s.NamesUnique) (name : String) : (s.forget name).NamesUnique :=
  hu.sublist (List.filter_sublist.map _)

theorem notMem_forget (s : Session β σ) (name : String) :
    name ∉ (s.forget name).handles.map Prod.fst := by
  simp [forget]

/-- A name that is forgotten takes one handle with it. -/
theorem named_perm_of_handle? (hu : s.NamesUnique) (hn : s.handle? name = some h) :
    s.named.Perm (h :: (s.forget name).named) := by
  obtain ⟨pre, post, hcut, hpre⟩ := List.lookup_eq_some_iff.1 hn
  have hpre : ∀ entry ∈ pre, entry.1 ≠ name := fun entry he =>
    (bne_iff_ne.1 (hpre entry he)).symm
  have hpost : ∀ entry ∈ post, entry.1 ≠ name := fun entry he => by
    rw [NamesUnique, hcut] at hu
    grind
  rw [named, named, forget, hcut]
  simp only [List.filter_append, filter_of_forall_ne hpre,
    List.filter_cons_of_neg (a := (name, h)) (p := fun entry => entry.1 ≠ name) (by simp),
    filter_of_forall_ne hpost, List.map_append, List.map_cons]
  exact List.perm_middle

theorem named_forget_of_none (hn : s.handle? name = none) : (s.forget name).named = s.named := by
  refine congrArg (List.map Prod.snd) (filter_of_forall_ne fun entry he => ?_)
  exact (bne_iff_ne.1 (List.lookup_eq_none_iff.1 hn entry he)).symm

variable [Face σ]

/-- A question to a named font is a question to the font of the handle. -/
theorem registry_ask_of_ask {α : Type} {question : Font σ → Font.Outcome σ α} {q : Font.Query}
    {f : α → Font.Reply} (hq : ∀ font, (question font).map f = font.reply q) {a : α}
    (ha : s.ask name question = some (a, t)) :
    ∃ h log, s.handle? name = some h ∧
      s.registry.ask h (Font.reply · q) = some (f a, t.registry, log) ∧ t.handles = s.handles := by
  unfold ask at ha
  split at ha
  · simp at ha
  · next handle hn =>
    split at ha
    · simp at ha
    · next answer registry log hr =>
      obtain ⟨rfl, rfl⟩ := Prod.mk.inj (Option.some.inj ha)
      refine ⟨handle, log, hn, ?_, rfl⟩
      simp only [← hq, Registry.ask_map, hr, Option.map_some]
      rfl

variable [Backend β σ]

/-! ## One action -/

/-- Names are unique, and the registry is in use with the named handles idle. -/
structure Live (s : Session β σ) (drawing : List Handle) : Prop where
  inUse : s.registry.InUse drawing s.named
  names : s.NamesUnique

namespace Live

variable {drawing : List Handle}

theorem giveBack (hr : s.registry.InUse drawing (h :: s.named)) (hu : s.NamesUnique) :
    (s.giveBack h).Live drawing where
  inUse := by
    have hreleased := hr.released List.mem_cons_self
    rw [List.erase_cons_head] at hreleased
    exact hreleased
  names := hu

/-- A handle gets a name, and one that had the name is given back. -/
theorem keep (hr : s.registry.InUse drawing (h :: s.named)) (hu : s.NamesUnique) (name : String) :
    (s.keep name h).Live drawing := by
  have hu' : ({ s.forget name with
      handles := (name, h) :: (s.forget name).handles } : Session β σ).NamesUnique :=
    List.nodup_cons.2 ⟨notMem_forget s name, namesUnique_forget hu name⟩
  unfold Session.keep
  cases hn : s.handle? name with
  | none =>
    have hr' : s.registry.InUse drawing (h :: (s.forget name).named) := by
      rwa [named_forget_of_none hn]
    exact ⟨hr', hu'⟩
  | some old =>
    -- The old handle has lost its name before it is given back.
    refine giveBack (hr.reordered ?_) hu'
    exact ((named_perm_of_handle? hu hn).cons h).trans (.swap ..)

theorem ask (hl : s.Live drawing) {α : Type} {question : Font σ → Font.Outcome σ α}
    {q : Font.Query} {f : α → Font.Reply} (hq : ∀ font, (question font).map f = font.reply q)
    {a : α} (ha : s.ask name question = some (a, t)) : t.Live drawing := by
  obtain ⟨h, log, hn, hr, hh⟩ := registry_ask_of_ask hq ha
  have hnamed : t.named = s.named := congrArg (List.map Prod.snd) hh
  have hnames : t.NamesUnique := by
    rw [NamesUnique, hh]
    exact hl.names
  have hmem : h ∈ s.named := (named_perm_of_handle? hl.names hn).mem_iff.2 List.mem_cons_self
  exact ⟨hnamed ▸ hl.inUse.asked (List.mem_append_right _ hmem) hr, hnames⟩

/-- A handle is set aside while its text is drawn. -/
theorem forget (hl : s.Live drawing) (hn : s.handle? name = some h) {text : String} {x y : Int}
    {right bottom : Option Int} {d : Font.Drawing} (hd : d.call.isSome = true)
    (ha : s.ask name (Font.render · text x y right bottom) = some (.ok d, t)) :
    (t.forget name).Live (h :: drawing) := by
  have hq (font : Font σ) : (font.render text x y right bottom).map Font.Reply.drawing =
      font.reply (.render text x y right bottom) := rfl
  obtain ⟨h', log, hn', hr, hh⟩ := registry_ask_of_ask hq ha
  obtain rfl := Option.some.inj (hn.symm.trans hn')
  have hperm := named_perm_of_handle? hl.names hn
  have hforget : (t.forget name).named = (s.forget name).named := by
    simp only [named, Session.forget, hh]
  refine ⟨?_, namesUnique_forget (hl.ask hq ha).names name⟩
  rw [hforget]
  have hbegun := hl.inUse.drawBegun (hperm.mem_iff.2 List.mem_cons_self) hr rfl hd
  refine hbegun.reordered ?_
  have herase := hperm.erase h
  rwa [List.erase_cons_head] at herase

theorem answerWith (hl : s.Live drawing) {α : Type} {question : Font σ → Font.Outcome σ α}
    {q : Font.Query} {f : α → Font.Reply} (hq : ∀ font, (question font).map f = font.reply q)
    (show_ : α → Answer) : (s.answerWith name question show_).2.Live drawing := by
  unfold Session.answerWith
  split
  · exact hl
  · next ha => exact hl.ask hq ha

theorem measureNumbered (hl : s.Live drawing) (name stem : String) (widths : Int) (failures : Nat)
    (numbers : List Nat) :
    (s.measureNumbered name stem widths failures numbers).2.2.Live drawing := by
  induction numbers generalizing s widths failures with
  | nil => exact hl
  | cons n rest ih =>
    rw [Session.measureNumbered]
    have hq (font : Font σ) : (font.measure (stem ++ toString n)).map Font.Reply.width =
        font.reply (.measure (stem ++ toString n)) := rfl
    split
    · exact hl
    · next ha => exact ih (hl.ask hq ha) _ _
    · next ha => exact ih (hl.ask hq ha) _ _

theorem perform (hl : s.Live drawing) (action : Action) :
    (s.perform action).2.Live drawing := by
  cases action with
  | acquire name key =>
    rw [Session.perform]
    split
    · next e registry log ha =>
      have hr : (s.registry.acquire key).2.1.InUse drawing s.named :=
        hl.inUse.refused (e := e) (by rw [ha])
      rw [ha] at hr
      exact ⟨hr, hl.names⟩
    · next handle registry log ha =>
      have hr : (s.registry.acquire key).2.1.InUse drawing (handle :: s.named) :=
        hl.inUse.acquired (by rw [ha])
      rw [ha] at hr
      exact keep (s := s.update registry log) hr hl.names name
  | clone name copy =>
    rw [Session.perform]
    split
    · exact hl
    · next handle hn =>
      have hmem : handle ∈ s.named :=
        (named_perm_of_handle? hl.names hn).mem_iff.2 List.mem_cons_self
      have hr := hl.inUse.cloned (List.mem_append_right _ hmem)
      exact keep (s := s.update (s.registry.retain handle.key) #[]) hr hl.names copy
  | release name =>
    rw [Session.perform]
    split
    · exact hl
    · next handle hn =>
      exact giveBack (hl.inUse.reordered (named_perm_of_handle? hl.names hn))
        (namesUnique_forget hl.names name)
  | info name =>
    rw [Session.perform]
    split <;> exact hl
  | same name other =>
    rw [Session.perform]
    split <;> exact hl
  | measure name text => exact hl.answerWith (q := .measure text) (fun _ => rfl) _
  | measureNumbered name stem first last =>
    rw [Session.perform]
    split
    · exact hl
    · exact hl.measureNumbered name stem 0 0 _
  | fit name text maxWidth => exact hl.answerWith (q := .fit text maxWidth) (fun _ => rfl) _
  | boundedMeasure name text maxWidth =>
    exact hl.answerWith (q := .boundedMeasure text maxWidth) (fun _ => rfl) _
  | maxHeight name => exact hl.answerWith (q := .maxHeight) (fun _ => rfl) _
  | baseline name => exact hl.answerWith (q := .baseline) (fun _ => rfl) _
  | paint name text x y right bottom canvas =>
    rw [Session.perform]
    have hq (font : Font σ) : (font.render text x y right bottom).map Font.Reply.drawing =
        font.reply (.render text x y right bottom) := rfl
    split
    · exact hl
    · next ha => exact hl.ask hq ha
    · next ha =>
      have h := hl.ask hq ha
      exact ⟨h.inUse, h.names⟩
  | stats => exact hl
  | registry => exact hl
  | canvas name => exact hl

end Live

/-! ## Steps -/

theorem live_report {drawing : List Handle} (hl : s.Live drawing) (answer : Answer)
    (inner : List (Report β σ)) : (s.report answer inner).2.Live drawing :=
  ⟨hl.inUse, hl.names⟩

mutual

theorem live_step {s : Session β σ} {drawing : List Handle} (hl : s.Live drawing) (step : Step) :
    (s.step step).2.Live drawing := by
  cases step with
  | act action =>
    rw [Session.step]
    exact live_report (hl.perform action) _ _
  | draw name text x y right bottom onDraw =>
    rw [Session.step]
    split
    · exact live_report hl _ _
    · next handle hn =>
      have hq (font : Font σ) : (font.render text x y right bottom).map Font.Reply.drawing =
          font.reply (.render text x y right bottom) := rfl
      split
      · exact live_report hl _ _
      · next ha => exact live_report (hl.ask hq ha) _ _
      · next d s' ha =>
        split
        · exact live_report (hl.ask hq ha) _ _
        · next call hcall =>
          have hinner := live_run (hl.forget hn (by rw [hcall]; rfl) ha) onDraw
          exact live_report (Live.keep hinner.inUse.drawEnded hinner.names name) _ _

/-- A run keeps names unique and the registry in use. -/
theorem live_run {s : Session β σ} {drawing : List Handle} (hl : s.Live drawing)
    (steps : List Step) : (s.run steps).2.Live drawing := by
  cases steps with
  | nil =>
    rw [Session.run]
    exact hl
  | cons first rest =>
    rw [Session.run]
    exact live_run (live_step hl first) rest

end

/-! ## Moments -/

/-- `Moment s steps drawing t`: while `steps` run from `s`, the session is `t` between two steps,
and the handles `drawing` are drawing then, the innermost first. -/
inductive Moment : Session β σ → List Step → List Handle → Session β σ → Prop where
  | now (s : Session β σ) (steps : List Step) : Moment s steps [] s
  | later {s t : Session β σ} {first : Step} {rest : List Step} {drawing : List Handle} :
      Moment (s.step first).2 rest drawing t → Moment s (first :: rest) drawing t
  | inside {s s' t : Session β σ} {name text : String} {x y : Int} {right bottom : Option Int}
      {onDraw rest : List Step} {h : Handle} {d : Font.Drawing} {drawing : List Handle} :
      s.handle? name = some h →
        s.ask name (Font.render · text x y right bottom) = some (.ok d, s') →
        d.call.isSome = true → Moment (s'.forget name) onDraw drawing t →
        Moment s (.draw name text x y right bottom onDraw :: rest) (drawing ++ [h]) t

/-- A moment of a run finds the session live, below the drawings that were on before. -/
theorem Moment.live {steps : List Step} {drawing held : List Handle}
    (hm : Moment s steps drawing t) (hl : s.Live held) : t.Live (drawing ++ held) := by
  induction hm generalizing held with
  | now s steps => exact hl
  | later _ ih => exact ih (live_step hl _)
  | inside hn ha hd _ ih => simpa using ih (hl.forget hn hd ha)

theorem live_empty (backend : β) (limits : StringCache.Limits)
    (canvases : List (String × Bitmap)) :
    ({ registry := .empty backend limits, canvases } : Session β σ).Live [] :=
  ⟨.empty backend limits, List.nodup_nil⟩

/-- At every moment of a run from an empty registry, its slots count the handles that have names
and those that are drawing. -/
theorem Moment.counts {backend : β} {limits : StringCache.Limits}
    {canvases : List (String × Bitmap)} {steps : List Step} {drawing : List Handle}
    (hm : Moment { registry := .empty backend limits, canvases } steps drawing t) :
    t.registry.Counts (drawing ++ t.named) := by
  have hl := hm.live (live_empty backend limits canvases)
  rw [List.append_nil] at hl
  exact hl.inUse.counts

end Session

end BitmapText
