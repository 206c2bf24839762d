import BitmapText.Face
import BitmapText.Font
import BitmapText.Text.Quoted

/-!
# Font registry

Loaded fonts, shared by everyone who asks for the same one. A font is loaded when it is first asked
for and stays as long as there are handles on it. The rasterizer library is started by the first
request that needs it and kept from then on.

Every font that is loaded gets a number of its own, and a handle carries that number beside the key:
two handles are on the same font exactly when their numbers agree.

## Main definitions

* `Handle`: a counted reference to a loaded font.
* `Registry`: the loaded fonts.
* `Registry.acquire`, `Registry.retain`, `Registry.release`: how handles come and go.
* `Registry.ask`: put a question to the font of a handle.
* `Registry.stats`: the figures of all loaded fonts.
-/

namespace BitmapText

/-- A counted reference to a loaded font. -/
structure Handle where
  key : FontKey
  /-- The number of the font. -/
  id : Nat
deriving Repr, DecidableEq

def Handle.text (h : Handle) : String :=
  "FontHandle \x7b path: " ++ Text.quoted h.key.path.text ++
    ", size: " ++ toString h.key.size.toNat ++ ", dpi: " ++ toString h.key.dpi.toNat ++ " \x7d"

/-- A loaded font with the number of handles on it. -/
structure Slot (σ : Type) where
  font : Font σ
  id : Nat
  refcount : Nat

def Slot.handle {σ : Type} (s : Slot σ) : Handle := ⟨s.font.key, s.id⟩

/-- The loaded fonts, with the library that loads them. -/
structure Registry (β σ : Type) where
  backend : β
  started : Bool := false
  /-- The limits of the string caches of all fonts. -/
  limits : StringCache.Limits
  slots : List (Slot σ) := []
  /-- The number of the next font. -/
  nextId : Nat := 0

namespace Registry

variable {β σ : Type}

def empty (backend : β) (limits : StringCache.Limits) : Registry β σ := { backend, limits }

def size (r : Registry β σ) : Nat := r.slots.length

def isEmpty (r : Registry β σ) : Bool := r.slots.isEmpty

def text (r : Registry β σ) : String :=
  "FontRegistry \x7b fonts: " ++ toString r.size ++ " \x7d"

def find? (r : Registry β σ) (key : FontKey) : Option (Slot σ) :=
  r.slots.find? fun s => s.font.key.Same key

/-- The number of handles on the font of a key. -/
def refcount (r : Registry β σ) (key : FontKey) : Nat :=
  match r.find? key with
  | some s => s.refcount
  | none => 0

def modify (r : Registry β σ) (key : FontKey) (f : Slot σ → Slot σ) : Registry β σ :=
  { r with slots := r.slots.map fun s => if s.font.key.Same key then f s else s }

def record (level : Log.Level) (message : String) : Log.Record :=
  ⟨level, "ori_text::registry", "font registry: " ++ message⟩

/-! ## Handles -/

/-- Count one more handle on the font of a key. -/
def retain (r : Registry β σ) (key : FontKey) : Registry β σ :=
  r.modify key fun s => { s with refcount := s.refcount + 1 }

variable [Backend β σ]

def ensureStarted (r : Registry β σ) : Except FontError Unit × Registry β σ :=
  if r.started then (.ok (), r)
  else
    match Backend.start r.backend with
    | (.ok (), backend) => (.ok (), { r with backend, started := true })
    | (.error e, backend) => (.error e, { r with backend })

/-- Load the font of a key that has none, and count one handle on it. -/
def load (r : Registry β σ) (key : FontKey) :
    Except FontError Handle × Registry β σ × Array Log.Record :=
  match Backend.openFace r.backend key with
  | (.error e, log, backend) =>
    (.error e, { r with backend }, log.push (record .error e.message))
  | (.ok face, log, backend) =>
    let slot : Slot σ := { font := .opened key face r.limits, id := r.nextId, refcount := 1 }
    (.ok slot.handle, { r with backend, slots := r.slots ++ [slot], nextId := r.nextId + 1 },
      log.push (record .debug ("opened " ++ key.label)))

/-- A handle on the font of a key, which is loaded if nobody holds it yet. When that fails, no font
changes. -/
def acquire (r : Registry β σ) (key : FontKey) :
    Except FontError Handle × Registry β σ × Array Log.Record :=
  match r.find? key with
  | some slot => (.ok slot.handle, r.retain key, #[])
  | none =>
    match r.ensureStarted with
    | (.error e, r) => (.error e, r, #[record .error e.message])
    | (.ok (), r) => r.load key

/-- Give back a handle. With the last one, the font goes. -/
def release (r : Registry β σ) (key : FontKey) : Registry β σ × Array Log.Record :=
  match r.find? key with
  | none => (r, #[])
  | some slot =>
    if 1 < slot.refcount then
      (r.modify key fun s => { s with refcount := s.refcount - 1 }, #[])
    else
      let slots := r.slots.filter fun s => ¬ s.font.key.Same key
      ({ r with slots, backend := Backend.closeFace r.backend slot.font.face },
        #[record .debug ("closed " ++ key.label ++ ", " ++ toString slots.length ++ " fonts open")])

/-! ## Questions -/

omit [Backend β σ] in
/-- Put a question to the font of a handle; `none` when the font is not loaded. -/
def ask {α : Type} (r : Registry β σ) (h : Handle) (question : Font σ → Font.Outcome σ α) :
    Option (α × Registry β σ × Array Log.Record) :=
  match r.find? h.key with
  | none => none
  | some slot =>
    match question slot.font with
    | { answer, font, log } => some (answer, r.modify h.key ({ · with font }), log)

omit [Backend β σ] in
/-- The figures of all loaded fonts, in the order of their keys. -/
def stats (r : Registry β σ) : RegistryStats where
  fonts := (r.slots.map fun s => s.font.stats s.refcount).mergeSort
    fun a b => (a.key.order b.key).isLE

end Registry

end BitmapText
