import BitmapText.Config
import BitmapText.Toml.Writer

/-!
# Configuration as text

Settings are kept in TOML: one table for each section. A key that is missing has its usual value,
and a key that is not known is ignored. A section may also be written as an array of its values in
order. The library that reads and writes TOML is a parameter, and so are the names of levels;
programs run with `Toml.Library.standard` and `Log.Filter.ofName?`.

## Main definitions

* `Config.ofValue`: the settings of a document.
* `Config.sections`: settings as sections of a document.
* `Config.parseBy`, `Config.parse`: the settings of a text, which are usable.
* `Config.toTomlBy`, `Config.toToml`: the text of settings.
-/

namespace BitmapText

namespace Config

/-! ## Reading -/

/-- A setting that a document gets wrong. -/
structure Mismatch where
  /-- The section or key whose value has the wrong type or is out of range. -/
  name : String
deriving Repr, DecidableEq

/-- The values of a section, one for each of `names`. A date is a section without keys. -/
def sectionValues (name : String) (names : List String) (value : Toml.Value) :
    Except Mismatch (List (Option Toml.Value)) :=
  match value with
  | .table entries => .ok (names.map fun key => entries.lookup key)
  | .array items => .ok ((List.range names.length).map fun i => items[i]?)
  | .datetime _ => .ok (names.map fun _ => none)
  | _ => .error ⟨name⟩

def number64 (name : String) : Toml.Value → Except Mismatch UInt64
  | .integer n => if 0 ≤ n then .ok (UInt64.ofNat n.toNat) else .error ⟨name⟩
  | _ => .error ⟨name⟩

def number32 (name : String) : Toml.Value → Except Mismatch UInt32
  | .integer n =>
    if 0 ≤ n ∧ n < 4294967296 then .ok (UInt32.ofNat n.toNat) else .error ⟨name⟩
  | _ => .error ⟨name⟩

def text (name : String) : Toml.Value → Except Mismatch String
  | .string s => .ok s
  | _ => .error ⟨name⟩

/-- The value of a key, or what it is without one. -/
def orDefault {α : Type} (default : α) (read : Toml.Value → Except Mismatch α) :
    Option Toml.Value → Except Mismatch α
  | none => .ok default
  | some value => read value

def cacheOfValue (value : Toml.Value) : Except Mismatch CacheConfig := do
  match ← sectionValues "cache" ["max_entries", "truncate_count"] value with
  | [maxEntries, truncateCount] =>
    let usual : CacheConfig := {}
    let maxEntries ← orDefault usual.maxEntries (number64 "max_entries") maxEntries
    let truncateCount ← orDefault none (fun v => some <$> number64 "truncate_count" v) truncateCount
    pure { maxEntries, truncateCount }
  | _ => .error ⟨"cache"⟩

def fontOfValue (value : Toml.Value) : Except Mismatch FontConfig := do
  match ← sectionValues "font" ["path", "size", "dpi"] value with
  | [path, size, dpi] =>
    let usual : FontConfig := {}
    let path ← orDefault usual.path (fun v => Path.mk <$> text "path" v) path
    let size ← orDefault usual.size (number32 "size") size
    let dpi ← orDefault usual.dpi (number32 "dpi") dpi
    pure { path, size, dpi }
  | _ => .error ⟨"font"⟩

def logOfValue (value : Toml.Value) : Except Mismatch LogConfig := do
  match ← sectionValues "log" ["level"] value with
  | [level] =>
    let usual : LogConfig := {}
    let level ← orDefault usual.level (text "level") level
    pure { level }
  | _ => .error ⟨"log"⟩

def ofValue (document : Toml.Value) : Except Mismatch Config := do
  let cache ← orDefault {} cacheOfValue (document.get? "cache")
  let font ← orDefault {} fontOfValue (document.get? "font")
  let log ← orDefault {} logOfValue (document.get? "log")
  pure { cache, font, log }

/-- The settings of a text, usable or not. -/
def readBy (toml : Toml.Library) (s : String) : Except ConfigError Config :=
  match toml.read s with
  | .error reason => .error (.parse ⟨""⟩ reason)
  | .ok document =>
    match ofValue document with
    | .error e => .error (.parse ⟨""⟩ ("unexpected value for " ++ e.name))
    | .ok config => .ok config

/-- The settings of a text. Settings that cannot be used are an error. -/
def parseBy (toml : Toml.Library) (filterOf? : String → Option Log.Filter) (s : String) :
    Except ConfigError Config :=
  match readBy toml s with
  | .error e => .error e
  | .ok config =>
    match config.validateBy filterOf? with
    | .error fault => .error fault.error
    | .ok () => .ok config

def parse (s : String) : Except ConfigError Config := parseBy .standard Log.Filter.ofName? s

/-! ## Writing -/

/-- The entries of the limits. A batch size that is not set has no key. -/
def cacheEntries (c : CacheConfig) : List (String × Toml.Plain) :=
  ("max_entries", .integer c.maxEntries.toNat) ::
    (c.truncateCount.map fun t => ("truncate_count", Toml.Plain.integer t.toNat)).toList

def fontEntries (c : FontConfig) : List (String × Toml.Plain) :=
  [("path", .string c.path.text), ("size", .integer c.size.toNat), ("dpi", .integer c.dpi.toNat)]

def logEntries (c : LogConfig) : List (String × Toml.Plain) := [("level", .string c.level)]

/-- The settings as sections of a document. -/
def sections (c : Config) : List Toml.Section :=
  [⟨"cache", cacheEntries c.cache⟩, ⟨"font", fontEntries c.font⟩, ⟨"log", logEntries c.log⟩]

/-- The text of settings. What cannot be written is an error. -/
def toTomlBy (toml : Toml.Library) (c : Config) : Except ConfigError String :=
  (toml.write c.sections).mapError ConfigError.invalid

def toToml (c : Config) : Except ConfigError String := c.toTomlBy .standard

end Config

end BitmapText
