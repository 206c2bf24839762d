import BitmapText.Log
import BitmapText.Path
import BitmapText.StringCache
import BitmapText.Text.Blank
import BitmapText.Text.Quoted

/-!
# Configuration

The settings of a program that draws text: the limits of its string caches, the font it draws with,
and how much it logs. Settings that were read from a file may be unusable, which is found by
`Config.validate`. Names of levels are read by a library for logging, which is a parameter of the
checks; programs run with `Log.Filter.ofName?`.

## Main definitions

* `CacheConfig`, `FontConfig`, `LogConfig`, `Config`: the settings.
* `ConfigError`: why there are no settings.
* `LogConfig.filterBy`, `LogConfig.filter`: the filter that a level names.
* `Config.validateBy`, `Config.validate`: whether settings can be used.
-/

namespace BitmapText

/-- The limits of the string caches. -/
structure CacheConfig where
  /-- The number of entries at which a batch is dropped. -/
  maxEntries : UInt64 := UInt64.ofNat StringCache.Limits.defaultMaxEntries
  /-- The number of entries in a batch; when it is not set, it follows from `maxEntries`. -/
  truncateCount : Option UInt64 := none
deriving Repr, DecidableEq

/-- The font that is drawn with. -/
structure FontConfig where
  path : Path := ⟨"/usr/share/fonts/truetype/dejavu/DejaVuSans.ttf"⟩
  /-- The size in quarter points. -/
  size : UInt32 := 48
  /-- The resolution in dots per inch. -/
  dpi : UInt32 := 96
deriving Repr, DecidableEq

/-- How much is logged. -/
structure LogConfig where
  level : String := "warn"
deriving Repr, DecidableEq

/-- All settings. -/
structure Config where
  cache : CacheConfig := {}
  font : FontConfig := {}
  log : LogConfig := {}
deriving Repr, DecidableEq

/-- Why there are no settings. -/
inductive ConfigError where
  | io (path : Path) (reason : String)
  | parse (path : Path) (reason : String)
  | invalid (reason : String)
deriving Repr, DecidableEq

def ConfigError.message : ConfigError → String
  | io path reason => "failed to read " ++ path.text ++ ": " ++ reason
  | parse path reason => "parse error in " ++ path.text ++ ": " ++ reason
  | invalid reason => "invalid config: " ++ reason

/-- What makes settings unusable. -/
inductive ConfigFault where
  | noEntries
  | emptyBatch
  | batchTooLarge (truncateCount maxEntries : Nat)
  | unknownLevel (name : String)
  | noFontSize
deriving Repr, DecidableEq

namespace ConfigFault

def reason : ConfigFault → String
  | noEntries => "cache.max_entries must be at least 1"
  | emptyBatch => "cache.truncate_count must be at least 1"
  | batchTooLarge t m =>
    "cache.truncate_count (" ++ toString t ++ ") exceeds cache.max_entries (" ++ toString m ++ ")"
  | unknownLevel name => "unknown log.level " ++ Text.quoted name
  | noFontSize => "font.size and font.dpi must be positive"

def error (f : ConfigFault) : ConfigError := .invalid f.reason

end ConfigFault

namespace CacheConfig

/-- The number of entries in a batch when it is not set: the usual share of `maxEntries`, where the
product stops at the largest number of 64 bits, and at least one. -/
def derivedTruncateCount (maxEntries : Nat) : Nat :=
  max 1 (min (maxEntries * StringCache.Limits.defaultTruncateCount) 18446744073709551615 /
    StringCache.Limits.defaultMaxEntries)

def batchSize (c : CacheConfig) : Nat :=
  match c.truncateCount with
  | some t => t.toNat
  | none => derivedTruncateCount c.maxEntries.toNat

def limits (c : CacheConfig) : StringCache.Limits := .ofNat c.maxEntries.toNat c.batchSize

def validate (c : CacheConfig) : Except ConfigFault Unit :=
  if c.maxEntries = 0 then .error .noEntries
  else if c.truncateCount = some 0 then .error .emptyBatch
  else if c.maxEntries.toNat < c.batchSize then
    .error (.batchTooLarge c.batchSize c.maxEntries.toNat)
  else .ok ()

end CacheConfig

/-- The filter that a level names between blank ends. What a name means is a parameter. -/
def LogConfig.filterBy (filterOf? : String → Option Log.Filter) (c : LogConfig) :
    Except ConfigFault Log.Filter :=
  match filterOf? (Text.trim c.level) with
  | some f => .ok f
  | none => .error (.unknownLevel c.level)

def LogConfig.filter (c : LogConfig) : Except ConfigFault Log.Filter :=
  c.filterBy Log.Filter.ofName?

def FontConfig.validate (c : FontConfig) : Except ConfigFault Unit :=
  if c.size = 0 ∨ c.dpi = 0 then .error .noFontSize else .ok ()

/-- The first fault of the settings: of the cache, then of the log, then of the font. -/
def Config.validateBy (filterOf? : String → Option Log.Filter) (c : Config) :
    Except ConfigFault Unit :=
  match c.cache.validate with
  | .error f => .error f
  | .ok () =>
    match c.log.filterBy filterOf? with
    | .error f => .error f
    | .ok _ => c.font.validate

def Config.validate (c : Config) : Except ConfigFault Unit := c.validateBy Log.Filter.ofName?

end BitmapText
