import Std.Data.HashMap
import BitmapText.Bitmap
import BitmapText.Log
import BitmapText.StringCache.Arena

/-!
# String cache

The composited strings of one font, by text and width limit, of which the least recently used ones
are dropped when there are too many. They are dropped in batches, so that a cache at its limit does
not pay for every new string.

## Main definitions

* `StringKey`, `RenderedString`: what an entry is found by, and what it holds.
* `StringCache.Limits`: when a batch is dropped, and how many entries it has.
* `StringCache.getOrRender`: the entry of a key, rendered if it is missing.
* `StringCache.entries`: the entries, from the least to the most recently used.
-/

namespace BitmapText

/-- What a composited string is found by. No limit differs from every limit. -/
structure StringKey where
  text : String
  maxWidth : Option Int
deriving Repr, DecidableEq, Hashable

/-- A composited string. -/
structure RenderedString where
  /-- The coverage; it is as wide as the string moves the pen and as high as the font. -/
  surface : Bitmap
  /-- The number of leading glyphs that are drawn. -/
  glyphCount : Nat
deriving DecidableEq

namespace StringCache

/-- One cached string. -/
structure Entry where
  key : StringKey
  value : RenderedString
deriving DecidableEq

namespace Entry

/-- The bytes that an entry takes beside its text and its coverage. -/
def overhead : Nat := 80

/-- The bytes that an entry takes, about. -/
def footprint (e : Entry) : Nat := e.value.surface.byteSize + e.key.text.utf8ByteSize + overhead

end Entry

/-- When entries are dropped, and how many. -/
structure Limits where
  /-- The number of entries at which a batch is dropped. -/
  maxEntries : Nat
  /-- The number of entries in a batch. -/
  truncateCount : Nat
  maxEntries_pos : 0 < maxEntries
  truncateCount_pos : 0 < truncateCount
deriving Repr, DecidableEq

namespace Limits

/-- The limits with these numbers, where `0` counts as `1`. -/
def ofNat (maxEntries truncateCount : Nat) : Limits where
  maxEntries := max maxEntries 1
  truncateCount := max truncateCount 1
  maxEntries_pos := by omega
  truncateCount_pos := by omega

/-- The number of entries at which a batch is dropped unless something else is said. -/
def defaultMaxEntries : Nat := 400

/-- The number of entries in a batch unless something else is said. -/
def defaultTruncateCount : Nat := 150

/-- The limits of a cache about which nothing else is said. -/
def standard : Limits := ofNat defaultMaxEntries defaultTruncateCount

instance : Inhabited Limits := ⟨standard⟩

end Limits

/-- What happened when a batch was dropped. -/
structure Eviction where
  dropped : Nat
  remaining : Nat
deriving Repr, DecidableEq

def Eviction.record (e : Eviction) : Log.Record where
  level := .debug
  target := "ori_text::string_cache"
  message := "string cache: evicted " ++ toString e.dropped ++ " entries, " ++
    toString e.remaining ++ " remain"

end StringCache

/-- Composited strings in order of use. -/
structure StringCache where
  index : Std.HashMap StringKey Nat := ∅
  /-- The entries, the least recently used one first. -/
  arena : Arena StringCache.Entry := .empty
  limits : StringCache.Limits
  /-- The number of batches dropped so far. -/
  evictions : Nat := 0

namespace StringCache

def empty (limits : Limits) : StringCache := { limits }

instance : Inhabited StringCache := ⟨empty default⟩

/-! ## Views -/

def size (c : StringCache) : Nat := c.index.size

def isEmpty (c : StringCache) : Bool := c.index.isEmpty

/-- The entries, from the least to the most recently used. -/
def entries (c : StringCache) : List Entry := c.arena.toList.map Prod.snd

/-- The keys, from the least to the most recently used. -/
def keysByRecency (c : StringCache) : List StringKey := c.entries.map Entry.key

/-- The bytes that all entries take, about. -/
def footprint (c : StringCache) : Nat :=
  c.arena.values.foldr (fun entry total => entry.footprint + total) 0

def find? (c : StringCache) (key : StringKey) : Option (Nat × Entry) :=
  match c.index[key]? with
  | none => none
  | some slot => (c.arena.value? slot).map (slot, ·)

/-- The string cached for a key. Looking does not count as use. -/
def peek? (c : StringCache) (key : StringKey) : Option RenderedString :=
  (c.find? key).map fun found => found.2.value

/-! ## Dropping a batch -/

def dropOldest (c : StringCache) : StringCache :=
  match c with
  | { index, arena, limits, evictions } =>
    match arena.popOldest with
    | (some entry, arena) => { index := index.erase entry.key, arena, limits, evictions }
    | (none, arena) => { index, arena, limits, evictions }

/-- Drop `count` entries at most, and none from `keep` on; the answer starts with the number of
entries dropped. -/
def dropBatch (c : StringCache) (keep : Option Nat) : Nat → Nat × StringCache
  | 0 => (0, c)
  | count + 1 =>
    if c.arena.oldest = none ∨ c.arena.oldest = keep then (0, c)
    else
      match c.dropOldest.dropBatch keep count with
      | (dropped, c) => (dropped + 1, c)

/-- Drop a batch if the cache is at its limit. -/
def evictIfFull (c : StringCache) (keep : Option Nat) : StringCache × Option Eviction :=
  if c.size < c.limits.maxEntries then (c, none)
  else
    match c.dropBatch keep c.limits.truncateCount with
    | (dropped, c) =>
      ({ c with evictions := c.evictions + 1 }, some { dropped, remaining := c.size })

/-! ## Use -/

/-- Note that the entry in `slot` was used. If it was not the last one used, a cache at its limit
drops a batch, but never that entry. -/
def touch (c : StringCache) (slot : Nat) : StringCache × Option Eviction :=
  if c.arena.newest = some slot then (c, none)
  else
    match c with
    | { index, arena, limits, evictions } =>
      evictIfFull { index, arena := arena.moveNewest slot, limits, evictions } (some slot)

/-- Add an entry for a key that has none. A cache at its limit drops a batch first. -/
def insert (c : StringCache) (key : StringKey) (value : RenderedString) :
    StringCache × Option Eviction :=
  match c.evictIfFull none with
  | ({ index, arena, limits, evictions }, eviction) =>
    match arena.pushNewest { key, value } with
    | (slot, arena) => ({ index := index.insert key slot, arena, limits, evictions }, eviction)

/-- What a request to a cache leaves behind. -/
structure Outcome (ε ω : Type) where
  /-- The string, or why it could not be rendered. -/
  result : Except ε RenderedString
  cache : StringCache
  eviction : Option Eviction
  world : ω

/-- The string of a key. If there is none, `render` makes it, starting from `world`; when it fails,
the cache stays as it is. -/
def getOrRender {ε ω : Type} (c : StringCache) (key : StringKey)
    (render : ω → Except ε RenderedString × ω) (world : ω) : Outcome ε ω :=
  match c.find? key with
  | some (slot, entry) =>
    match c.touch slot with
    | (cache, eviction) => { result := .ok entry.value, cache, eviction, world }
  | none =>
    match render world with
    | (.error e, world) => { result := .error e, cache := c, eviction := none, world }
    | (.ok value, world) =>
      match c.insert key value with
      | (cache, eviction) => { result := .ok value, cache, eviction, world }

end StringCache

end BitmapText
