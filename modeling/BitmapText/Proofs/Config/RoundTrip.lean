import BitmapText.Config.Text
import BitmapText.Proofs.Toml.Sections

/-!
# Settings are read back

The text of settings says what the settings are, whatever characters a path or the name of a level
is made of. A setting that is not set is left out of the text, and what is left out is read as not
set. So reading the text gives the settings back, or the fault that makes them unusable, with every
library that reads back the sections it writes.

## Main statements

* `Config.named_sections`: the names of the sections are bare and differ.
* `Config.ofValue_sections`: a document with their tables has the settings.
* `Config.parse_toToml`: settings that were written are read back.
-/

namespace BitmapText

open Toml

namespace Config

/-! ## Settings as sections -/

theorem named_cache (c : CacheConfig) : Toml.Section.Named ⟨"cache", cacheEntries c⟩ := by
  have hname : IsBare "cache" := .of_all (by decide)
  have hmaxEntries : IsBare "max_entries" := .of_all (by decide)
  have htruncateCount : IsBare "truncate_count" := .of_all (by decide)
  obtain ⟨maxEntries, truncateCount⟩ := c
  cases truncateCount with
  | none => exact ⟨hname, by simpa [cacheEntries] using hmaxEntries, by simp [cacheEntries]⟩
  | some t => exact ⟨hname, by simpa [cacheEntries] using ⟨hmaxEntries, htruncateCount⟩,
      by simp [cacheEntries]⟩

theorem named_font (c : FontConfig) : Toml.Section.Named ⟨"font", fontEntries c⟩ := by
  have hname : IsBare "font" := .of_all (by decide)
  have hpath : IsBare "path" := .of_all (by decide)
  have hsize : IsBare "size" := .of_all (by decide)
  have hdpi : IsBare "dpi" := .of_all (by decide)
  exact ⟨hname, by simpa [fontEntries] using ⟨hpath, hsize, hdpi⟩, by simp [fontEntries]⟩

theorem named_log (c : LogConfig) : Toml.Section.Named ⟨"log", logEntries c⟩ := by
  have hname : IsBare "log" := .of_all (by decide)
  have hlevel : IsBare "level" := .of_all (by decide)
  exact ⟨hname, by simpa [logEntries] using hlevel, by simp [logEntries]⟩

/-- The sections of settings are named as a library can read them back. -/
theorem named_sections (c : Config) : ∀ s ∈ c.sections, s.Named := by
  simpa [sections] using ⟨named_cache c.cache, named_font c.font, named_log c.log⟩

/-! ## Sections as settings -/

theorem number64_toNat (name : String) (n : UInt64) :
    number64 name (.integer n.toNat) = .ok n := by
  simp [number64]

theorem number32_toNat (name : String) (n : UInt32) :
    number32 name (.integer n.toNat) = .ok n := by
  have hlt : (n.toNat : Int) < 4294967296 := by
    have := n.toNat_lt
    omega
  simp [number32, hlt]

/-- A value that is there is read, whatever the default. -/
theorem orDefault_eq {α : Type} {value : α} {read : Value → Except Mismatch α} {v : Value}
    (h : read v = .ok value) (default : α) : orDefault default read (some v) = .ok value := h

theorem ok_bind {α β : Type} (value : α) (next : α → Except Mismatch β) :
    (.ok value >>= next) = next value := rfl

theorem sectionValues_table (name : String) (names : List String)
    (entries : List (String × Value)) :
    sectionValues name names (.table entries) = .ok (names.map fun key => entries.lookup key) := rfl

/-- A batch size that is not set has no key, and a batch size without a key is not set. -/
theorem cacheOfValue_table {c : CacheConfig} {v : Value}
    (h : Toml.Section.IsTable ⟨"cache", cacheEntries c⟩ v) : cacheOfValue v = .ok c := by
  obtain ⟨maxEntries, truncateCount⟩ := c
  obtain ⟨entries, rfl, hlookup⟩ := h
  have hmax : entries.lookup "max_entries" = some (.integer maxEntries.toNat) :=
    hlookup "max_entries"
  have hcount : entries.lookup "truncate_count" =
      truncateCount.map fun t => .integer t.toNat := by
    rw [hlookup]
    cases truncateCount <;> rfl
  have htruncate : orDefault none (fun v => some <$> number64 "truncate_count" v)
      (truncateCount.map fun t => .integer t.toNat) = .ok truncateCount := by
    cases truncateCount with
    | none => rfl
    | some t => exact congrArg (some <$> ·) (number64_toNat "truncate_count" t)
  rw [cacheOfValue, sectionValues_table, ok_bind]
  simp only [List.map_cons, List.map_nil, hmax, hcount]
  rw [orDefault_eq (number64_toNat "max_entries" maxEntries), htruncate]
  rfl

theorem fontOfValue_table {c : FontConfig} {v : Value}
    (h : Toml.Section.IsTable ⟨"font", fontEntries c⟩ v) : fontOfValue v = .ok c := by
  obtain ⟨path, size, dpi⟩ := c
  obtain ⟨entries, rfl, hlookup⟩ := h
  have hpath : entries.lookup "path" = some (.string path.text) := hlookup "path"
  have hsize : entries.lookup "size" = some (.integer size.toNat) := hlookup "size"
  have hdpi : entries.lookup "dpi" = some (.integer dpi.toNat) := hlookup "dpi"
  have htext (usual : Path) : orDefault usual (fun v => Path.mk <$> text "path" v)
      (some (.string path.text)) = .ok path := rfl
  rw [fontOfValue, sectionValues_table, ok_bind]
  simp only [List.map_cons, List.map_nil, hpath, hsize, hdpi]
  rw [htext, orDefault_eq (number32_toNat "size" size), orDefault_eq (number32_toNat "dpi" dpi)]
  rfl

theorem logOfValue_table {c : LogConfig} {v : Value}
    (h : Toml.Section.IsTable ⟨"log", logEntries c⟩ v) : logOfValue v = .ok c := by
  obtain ⟨entries, rfl, hlookup⟩ := h
  have hlevel : entries.lookup "level" = some (.string c.level) := hlookup "level"
  rw [logOfValue, sectionValues_table, ok_bind]
  simp only [List.map_cons, List.map_nil, hlevel]
  rfl

/-- A document with the tables of the sections has the settings. -/
theorem ofValue_sections {c : Config} {document : Value}
    (h : ∀ s ∈ c.sections, ∃ table, document.get? s.name = some table ∧ s.IsTable table) :
    ofValue document = .ok c := by
  simp only [sections, List.forall_mem_cons] at h
  obtain ⟨⟨cache, hcache, hcacheTable⟩, ⟨font, hfont, hfontTable⟩, ⟨log, hlog, hlogTable⟩, -⟩ := h
  rw [ofValue, hcache, hfont, hlog, orDefault_eq (cacheOfValue_table hcacheTable),
    orDefault_eq (fontOfValue_table hfontTable), orDefault_eq (logOfValue_table hlogTable)]
  rfl

/-! ## Texts of settings -/

section Library

variable {toml : Toml.Library}

/-- Settings have a text if the library can write their sections. -/
theorem toTomlBy_eq_ok_iff {c : Config} {s : String} :
    c.toTomlBy toml = .ok s ↔ toml.write c.sections = .ok s := by
  rw [toTomlBy]
  cases toml.write c.sections <;> simp [Except.mapError]

/-- The text of settings says what they are. -/
theorem readBy_toTomlBy (hback : toml.ReadsBack) {c : Config} {s : String}
    (h : c.toTomlBy toml = .ok s) : readBy toml s = .ok c := by
  obtain ⟨document, hread, htables⟩ :=
    hback c.sections s c.named_sections (by simp [sections]) (toTomlBy_eq_ok_iff.1 h)
  rw [readBy, hread]
  dsimp only
  rw [ofValue_sections htables]

/-- Settings that were written are read back as they were, with what is not set still not set, and
the fault that makes them unusable is found if they have one. -/
theorem parse_toToml (hback : toml.ReadsBack) (filterOf? : String → Option Log.Filter) {c : Config}
    {s : String} (h : c.toTomlBy toml = .ok s) :
    parseBy toml filterOf? s =
      match c.validateBy filterOf? with
      | .ok () => .ok c
      | .error fault => .error fault.error := by
  rw [parseBy, readBy_toTomlBy hback h]
  dsimp only
  cases c.validateBy filterOf? with
  | ok usable => rfl
  | error fault => rfl

end Library

/-- A path with both quotes, a newline, a control character and a backslash, and a level with room
around it. The batch size is not set. -/
theorem parse_toToml_odd_path :
    let c : Config :=
      { cache := { maxEntries := 3, truncateCount := none }
        font := { path := ⟨"\"\"\"a\n'\\\x01\"\""⟩, size := 7, dpi := 1 }
        log := { level := "\t Info" } }
    let text := String.ofList (writeSections c.sections)
    c.toToml = .ok text ∧ c.validate = .ok () ∧ parse text = .ok c := by
  intro c text
  have hwritten : c.toToml = .ok text := rfl
  have hvalid : c.validate = .ok () := by decide +kernel
  have hparse : parse text = _ :=
    parse_toToml Toml.Library.standard_readsBack Log.Filter.ofName? hwritten
  refine ⟨hwritten, hvalid, ?_⟩
  rwa [show c.validateBy Log.Filter.ofName? = .ok () from hvalid] at hparse

end Config

end BitmapText
