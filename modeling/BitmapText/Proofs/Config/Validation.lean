import Mathlib
import BitmapText.Config

/-!
# Settings that can be used

Which settings can be used, said section by section and without the checks: limits that leave room
for an entry, a level that is the name of a filter once its blank ends are gone, a font with a size.
The checks accept these settings and no others, and what they report about others is the first fault
in the order of the sections. That holds for every way of reading the names of levels that takes the
six names in letters of either case, and nothing else.

A number of entries in a batch that is not set is never a fault, because the number that is taken
instead fits the limit it is taken from, also where their product stops at the largest number.

## Main definitions

* `Log.ReadsNames`: the six names are read, in either case.
* `CacheConfig.Usable`, `LogConfig.Names`, `FontConfig.Usable`, `Config.Usable`: settings that can
  be used.
* `Config.FirstFault`: what is wrong with settings, first section first.

## Main statements

* `Log.Filter.readsNames_ofName?`: programs read the names like that.
* `LogConfig.filterBy_eq_ok_iff`: a level sets the filter that it names.
* `Config.validate_exact`: the settings that are accepted, and what is reported about the others.
-/

namespace BitmapText

/-! ## Levels -/

namespace Log

namespace Filter

/-- The name of a filter, as settings spell it. -/
def name : Filter → String
  | off => "off"
  | upTo .error => "error"
  | upTo .warn => "warn"
  | upTo .info => "info"
  | upTo .debug => "debug"
  | upTo .trace => "trace"

theorem mem_all (f : Filter) : f ∈ all := by
  rcases f with _ | ⟨_ | _ | _ | _ | _⟩ <;> decide

/-- There are few filters, so a statement about all of them can be computed. -/
instance {P : Filter → Prop} [DecidablePred P] : Decidable (∀ f, P f) :=
  decidable_of_iff (∀ f ∈ all, P f) ⟨fun h f => h f (mem_all f), fun h f _ => h f⟩

theorem label_injective : ∀ {f g : Filter}, f.label = g.label → f = g := by decide

theorem map_toUpper_name : ∀ f : Filter, f.name.toList.map Char.toUpper = f.label.toList := by
  decide

theorem map_toLower_name : ∀ f : Filter, f.name.toList.map Char.toLower = f.name.toList := by
  decide

theorem all_isAlpha_name : ∀ f : Filter, f.name.toList.all Char.isAlpha = true := by decide

theorem toList_name_ne_nil : ∀ f : Filter, f.name.toList ≠ [] := by decide

/-- Both ways of taking the case away find the same texts equal to a name. -/
theorem map_toUpper_eq_label_iff {s : String} {f : Filter} :
    s.map Char.toUpper = f.label ↔ s.toList.map Char.toLower = f.name.toList := by
  rw [← String.toList_inj, String.toList_map, ← map_toUpper_name, ← map_toLower_name]
  constructor
  · intro h
    simpa [Function.comp_def] using congrArg (List.map Char.toLower) h
  · intro h
    simpa [Function.comp_def] using congrArg (List.map Char.toUpper) h

end Filter

/-- The six names are read, where the case of ASCII letters does not matter, and nothing else is. -/
def ReadsNames (filterOf? : String → Option Filter) : Prop :=
  ∀ (s : String) (f : Filter), filterOf? s = some f ↔ s.toList.map Char.toLower = f.name.toList

theorem Filter.readsNames_ofName? : ReadsNames ofName? := by
  intro s f
  rw [← map_toUpper_eq_label_iff, ofName?]
  constructor
  · intro h
    simpa using List.find?_some h
  · intro h
    cases hfound : all.find? fun g => s.map Char.toUpper == g.label with
    | none => exact absurd h (by simpa using List.find?_eq_none.mp hfound f (mem_all f))
    | some g =>
      have hg : s.map Char.toUpper = g.label := by simpa using List.find?_some hfound
      rw [label_injective (hg.symm.trans h)]

end Log

variable {filterOf? : String → Option Log.Filter}

/-- No letter is blank. -/
theorem Text.isBlank_of_isAlpha {c : Char} (h : c.isAlpha = true) : isBlank c = false := by
  simp only [Char.isAlpha, Char.isUpper, Char.isLower, Bool.or_eq_true, Bool.and_eq_true,
    decide_eq_true_eq, UInt32.le_iff_toNat_le, ge_iff_le] at h
  change (65 ≤ c.toNat ∧ c.toNat ≤ 90) ∨ (97 ≤ c.toNat ∧ c.toNat ≤ 122) at h
  refine Bool.eq_false_iff.mpr fun hblank => ?_
  simp only [isBlank, blankRanges, List.any_cons, List.any_nil, Bool.or_eq_true, Bool.and_eq_true,
    decide_eq_true_eq, Bool.or_false] at hblank
  omega

namespace LogConfig

/-- The level is the name of `f` between blank ends, in letters of either case. -/
def Names (c : LogConfig) (f : Log.Filter) : Prop :=
  ∃ before word after, c.level.toList = before ++ word ++ after ∧
    (∀ ch ∈ before, Text.isBlank ch = true) ∧ (∀ ch ∈ after, Text.isBlank ch = true) ∧
    word.map Char.toLower = f.name.toList

/-- A name is made of letters, in either case. -/
theorem isBlank_of_toLower_name {word : List Char} {f : Log.Filter}
    (h : word.map Char.toLower = f.name.toList) : ∀ c ∈ word, Text.isBlank c = false := by
  intro c hc
  have halpha := List.all_eq_true.mp f.all_isAlpha_name c.toLower (h ▸ List.mem_map_of_mem hc)
  exact Text.isBlank_of_isAlpha (by simpa using halpha)

theorem filterBy_eq_ok_iff (hread : Log.ReadsNames filterOf?) {c : LogConfig} {f : Log.Filter} :
    c.filterBy filterOf? = .ok f ↔ c.Names f := by
  have hok : c.filterBy filterOf? = .ok f ↔ filterOf? (Text.trim c.level) = some f := by
    unfold filterBy
    split <;> simp_all
  rw [hok, hread, Text.trim, String.toList_ofList]
  constructor
  · intro h
    obtain ⟨before, after, hcs, hbefore, hafter⟩ := Text.exists_trimChars c.level.toList
    exact ⟨before, _, after, hcs, hbefore, hafter, h⟩
  · rintro ⟨before, word, after, hcs, hbefore, hafter, hname⟩
    have hne : word ≠ [] := by
      rintro rfl
      exact f.toList_name_ne_nil hname.symm
    rw [hcs, Text.trimChars_append hbefore hafter (isBlank_of_toLower_name hname) hne, hname]

theorem filterBy_eq_error_iff (hread : Log.ReadsNames filterOf?) {c : LogConfig}
    {fault : ConfigFault} :
    c.filterBy filterOf? = .error fault ↔ (¬∃ f, c.Names f) ∧ fault = .unknownLevel c.level := by
  simp only [← filterBy_eq_ok_iff hread]
  unfold filterBy
  split <;> simp [eq_comm]

end LogConfig

/-! ## Limits of the caches -/

namespace CacheConfig

/-- There is room for an entry, and a batch that is set has an entry and fits the limit. -/
structure Usable (c : CacheConfig) : Prop where
  maxEntries : 1 ≤ c.maxEntries
  truncateCount : ∀ t, c.truncateCount = some t → 1 ≤ t ∧ t ≤ c.maxEntries

/-- What is wrong with the limits. A batch is looked at when there is room for an entry. -/
inductive Faulty (c : CacheConfig) : ConfigFault → Prop
  | noEntries : c.maxEntries = 0 → Faulty c .noEntries
  | emptyBatch : 1 ≤ c.maxEntries → c.truncateCount = some 0 → Faulty c .emptyBatch
  | batchTooLarge (t : UInt64) : 1 ≤ c.maxEntries → c.truncateCount = some t → c.maxEntries < t →
      Faulty c (.batchTooLarge t.toNat c.maxEntries.toNat)

/-- The number of entries that is taken for a batch fits the limit it is taken from. Where the
product stops at the largest number it has become smaller, so that its share has too. -/
theorem derivedTruncateCount_bounds {maxEntries : Nat} (h : 1 ≤ maxEntries) :
    1 ≤ derivedTruncateCount maxEntries ∧ derivedTruncateCount maxEntries ≤ maxEntries := by
  unfold derivedTruncateCount StringCache.Limits.defaultTruncateCount
    StringCache.Limits.defaultMaxEntries
  omega

example : derivedTruncateCount 18446744073709551615 = 46116860184273879 := by decide

theorem validate_of_usable {c : CacheConfig} (h : c.Usable) : c.validate = .ok () := by
  have hm : c.maxEntries ≠ 0 := by grind [h.maxEntries]
  have hle : c.batchSize ≤ c.maxEntries.toNat := by
    cases ht : c.truncateCount with
    | none =>
      rw [batchSize, ht]
      exact (derivedTruncateCount_bounds (UInt64.le_iff_toNat_le.mp h.maxEntries)).2
    | some t =>
      rw [batchSize, ht]
      exact UInt64.le_iff_toNat_le.mp (h.truncateCount t ht).2
  have ht : c.truncateCount ≠ some 0 := fun ht => absurd (h.truncateCount 0 ht).1 (by decide)
  rw [validate, if_neg hm, if_neg ht, if_neg (Nat.not_lt.mpr hle)]

theorem validate_of_faulty {c : CacheConfig} {fault : ConfigFault} (h : c.Faulty fault) :
    c.validate = .error fault := by
  cases h with
  | noEntries hm => rw [validate, if_pos hm]
  | emptyBatch hpos ht =>
    have hm : c.maxEntries ≠ 0 := by grind
    rw [validate, if_neg hm, if_pos ht]
  | batchTooLarge t hpos ht hlt =>
    have hm : c.maxEntries ≠ 0 := by grind
    have hne : c.truncateCount ≠ some 0 := by grind
    have hbatch : c.batchSize = t.toNat := by rw [batchSize, ht]
    rw [validate, if_neg hm, if_neg hne, hbatch, if_pos (UInt64.lt_iff_toNat_lt.mp hlt)]

theorem usable_or_faulty (c : CacheConfig) : c.Usable ∨ ∃ fault, c.Faulty fault := by
  by_cases hm : c.maxEntries = 0
  · exact .inr ⟨_, .noEntries hm⟩
  have hpos : 1 ≤ c.maxEntries := by grind
  cases ht : c.truncateCount with
  | none => exact .inl ⟨hpos, by simp [ht]⟩
  | some t =>
    by_cases hzero : t = 0
    · exact .inr ⟨_, .emptyBatch hpos (hzero ▸ ht)⟩
    by_cases hlt : c.maxEntries < t
    · exact .inr ⟨_, .batchTooLarge t hpos ht hlt⟩
    · refine .inl ⟨hpos, fun t' ht' => ?_⟩
      obtain rfl : t = t' := Option.some.inj (ht.symm.trans ht')
      grind

end CacheConfig

/-! ## All settings -/

/-- There is a size to draw with. -/
def FontConfig.Usable (c : FontConfig) : Prop := c.size ≠ 0 ∧ c.dpi ≠ 0

namespace Config

/-- Every section can be used. -/
structure Usable (c : Config) : Prop where
  cache : c.cache.Usable
  log : ∃ f, c.log.Names f
  font : c.font.Usable

/-- What is wrong with settings. A section is looked at when those before it can be used. -/
inductive FirstFault (c : Config) : ConfigFault → Prop
  | cache (fault : ConfigFault) : c.cache.Faulty fault → FirstFault c fault
  | log : c.cache.Usable → (¬∃ f, c.log.Names f) → FirstFault c (.unknownLevel c.log.level)
  | font : c.cache.Usable → (∃ f, c.log.Names f) → ¬c.font.Usable → FirstFault c .noFontSize

theorem validateBy_of_usable (hread : Log.ReadsNames filterOf?) {c : Config} (h : c.Usable) :
    c.validateBy filterOf? = .ok () := by
  obtain ⟨f, hf⟩ := h.log
  have hfont : ¬(c.font.size = 0 ∨ c.font.dpi = 0) := by simpa [FontConfig.Usable] using h.font
  simp only [validateBy, CacheConfig.validate_of_usable h.cache,
    (LogConfig.filterBy_eq_ok_iff hread).mpr hf, FontConfig.validate, if_neg hfont]

theorem validateBy_of_firstFault (hread : Log.ReadsNames filterOf?) {c : Config}
    {fault : ConfigFault} (h : c.FirstFault fault) : c.validateBy filterOf? = .error fault := by
  cases h with
  | cache _ hfault => simp only [validateBy, CacheConfig.validate_of_faulty hfault]
  | log hcache hnone =>
    simp only [validateBy, CacheConfig.validate_of_usable hcache,
      (LogConfig.filterBy_eq_error_iff hread).mpr ⟨hnone, rfl⟩]
  | font hcache hlog hfont =>
    obtain ⟨f, hf⟩ := hlog
    have hzero : c.font.size = 0 ∨ c.font.dpi = 0 := by
      simpa [FontConfig.Usable, or_iff_not_imp_left] using hfont
    simp only [validateBy, CacheConfig.validate_of_usable hcache,
      (LogConfig.filterBy_eq_ok_iff hread).mpr hf, FontConfig.validate, if_pos hzero]

theorem usable_or_firstFault (c : Config) : c.Usable ∨ ∃ fault, c.FirstFault fault := by
  rcases c.cache.usable_or_faulty with hcache | ⟨fault, hfault⟩
  · by_cases hlog : ∃ f, c.log.Names f
    · by_cases hfont : c.font.Usable
      · exact .inl ⟨hcache, hlog, hfont⟩
      · exact .inr ⟨_, .font hcache hlog hfont⟩
    · exact .inr ⟨_, .log hcache hlog⟩
  · exact .inr ⟨fault, .cache fault hfault⟩

/-- The settings that are accepted are those that can be used, and about others it is the first
fault that is reported. A number of entries in a batch that is not set fits every limit that leaves
room for an entry. -/
theorem validate_exact (hread : Log.ReadsNames filterOf?) (c : Config) :
    (c.validateBy filterOf? = .ok () ↔ c.Usable) ∧
      (∀ fault, c.validateBy filterOf? = .error fault ↔ c.FirstFault fault) ∧
      (c.cache.truncateCount = none → 1 ≤ c.cache.maxEntries →
        1 ≤ c.cache.batchSize ∧ c.cache.batchSize ≤ c.cache.maxEntries.toNat) := by
  refine ⟨⟨fun h => ?_, validateBy_of_usable hread⟩,
    fun fault => ⟨fun h => ?_, validateBy_of_firstFault hread⟩, fun hnone hpos => ?_⟩
  · obtain husable | ⟨fault, hfault⟩ := c.usable_or_firstFault
    · exact husable
    · cases h.symm.trans (validateBy_of_firstFault hread hfault)
  · obtain husable | ⟨fault', hfault⟩ := c.usable_or_firstFault
    · cases h.symm.trans (validateBy_of_usable hread husable)
    · obtain rfl : fault = fault' := by
        simpa using h.symm.trans (validateBy_of_firstFault hread hfault)
      exact hfault
  · rw [CacheConfig.batchSize, hnone]
    exact CacheConfig.derivedTruncateCount_bounds (UInt64.le_iff_toNat_le.mp hpos)

/-- A level in capitals between blank ends, no room for an entry, and no resolution: the limits are
reported. With the largest limit, whose share stops at the largest number, and a resolution, the
same level can be used. -/
theorem validate_exact_largest_limit :
    let level : LogConfig := { level := "\t TRACE\n" }
    let small : Config := { cache := { maxEntries := 0 }, font := { dpi := 0 }, log := level }
    let large : Config := { cache := { maxEntries := 18446744073709551615 }, log := level }
    small.validate = .error .noEntries ∧ large.validate = .ok () ∧
      1 ≤ large.cache.batchSize ∧ large.cache.batchSize ≤ 18446744073709551615 := by
  intro level small large
  have hread := Log.Filter.readsNames_ofName?
  have hlevel : level.Names (.upTo .trace) :=
    ⟨['\t', ' '], "TRACE".toList, ['\n'], by decide, by simp [Text.isBlank, Text.blankRanges],
      by simp [Text.isBlank, Text.blankRanges], by decide⟩
  obtain ⟨-, hsmall, -⟩ := validate_exact hread small
  obtain ⟨hlarge, -, hbatch⟩ := validate_exact hread large
  have husable : large.Usable :=
    { cache := ⟨by decide, by simp [large]⟩
      log := ⟨_, hlevel⟩
      font := ⟨by decide, by decide⟩ }
  exact ⟨(hsmall _).2 (.cache _ (.noEntries rfl)), hlarge.2 husable, hbatch rfl (by decide)⟩

end Config

end BitmapText
