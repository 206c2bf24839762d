import BitmapText.Proofs.Toml.Lines
import BitmapText.Toml.Writer

/-!
# Documents of sections

A document that is written as sections, each a header with keys and their values below it and an
empty line before the next one, is read back as a table of tables. It takes that the names are bare,
and that no name comes twice. This is what is asked of every library for TOML, and the library that
programs run with does it.

## Main definitions

* `Toml.Section.Named`: the names of a section are bare and differ.
* `Toml.Section.IsTable`: a value is the table of a section.
* `Toml.Library.ReadsBack`: a library reads back what it writes.

## Main statements

* `Toml.lines?_writeSections`: what a document of sections says.
* `Toml.assemble?_sections`: what that comes to.
* `Toml.Library.standard_readsBack`: the library that programs run with reads back what it writes.
-/

namespace BitmapText

namespace Toml

variable {name key : String}

/-- The names of a section need no quotes, and its keys are different ones. -/
structure Section.Named (s : Section) : Prop where
  name : IsBare s.name
  keys : ∀ entry ∈ s.entries, IsBare entry.1
  nodup : (s.entries.map Prod.fst).Nodup

/-- The value is the table of a section: it has the keys of the section with their values, in any
order, and no others. -/
def Section.IsTable (s : Section) (v : Value) : Prop :=
  ∃ entries, v = .table entries ∧ ∀ key, entries.lookup key = (s.entries.lookup key).map Plain.value

/-- The library reads the strings and integers back that it wrote: a document of different sections
with bare names is read as their tables, if it could be written. -/
def Library.ReadsBack (toml : Library) : Prop :=
  ∀ (sections : List Section) (text : String), (∀ s ∈ sections, s.Named) →
    (sections.map Section.name).Nodup → toml.write sections = .ok text →
    ∃ document, toml.read text = .ok document ∧
      ∀ s ∈ sections, ∃ table, document.get? s.name = some table ∧ s.IsTable table

/-! ## Sections -/

theorem writtenAs_plain {v : Plain} (h : v.isWritable = true) : WrittenAs v.write v.value := by
  cases v with
  | string text => exact writtenAs_string text
  | integer n => exact writtenAs_integer (of_decide_eq_true h)

namespace Section

/-- The table of the section, with its keys in order. -/
def value (s : Section) : Value := .table (s.entries.map fun entry => (entry.1, entry.2.value))

/-- What the lines of a section say. -/
def statements (s : Section) : List Statement :=
  .table [s.name] :: s.entries.map fun entry => .assign [entry.1] entry.2.value

/-- A section can be read back from its lines. -/
structure Proper (s : Section) : Prop extends s.Named where
  written : ∀ entry ∈ s.entries, WrittenAs entry.2.write entry.2.value

theorem Named.proper {s : Section} (h : s.Named) (hw : s.isWritable = true) : s.Proper where
  toNamed := h
  written entry hmem := writtenAs_plain (List.all_eq_true.1 hw entry hmem)

/-- Below its header, a section is read entry by entry. -/
theorem lines?_flatten {entries : List (String × Plain)}
    (hkeys : ∀ entry ∈ entries, IsBare entry.1)
    (hwritten : ∀ entry ∈ entries, WrittenAs entry.2.write entry.2.value) (rest : List Char) :
    lines? ((entries.map fun entry => writeLine entry.1 entry.2.write).flatten ++ rest) =
      (lines? rest).map fun others =>
        (entries.map fun entry => Statement.assign [entry.1] entry.2.value) ++ others := by
  induction entries with
  | nil => simp
  | cons entry entries ih =>
    obtain ⟨hkey, hkeys⟩ := List.forall_mem_cons.1 hkeys
    obtain ⟨hw, hwritten⟩ := List.forall_mem_cons.1 hwritten
    rw [List.map_cons, List.flatten_cons, List.append_assoc,
      lines?_append (says_writeLine hkey hw), ih hkeys hwritten, Option.map_map]
    rfl

theorem lines?_write {s : Section} (h : s.Proper) (rest : List Char) :
    lines? (s.write ++ rest) = (lines? rest).map fun others => s.statements ++ others := by
  rw [write, List.append_assoc, lines?_append (says_header h.name),
    lines?_flatten h.keys h.written, Option.map_map]
  rfl

end Section

/-- A document of sections says what its sections say. -/
theorem lines?_writeSections {sections : List Section} (h : ∀ s ∈ sections, s.Proper) :
    lines? (writeSections sections) = some (sections.flatMap Section.statements) := by
  have hend : lines? [] = some [] := by rw [lines?]; rfl
  induction sections with
  | nil => exact hend
  | cons s rest ih =>
    obtain ⟨hs, hrest⟩ := List.forall_mem_cons.1 h
    cases rest with
    | nil =>
      have hone := Section.lines?_write hs []
      rw [List.append_nil, hend] at hone
      rw [writeSections, hone, List.flatMap_cons]
      rfl
    | cons next more =>
      rw [writeSections, List.append_assoc, Section.lines?_write hs,
        lines?_append says_newline, ih hrest, List.flatMap_cons]
      · rfl
      · simp

/-! ## Tables of sections -/

section Assemble

variable {α : Type} {entries : List (String × α)}

theorem lookup_eq_none_of_notMem (h : name ∉ entries.map Prod.fst) :
    entries.lookup name = none := by
  rw [List.lookup_eq_none_iff]
  intro entry hmem
  have hne : name ≠ entry.1 := fun he => h (he ▸ List.mem_map_of_mem hmem)
  simpa using hne

theorem lookup_append_singleton (h : name ∉ entries.map Prod.fst) (value : α) :
    (entries ++ [(name, value)]).lookup name = some value := by
  simp [List.lookup_append, lookup_eq_none_of_notMem h]

theorem replaceEntry_append_singleton (h : name ∉ entries.map Prod.fst) (old value : α) :
    replaceEntry name value (entries ++ [(name, old)]) = entries ++ [(name, value)] := by
  have hothers : entries.map (fun entry => if entry.1 = name then (name, value) else entry) =
      entries := by
    refine (List.map_congr_left fun entry hmem => if_neg ?_).trans (List.map_id _)
    rintro rfl
    exact h (List.mem_map_of_mem hmem)
  simp [replaceEntry, hothers]

end Assemble

/-- The draught behind some tables, when a table with a header is open. -/
def draughtOf (tables : Entries) (name : String) (entries : Entries) : Draught :=
  { entries := tables ++ [(name, .table .header entries)], current := [name] }

section Add

variable {tables entries : Entries}

theorem add_table (d : Draught) (h : name ∉ d.entries.map Prod.fst) :
    d.add (.table [name]) = some (draughtOf d.entries name []) := by
  simp only [Draught.add, List.getLast?_singleton, List.dropLast_singleton, editAt, openTable,
    lookup_eq_none_of_notMem h, Option.map_some, draughtOf]

theorem add_assign (hname : name ∉ tables.map Prod.fst) (hkey : key ∉ entries.map Prod.fst)
    (value : Value) :
    (draughtOf tables name entries).add (.assign [key] value) =
      some (draughtOf tables name (entries ++ [(key, .leaf value)])) := by
  have hput : assignIn [key] value .header entries =
      some (.header, entries ++ [(key, .leaf value)]) := by
    simp [assignIn, editAt, putValue, lookup_eq_none_of_notMem hkey]
  simp only [Draught.add, draughtOf, editAt, lookup_append_singleton hname, hput]
  simp [replaceEntry_append_singleton hname]

/-- The entries of a section in a draught. -/
def leaves (entries : List (String × Plain)) : Entries :=
  entries.map fun entry => (entry.1, .leaf entry.2.value)

/-- The assignments of a section fill its table. -/
theorem foldlM_add_assign {assignments : List (String × Plain)}
    (hname : name ∉ tables.map Prod.fst)
    (hnodup : (entries.map Prod.fst ++ assignments.map Prod.fst).Nodup) :
    (assignments.map fun entry => Statement.assign [entry.1] entry.2.value).foldlM Draught.add
        (draughtOf tables name entries) =
      some (draughtOf tables name (entries ++ leaves assignments)) := by
  induction assignments generalizing entries with
  | nil => simp [leaves]
  | cons entry rest ih =>
    have hkey : entry.1 ∉ entries.map Prod.fst := fun hmem =>
      (List.nodup_append.1 hnodup).2.2 _ hmem _ (.head _) rfl
    rw [List.map_cons, List.foldlM_cons, add_assign hname hkey, Option.bind_eq_bind,
      Option.bind_some, ih (by simpa using hnodup)]
    simp [leaves]

/-- A section adds its table to a draught that has none of its name. -/
theorem Section.foldlM_statements {s : Section} (h : s.Proper) (d : Draught)
    (hname : s.name ∉ d.entries.map Prod.fst) :
    s.statements.foldlM Draught.add d =
      some (draughtOf d.entries s.name (leaves s.entries)) := by
  rw [Section.statements, List.foldlM_cons, add_table d hname, Option.bind_eq_bind,
    Option.bind_some, foldlM_add_assign hname (by simpa using h.nodup), List.nil_append]

/-- Sections of different names add their tables one after the other. -/
theorem foldlM_flatMap_statements {sections : List Section} (h : ∀ s ∈ sections, s.Proper)
    (d : Draught) (hnodup : (d.entries.map Prod.fst ++ sections.map Section.name).Nodup) :
    ∃ last, (sections.flatMap Section.statements).foldlM Draught.add d = some last ∧
      last.entries = d.entries ++ sections.map fun s =>
        (s.name, .table .header (leaves s.entries)) := by
  induction sections generalizing d with
  | nil => exact ⟨d, rfl, by simp⟩
  | cons s rest ih =>
    obtain ⟨hs, hrest⟩ := List.forall_mem_cons.1 h
    have hname : s.name ∉ d.entries.map Prod.fst := fun hmem =>
      (List.nodup_append.1 hnodup).2.2 _ hmem _ (.head _) rfl
    obtain ⟨last, hlast, hentries⟩ := ih hrest (draughtOf d.entries s.name (leaves s.entries))
      (by simpa [draughtOf] using hnodup)
    refine ⟨last, ?_, ?_⟩
    · rw [List.flatMap_cons, List.foldlM_append, s.foldlM_statements hs d hname,
        Option.bind_eq_bind, Option.bind_some, hlast]
    · rw [hentries]
      simp [draughtOf]

end Add

theorem toEntries_leaves (entries : List (String × Plain)) :
    Node.toEntries (leaves entries) = entries.map fun entry => (entry.1, entry.2.value) := by
  induction entries with
  | nil => rfl
  | cons entry rest ih =>
    rw [List.map_cons, ← ih]
    rfl

theorem toEntries_tables (sections : List Section) :
    Node.toEntries (sections.map fun s => (s.name, .table .header (leaves s.entries))) =
      sections.map fun s => (s.name, s.value) := by
  induction sections with
  | nil => rfl
  | cons s rest ih =>
    rw [List.map_cons, Node.toEntries, ih, Node.toValue, toEntries_leaves]
    rfl

/-- The statements of sections come to a table of their tables. -/
theorem assemble?_sections {sections : List Section} (h : ∀ s ∈ sections, s.Proper)
    (hnodup : (sections.map Section.name).Nodup) :
    assemble? (sections.flatMap Section.statements) =
      some (.table (sections.map fun s => (s.name, s.value))) := by
  obtain ⟨last, hlast, hentries⟩ := foldlM_flatMap_statements h {} (by simpa using hnodup)
  rw [assemble?, hlast, Option.map_some, hentries, List.nil_append, toEntries_tables]

/-! ## Documents -/

/-- A text without carriage returns has plain newlines. -/
theorem unifyNewlines_eq_self {cs : List Char} (h : '\r' ∉ cs) : unifyNewlines cs = cs := by
  induction cs with
  | nil => rfl
  | cons c cs ih =>
    rw [List.mem_cons, not_or] at h
    rw [unifyNewlines.eq_def]
    split
    · next heq => exact absurd (List.cons.inj heq).1.symm h.1
    · next heq =>
      obtain ⟨rfl, rfl⟩ := List.cons.inj heq
      rw [ih h.2]
    · next heq => cases heq

theorem IsBare.cr_notMem (h : IsBare name) : '\r' ∉ name.toList := fun hr => by
  cases h.bare _ hr

theorem Section.cr_notMem_write {s : Section} (h : s.Proper) : '\r' ∉ s.write := by
  have hlines : ∀ entry ∈ s.entries, '\r' ∉ writeLine entry.1 entry.2.write := by
    intro entry hmem
    simp [writeLine, (h.keys entry hmem).cr_notMem, (h.written entry hmem).plain]
  simp only [Section.write, List.mem_append, List.mem_cons, List.mem_flatten,
    List.mem_map, not_or, not_exists, not_and]
  refine ⟨⟨⟨by decide, h.name.cr_notMem⟩, by decide⟩, ?_⟩
  rintro line ⟨entry, hmem, rfl⟩
  exact hlines entry hmem

theorem cr_notMem_writeSections {sections : List Section} (h : ∀ s ∈ sections, s.Proper) :
    '\r' ∉ writeSections sections := by
  induction sections with
  | nil => simp [writeSections]
  | cons s rest ih =>
    obtain ⟨hs, hrest⟩ := List.forall_mem_cons.1 h
    have hfirst := Section.cr_notMem_write hs
    cases rest with
    | nil => exact hfirst
    | cons next more => simpa [writeSections, hfirst] using ih hrest

/-- A document of sections starts with a bracket, if it has any. -/
theorem skipMark_writeSections (sections : List Section) :
    skipMark (writeSections sections) = writeSections sections := by
  match sections with
  | [] => rfl
  | [s] => rfl
  | s :: next :: rest => rfl

/-- A document of sections is read back as a table of tables. -/
theorem parse_writeSections {sections : List Section} (h : ∀ s ∈ sections, s.Proper)
    (hnodup : (sections.map Section.name).Nodup) :
    parse (String.ofList (writeSections sections)) =
      .ok (.table (sections.map fun s => (s.name, s.value))) := by
  rw [parse, statements?, String.toList_ofList, skipMark_writeSections,
    unifyNewlines_eq_self (cr_notMem_writeSections h), lines?_writeSections h]
  dsimp only
  rw [assemble?_sections h hnodup]

/-- The table that is read has the keys of the section with their values. -/
theorem Section.isTable_value (s : Section) : s.IsTable s.value := by
  refine ⟨_, rfl, fun key => ?_⟩
  induction s.entries with
  | nil => rfl
  | cons entry rest ih =>
    rw [List.map_cons, List.lookup_cons, List.lookup_cons]
    cases key == entry.1 with
    | true => rfl
    | false => exact ih

theorem lookup_section {sections : List Section} (hnodup : (sections.map Section.name).Nodup)
    {s : Section} (hs : s ∈ sections) :
    (sections.map fun s => (s.name, s.value)).lookup s.name = some s.value := by
  obtain ⟨before, after, rfl⟩ := List.append_of_mem hs
  have hbefore : s.name ∉ (before.map fun s => (s.name, s.value)).map Prod.fst := by
    rw [List.map_append, List.nodup_append] at hnodup
    rw [List.map_map]
    exact fun hmem => hnodup.2.2 _ hmem _ (by simp) rfl
  rw [List.map_append, List.lookup_append, lookup_eq_none_of_notMem hbefore, List.map_cons,
    List.lookup_cons_self]
  rfl

theorem Library.standard_readsBack : standard.ReadsBack := by
  intro sections text hnamed hnodup hwritten
  rw [standard] at hwritten
  dsimp only at hwritten
  split at hwritten
  · next hwritable =>
    obtain rfl := Except.ok.inj hwritten
    have hproper (s : Section) (hs : s ∈ sections) : s.Proper :=
      (hnamed s hs).proper (List.all_eq_true.1 hwritable s hs)
    refine ⟨.table (sections.map fun s => (s.name, s.value)), ?_, fun s hs => ⟨s.value, ?_, ?_⟩⟩
    · rw [standard]
      dsimp only
      rw [parse_writeSections hproper hnodup]
      rfl
    · exact lookup_section hnodup hs
    · exact s.isTable_value
  · cases hwritten

end Toml

end BitmapText
