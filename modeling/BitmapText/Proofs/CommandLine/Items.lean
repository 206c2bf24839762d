import BitmapText.CommandLine
import BitmapText.Proofs.Text.Decimal
import Mathlib.Data.List.Basic

/-!
# Command lines as items

A command line is a sequence of items: options, of which some take the next argument as their value,
and at most one text. Arguments are understood exactly when they are the arguments of such a
sequence. Otherwise they begin with one, as long as possible, and what follows it is an item that
breaks the grammar.

## Main definitions

* `CommandLine.Item`: an item, with its arguments.
* `CommandLine.Grammatical`: a sequence of items that a command line may be.
* `CommandLine.Breaks`: arguments that cannot follow some items.

## Main statements

* `CommandLine.Options.read_items`: the items of a command line are read one after the other.
* `CommandLine.exists_items`: how far arguments are grammatical.
* `CommandLine.Options.ofArguments_grammar`: what is accepted and what is refused.
-/

namespace BitmapText

namespace CommandLine

/-! ## Items -/

/-- An item of a command line. -/
inductive Item where
  | config (value : String)
  | out (value : String)
  /-- A width, with the number that its value writes. -/
  | maxWidth (value : String) (n : Int)
  | stats
  | text (text : String)
deriving DecidableEq

namespace Item

def arguments : Item → List String
  | config value => ["--config", value]
  | out value => ["--out", value]
  | maxWidth value _ => ["--max-width", value]
  | stats => ["--stats"]
  | text t => [t]

def config? : Item → Option String
  | config value => some value
  | _ => none

def out? : Item → Option String
  | out value => some value
  | _ => none

def maxWidth? : Item → Option Int
  | maxWidth _ n => some n
  | _ => none

def text? : Item → Option String
  | text t => some t
  | _ => none

end Item

/-- The argument begins with two dashes. -/
def IsDashed (argument : String) : Prop := "--".toList <+: argument.toList

instance (argument : String) : Decidable (IsDashed argument) :=
  inferInstanceAs (Decidable (_ <+: _))

/-- What an item has to be like by itself: a width is a number of 32 bits, and a text does not look
like an option. Any value will do for the other options. -/
def Item.Proper : Item → Prop
  | maxWidth value n => Text.IsInteger value n
  | text t => ¬ IsDashed t
  | _ => True

/-- A sequence of items that a command line may be. -/
structure Grammatical (items : List Item) : Prop where
  proper : ∀ item ∈ items, item.Proper
  oneText : (items.filterMap Item.text?).length ≤ 1

/-- What items ask for: the last value counts. -/
def Options.ofItems (items : List Item) : Options where
  config := (items.filterMap Item.config?).getLast?.map Path.mk
  out := (items.filterMap Item.out?).getLast?.map Path.mk
  maxWidth := (items.filterMap Item.maxWidth?).getLast?
  stats := .stats ∈ items
  text := (items.filterMap Item.text?).getLast?

/-- `Breaks items arguments e`: after `items`, the arguments begin with an item that breaks the
grammar, in the way that `e` says. -/
inductive Breaks (items : List Item) : List String → ArgumentError → Prop where
  | missingValue {option : String} : option ∈ ["--config", "--out", "--max-width"] →
      Breaks items [option] (.missingValue option)
  | badNumber {value : String} {rest : List String} {cause : Text.IntegerError} :
      (∀ n, ¬ Text.IsInteger value n) → Text.parseInteger value = .error cause →
      Breaks items ("--max-width" :: value :: rest) (.invalidMaxWidth value cause)
  | unknownOption {argument : String} {rest : List String} : IsDashed argument →
      argument ∉ ["--config", "--out", "--max-width", "--stats"] →
      Breaks items (argument :: rest) (.unknownOption argument)
  | secondText {argument : String} {rest : List String} : ¬ IsDashed argument →
      items.filterMap Item.text? ≠ [] → Breaks items (argument :: rest) .secondText

/-! ## Reading an item -/

namespace ArgumentKind

theorem of_text {argument : String} (h : ¬ IsDashed argument) : of argument = .text := by
  have hne (option : String) (ho : IsDashed option) : argument ≠ option := fun e => h (e ▸ ho)
  rw [of, if_neg (hne _ (by decide)), if_neg (hne _ (by decide)), if_neg (hne _ (by decide)),
    if_neg (hne _ (by decide)), if_neg]
  exact fun hp => h (List.isPrefixOf_iff_prefix.1 hp)

theorem of_unknown {argument : String} (h : IsDashed argument)
    (hother : argument ∉ ["--config", "--out", "--max-width", "--stats"]) :
    of argument = .unknown := by
  simp only [List.mem_cons, List.not_mem_nil, or_false, not_or] at hother
  obtain ⟨hconfig, hout, hwidth, hstats⟩ := hother
  rw [of, if_neg hconfig, if_neg hout, if_neg hwidth, if_neg hstats, if_pos]
  exact List.isPrefixOf_iff_prefix.2 h

end ArgumentKind

namespace Grammatical

variable {items more : List Item} {item : Item}

theorem nil : Grammatical [] := ⟨by simp, Nat.zero_le _⟩

theorem of_append (h : Grammatical (items ++ more)) : Grammatical items where
  proper item hi := h.proper item (List.mem_append_left _ hi)
  oneText := by
    have hone := h.oneText
    rw [List.filterMap_append, List.length_append] at hone
    omega

/-- One more item may follow if it is proper, but a text only where there is none yet. -/
theorem concat (h : Grammatical items) (hproper : item.Proper)
    (htext : item.text? = none ∨ items.filterMap Item.text? = []) :
    Grammatical (items ++ [item]) where
  proper := by simpa using fun i hi => hi.elim (h.proper i) (· ▸ hproper)
  oneText := by
    rw [List.filterMap_append, List.length_append]
    rcases htext with hnone | hnil
    · simpa [hnone] using h.oneText
    · simpa [hnil] using List.length_filterMap_le Item.text? [item]

theorem texts_eq_nil {t : String} (h : Grammatical (items ++ [.text t])) :
    items.filterMap Item.text? = [] := by
  have hone := h.oneText
  have ht : [Item.text t].filterMap Item.text? = [t] := rfl
  rw [List.filterMap_append, ht, List.length_append, List.length_singleton] at hone
  exact List.eq_nil_of_length_eq_zero (by omega)

end Grammatical

namespace Options

variable {done : List Item}

/-- One more item overrides what the items before it ask for in its own place. -/
theorem ofItems_concat (item : Item) :
    ofItems (done ++ [item]) =
      match item with
      | .config value => { ofItems done with config := some ⟨value⟩ }
      | .out value => { ofItems done with out := some ⟨value⟩ }
      | .maxWidth _ n => { ofItems done with maxWidth := some n }
      | .stats => { ofItems done with stats := true }
      | .text t => { ofItems done with text := some t } := by
  cases item <;>
    simp [ofItems, Item.config?, Item.out?, Item.maxWidth?, Item.text?]

/-- An item is read as what it asks for beside the items before it. -/
theorem read_item {item : Item} (h : Grammatical (done ++ [item])) (rest : List String) :
    (ofItems done).read (item.arguments ++ rest) = (ofItems (done ++ [item])).read rest := by
  have hproper := h.proper item (by simp)
  rw [ofItems_concat]
  cases item with
  | config value => rfl
  | out value => rfl
  | maxWidth value n =>
    have hset : (ofItems done).set .maxWidth value = .ok { ofItems done with maxWidth := some n } := by
      simp only [set, Text.parseInteger_eq_ok_iff.2 hproper]
    have hkind : ArgumentKind.of "--max-width" = .valueOption .maxWidth := rfl
    simp only [Item.arguments, List.cons_append, List.nil_append, read, hkind, hset]
  | stats => rfl
  | text t =>
    have hnone : (ofItems done).text.isSome = false := by rw [ofItems, h.texts_eq_nil]; rfl
    simp only [Item.arguments, List.cons_append, List.nil_append, read,
      ArgumentKind.of_text hproper, hnone, Bool.false_eq_true, if_false]

/-- Items are read one after the other. -/
theorem read_items {items : List Item} (h : Grammatical (done ++ items)) (rest : List String) :
    (ofItems done).read (items.flatMap Item.arguments ++ rest) =
      (ofItems (done ++ items)).read rest := by
  induction items generalizing done with
  | nil => simp
  | cons item items ih =>
    have hcut : done ++ item :: items = done ++ [item] ++ items := by simp
    rw [hcut] at h ⊢
    rw [List.flatMap_cons, List.append_assoc, read_item h.of_append, ih h]

/-- An item that breaks the grammar is refused in the way it breaks it. -/
theorem read_of_breaks {arguments : List String} {e : ArgumentError}
    (h : Breaks done arguments e) : (ofItems done).read arguments = .error e := by
  cases h with
  | missingValue ho =>
    simp only [List.mem_cons, List.not_mem_nil, or_false] at ho
    rcases ho with rfl | rfl | rfl <;> rfl
  | @badNumber value rest cause _ hcause =>
    have hset : (ofItems done).set .maxWidth value = .error (.invalidMaxWidth value cause) := by
      simp only [set, hcause]
    have hkind : ArgumentKind.of "--max-width" = .valueOption .maxWidth := rfl
    simp only [read, hkind, hset]
  | unknownOption hdashed hother =>
    simp only [read, ArgumentKind.of_unknown hdashed hother]
  | secondText hdashed htext =>
    have hsome : (ofItems done).text.isSome = true := List.getLast?_isSome.2 htext
    simp only [read, ArgumentKind.of_text hdashed, hsome, if_true]

end Options

/-! ## How far arguments are grammatical -/

/-- An option that takes a value begins an item if there is one that it can take. -/
theorem next_item_of_option {done : List Item} (h : Grammatical done) {option : String}
    (ho : option ∈ ["--config", "--out", "--max-width"]) (rest : List String) :
    (∃ item rest', option :: rest = item.arguments ++ rest' ∧ Grammatical (done ++ [item])) ∨
      ∃ e, Breaks done (option :: rest) e := by
  cases rest with
  | nil => exact .inr ⟨_, .missingValue ho⟩
  | cons value rest =>
    simp only [List.mem_cons, List.not_mem_nil, or_false] at ho
    rcases ho with rfl | rfl | rfl
    · exact .inl ⟨.config value, rest, rfl, h.concat trivial (.inl rfl)⟩
    · exact .inl ⟨.out value, rest, rfl, h.concat trivial (.inl rfl)⟩
    · cases hvalue : Text.parseInteger value with
      | ok n =>
        have hn : Text.IsInteger value n := Text.parseInteger_eq_ok_iff.1 hvalue
        exact .inl ⟨.maxWidth value n, rest, rfl, h.concat hn (.inl rfl)⟩
      | error cause =>
        refine .inr ⟨_, .badNumber (fun n hn => ?_) hvalue⟩
        rw [Text.parseInteger_eq_ok_iff.2 hn] at hvalue
        cases hvalue

/-- The first of some arguments begins an item, or breaks the grammar. -/
theorem next_item {done : List Item} (h : Grammatical done) (argument : String)
    (rest : List String) :
    (∃ item rest', argument :: rest = item.arguments ++ rest' ∧ Grammatical (done ++ [item])) ∨
      ∃ e, Breaks done (argument :: rest) e := by
  by_cases hdashed : IsDashed argument
  · by_cases hvalue : argument ∈ ["--config", "--out", "--max-width"]
    · exact next_item_of_option h hvalue rest
    · by_cases hstats : argument = "--stats"
      · subst hstats
        exact .inl ⟨.stats, rest, rfl, h.concat trivial (.inl rfl)⟩
      · exact .inr ⟨_, .unknownOption hdashed (by simp_all)⟩
  · by_cases htext : done.filterMap Item.text? = []
    · exact .inl ⟨.text argument, rest, rfl, h.concat hdashed (.inr htext)⟩
    · exact .inr ⟨_, .secondText hdashed htext⟩

theorem Item.length_arguments_pos (item : Item) : 0 < item.arguments.length := by
  cases item <;> exact Nat.succ_pos _

/-- After some items, arguments are more items, up to an item that breaks the grammar if there is
one. -/
theorem exists_items {done : List Item} (h : Grammatical done) (arguments : List String) :
    ∃ items rest, arguments = items.flatMap Item.arguments ++ rest ∧
      Grammatical (done ++ items) ∧ (rest = [] ∨ ∃ e, Breaks (done ++ items) rest e) := by
  -- An item has one argument or two, so the induction is on how many there are.
  induction hn : arguments.length using Nat.strongRecOn generalizing done arguments with
  | _ n ih =>
    subst hn
    cases arguments with
    | nil => exact ⟨[], [], rfl, by simpa using h, .inl rfl⟩
    | cons argument rest =>
      rcases next_item h argument rest with ⟨item, rest', hcut, hitem⟩ | hbreaks
      · have hshorter : rest'.length < (argument :: rest).length := by
          rw [hcut, List.length_append]
          have := item.length_arguments_pos
          omega
        obtain ⟨items, rest'', rfl, hitems, hend⟩ := ih _ hshorter hitem rest' rfl
        rw [List.append_assoc] at hitems hend
        exact ⟨item :: items, rest'', by simp [hcut], hitems, hend⟩
      · exact ⟨[], argument :: rest, rfl, by simpa using h, .inr (by simpa using hbreaks)⟩

/-! ## Command lines -/

/-- Arguments are understood exactly when they are those of a grammatical sequence of items, and
they ask for what the items ask for. All others are refused for the first item that breaks the
grammar. -/
theorem Options.ofArguments_grammar (arguments : List String) :
    (∀ o, ofArguments arguments = .ok o ↔
      ∃ items, arguments = items.flatMap Item.arguments ∧ Grammatical items ∧ o = ofItems items) ∧
    ∀ e, ofArguments arguments = .error e ↔
      ∃ items rest, arguments = items.flatMap Item.arguments ++ rest ∧ Grammatical items ∧
        Breaks items rest e := by
  have hread {items : List Item} (h : Grammatical items) (rest : List String) :
      ofArguments (items.flatMap Item.arguments ++ rest) = (ofItems items).read rest := by
    have hfirst : Grammatical ([] ++ items) := h
    exact read_items hfirst rest
  obtain ⟨items, rest, hcut, hitems, hend⟩ := exists_items .nil arguments
  rw [List.nil_append] at hitems hend
  refine ⟨fun o => ⟨fun ho => ?_, ?_⟩, fun e => ⟨fun he => ?_, ?_⟩⟩
  · rw [hcut, hread hitems] at ho
    rcases hend with rfl | ⟨e, hbreaks⟩
    · exact ⟨items, by simpa using hcut, hitems, (Except.ok.inj ho).symm⟩
    · rw [read_of_breaks hbreaks] at ho
      cases ho
  · rintro ⟨items, rfl, hitems, rfl⟩
    simpa [read] using hread hitems []
  · rw [hcut, hread hitems] at he
    rcases hend with rfl | ⟨e', hbreaks⟩
    · cases he
    · rw [read_of_breaks hbreaks] at he
      exact ⟨items, rest, hcut, hitems, Except.error.inj he ▸ hbreaks⟩
  · rintro ⟨items, rest, rfl, hitems, hbreaks⟩
    rw [hread hitems, read_of_breaks hbreaks]

-- The name of an option is a value where a value is expected, and a second width counts.
example : Options.ofArguments ["--max-width", "7", "--out", "--stats", "--max-width", "-3"] =
    .ok { out := some ⟨"--stats"⟩, maxWidth := some (-3) } := by decide +kernel

end CommandLine

end BitmapText
