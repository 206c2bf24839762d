import BitmapText.Proofs.Toml.Strings
import BitmapText.Toml.Statement
import Mathlib.Data.List.Basic
import Mathlib.Data.List.TakeDrop

/-!
# Written lines are read back

A document is read piece by piece: each piece is a line that says something, and does so whatever
follows it. A header says that its table is open, and a key with a written value assigns that value,
if the names are plain.

## Main definitions

* `Toml.WrittenAs`: a text that is read as a value at the end of a line.
* `Toml.IsBare`: a name that needs no quotes.
* `Toml.Says`: a line that says a statement.

## Main statements

* `Toml.writtenAs_string`, `Toml.writtenAs_integer`: strings and numbers as they are written.
* `Toml.says_writeLine`, `Toml.says_header`, `Toml.says_newline`: what the pieces say.
* `Toml.lines?_append`: a document says what its pieces say.
-/

namespace BitmapText

namespace Toml

/-- A span ends where the first other character stands. -/
theorem span_append {p : Char → Bool} {cs rest : List Char} (hcs : ∀ c ∈ cs, p c = true)
    (hrest : ∀ c, rest.head? = some c → p c = false) : (cs ++ rest).span p = (cs, rest) := by
  rw [List.span_eq_takeWhile_dropWhile, List.takeWhile_append_of_pos hcs,
    List.dropWhile_append_of_pos hcs]
  cases rest with
  | nil => simp
  | cons c rest => simp [hrest c rfl]

/-! ## Numbers -/

theorem isDecimal_of_isDigit {c : Char} (h : c.isDigit = true) : isDecimal c = true := by
  simp only [Char.isDigit, Bool.and_eq_true, decide_eq_true_eq] at h
  simp only [isDecimal, Bool.and_eq_true, decide_eq_true_eq]
  exact h

/-- A number does not start with a zero, unless it is zero. -/
theorem head?_toDigits_ne {n : Nat} (hn : 0 < n) : (Nat.toDigits 10 n).head? ≠ some '0' := by
  induction n using Nat.strongRecOn with
  | ind n ih =>
    rw [Nat.toDigits_eq_if (by decide)]
    split
    · next hlt =>
      have hall : ∀ d < 10, 0 < d → [Nat.digitChar d].head? ≠ some '0' := by decide
      exact hall n hlt hn
    · next hge =>
      rw [List.head?_append_of_ne_nil _ Nat.toDigits_ne_nil]
      exact ih (n / 10) (by omega) (by omega)

/-- Digits without underscores stand for themselves. -/
theorem ungroup_eq_some {isDigit : Char → Bool} {ds : List Char} (hne : ds ≠ [])
    (hds : ∀ c ∈ ds, isDigit c = true) (hunderscore : isDigit '_' = false) :
    ungroup isDigit ds = some ds := by
  induction ds with
  | nil => exact absurd rfl hne
  | cons c ds ih =>
    obtain ⟨hc, hrest⟩ := List.forall_mem_cons.1 hds
    cases ds with
    | nil => simp [ungroup, hc]
    | cons d ds =>
      have hd : d ≠ '_' := by
        rintro rfl
        cases hunderscore.symm.trans (hrest _ (.head _))
      rw [ungroup.eq_def]
      split <;> simp_all

/-- The digits of a number have its value. -/
theorem natOfDigits_toDigits (n : Nat) : natOfDigits 10 (Nat.toDigits 10 n) = n := by
  have hvalue : ∀ ds : List Char, (∀ c ∈ ds, c.isDigit = true) → ∀ before,
      ds.foldl (fun n c => n * 10 + digitValue c) before = Nat.ofDigitChars 10 ds before := by
    intro ds hds
    induction ds with
    | nil => exact fun before => rfl
    | cons c ds ih =>
      intro before
      obtain ⟨hc, hrest⟩ := List.forall_mem_cons.1 hds
      have hnine : c ≤ '9' := by
        have := isDecimal_of_isDigit hc
        simp only [isDecimal, Bool.and_eq_true, decide_eq_true_eq] at this
        exact this.2
      rw [List.foldl_cons, ih hrest, Nat.ofDigitChars_cons, digitValue, if_pos hnine,
        Nat.mul_comm before]
      rfl
  rw [natOfDigits, hvalue _ (fun c hc => Nat.isDigit_of_mem_toDigits (by decide) (by decide) hc),
    Nat.ofDigitChars_ten_toDigits]

theorem writeNat_eq (n : Nat) : writeNat n = Nat.toDigits 10 n := by
  rw [writeNat, Nat.toString_eq_ofList_toDigits, String.toList_ofList]

theorem isDigit_of_mem_writeNat {n : Nat} {c : Char} (h : c ∈ writeNat n) : c.isDigit = true :=
  Nat.isDigit_of_mem_toDigits (by decide) (by decide) (writeNat_eq n ▸ h)

theorem notMem_writeNat {n : Nat} {c : Char} (h : c.isDigit = false) : c ∉ writeNat n :=
  fun hc => by cases h.symm.trans (isDigit_of_mem_writeNat hc)

theorem writeNat_ne_zero_cons (n : Nat) (d : Char) (ds : List Char) :
    writeNat n ≠ '0' :: d :: ds := by
  intro h
  rcases Nat.eq_zero_or_pos n with rfl | hpos
  · cases h
  · exact head?_toDigits_ne hpos (by rw [← writeNat_eq, h, List.head?_cons])

theorem decimalDigits?_writeNat (n : Nat) : decimalDigits? (writeNat n) = some (writeNat n) := by
  have hne : writeNat n ≠ [] := by
    rw [writeNat_eq]
    exact Nat.toDigits_ne_nil
  have hgroup : ungroup isDecimal (writeNat n) = some (writeNat n) :=
    ungroup_eq_some hne (fun c hc => isDecimal_of_isDigit (isDigit_of_mem_writeNat hc)) rfl
  rw [decimalDigits?, hgroup]
  split
  · next h => exact absurd (Option.some.inj h) (writeNat_ne_zero_cons n _ _)
  · next h =>
    obtain rfl := Option.some.inj h
    refine if_neg fun hlong => ?_
    match hw : writeNat n with
    | [] => exact hne hw
    | [d] => simp [hw] at hlong
    | c :: d :: ds =>
      obtain rfl : c = '0' := by simpa [hw] using hlong.1
      exact writeNat_ne_zero_cons n d ds hw
  · next h => cases h

theorem splitSign_writeNat (n : Nat) : splitSign (writeNat n) = (false, writeNat n) := by
  rw [splitSign.eq_def]
  split
  · next h => exact absurd (h ▸ .head _) (notMem_writeNat (n := n) (c := '-') rfl)
  · next h => exact absurd (h ▸ .head _) (notMem_writeNat (n := n) (c := '+') rfl)
  · rfl

/-- A number is read back, if it is an integer of 64 bits. -/
theorem integer?_writeNat {n : Nat} (hn : n ≤ 9223372036854775807) :
    integer? (writeNat n) = some (n : Int) := by
  have hvalue : natOfDigits 10 (writeNat n) = n := by rw [writeNat_eq, natOfDigits_toDigits]
  have hrange : isInteger64 n = true := by
    simp only [isInteger64, Bool.and_eq_true, decide_eq_true_eq]
    omega
  rw [integer?.eq_def]
  split
  · next h => exact absurd h (writeNat_ne_zero_cons n _ _)
  · next h => exact absurd h (writeNat_ne_zero_cons n _ _)
  · next h => exact absurd h (writeNat_ne_zero_cons n _ _)
  · rw [splitSign_writeNat]
    dsimp only
    rw [decimalDigits?_writeNat, Option.bind_some, hvalue, if_neg Bool.false_ne_true, integer64?,
      if_pos hrange]

/-- A number is read back in front of the end of its line. -/
theorem scalar?_writeNat {n : Nat} (hn : n ≤ 9223372036854775807) (rest : List Char) :
    scalar? (writeNat n ++ '\n' :: rest) = some (.integer n, '\n' :: rest) := by
  have hdelimiter (c : Char) (hc : c ∈ writeNat n) : (!isDelimiter c) = true := by
    have hdigit := isDigit_of_mem_writeNat hc
    rw [Bool.not_eq_true', ← Bool.not_eq_true]
    intro hd
    simp only [isDelimiter, isBlank, Bool.or_eq_true, decide_eq_true_eq] at hd
    rcases hd with ((((((rfl | rfl) | rfl) | rfl) | rfl) | rfl) | rfl) <;> cases hdigit
  have hword (word : List Char) (c : Char) (hc : c.isDigit = false) (hmem : c ∈ word) :
      writeNat n ≠ word := by
    rintro rfl
    exact notMem_writeNat hc hmem
  have hpause : datePauses (writeNat n) ('\n' :: rest) = false := rfl
  rw [scalar?, span_append hdelimiter (by rintro c hc; obtain rfl := Option.some.inj hc; rfl)]
  dsimp only
  rw [hpause, if_neg Bool.false_ne_true, scalarOfWord?, if_neg (hword _ 't' rfl (.head _)),
    if_neg (hword _ 'f' rfl (.head _)), integer?_writeNat hn]
  rfl

/-! ## Values at the end of a line -/

/-- In front of the end of its line, the text is read as the value. -/
structure WrittenAs (text : List Char) (value : Value) : Prop where
  read : ∀ rest, value? (depthLimit - 1) (text ++ '\n' :: rest) = some (value, '\n' :: rest)
  /-- There is no room in front of the text. -/
  start : ∀ rest, skipBlank (text ++ rest) = text ++ rest
  plain : '\r' ∉ text

theorem skipBlank_cons {c : Char} (h : isBlank c = false) (cs : List Char) :
    skipBlank (c :: cs) = c :: cs := by
  simp [skipBlank, h]

/-- A class of characters that leaves out the two blanks has no blank. -/
theorem isBlank_eq_false {p : Char → Bool} (hspace : p ' ' = false) (htab : p '\t' = false)
    {c : Char} (hc : p c = true) : isBlank c = false := by
  rw [← Bool.not_eq_true]
  intro hblank
  simp only [isBlank, Bool.or_eq_true, decide_eq_true_eq] at hblank
  rcases hblank with rfl | rfl
  · cases hspace.symm.trans hc
  · cases htab.symm.trans hc

/-- A string is written with quotes around it. -/
theorem exists_writeString_eq_cons (cs : List Char) :
    ∃ quote more, writeString cs = quote :: more ∧ (quote = '"' ∨ quote = '\'') := by
  unfold writeString
  dsimp only
  split
  · exact ⟨'"', _, rfl, .inl rfl⟩
  split
  · exact ⟨'\'', _, rfl, .inr rfl⟩
  split
  · exact ⟨'"', _, rfl, .inl rfl⟩
  split
  · exact ⟨'\'', _, rfl, .inr rfl⟩
  split
  · exact ⟨'"', _, rfl, .inl rfl⟩
  · exact ⟨'"', _, rfl, .inl rfl⟩

theorem writtenAs_string (s : String) : WrittenAs (writeString s.toList) (.string s) := by
  obtain ⟨quote, more, hwritten, hquote⟩ := exists_writeString_eq_cons s.toList
  constructor
  case plain => exact cr_notMem_writeString s.toList
  case start =>
    intro rest
    rw [hwritten]
    refine skipBlank_cons ?_ _
    rcases hquote with rfl | rfl <;> rfl
  case read =>
    intro rest
    have hread : quotedString? (writeString s.toList ++ '\n' :: rest) =
        some (s.toList, '\n' :: rest) :=
      quotedString?_writeString s.toList (by simp) (by simp)
    have hstring : value? (depthLimit - 1) (writeString s.toList ++ '\n' :: rest) =
        (quotedString? (writeString s.toList ++ '\n' :: rest)).map
          fun read => (.string (String.ofList read.1), read.2) := by
      rw [hwritten]
      rcases hquote with rfl | rfl <;> rfl
    rw [hstring, hread, Option.map_some, String.ofList_toList]

theorem writtenAs_integer {n : Nat} (hn : n ≤ 9223372036854775807) :
    WrittenAs (writeNat n) (.integer n) := by
  obtain ⟨d, ds, hd⟩ := List.exists_cons_of_ne_nil (l := writeNat n) (by
    rw [writeNat_eq]
    exact Nat.toDigits_ne_nil)
  have hdigit : d.isDigit = true := isDigit_of_mem_writeNat (n := n) (by rw [hd]; exact .head _)
  constructor
  case plain => exact notMem_writeNat rfl
  case start =>
    intro rest
    rw [hd]
    exact skipBlank_cons (isBlank_eq_false rfl rfl hdigit) _
  case read =>
    intro rest
    have hscalar : value? (depthLimit - 1) (writeNat n ++ '\n' :: rest) =
        scalar? (writeNat n ++ '\n' :: rest) := by
      rw [hd, List.cons_append, value?.eq_def]
      split
      case h_5 => rfl
      all_goals
        next h =>
        obtain ⟨rfl, -⟩ := List.cons.inj h
        cases hdigit
    rw [hscalar, scalar?_writeNat hn]

/-! ## Names -/

/-- A name that needs no quotes. -/
structure IsBare (name : String) : Prop where
  ne_nil : name.toList ≠ []
  bare : ∀ c ∈ name.toList, isBareKeyChar c = true

variable {name key : String} {rest : List Char}

theorem IsBare.of_all (h : name.toList ≠ [] ∧ name.toList.all isBareKeyChar = true) : IsBare name :=
  ⟨h.1, List.all_eq_true.1 h.2⟩

theorem IsBare.exists_cons (h : IsBare name) :
    ∃ c cs, name.toList = c :: cs ∧ isBareKeyChar c = true := by
  obtain ⟨c, cs, hc⟩ := List.exists_cons_of_ne_nil h.ne_nil
  exact ⟨c, cs, hc, h.bare c (hc ▸ .head _)⟩

/-- A bare name is read up to the first character that is none of its own. -/
theorem key?_append (h : IsBare name) (hrest : ∀ c, rest.head? = some c → isBareKeyChar c = false) :
    key? (name.toList ++ rest) = some (name, rest) := by
  obtain ⟨c, cs, hname, hc⟩ := h.exists_cons
  rw [key?.eq_def]
  split
  · next hq =>
    rw [hname, List.cons_append] at hq
    obtain ⟨rfl, -⟩ := List.cons.inj hq
    cases hc
  · next hq =>
    rw [hname, List.cons_append] at hq
    obtain ⟨rfl, -⟩ := List.cons.inj hq
    cases hc
  · rw [span_append h.bare hrest]
    split
    · next hnil => exact absurd (Prod.mk.inj hnil).1 h.ne_nil
    · next heq =>
      obtain ⟨rfl, rfl⟩ := Prod.mk.inj heq
      rw [String.ofList_toList]

/-- There is no room in front of a bare name. -/
theorem skipBlank_append (h : IsBare name) (rest : List Char) :
    skipBlank (name.toList ++ rest) = name.toList ++ rest := by
  obtain ⟨c, cs, hname, hc⟩ := h.exists_cons
  rw [hname]
  exact skipBlank_cons (isBlank_eq_false rfl rfl hc) _

/-- A bare name is a path of one key, if no point follows. -/
theorem path?_append (h : IsBare name) (hrest : ∀ c, rest.head? = some c → isBareKeyChar c = false)
    (hpoint : (skipBlank rest).head? ≠ some '.') :
    path? (name.toList ++ rest) = some ([name], skipBlank rest) := by
  have hkeys : keys? (name.toList ++ rest) = some ([name], skipBlank rest) := by
    rw [keys?, skipBlank_append h, key?_append h hrest]
    dsimp only
    split
    · next hdot => exact absurd (by rw [hdot, List.head?_cons]) hpoint
    · rfl
  rw [path?, hkeys]
  rfl

/-! ## Lines -/

/-- The line says the statement, whatever follows it. -/
def Says (line : List Char) (statement : Option Statement) : Prop :=
  line ≠ [] ∧ ∀ rest, line? (line ++ rest) = some (statement, rest)

/-- An empty line says nothing. -/
theorem says_newline : Says ['\n'] none :=
  ⟨by simp, fun rest => rfl⟩

/-- A header opens the table of its name. -/
theorem says_header (h : IsBare name) :
    Says ('[' :: name.toList ++ "]\n".toList) (some (.table [name])) := by
  refine ⟨by simp, fun rest => ?_⟩
  obtain ⟨c, cs, hname, hc⟩ := h.exists_cons
  have hpath : path? (name.toList ++ ']' :: '\n' :: rest) = some ([name], ']' :: '\n' :: rest) :=
    path?_append h (by rintro c hc; obtain rfl := Option.some.inj hc; rfl)
      (by rw [skipBlank_cons rfl]; simp)
  have hline : '[' :: name.toList ++ "]\n".toList ++ rest =
      '[' :: (name.toList ++ ']' :: '\n' :: rest) := by
    simp
  have hopen : skipBlank ('[' :: (name.toList ++ ']' :: '\n' :: rest)) =
      '[' :: (name.toList ++ ']' :: '\n' :: rest) := skipBlank_cons rfl _
  rw [hline, line?.eq_def, hopen]
  split
  · next hbracket =>
    -- The name does not start with a bracket.
    rw [hname] at hbracket
    obtain ⟨rfl, -⟩ := List.cons.inj (List.cons.inj hbracket).2
    cases hc
  · next hrest =>
    obtain rfl := (List.cons.inj hrest).2
    rw [hpath]
    rfl
  · next hno => exact absurd rfl (hno _)

/-- A key with a written value assigns the value. -/
theorem says_writeLine (h : IsBare key) {text : List Char} {value : Value}
    (hw : WrittenAs text value) :
    Says (writeLine key text) (some (.assign [key] value)) := by
  obtain ⟨c, cs, hkey, hc⟩ := h.exists_cons
  refine ⟨by simp [writeLine], fun rest => ?_⟩
  have hline : writeLine key text ++ rest =
      key.toList ++ ' ' :: '=' :: ' ' :: (text ++ '\n' :: rest) := by
    simp [writeLine]
  have hgap (more : List Char) : skipBlank (' ' :: '=' :: more) = '=' :: more := rfl
  have hpath : path? (key.toList ++ ' ' :: '=' :: ' ' :: (text ++ '\n' :: rest)) =
      some ([key], '=' :: ' ' :: (text ++ '\n' :: rest)) := by
    rw [path?_append h (by rintro c hc; obtain rfl := Option.some.inj hc; rfl), hgap]
    rw [hgap]
    simp
  have hvalue : skipBlank (' ' :: (text ++ '\n' :: rest)) = text ++ '\n' :: rest := hw.start _
  -- The line does not start like a header, a comment or an empty line.
  have hno : lineEnd (key.toList ++ ' ' :: '=' :: ' ' :: (text ++ '\n' :: rest)) = none := by
    have hcomment : c ≠ '#' := by
      rintro rfl
      cases hc
    have hnewline : c ≠ '\n' := by
      rintro rfl
      cases hc
    rw [lineEnd, skipBlank_append h, hkey]
    simp [hcomment, hnewline]
  rw [hline, line?.eq_def, skipBlank_append h]
  split
  · next hbracket =>
    rw [hkey] at hbracket
    obtain ⟨rfl, -⟩ := List.cons.inj hbracket
    cases hc
  · next hbracket =>
    rw [hkey] at hbracket
    obtain ⟨rfl, -⟩ := List.cons.inj hbracket
    cases hc
  · rw [hno]
    dsimp only
    rw [hpath]
    simp only [hvalue, hw.read]
    rfl

/-- The lines of a document say its statements one after the other. -/
theorem lines?_append {line : List Char} {statement : Option Statement} (h : Says line statement)
    (rest : List Char) :
    lines? (line ++ rest) = (lines? rest).map fun others => statement.toList ++ others := by
  obtain ⟨hne, hline⟩ := h
  have hshorter : rest.length < (line ++ rest).length := by
    have := List.length_pos_of_ne_nil hne
    rw [List.length_append]
    omega
  rw [lines?, if_neg (by simp [hne]), hline]
  dsimp only
  rw [if_pos hshorter]

end Toml

end BitmapText
