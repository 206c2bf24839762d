import BitmapText.Toml.Literal
import BitmapText.Toml.Writer

/-!
# Written strings are read back

Whatever characters a string has, the form that it is written in is read back as that string, and
the reader stops behind the closing quotes. What needs care are quotes at the end of a string on
several lines, which stand right before the closing quotes, and the newline behind the opening
quotes, which is not part of the string.

## Main statements

* `Toml.basicBody_append`, `Toml.literalBody_append`: strings on one line.
* `Toml.multilineBasicFrom_append`, `Toml.multilineLiteralFrom_append`: strings on several lines.
* `Toml.quotedString?_writeString`: the form that a string is written in.
-/

namespace BitmapText

namespace Toml

variable {c : Char} {cs rest : List Char}

/-! ## Escapes -/

theorem hexDigit?_capitalHexDigit {n : Nat} (h : n < 16) :
    hexDigit? (capitalHexDigit n) = some n := by
  have hall : ∀ n < 16, hexDigit? (capitalHexDigit n) = some n := by decide
  exact hall n h

/-- A character of one byte is read back from its number. -/
theorem numberedEscape?_of_lt (h : c.toNat < 256) :
    numberedEscape? ['0', '0', capitalHexDigit (c.toNat / 16), capitalHexDigit (c.toNat % 16)] =
      some c := by
  have hzero : hexDigit? '0' = some 0 := rfl
  have hnumber : hexNumber? 0 ['0', '0', capitalHexDigit (c.toNat / 16),
      capitalHexDigit (c.toNat % 16)] = some c.toNat := by
    simp only [hexNumber?, hzero, hexDigit?_capitalHexDigit (show c.toNat / 16 < 16 by omega),
      hexDigit?_capitalHexDigit (Nat.mod_lt c.toNat (show 0 < 16 by decide)), Option.some.injEq]
    omega
  have hscalar : c.toNat < 0xd800 ∨ (0xdfff < c.toNat ∧ c.toNat < 0x110000) := by omega
  rw [numberedEscape?, hnumber]
  dsimp only
  rw [if_pos hscalar, Char.ofNat_toNat]

theorem toNat_lt_of_isControl (h : isControl c = true) : c.toNat < 256 := by
  simp only [isControl, Bool.or_eq_true, Bool.and_eq_true, decide_eq_true_eq] at h
  omega

/-- What is no control character may stand in a string on one line, if it is no newline. -/
theorem isTextChar_of_isControl_eq_false (h : isControl c = false) (hn : c ≠ '\n') :
    isTextChar c = true := by
  simp only [isControl, isTextChar] at *
  grind

/-- Between double quotes, a character is written as it is or begins with a backslash. -/
theorem exists_escapeChar_eq_cons (hq : c ≠ '"') (hn : c ≠ '\n') :
    ∃ first more, escapeChar c = first :: more ∧ first ≠ '"' ∧ first ≠ '\n' := by
  unfold escapeChar
  split
  case h_6 =>
    split
    · exact ⟨'\\', _, rfl, by decide, by decide⟩
    · exact ⟨c, [], rfl, hq, hn⟩
  all_goals exact ⟨'\\', _, rfl, by decide, by decide⟩

/-! ## Strings on one line -/

/-- A character that is no quote and no backslash stands for itself. -/
theorem basicBody_cons (hq : c ≠ '"') (hb : c ≠ '\\') (ht : isTextChar c = true) :
    basicBody (c :: rest) = (basicBody rest).map (consChar c) := by
  rw [basicBody.eq_def]
  split <;> simp_all

theorem basicBody_escapeChar (hq : c ≠ '"') (hn : c ≠ '\n') :
    basicBody (escapeChar c ++ rest) = (basicBody rest).map (consChar c) := by
  unfold escapeChar
  split
  case h_6 _ hb =>
    split
    · next hc =>
      simp only [List.cons_append, List.nil_append, basicBody,
        numberedEscape?_of_lt (toNat_lt_of_isControl hc)]
    · next hc =>
      exact basicBody_cons hq hb (isTextChar_of_isControl_eq_false (by simpa using hc) hn)
  all_goals rfl

theorem basicBody_escapeLineChar (c : Char) (rest : List Char) :
    basicBody (escapeLineChar c ++ rest) = (basicBody rest).map (consChar c) := by
  unfold escapeLineChar
  split
  · rfl
  · rfl
  · next hq hn => exact basicBody_escapeChar hq hn

/-- A string between double quotes on one line. -/
theorem basicBody_append (cs rest : List Char) :
    basicBody (cs.flatMap escapeLineChar ++ '"' :: rest) = some (cs, rest) := by
  induction cs with
  | nil => rfl
  | cons c cs ih =>
    rw [List.flatMap_cons, List.append_assoc, basicBody_escapeLineChar, ih]
    rfl

theorem literalBody_cons (hq : c ≠ '\'') (ht : isTextChar c = true) :
    literalBody (c :: rest) = (literalBody rest).map (consChar c) := by
  rw [literalBody.eq_def]
  split <;> simp_all

/-- A string between single quotes on one line. -/
theorem literalBody_append (hq : '\'' ∉ cs) (ht : ∀ c ∈ cs, isTextChar c = true) :
    literalBody (cs ++ '\'' :: rest) = some (cs, rest) := by
  induction cs with
  | nil => rfl
  | cons c cs ih =>
    obtain ⟨hc, hcs⟩ := List.forall_mem_cons.1 ht
    rw [List.mem_cons, not_or] at hq
    rw [List.cons_append, literalBody_cons (Ne.symm hq.1) hc, ih hq.2 hcs]
    rfl

/-! ## Closing quotes -/

/-- Up to two quotes that stand right behind the closing ones belong to the string. -/
theorem closingQuotes_append {quote : Char} {n : Nat} (hn : n ≤ 2) (h : rest.head? ≠ some quote) :
    closingQuotes quote (List.replicate n quote ++ rest) = (List.replicate n quote, rest) := by
  obtain rfl | rfl | rfl : n = 0 ∨ n = 1 ∨ n = 2 := by omega
  · match rest with
    | [] => rfl
    | [a] => simp_all [closingQuotes]
    | a :: b :: more => simp_all [closingQuotes]
  · match rest with
    | [] => simp [closingQuotes]
    | b :: more => simp_all [closingQuotes]
  · simp [closingQuotes, List.replicate]

/-! ## Strings on several lines, in double quotes -/

/-- Quotes at the end of a string stand before the closing ones. -/
theorem multilineBasicFrom_replicate {n : Nat} (hn : n ≤ 2) (h : rest.head? ≠ some '"') :
    multilineBasicFrom false (List.replicate n '"' ++ '"' :: '"' :: '"' :: rest) =
      some (List.replicate n '"', rest) := by
  have hshift : List.replicate n '"' ++ '"' :: '"' :: '"' :: rest =
      '"' :: '"' :: '"' :: (List.replicate n '"' ++ rest) := by
    obtain rfl | rfl | rfl : n = 0 ∨ n = 1 ∨ n = 2 := by omega
    all_goals rfl
  rw [hshift, multilineBasicFrom, closingQuotes_append hn h]

/-- A quote that is not followed by two more stands for itself. -/
theorem multilineBasicFrom_quote (h : ∀ more, rest ≠ '"' :: '"' :: more) :
    multilineBasicFrom false ('"' :: rest) =
      (multilineBasicFrom false rest).map (consChar '"') := by
  have ht : isTextChar '"' = true := rfl
  rw [multilineBasicFrom.eq_def]
  split
  case h_6 heq =>
    obtain ⟨rfl, rfl⟩ := List.cons.inj heq
    simp [ht]
  all_goals simp_all

/-- A character that is no quote and no backslash stands for itself. -/
theorem multilineBasicFrom_cons (hq : c ≠ '"') (hb : c ≠ '\\')
    (ht : isTextChar c = true ∨ c = '\n') :
    multilineBasicFrom false (c :: rest) =
      (multilineBasicFrom false rest).map (consChar c) := by
  rw [multilineBasicFrom.eq_def]
  split
  case h_6 heq =>
    obtain ⟨rfl, rfl⟩ := List.cons.inj heq
    simp [ht]
  all_goals simp_all

theorem multilineBasicFrom_escapeChar (hq : c ≠ '"') (hn : c ≠ '\n') :
    multilineBasicFrom false (escapeChar c ++ rest) =
      (multilineBasicFrom false rest).map (consChar c) := by
  unfold escapeChar
  split
  case h_6 _ hb =>
    split
    · next hc =>
      simp only [List.cons_append, List.nil_append, multilineBasicFrom,
        numberedEscape?_of_lt (toNat_lt_of_isControl hc)]
    · next hc =>
      exact multilineBasicFrom_cons hq hb
        (.inl (isTextChar_of_isControl_eq_false (by simpa using hc) hn))
  all_goals rfl

/-- A character behind two quotes, or one that is no quote, is not written as a quote. -/
theorem exists_escapeLines_eq_cons {run : Nat} (h : c ≠ '"' ∨ 2 ≤ run) (cs : List Char) :
    ∃ first more, escapeLines run (c :: cs) = first :: more ∧ first ≠ '"' := by
  by_cases hq : c = '"'
  · subst hq
    have hrun : ¬ run < 2 := Nat.not_lt.2 (h.resolve_left (· rfl))
    exact ⟨'\\', _, by rw [escapeLines, if_neg hrun], by decide⟩
  · by_cases hn : c = '\n'
    · subst hn
      exact ⟨'\n', _, rfl, by decide⟩
    · obtain ⟨first, more, hfirst, hne, -⟩ := exists_escapeChar_eq_cons hq hn
      refine ⟨first, more ++ escapeLines 0 cs, ?_, hne⟩
      rw [escapeLines, hfirst, List.cons_append] <;> assumption

/-- Where two quotes follow a quote that is written as it is, the string has come to its end: these
are quotes of the string before the closing ones, or those themselves. -/
theorem eq_of_escapeLines_eq_quotes {run : Nat} {more : List Char}
    (h : escapeLines (run + 1) cs ++ '"' :: '"' :: '"' :: rest = '"' :: '"' :: more) :
    cs = [] ∨ run = 0 ∧ cs = ['"'] := by
  cases cs with
  | nil => exact .inl rfl
  | cons c cs =>
    by_cases hfirst : c ≠ '"' ∨ 2 ≤ run + 1
    · obtain ⟨first, others, hcs, hne⟩ := exists_escapeLines_eq_cons hfirst cs
      rw [hcs] at h
      exact absurd (List.cons.inj h).1 hne
    · obtain ⟨rfl, hrun⟩ : c = '"' ∧ run = 0 := by
        constructor
        · exact Decidable.of_not_not fun hc => hfirst (.inl hc)
        · omega
      subst hrun
      cases cs with
      | nil => exact .inr ⟨rfl, rfl⟩
      | cons c cs =>
        obtain ⟨first, others, hcs, hne⟩ := exists_escapeLines_eq_cons (.inr (Nat.le_refl 2)) cs
        rw [escapeLines, if_pos (by decide), hcs] at h
        exact absurd (List.cons.inj (List.cons.inj h).2).1 hne

/-- Nothing is written as a newline but a newline. -/
theorem head?_escapeLines_append_ne {run : Nat} (h : '\n' ∉ cs) :
    (escapeLines run cs ++ '"' :: rest).head? ≠ some '\n' := by
  cases cs with
  | nil => simp [escapeLines]
  | cons c cs =>
    have hn : c ≠ '\n' := fun hc => h (by simp [hc])
    by_cases hq : c = '"'
    · subst hq
      rw [escapeLines]
      split <;> simp
    · obtain ⟨first, more, hfirst, -, hne⟩ := exists_escapeChar_eq_cons hq hn
      rw [escapeLines, hfirst]
      · simpa using hne
      · assumption
      · assumption

/-- A string between three double quotes. -/
theorem multilineBasicFrom_append (run : Nat) (cs : List Char) (h : rest.head? ≠ some '"') :
    multilineBasicFrom false (escapeLines run cs ++ '"' :: '"' :: '"' :: rest) =
      some (cs, rest) := by
  have hend {n : Nat} (hn : n ≤ 2) := multilineBasicFrom_replicate hn h
  induction cs generalizing run with
  | nil => exact hend (Nat.zero_le 2)
  | cons c cs ih =>
    by_cases hq : c = '"'
    · subst hq
      rw [escapeLines]
      split
      · -- The reader takes a quote for the end exactly if it is one of those at the end.
        by_cases hlast : ∃ more, escapeLines (run + 1) cs ++ '"' :: '"' :: '"' :: rest =
            '"' :: '"' :: more
        · obtain ⟨more, hmore⟩ := hlast
          rcases eq_of_escapeLines_eq_quotes hmore with rfl | ⟨rfl, rfl⟩
          · exact hend (n := 1) (by decide)
          · exact hend (n := 2) (by decide)
        · rw [List.cons_append, multilineBasicFrom_quote fun more hmore => hlast ⟨more, hmore⟩, ih]
          rfl
      · have hescaped (next : List Char) : multilineBasicFrom false ('\\' :: '"' :: next) =
            (multilineBasicFrom false next).map (consChar '"') := rfl
        rw [List.cons_append, List.cons_append, hescaped, ih]
        rfl
    · by_cases hn : c = '\n'
      · subst hn
        rw [escapeLines, List.cons_append,
          multilineBasicFrom_cons (by decide) (by decide) (.inr rfl), ih]
        rfl
      · rw [escapeLines, List.append_assoc, multilineBasicFrom_escapeChar hq hn, ih]
        · rfl
        · assumption
        · assumption

/-! ## Strings on several lines, in single quotes -/

theorem multilineLiteralFrom_replicate {n : Nat} (hn : n ≤ 2) (h : rest.head? ≠ some '\'') :
    multilineLiteralFrom (List.replicate n '\'' ++ '\'' :: '\'' :: '\'' :: rest) =
      some (List.replicate n '\'', rest) := by
  have hshift : List.replicate n '\'' ++ '\'' :: '\'' :: '\'' :: rest =
      '\'' :: '\'' :: '\'' :: (List.replicate n '\'' ++ rest) := by
    obtain rfl | rfl | rfl : n = 0 ∨ n = 1 ∨ n = 2 := by omega
    all_goals rfl
  rw [hshift, multilineLiteralFrom, closingQuotes_append hn h]

/-- A character stands for itself, unless it is a quote that is followed by two more. -/
theorem multilineLiteralFrom_cons (ht : isTextChar c = true ∨ c = '\n')
    (h : c = '\'' → ∀ more, rest ≠ '\'' :: '\'' :: more) :
    multilineLiteralFrom (c :: rest) = (multilineLiteralFrom rest).map (consChar c) := by
  rw [multilineLiteralFrom.eq_def]
  split
  case h_3 heq =>
    obtain ⟨rfl, rfl⟩ := List.cons.inj heq
    simp [ht]
  all_goals simp_all

/-- Where two quotes follow a quote of a string that has no three quotes in a row, the string has
come to its end. -/
theorem eq_of_append_eq_quotes {quote : Char} (ht : isTripled quote (quote :: cs) = false)
    {more : List Char}
    (h : cs ++ quote :: quote :: quote :: rest = quote :: quote :: more) :
    cs = [] ∨ cs = [quote] := by
  match cs with
  | [] => exact .inl rfl
  | [a] =>
    obtain rfl : a = quote := (List.cons.inj h).1
    exact .inr rfl
  | a :: b :: more =>
    obtain rfl : a = quote := (List.cons.inj h).1
    obtain rfl : b = a := (List.cons.inj (List.cons.inj h).2).1
    simp [isTripled] at ht

theorem isTripled_of_cons {quote : Char} (h : isTripled quote (c :: cs) = false) :
    isTripled quote cs = false := by
  match cs with
  | [] => rfl
  | [a] => rfl
  | a :: b :: more => exact (Bool.or_eq_false_iff.1 h).2

/-- A string between three single quotes. -/
theorem multilineLiteralFrom_append (ht : ∀ c ∈ cs, isTextChar c = true ∨ c = '\n')
    (hq : isTripled '\'' cs = false) (h : rest.head? ≠ some '\'') :
    multilineLiteralFrom (cs ++ '\'' :: '\'' :: '\'' :: rest) = some (cs, rest) := by
  have hend {n : Nat} (hn : n ≤ 2) := multilineLiteralFrom_replicate hn h
  induction cs with
  | nil => exact hend (Nat.zero_le 2)
  | cons c cs ih =>
    obtain ⟨hc, hcs⟩ := List.forall_mem_cons.1 ht
    by_cases hlast : c = '\'' ∧ ∃ more, cs ++ '\'' :: '\'' :: '\'' :: rest = '\'' :: '\'' :: more
    · obtain ⟨rfl, more, hmore⟩ := hlast
      rcases eq_of_append_eq_quotes hq hmore with rfl | rfl
      · exact hend (n := 1) (by decide)
      · exact hend (n := 2) (by decide)
    · rw [List.cons_append,
        multilineLiteralFrom_cons hc fun he more hmore => hlast ⟨he, more, hmore⟩,
        ih hcs (isTripled_of_cons hq)]
      rfl

/-! ## Strings -/

/-- The newline behind the opening quotes is dropped, and no other one is. -/
theorem skipFirstNewline_openingNewline {body : List Char}
    (h : '\n' ∉ cs → body.head? ≠ some '\n') :
    skipFirstNewline (openingNewline cs ++ body) = body := by
  rw [openingNewline]
  split
  · rfl
  · next hn =>
    have hhead := h (by simpa using hn)
    match body with
    | [] => rfl
    | a :: more =>
      have ha : a ≠ '\n' := by simpa using hhead
      simp [skipFirstNewline, ha]

/-- A string in double quotes on one line does not look like one on several lines. -/
theorem quotedString?_writeBasic (cs : List Char) (h : rest.head? ≠ some '"') :
    quotedString? (writeBasic cs ++ rest) = some (cs, rest) := by
  have hone : ∀ more, cs.flatMap escapeLineChar ++ '"' :: rest ≠ '"' :: '"' :: more := by
    intro more hmore
    cases cs with
    | nil =>
      obtain rfl := (List.cons.inj hmore).2
      exact h rfl
    | cons c cs =>
      obtain ⟨first, others, hc, hne⟩ :
          ∃ first others, escapeLineChar c = first :: others ∧ first ≠ '"' := by
        unfold escapeLineChar
        split
        · exact ⟨'\\', _, rfl, by decide⟩
        · exact ⟨'\\', _, rfl, by decide⟩
        · next hq hn =>
          obtain ⟨first, others, hc, hne, -⟩ := exists_escapeChar_eq_cons hq hn
          exact ⟨first, others, hc, hne⟩
      rw [List.flatMap_cons, hc] at hmore
      exact hne (List.cons.inj hmore).1
  have hwritten : writeBasic cs ++ rest = '"' :: (cs.flatMap escapeLineChar ++ '"' :: rest) := by
    simp [writeBasic]
  rw [hwritten, quotedString?.eq_def, ← basicBody_append cs rest]
  split <;> simp_all

/-- A string in single quotes on one line does not look like one on several lines. -/
theorem quotedString?_writeLiteral (hq : '\'' ∉ cs) (ht : ∀ c ∈ cs, isTextChar c = true)
    (h : rest.head? ≠ some '\'') : quotedString? (writeLiteral cs ++ rest) = some (cs, rest) := by
  have hone : ∀ more, cs ++ '\'' :: rest ≠ '\'' :: '\'' :: more := by
    intro more hmore
    cases cs with
    | nil =>
      obtain rfl := (List.cons.inj hmore).2
      exact h rfl
    | cons c cs =>
      obtain rfl := (List.cons.inj hmore).1
      exact hq (.head _)
  have hwritten : writeLiteral cs ++ rest = '\'' :: (cs ++ '\'' :: rest) := by
    simp [writeLiteral]
  rw [hwritten, quotedString?.eq_def, ← literalBody_append hq ht]
  split <;> simp_all

theorem quotedString?_writeMultilineBasic (cs : List Char) (h : rest.head? ≠ some '"') :
    quotedString? (writeMultilineBasic cs ++ rest) = some (cs, rest) := by
  have hwritten : writeMultilineBasic cs ++ rest = '"' :: '"' :: '"' ::
      (openingNewline cs ++ (escapeLines 0 cs ++ '"' :: '"' :: '"' :: rest)) := by
    simp [writeMultilineBasic]
  have hskip : skipFirstNewline
      (openingNewline cs ++ (escapeLines 0 cs ++ '"' :: '"' :: '"' :: rest)) =
      escapeLines 0 cs ++ '"' :: '"' :: '"' :: rest :=
    skipFirstNewline_openingNewline head?_escapeLines_append_ne
  rw [hwritten, quotedString?, multilineBasicBody, hskip, multilineBasicFrom_append 0 cs h]

theorem quotedString?_writeMultilineLiteral (ht : ∀ c ∈ cs, isTextChar c = true ∨ c = '\n')
    (hq : isTripled '\'' cs = false) (h : rest.head? ≠ some '\'') :
    quotedString? (writeMultilineLiteral cs ++ rest) = some (cs, rest) := by
  have hwritten : writeMultilineLiteral cs ++ rest = '\'' :: '\'' :: '\'' ::
      (openingNewline cs ++ (cs ++ '\'' :: '\'' :: '\'' :: rest)) := by
    simp [writeMultilineLiteral]
  have hskip : skipFirstNewline (openingNewline cs ++ (cs ++ '\'' :: '\'' :: '\'' :: rest)) =
      cs ++ '\'' :: '\'' :: '\'' :: rest := by
    apply skipFirstNewline_openingNewline
    intro hn
    cases cs with
    | nil => simp
    | cons c cs => simpa using fun he => hn (by simp [he])
  rw [hwritten, quotedString?, multilineLiteralBody, hskip, multilineLiteralFrom_append ht hq h]

/-- A string without control characters may stand on several lines. -/
theorem isTextChar_or_eq_of_any (h : cs.any isControl = false) :
    ∀ c ∈ cs, isTextChar c = true ∨ c = '\n' := by
  intro c hc
  have hcontrol : isControl c = false := by simpa using List.any_eq_false.1 h c hc
  by_cases hn : c = '\n'
  · exact .inr hn
  · exact .inl (isTextChar_of_isControl_eq_false hcontrol hn)

/-- The form that a string is written in is read back as the string. -/
theorem quotedString?_writeString (cs : List Char) (hd : rest.head? ≠ some '"')
    (hs : rest.head? ≠ some '\'') :
    quotedString? (writeString cs ++ rest) = some (cs, rest) := by
  unfold writeString
  dsimp only
  split
  · exact quotedString?_writeBasic cs hd
  split
  · next h =>
    obtain ⟨hcontrol, hline, hquote⟩ := h
    rw [Bool.not_eq_true] at hcontrol
    refine quotedString?_writeLiteral (by simpa using hquote) (fun c hc => ?_) hs
    have hn : c ≠ '\n' := by
      rintro rfl
      exact hline (by simpa using hc)
    exact (isTextChar_or_eq_of_any hcontrol c hc).resolve_right hn
  split
  · exact quotedString?_writeMultilineBasic cs hd
  split
  · next h =>
    obtain ⟨hcontrol, htripled⟩ := h
    rw [Bool.not_eq_true] at hcontrol htripled
    exact quotedString?_writeMultilineLiteral (isTextChar_or_eq_of_any hcontrol) htripled hs
  split
  · exact quotedString?_writeMultilineBasic cs hd
  · exact quotedString?_writeBasic cs hd

/-! ## Carriage returns -/

theorem ne_cr_of_isControl_eq_false (h : isControl c = false) : c ≠ '\r' := by
  rintro rfl
  cases h

theorem capitalHexDigit_ne_cr {n : Nat} (h : n < 16) : capitalHexDigit n ≠ '\r' := by
  have hall : ∀ n < 16, capitalHexDigit n ≠ '\r' := by decide
  exact hall n h

theorem cr_notMem_escapeChar (c : Char) : '\r' ∉ escapeChar c := by
  unfold escapeChar
  split
  case h_6 =>
    split
    · next hc =>
      have hlt := toNat_lt_of_isControl hc
      have hhigh := capitalHexDigit_ne_cr (n := c.toNat / 16) (by omega)
      have hlow := capitalHexDigit_ne_cr (n := c.toNat % 16) (by omega)
      simp [hhigh.symm, hlow.symm]
    · next hc => simpa using (ne_cr_of_isControl_eq_false (by simpa using hc)).symm
  all_goals decide

theorem cr_notMem_escapeLines (run : Nat) (cs : List Char) : '\r' ∉ escapeLines run cs := by
  induction cs generalizing run with
  | nil => simp [escapeLines]
  | cons c cs ih =>
    rw [escapeLines.eq_def]
    split
    · next h => cases h
    · next h =>
      obtain ⟨rfl, rfl⟩ := List.cons.inj h
      split <;> simp [ih]
    · next h =>
      obtain ⟨rfl, rfl⟩ := List.cons.inj h
      simp [ih]
    · next h =>
      obtain ⟨rfl, rfl⟩ := List.cons.inj h
      simp [ih, cr_notMem_escapeChar]

/-- A carriage return is always escaped. -/
theorem cr_notMem_writeString (cs : List Char) : '\r' ∉ writeString cs := by
  have hplain (h : cs.any isControl = false) : '\r' ∉ cs := fun hr =>
    ne_cr_of_isControl_eq_false (by simpa using List.any_eq_false.1 h _ hr) rfl
  have hopening : '\r' ∉ openingNewline cs := by
    rw [openingNewline]
    split <;> decide
  have hbasic : '\r' ∉ writeBasic cs := by
    have hescaped (c : Char) : '\r' ∉ escapeLineChar c := by
      unfold escapeLineChar
      split
      · decide
      · decide
      · exact cr_notMem_escapeChar c
    simp [writeBasic, hescaped]
  have hlines : '\r' ∉ writeMultilineBasic cs := by
    simp [writeMultilineBasic, hopening, cr_notMem_escapeLines]
  unfold writeString
  dsimp only
  split
  · exact hbasic
  split
  · next h => simpa [writeLiteral] using hplain (by simpa using h.1)
  split
  · exact hlines
  split
  · next h => simpa [writeMultilineLiteral, hopening] using hplain (by simpa using h.1)
  split
  · exact hlines
  · exact hbasic

end Toml

end BitmapText
