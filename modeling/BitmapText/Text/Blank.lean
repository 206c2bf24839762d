/-!
# Blank characters

The characters with the Unicode property `White_Space`, and the removal of them from both ends
of a text.

## Main definitions

* `Text.isBlank`: the property.
* `Text.trim`: a text without its blank ends.

## Main statements

* `Text.trimChars_append`, `Text.exists_trimChars`: trimming takes away the blank ends of a word.
-/

namespace BitmapText

namespace Text

/-- The ranges of the property `White_Space`. -/
def blankRanges : List (Nat × Nat) :=
  [(0x0009, 0x000d), (0x0020, 0x0020), (0x0085, 0x0085), (0x00a0, 0x00a0), (0x1680, 0x1680),
   (0x2000, 0x200a), (0x2028, 0x2029), (0x202f, 0x202f), (0x205f, 0x205f), (0x3000, 0x3000)]

/-- `c` separates words. -/
def isBlank (c : Char) : Bool :=
  blankRanges.any fun r => r.1 ≤ c.toNat && c.toNat ≤ r.2

/-- `cs` without the blank characters at its two ends. -/
def trimChars (cs : List Char) : List Char :=
  ((cs.dropWhile isBlank).reverse.dropWhile isBlank).reverse

/-- `s` without the blank characters at its two ends. -/
def trim (s : String) : String := String.ofList (trimChars s.toList)

/-! ## Blank ends -/

theorem dropWhile_isBlank_word {word : List Char} (hword : ∀ c ∈ word, isBlank c = false)
    (hne : word ≠ []) (rest : List Char) : (word ++ rest).dropWhile isBlank = word ++ rest := by
  obtain ⟨c, cs, rfl⟩ := List.exists_cons_of_ne_nil hne
  exact List.dropWhile_cons_of_neg (by simp [hword c List.mem_cons_self])

/-- A word without blank characters is all that trimming leaves of it between blank ends. -/
theorem trimChars_append {before word after : List Char} (hbefore : ∀ c ∈ before, isBlank c = true)
    (hafter : ∀ c ∈ after, isBlank c = true) (hword : ∀ c ∈ word, isBlank c = false)
    (hne : word ≠ []) : trimChars (before ++ word ++ after) = word := by
  have hreverse : ∀ c ∈ word.reverse, isBlank c = false := by simpa using hword
  have hback : (after.reverse ++ word.reverse).dropWhile isBlank = word.reverse := by
    rw [List.dropWhile_append_of_pos (by simpa using hafter)]
    simpa using dropWhile_isBlank_word hreverse (by simpa using hne) []
  rw [trimChars, List.append_assoc, List.dropWhile_append_of_pos hbefore,
    dropWhile_isBlank_word hword hne, List.reverse_append, hback, List.reverse_reverse]

/-- What trimming takes away is blank. -/
theorem exists_trimChars (cs : List Char) :
    ∃ before after, cs = before ++ trimChars cs ++ after ∧ (∀ c ∈ before, isBlank c = true) ∧
      ∀ c ∈ after, isBlank c = true := by
  have hall {l : List Char} {c : Char} (hc : c ∈ l.takeWhile isBlank) : isBlank c = true :=
    List.all_eq_true.mp List.all_takeWhile c hc
  refine ⟨cs.takeWhile isBlank, ((cs.dropWhile isBlank).reverse.takeWhile isBlank).reverse, ?_,
    fun c hc => hall hc, fun c hc => hall (List.mem_reverse.mp hc)⟩
  rw [List.append_assoc, trimChars, ← List.reverse_append, List.takeWhile_append_dropWhile,
    List.reverse_reverse, List.takeWhile_append_dropWhile]

end Text

end BitmapText
