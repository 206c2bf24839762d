import BitmapText.Text.CodePoints

/-!
# Code points of UTF-8 text

UTF-8 writes a character as one to four bytes, and text is read in groups of one byte and of three.
As long as every character of a text is written as one byte or as three, the groups that are read
are the characters that were written, and each folds into the code point of its character.

## Main definitions

* `CodePoints.Group.Complete`: a group that is read the same whatever follows it.

## Main statements

* `CodePoints.groups_append`: a complete group at the start is the first one that is read.
* `CodePoints.exists_group`: a character is written as a complete group of its code point.
* `CodePoints.ofText_eq_map_toNat`: the code points of a text are those of its characters.
-/

namespace BitmapText

namespace CodePoints

/-! ## Complete groups -/

/-- A group that has all its bytes, with a first byte of its own kind. -/
inductive Group.Complete : Group → Prop where
  | single {byte : UInt8} : byte < 0x80 → Complete (.single byte)
  | triple {lead : UInt8} (second third : UInt8) :
      ¬ lead < 0x80 → Complete (.triple lead second third)

/-- A complete group at the start is the first one that is read, and the rest is read on its own. -/
theorem groups_append {g : Group} (h : g.Complete) (rest : List UInt8) :
    groups (g.bytes ++ rest) = g :: groups rest := by
  cases h with
  | single hbyte =>
    rw [Group.bytes, List.singleton_append, groups.eq_def]
    exact if_pos hbyte
  | triple second third hlead => exact if_neg hlead

theorem decode_append {g : Group} (h : g.Complete) (rest : List UInt8) :
    decode (g.bytes ++ rest) = g.codePoint :: decode rest := by
  rw [decode, groups_append h, List.map_cons, decode]

/-! ## Characters -/

/-- A code point that takes three bytes comes out of their low bits: four of the lead and six of
each byte after it. -/
theorem foldBytes_ofNat {n : Nat} (hn : n ≤ 0xFFFF) :
    foldBytes (UInt8.ofNat (n / 4096 % 16 + 224)) (UInt8.ofNat (n / 64 % 64 + 128))
      (UInt8.ofNat (n % 64 + 128)) = n := by
  simp only [foldBytes, UInt8.toNat_ofNat']
  omega

/-- A character below U+0080 is written as one byte. -/
theorem utf8EncodeChar_of_lt {c : Char} (h : c.toNat < 0x80) :
    String.utf8EncodeChar c = [UInt8.ofNat c.toNat] := by
  have hshort : c.val.toNat ≤ 0x7F := by
    change c.toNat ≤ 0x7F
    omega
  simp only [String.utf8EncodeChar, if_pos hshort]
  rfl

/-- A character that UTF-8 writes as one byte or as three is written as a complete group of its
code point. -/
theorem exists_group {c : Char} (h : c.toNat < 0x80 ∨ 0x800 ≤ c.toNat ∧ c.toNat ≤ 0xFFFF) :
    ∃ g : Group, g.Complete ∧ String.utf8EncodeChar c = g.bytes ∧ g.codePoint = c.toNat := by
  rcases h with hone | ⟨hlow, hhigh⟩
  · have hbyte : (UInt8.ofNat c.toNat).toNat = c.toNat := by
      rw [UInt8.toNat_ofNat']
      omega
    refine ⟨.single (UInt8.ofNat c.toNat), .single ?_, utf8EncodeChar_of_lt hone, hbyte⟩
    rw [UInt8.lt_iff_toNat_lt, hbyte]
    exact hone
  · have hlead : ¬ UInt8.ofNat (c.toNat / 4096 % 16 + 224) < 0x80 := by
      rw [UInt8.lt_iff_toNat_lt, UInt8.toNat_ofNat']
      change ¬ _ < 0x80
      omega
    refine ⟨_, .triple (UInt8.ofNat (c.toNat / 64 % 64 + 128)) (UInt8.ofNat (c.toNat % 64 + 128))
      hlead, ?_, foldBytes_ofNat hhigh⟩
    have hone : ¬ c.val.toNat ≤ 0x7F := by
      change ¬ c.toNat ≤ 0x7F
      omega
    have htwo : ¬ c.val.toNat ≤ 0x7FF := by
      change ¬ c.toNat ≤ 0x7FF
      omega
    have hthree : c.val.toNat ≤ 0xFFFF := hhigh
    simp only [String.utf8EncodeChar, if_neg hone, if_neg htwo, if_pos hthree]
    rfl

/-! ## Texts -/

/-- Reading goes from character to character: no group takes a byte of the next one. -/
theorem decode_flatMap_utf8EncodeChar {cs : List Char}
    (h : ∀ c ∈ cs, c.toNat < 0x80 ∨ 0x800 ≤ c.toNat ∧ c.toNat ≤ 0xFFFF) :
    decode (cs.flatMap String.utf8EncodeChar) = cs.map Char.toNat := by
  induction cs with
  | nil => rfl
  | cons c rest ih =>
    rw [List.forall_mem_cons] at h
    obtain ⟨g, hcomplete, hbytes, hpoint⟩ := exists_group h.1
    rw [List.flatMap_cons, hbytes, decode_append hcomplete, hpoint, ih h.2, List.map_cons]

/-- The bytes of a text are those of its characters, one after the other. -/
theorem toUTF8_toList (text : String) :
    text.toUTF8.data.toList = text.toList.flatMap String.utf8EncodeChar := by
  have hchars : text.toList.utf8Encode = text.toUTF8 := by simp
  rw [← hchars, List.utf8Encode, List.toList_data_toByteArray]

/-- A text of characters below U+0080 and from U+0800 to U+FFFF, in any order, is read back from its
UTF-8 bytes. -/
theorem ofText_eq_map_toNat (text : String)
    (h : ∀ c ∈ text.toList, c.toNat < 0x80 ∨ 0x800 ≤ c.toNat ∧ c.toNat ≤ 0xFFFF) :
    ofText text = text.toList.map Char.toNat := by
  rw [ofText, toUTF8_toList]
  exact decode_flatMap_utf8EncodeChar h

/-- An ASCII letter, the euro sign, the replacement character, the first character that takes three
bytes, and a tilde. -/
theorem ofText_eq_map_toNat_mixed :
    (∀ c ∈ "a€\uFFFD\u0800~".toList, c.toNat < 0x80 ∨ 0x800 ≤ c.toNat ∧ c.toNat ≤ 0xFFFF) ∧
      ofText "a€\uFFFD\u0800~" = [0x61, 0x20AC, 0xFFFD, 0x800, 0x7E] := by
  have h : ∀ c ∈ "a€\uFFFD\u0800~".toList,
      c.toNat < 0x80 ∨ 0x800 ≤ c.toNat ∧ c.toNat ≤ 0xFFFF := by simp
  exact ⟨h, ofText_eq_map_toNat _ h⟩

-- A character of two bytes is not read back: its lead takes the place of three bytes.
example : ofText "é" = [0x3A40] := by decide +kernel

end CodePoints

end BitmapText
