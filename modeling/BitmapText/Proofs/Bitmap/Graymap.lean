import BitmapText.Bitmap.Pgm
import BitmapText.Proofs.Bitmap.Layers
import BitmapText.Proofs.Text.Utf8

/-!
# Graymaps are read back

What is written for a bitmap is read back as its size and its pixels, whatever the values are and
whatever follows them, so that bitmaps with the same graymap are the same. As for canvases, sizes
whose product does not fit into 64 bits are left out: no program has such a bitmap.

## Main statements

* `Graymap.number?_decimal`: a number is read up to the first other byte.
* `Graymap.rows?_append`: rows are read one after the other.
* `Graymap.read?_toPgm`: the graymap of a bitmap is read back.
* `Bitmap.toPgm_lossless`: nothing of a canvas is lost, and nothing comes after it.
-/

namespace BitmapText

namespace Graymap

/-! ## Numbers -/

/-- The bytes of a number as it is written. -/
def decimal (n : Nat) : List UInt8 := (toString n).toUTF8.data.toList

/-- A digit is written as one byte. -/
theorem utf8EncodeChar_digit {c : Char} (h : c.isDigit = true) :
    ∃ byte, String.utf8EncodeChar c = [byte] ∧ isDigit byte = true ∧ byte.toNat = c.toNat := by
  have hrange : 48 ≤ c.toNat ∧ c.toNat ≤ 57 := by
    simpa [Char.isDigit, UInt32.le_iff_toNat_le] using h
  have hbyte : (UInt8.ofNat c.toNat).toNat = c.toNat := by
    rw [UInt8.toNat_ofNat']
    omega
  refine ⟨UInt8.ofNat c.toNat, CodePoints.utf8EncodeChar_of_lt (by omega), ?_, hbyte⟩
  simpa [isDigit, UInt8.le_iff_toNat_le, hbyte] using hrange

/-- The bytes of digits are digits, and they write the same number. -/
theorem foldl_digits {cs : List Char} (h : ∀ c ∈ cs, c.isDigit = true) (n : Nat) :
    (∀ byte ∈ cs.flatMap String.utf8EncodeChar, isDigit byte = true) ∧
      (cs.flatMap String.utf8EncodeChar).foldl (fun n digit => 10 * n + (digit.toNat - 48)) n =
        Nat.ofDigitChars 10 cs n := by
  induction cs generalizing n with
  | nil => exact ⟨by simp, rfl⟩
  | cons c rest ih =>
    rw [List.forall_mem_cons] at h
    obtain ⟨byte, hbytes, hdigit, hvalue⟩ := utf8EncodeChar_digit h.1
    obtain ⟨hall, hrest⟩ := ih h.2 (10 * n + (byte.toNat - 48))
    rw [List.flatMap_cons, hbytes, List.singleton_append, List.forall_mem_cons, List.foldl_cons,
      hrest, hvalue, Nat.ofDigitChars_cons]
    exact ⟨⟨hdigit, hall⟩, rfl⟩

/-- A number is written as digits of its value, one at least. -/
theorem decimal_digits (n : Nat) :
    decimal n ≠ [] ∧ (∀ byte ∈ decimal n, isDigit byte = true) ∧ valueOfDigits (decimal n) = n := by
  have hbytes : decimal n = (Nat.toDigits 10 n).flatMap String.utf8EncodeChar := by
    rw [decimal, CodePoints.toUTF8_toList, Nat.toString_eq_ofList_toDigits, String.toList_ofList]
  have hdigits : ∀ c ∈ Nat.toDigits 10 n, c.isDigit = true := fun c hc =>
    Nat.isDigit_of_mem_toDigits (by decide) (by decide) hc
  obtain ⟨hall, hvalue⟩ := foldl_digits hdigits 0
  rw [hbytes]
  refine ⟨?_, hall, hvalue.trans Nat.ofDigitChars_ten_toDigits⟩
  intro hnil
  obtain ⟨c, hc⟩ := List.exists_mem_of_ne_nil (Nat.toDigits 10 n) Nat.toDigits_ne_nil
  obtain ⟨byte, hbyte, -⟩ := utf8EncodeChar_digit (hdigits c hc)
  rw [List.flatMap_eq_nil_iff.1 hnil c hc] at hbyte
  cases hbyte

/-- A number is read up to the first byte that is not a digit. -/
theorem number?_decimal (n : Nat) {stop : UInt8} (h : isDigit stop = false) (rest : List UInt8) :
    number? (decimal n ++ stop :: rest) = some (n, stop :: rest) := by
  obtain ⟨hne, hall, hvalue⟩ := decimal_digits n
  rw [number?, List.takeWhile_append_of_pos hall, List.dropWhile_append_of_pos hall,
    List.takeWhile_cons, List.dropWhile_cons, h]
  simp only [Bool.false_eq_true, if_false, List.append_nil, if_neg hne, hvalue]

/-- The blanks before a number end where its digits start. -/
theorem skipBlanks?_decimal {blank : UInt8} (h : isBlank blank = true) (n : Nat)
    (rest : List UInt8) : skipBlanks? (blank :: (decimal n ++ rest)) = some (decimal n ++ rest) := by
  obtain ⟨hne, hall, -⟩ := decimal_digits n
  obtain ⟨digit, digits, hcons⟩ := List.exists_cons_of_ne_nil hne
  have hdigit : isBlank digit = false := by
    have := hall digit (by simp [hcons])
    grind [isDigit, isBlank]
  rw [skipBlanks?, if_pos h, hcons, List.cons_append, List.dropWhile_cons, hdigit]
  rfl

/-! ## Rows -/

/-- As many rows as there are values for are read, and the value in column `x` of row `y` is the one
that stands behind `y` rows and `x` values. -/
theorem rows?_append (width : Nat) {height : Nat} {bytes : List UInt8}
    (h : bytes.length = height * width) (rest : List UInt8) :
    ∃ rows, rows? width height (bytes ++ rest) = some (rows, rest) ∧
      ∀ x y, (rows[y]?.bind fun row => row[x]?) =
        if x < width ∧ y < height then bytes[y * width + x]? else none := by
  induction height generalizing bytes with
  | zero =>
    obtain rfl : bytes = [] := by simpa using h
    exact ⟨[], rfl, by simp⟩
  | succ height ih =>
    have hlen : (bytes.drop width).length = height * width := by
      rw [List.length_drop, h, Nat.succ_mul, Nat.add_sub_cancel]
    have hwidth : width ≤ bytes.length := by
      rw [h, Nat.succ_mul]
      omega
    obtain ⟨rows, hrows, hvalues⟩ := ih hlen
    refine ⟨bytes.take width :: rows, ?_, ?_⟩
    · have hlong : ¬ (bytes ++ rest).length < width := by
        rw [List.length_append]
        omega
      rw [rows?, if_neg hlong, List.drop_append_of_le_length hwidth, hrows,
        List.take_append_of_le_length hwidth]
      rfl
    · intro x y
      cases y with
      | zero => grind
      | succ y =>
        rw [List.getElem?_cons_succ, hvalues, List.getElem?_drop]
        have hplace : width + (y * width + x) = (y + 1) * width + x := by
          rw [Nat.succ_mul]
          omega
        rw [hplace]
        grind

/-! ## Graymaps -/

/-- The header: the magic number, a line with the size, and one with the largest value. -/
theorem toUTF8_pgmHeader (width height : Nat) :
    (Bitmap.pgmHeader width height).toUTF8.data.toList =
      80 :: 53 :: 10 :: (decimal width ++ 32 :: (decimal height ++ 10 :: (decimal 255 ++ [10]))) := by
  have hlargest : decimal 255 = [50, 53, 53] := by decide +kernel
  rw [hlargest, Bitmap.pgmHeader]
  simp only [decimal, CodePoints.toUTF8_toList, String.toList_append, List.flatMap_append]
  simp [String.utf8EncodeChar]

/-- The graymap of a bitmap is read back as its size and its pixels, whatever follows it. -/
theorem read?_toPgm (b : Bitmap) (rest : List UInt8) :
    ∃ image, read? (b.toPgm.toList ++ rest) = some (image, rest) ∧
      image.width = b.width ∧ image.height = b.height ∧
      ∀ x y, image.pixel? x y = b.pixel? x y := by
  have hlen : b.data.toList.length = b.height * b.width := by
    rw [Array.length_toList, b.size_data, Nat.mul_comm]
  obtain ⟨rows, hrows, hvalues⟩ := rows?_append b.width hlen rest
  have hbytes : b.toPgm.toList ++ rest = 80 :: 53 :: 10 :: (decimal b.width ++ 32 ::
      (decimal b.height ++ 10 :: (decimal 255 ++ 10 :: (b.data.toList ++ rest)))) := by
    rw [Bitmap.toPgm, Array.toList_append, toUTF8_pgmHeader]
    simp
  obtain ⟨hline, hspace⟩ : (isBlank 10 = true ∧ isDigit 10 = false) ∧
      isBlank 32 = true ∧ isDigit 32 = false := by decide
  refine ⟨⟨b.width, b.height, rows⟩, ?_, rfl, rfl, fun x y => ?_⟩
  · rw [hbytes, read?]
    simp only [skipBlanks?_decimal hline.1, skipBlanks?_decimal hspace.1,
      number?_decimal _ hline.2, number?_decimal _ hspace.2, skipBlank?, if_pos hline.1, hrows,
      Option.bind_eq_bind, Option.bind_some, Option.pure_def, ne_eq, not_true, if_false]
  · rw [pixel?, hvalues, Bitmap.pixel?, Array.getElem?_toList]

end Graymap

namespace Bitmap

/-- Bitmaps with the same graymap are the same. -/
theorem toPgm_injective : Function.Injective toPgm := by
  intro a b h
  obtain ⟨image, hread, hw, hh, hpixel⟩ := Graymap.read?_toPgm a []
  obtain ⟨image', hread', hw', hh', hpixel'⟩ := Graymap.read?_toPgm b []
  rw [h, hread'] at hread
  obtain rfl : image' = image := congrArg Prod.fst (Option.some.inj hread)
  apply ext_pixel?
  · exact hw.symm.trans hw'
  · exact hh.symm.trans hh'
  · intro x y
    rw [← hpixel, hpixel']

/-- A canvas of a given size is written as a graymap from which its size and all of its pixels are
read back, with nothing left over, whatever has been drawn on it. No other canvas is written like
that. -/
theorem toPgm_lossless (width height : Nat) (calls : List Font.DrawCall) :
    let canvas := (blank width height).drawAll calls
    (∃ image, Graymap.read? canvas.toPgm.toList = some (image, []) ∧
      image.width = width ∧ image.height = height ∧
      (∀ x y, image.pixel? x y = canvas.pixel? x y) ∧
      ∀ x y, (image.pixel? x y).isSome = true ↔ x < width ∧ y < height) ∧
    ∀ other : Bitmap, other.toPgm = canvas.toPgm → other = canvas := by
  intro canvas
  obtain ⟨image, hread, hwidth, hheight, hpixel⟩ := Graymap.read?_toPgm canvas []
  rw [List.append_nil] at hread
  have hcw : canvas.width = width := width_drawAll ..
  have hch : canvas.height = height := height_drawAll ..
  refine ⟨⟨image, hread, hwidth.trans hcw, hheight.trans hch, hpixel, fun x y => ?_⟩, ?_⟩
  · rw [hpixel, isSome_pixel?, hcw, hch]
  · intro other h
    exact toPgm_injective h

end Bitmap

end BitmapText
