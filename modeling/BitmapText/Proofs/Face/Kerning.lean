import BitmapText.Backend.FontFiles
import BitmapText.Proofs.StringCache.Recency

/-!
# Kerning that is kept

A face of a font file looks a pair up in the kerning table when it is first asked for it, and keeps
what it has found. It does not look at all if the table has nothing to use. What it answers is the
same as if every pair were looked up in the file each time, whatever libraries read the file.

## Main definitions

* `OpenType.Kerning.Finds`: what a kerning table says of a pair.
* `ScaledFont.Finds`: what a file says of a pair, in pixels.
* `ScaledFont.Kerns`: a face looks pairs up.
* `ScaledFont.Keeps`: what a face has kept after some questions.

## Main statements

* `OpenType.Kerning.finds_iff`: looking a pair up finds the first used subtable that lists it.
* `ScaledFont.Keeps.kerning`, `ScaledFont.Keeps.run`: one question, and a run of them.
* `ScaledFont.kerning_kept`: the answers of an opened face and what it keeps.
* `ScaledFont.hasRow_rasterize`, `ScaledFont.hasRow_rasterize_standard`: a library that draws all
  bytes gives glyphs with all rows, and programs run with such a library.
-/

namespace BitmapText

namespace OpenType.Kerning

/-! ## Looking pairs up in a table -/

/-- The subtables say of a pair that its kerning is `n` font units: the first one that is used and
lists the pair tells, and a pair that none lists is not kerned. -/
inductive Finds (left right : GlyphIndex) : List Subtable → Int → Prop
  | nothing : Finds left right [] 0
  | listed {s : Subtable} {rest : List Subtable} {n : Int} :
      s.horizontal = true → s.variation = false → s.units? left right = some n →
      Finds left right (s :: rest) n
  | unused {s : Subtable} {rest : List Subtable} {n : Int} :
      s.horizontal = false ∨ s.variation = true → Finds left right rest n →
      Finds left right (s :: rest) n
  | unlisted {s : Subtable} {rest : List Subtable} {n : Int} :
      s.units? left right = none → Finds left right rest n → Finds left right (s :: rest) n

theorem units_cons (s : Subtable) (rest : List Subtable) (left right : GlyphIndex) :
    units (s :: rest) left right =
      if s.isUsed then (s.units? left right).getD (units rest left right)
      else units rest left right := by
  unfold units
  rw [List.filter_cons]
  split
  · cases h : s.units? left right <;> simp [h]
  · rfl

theorem finds_units (subtables : List Subtable) (left right : GlyphIndex) :
    Finds left right subtables (units subtables left right) := by
  induction subtables with
  | nil => exact .nothing
  | cons s rest ih =>
    rw [units_cons]
    cases hused : s.isUsed with
    | false =>
      apply Finds.unused _ ih
      rw [Subtable.isUsed] at hused
      cases hh : s.horizontal <;> cases hv : s.variation <;> simp_all
    | true =>
      cases hlisted : s.units? left right with
      | none => exact .unlisted hlisted ih
      | some n =>
        rw [Subtable.isUsed, Bool.and_eq_true, Bool.not_eq_true'] at hused
        exact .listed hused.1 hused.2 hlisted

/-- Looking a pair up finds what the subtables say, and they say only one thing. -/
theorem finds_iff {subtables : List Subtable} {left right : GlyphIndex} {n : Int} :
    Finds left right subtables n ↔ n = units subtables left right := by
  constructor
  · intro h
    induction h with
    | nothing => rfl
    | listed hh hv hlisted => simp [units_cons, Subtable.isUsed, hh, hv, hlisted]
    | unused hunused _ ih =>
      rw [units_cons, if_neg, ih]
      rcases hunused with h | h <;> simp [Subtable.isUsed, h]
    | unlisted hlisted _ ih =>
      rw [units_cons, hlisted, Option.getD_none, ite_self, ih]
  · rintro rfl
    exact finds_units subtables left right

end OpenType.Kerning

namespace ScaledFont

open OpenType (Library Data)

variable {lib : Library} {first face : ScaledFont lib} {asked : List (GlyphIndex × GlyphIndex)}

/-- The file of a face says of a pair that it is kerned by so many pixels: none if the file cannot
be parsed or has no kerning table, and else what the table says, scaled. -/
inductive Finds (face : ScaledFont lib) (left right : GlyphIndex) : Int → Prop
  | unparsed : lib.tables? face.data = none → Finds face left right 0
  | untabled {tables : OpenType.Tables} :
      lib.tables? face.data = some tables → tables.kern? = none → Finds face left right 0
  | scaled {tables : OpenType.Tables} {subtables : List OpenType.Kerning.Subtable} {n : Int} :
      lib.tables? face.data = some tables → tables.kern? = some subtables →
      OpenType.Kerning.Finds left right subtables n →
      Finds face left right (lib.kerningPixels n face.scale face.kerningUnits)

/-- Looking a pair up finds what the file says, and the file says only one thing. -/
theorem finds_iff {left right : GlyphIndex} {pixels : Int} :
    face.Finds left right pixels ↔ pixels = face.lookupKerning left right := by
  constructor
  · intro h
    cases h with
    | unparsed htables => simp [lookupKerning, htables]
    | untabled htables hkern => simp [lookupKerning, htables, hkern]
    | scaled htables hkern hfinds =>
      obtain rfl := OpenType.Kerning.finds_iff.1 hfinds
      simp [lookupKerning, htables, hkern]
  · rintro rfl
    rw [lookupKerning]
    cases htables : lib.tables? face.data with
    | none => exact .unparsed htables
    | some tables =>
      dsimp only
      cases hkern : tables.kern? with
      | none => exact .untabled htables hkern
      | some subtables => exact .scaled htables hkern (OpenType.Kerning.finds_units ..)

/-! ## Opened faces -/

/-- The face looks pairs up: there is something to use in the table, and an em to scale it by. -/
def Kerns (face : ScaledFont lib) : Prop := face.hasKerning = true ∧ face.kerningUnits ≠ 0

instance (face : ScaledFont lib) : Decidable face.Kerns := inferInstanceAs (Decidable (_ ∧ _))

/-- A face that has been opened is a font of its file at some scale. -/
theorem exists_ofFont_of_openFaceBy {files : FontFiles} {key : FontKey}
    (h : files.openFaceBy lib key = .ok face) :
    ∃ data directory scale, files.read key.path = .ok data ∧
      lib.directory? data = some directory ∧
      OpenType.pixelsPerEm? key.size key.dpi = some scale ∧
      face = ofFont data directory scale := by
  unfold FontFiles.openFaceBy at h
  split at h
  · cases h
  · next data hdata =>
    split at h
    · cases h
    · next directory hdirectory =>
      split at h
      · cases h
      · next scale hscale =>
        cases h
        exact ⟨data, directory, scale, hdata, hdirectory, hscale, rfl⟩

/-- A face looks pairs up if its file has a kerning table with a subtable that is used, and an
em. -/
theorem kerns_ofFont_iff (data : Data) (directory : Nat) (scale : Float32) :
    (ofFont data directory scale : ScaledFont lib).Kerns ↔
      ∃ tables subtables, lib.tables? data = some tables ∧ tables.kern? = some subtables ∧
        tables.unitsPerEm ≠ 0 ∧ ∃ s ∈ subtables, s.horizontal = true ∧ s.variation = false := by
  rw [Kerns, ofFont]
  cases htables : lib.tables? data with
  | none => simp
  | some tables =>
    cases hkern : tables.kern? with
    | none => simp [hkern]
    | some subtables =>
      simp [hkern, OpenType.Kerning.isPresent, OpenType.Kerning.Subtable.isUsed, and_comm]

/-- A face that is not kerned has no subtable to use, and its table says nothing of any pair. -/
theorem finds_zero_of_hasKerning_ofFont {data : Data} {directory : Nat} {scale : Float32}
    (h : (ofFont data directory scale : ScaledFont lib).hasKerning = false)
    {tables : OpenType.Tables} {subtables : List OpenType.Kerning.Subtable}
    (htables : lib.tables? data = some tables) (hkern : tables.kern? = some subtables) :
    (∀ s ∈ subtables, s.isUsed = false) ∧
      ∀ left right, OpenType.Kerning.Finds left right subtables 0 := by
  have hunused : ∀ s ∈ subtables, s.isUsed = false := by
    simpa [ofFont, htables, hkern, OpenType.Kerning.isPresent] using h
  refine ⟨hunused, fun left right => OpenType.Kerning.finds_iff.2 ?_⟩
  have hnone : subtables.filter OpenType.Kerning.Subtable.isUsed = [] := by
    simpa [List.filter_eq_nil_iff] using hunused
  rw [OpenType.Kerning.units, hnone]
  rfl

/-! ## Questions -/

/-- After the questions `asked`, a face that was opened as `first` is unchanged but for the kerning
that it keeps: that of the pairs it was asked for, if it looks pairs up, and else nothing. -/
structure Keeps (first face : ScaledFont lib) (asked : List (GlyphIndex × GlyphIndex)) : Prop where
  face_eq : face = { first with pairs := face.pairs }
  pairs_eq : ∀ pair, face.pairs[pair]? =
    if first.Kerns ∧ pair ∈ asked then some (first.lookupKerning pair.1 pair.2) else none

/-- A face that has just been opened keeps nothing. -/
theorem keeps_ofFont (data : Data) (directory : Nat) (scale : Float32) :
    (ofFont data directory scale : ScaledFont lib).Keeps (ofFont data directory scale) [] where
  face_eq := rfl
  pairs_eq pair := by simp [ofFont]

/-- One more question is answered as by looking the pair up. -/
theorem Keeps.kerning (h : first.Keeps face asked) (pair : GlyphIndex × GlyphIndex) :
    (face.kerning pair.1 pair.2).1 =
        (if first.Kerns then first.lookupKerning pair.1 pair.2 else 0) ∧
      first.Keeps (face.kerning pair.1 pair.2).2 (asked ++ [pair]) := by
  obtain ⟨hface, hpairs⟩ := h
  have hflag : face.hasKerning = first.hasKerning := by rw [hface]
  have hunits : face.kerningUnits = first.kerningUnits := by rw [hface]
  have hlookup : face.lookupKerning pair.1 pair.2 = first.lookupKerning pair.1 pair.2 := by
    rw [hface]
    rfl
  by_cases hfirst : first.Kerns
  · have hlooks : ¬ (¬ face.hasKerning ∨ face.kerningUnits = 0) := by
      rw [hflag, hunits]
      exact fun h => h.elim (· hfirst.1) hfirst.2
    cases hpair : face.pairs[pair]? with
    | some kept =>
      -- it was asked for before, so that nothing is added
      have hkept := hpairs pair
      rw [hpair] at hkept
      obtain ⟨⟨-, hasked⟩, hkept⟩ := Option.ite_none_right_eq_some.mp hkept.symm
      have hstep : face.kerning pair.1 pair.2 = (kept, face) := by
        simp only [ScaledFont.kerning, if_neg hlooks, hpair]
      rw [hstep, if_pos hfirst]
      refine ⟨(Option.some.inj hkept).symm, hface, fun other => ?_⟩
      rw [hpairs other]
      grind
    | none =>
      have hstep : face.kerning pair.1 pair.2 = (first.lookupKerning pair.1 pair.2,
          { face with pairs := face.pairs.insert pair (first.lookupKerning pair.1 pair.2) }) := by
        simp only [ScaledFont.kerning, if_neg hlooks, hpair, hlookup]
      rw [hstep, if_pos hfirst]
      refine ⟨rfl, by rw [hface], fun other => ?_⟩
      rw [Std.HashMap.getElem?_insert, hpairs other]
      grind
  · have hstep : face.kerning pair.1 pair.2 = (0, face) := by
      rw [ScaledFont.kerning, if_pos]
      rw [hflag, hunits]
      exact (Decidable.not_and_iff_not_or_not.mp hfirst).imp_right Decidable.not_not.mp
    rw [hstep, if_neg hfirst]
    refine ⟨rfl, hface, fun other => ?_⟩
    rw [hpairs other, if_neg (fun h => hfirst h.1), if_neg (fun h => hfirst h.1)]

/-- A run of questions is answered as by looking every pair up. -/
theorem Keeps.run (h : first.Keeps face asked) (pairs : List (GlyphIndex × GlyphIndex)) :
    let run := answerAll (fun face pair => face.kerning pair.1 pair.2) face pairs
    run.1 = pairs.map (fun pair =>
        if first.Kerns then first.lookupKerning pair.1 pair.2 else 0) ∧
      first.Keeps run.2 (asked ++ pairs) := by
  dsimp only
  induction pairs generalizing face asked with
  | nil => exact ⟨rfl, by rwa [List.append_nil]⟩
  | cons pair rest ih =>
    obtain ⟨hanswer, hkeeps⟩ := h.kerning pair
    obtain ⟨hanswers, hlast⟩ := ih hkeeps
    rw [List.append_assoc, List.singleton_append] at hlast
    exact ⟨List.cons_eq_cons.mpr ⟨hanswer, hanswers⟩, hlast⟩

/-- With a library that draws all bytes of a glyph, a glyph that can be rendered has all the rows
that it says, as long as its bytes can be counted in words. -/
theorem hasRow_rasterize (hlib : lib.RendersWhole) {glyph : GlyphIndex} {entry : RasterGlyph}
    (he : face.rasterize glyph = .ok entry)
    (hsize : entry.width * entry.height * entry.format.bytesPerPixel < 18446744073709551616)
    {y : Nat} (hy : y < entry.height) : entry.HasRow y := by
  rw [rasterize] at he
  split at he
  · cases he
  · next image himage =>
    obtain rfl := Except.ok.inj he
    have hbytes := hlib _ _ _ _ image himage
    dsimp only at hsize hy ⊢
    have hend : y * (image.width * image.content.format.bytesPerPixel) +
        image.width * image.content.format.bytesPerPixel ≤ image.data.size := by
      rw [hbytes, ← Nat.succ_mul, Nat.mul_right_comm, Nat.mul_comm _ image.height]
      exact Nat.mul_le_mul_right _ hy
    refine ⟨hy, ?_⟩
    rw [RasterGlyph.rowStart, RasterGlyph.rowLength]
    dsimp only
    rw [Size.wrap_of_lt (by omega), Size.wrap_of_lt (by omega)]
    exact hend

/-- The faces that programs run with give whole glyphs. -/
theorem hasRow_rasterize_standard {face : OpenTypeFace} {glyph : GlyphIndex}
    {entry : RasterGlyph} (he : face.rasterize glyph = .ok entry)
    (hsize : entry.width * entry.height * entry.format.bytesPerPixel < 18446744073709551616)
    {y : Nat} (hy : y < entry.height) : entry.HasRow y :=
  hasRow_rasterize Library.standard_rendersWhole he hsize hy

end ScaledFont

end BitmapText
