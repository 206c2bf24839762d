import BitmapText.Proofs.Bitmap.Draw

/-!
# Drawing pixel by pixel

A bitmap can be drawn by going through the pixels of the canvas that lie under it, row after row. On
the way coordinates are subtracted from each other and bytes are looked up, and either could go
wrong: a difference could leave the range of coordinates, and a place could lie outside. Whatever
the position and the clip rectangle are, neither happens, and what comes of it is `Bitmap.draw`.

## Main definitions

* `Bitmap.valueAt?`: the coverage at a distance from the corner.
* `Bitmap.overlay`: what becomes of a pixel under a drawn bitmap.
* `Scan.draw?`: drawing pixel by pixel; it fails at the first step that goes wrong.

## Main statements

* `Scan.drawPixel?_spec`: one step.
* `Scan.foldlM_spec`: a run of steps raises what its steps raise.
* `Bitmap.draw_exact`: which pixels are changed, and to what, without a step that goes wrong.
-/

namespace BitmapText

namespace Bitmap

/-! ## Pixels under a bitmap -/

/-- The coverage in column `dx` of row `dy`, if both count from the corner to the right and down. -/
def valueAt? (b : Bitmap) (dx dy : Int) : Option UInt8 :=
  if 0 ≤ dx ∧ 0 ≤ dy then b.pixel? dx.toNat dy.toNat else none

/-- There is a value exactly for the distances that lie inside. -/
theorem isSome_valueAt? (b : Bitmap) (dx dy : Int) :
    (b.valueAt? dx dy).isSome = true ↔ (0 ≤ dx ∧ dx < b.width) ∧ 0 ≤ dy ∧ dy < b.height := by
  unfold valueAt?
  split
  · rw [isSome_pixel?]
    omega
  · rw [Option.isSome_none]
    grind

/-- The value that a pixel of a canvas takes on when `surface` is drawn over it with its corner at
`(x, y)`. -/
def overlay (surface : Bitmap) (x y : Int) (px py : Nat) (old : UInt8) : UInt8 :=
  (surface.valueAt? (px - x) (py - y)).elim old (max old)

/-- Drawing over a pixel once more makes no difference. -/
theorem overlay_overlay (surface : Bitmap) (x y : Int) (px py : Nat) (old : UInt8) :
    surface.overlay x y px py (surface.overlay x y px py old) = surface.overlay x y px py old := by
  unfold overlay
  cases surface.valueAt? (px - x) (py - y) with
  | none => rfl
  | some value => grind [max_eq_ite]

/-- Drawing changes the pixels inside the clip rectangle that lie under the drawn bitmap. -/
theorem pixel?_draw_eq (canvas surface : Bitmap) (hcw : (canvas.width : Int) ≤ Coord.highest)
    (hch : (canvas.height : Int) ≤ Coord.highest) (hw : (surface.width : Int) ≤ Coord.highest)
    (hh : (surface.height : Int) ≤ Coord.highest) (x y : Int) (clip : ClipRect) (px py : Nat) :
    (canvas.draw surface x y clip).pixel? px py =
      (canvas.pixel? px py).map fun old =>
        if (clip.left ≤ px ∧ px < clip.right) ∧ clip.top ≤ py ∧ py < clip.bottom then
          surface.overlay x y px py old
        else old := by
  rw [pixel?_draw canvas surface hcw hch hw hh]
  apply congrArg (fun f => Option.map f (canvas.pixel? px py))
  funext old
  by_cases hcorner : x ≤ px ∧ y ≤ py
  · have hvalue : surface.valueAt? (px - x) (py - y) =
        surface.pixel? (px - x).toNat (py - y).toNat := if_pos (by omega)
    rw [overlay, hvalue]
    cases surface.pixel? (px - x).toNat (py - y).toNat <;> grind
  · have hnone : surface.valueAt? (px - x) (py - y) = none := if_neg (by omega)
    rw [overlay, hnone]
    grind

end Bitmap

namespace Scan

open Bitmap

/-! ## Steps that can go wrong -/

/-- A difference of coordinates, which has to be a coordinate as well. -/
def difference? (a b : Int) : Option Int := if Coord.InRange (a - b) then some (a - b) else none

/-- The place that a coordinate stands for, which must not be negative. -/
def place? (n : Int) : Option Nat := if 0 ≤ n then some n.toNat else none

/-- Raise the byte at place `k` to at least `value`; there has to be such a byte. -/
def raise? (canvas : Bitmap) (k : Nat) (value : UInt8) : Option Bitmap :=
  if k < canvas.data.size then
    some
      { width := canvas.width
        height := canvas.height
        data := canvas.data.modify k (max · value)
        size_data := by rw [Array.size_modify, canvas.size_data] }
  else none

/-- Draw on the pixel in column `px` of row `py`. -/
def drawPixel? (surface : Bitmap) (x y py : Int) (canvas : Bitmap) (px : Int) : Option Bitmap := do
  let column ← place? (← difference? px x)
  let row ← place? (← difference? py y)
  match surface.pixel? column row with
  | none => some canvas
  | some value => raise? canvas ((← place? py) * canvas.width + (← place? px)) value

/-- Draw on the pixels of a row, column after column. -/
def drawRow? (surface : Bitmap) (x y : Int) (columns : List Int) (canvas : Bitmap) (py : Int) :
    Option Bitmap :=
  columns.foldlM (drawPixel? surface x y py) canvas

/-- In one direction: the places to go through on a canvas that has `size` places, for a bitmap that
has `n` places from `start` on. -/
def scanned (lower upper start : Int) (n size : Nat) : List Int :=
  ((max (max lower start) 0)...(min (min upper (Coord.satAdd start (Coord.ofSize n)))
    (Coord.ofSize size))).toList

/-- Draw `surface` with its top left corner at `(x, y)`, row after row, within `clip`. -/
def draw? (canvas surface : Bitmap) (x y : Int) (clip : ClipRect) : Option Bitmap :=
  let columns := scanned clip.left clip.right x surface.width canvas.width
  let rows := scanned clip.top clip.bottom y surface.height canvas.height
  rows.foldlM (drawRow? surface x y columns) canvas

/-! ## Runs of steps -/

/-- The pixels at the positions in `S` have been drawn over, and no others. -/
structure Raised (surface : Bitmap) (x y : Int) (S : Nat → Nat → Prop) (before after : Bitmap) :
    Prop where
  width_eq : after.width = before.width
  height_eq : after.height = before.height
  inside : ∀ px py, S px py →
    after.pixel? px py = (before.pixel? px py).map (surface.overlay x y px py)
  outside : ∀ px py, ¬ S px py → after.pixel? px py = before.pixel? px py

variable {surface canvas before middle after : Bitmap} {x y : Int} {S T : Nat → Nat → Prop}

namespace Raised

theorem refl (h : ∀ px py, ¬ S px py) : Raised surface x y S before before where
  width_eq := rfl
  height_eq := rfl
  inside px py hS := absurd hS (h px py)
  outside _ _ _ := rfl

/-- Positions that are drawn over twice are like those that are drawn over once. -/
theorem trans (h : Raised surface x y S before middle) (h' : Raised surface x y T middle after) :
    Raised surface x y (fun px py => S px py ∨ T px py) before after where
  width_eq := h'.width_eq.trans h.width_eq
  height_eq := h'.height_eq.trans h.height_eq
  inside px py hST := by
    by_cases hT : T px py
    · rw [h'.inside px py hT]
      by_cases hS : S px py
      · rw [h.inside px py hS, Option.map_map]
        exact congrArg (fun f => Option.map f (before.pixel? px py))
          (funext (surface.overlay_overlay x y px py))
      · rw [h.outside px py hS]
    · rw [h'.outside px py hT, h.inside px py (hST.resolve_right hT)]
  outside px py hST := by
    rw [h'.outside px py fun hT => hST (.inr hT), h.outside px py fun hS => hST (.inl hS)]

theorem congr (h : Raised surface x y S before after) (hST : ∀ px py, S px py ↔ T px py) :
    Raised surface x y T before after := by
  obtain rfl : S = T := funext fun px => funext fun py => propext (hST px py)
  exact h

/-- What becomes of a pixel, by whatever function tells it for the value that it has. -/
theorem pixel?_eq (h : Raised surface x y S before after) {px py : Nat} {f : UInt8 → UInt8}
    (hin : ∀ old, before.pixel? px py = some old → S px py → f old = surface.overlay x y px py old)
    (hout : ∀ old, before.pixel? px py = some old → ¬ S px py → f old = old) :
    after.pixel? px py = (before.pixel? px py).map f := by
  by_cases hS : S px py
  · rw [h.inside px py hS]
    cases hold : before.pixel? px py with
    | none => rfl
    | some old => rw [Option.map_some, Option.map_some, hin old hold hS]
  · rw [h.outside px py hS]
    cases hold : before.pixel? px py with
    | none => rfl
    | some old => rw [Option.map_some, hout old hold hS]

end Raised

/-- A run of steps that go well on every canvas of a size raises what its steps raise. -/
theorem foldlM_spec {ι : Type} {step : Bitmap → ι → Option Bitmap} {S : ι → Nat → Nat → Prop}
    {width height : Nat} {items : List ι}
    (hstep : ∀ i ∈ items, ∀ canvas : Bitmap, canvas.width = width → canvas.height = height →
      ∃ after, step canvas i = some after ∧ Raised surface x y (S i) canvas after)
    (canvas : Bitmap) (hw : canvas.width = width) (hh : canvas.height = height) :
    ∃ after, items.foldlM step canvas = some after ∧
      Raised surface x y (fun px py => ∃ i ∈ items, S i px py) canvas after := by
  induction items generalizing canvas with
  | nil => exact ⟨canvas, rfl, .refl fun px py h => by simp at h⟩
  | cons i rest ih =>
    obtain ⟨middle, hmiddle, hfirst⟩ := hstep i List.mem_cons_self canvas hw hh
    obtain ⟨after, hafter, hrest⟩ := ih (fun j hj => hstep j (List.mem_cons_of_mem i hj)) middle
      (hfirst.width_eq.trans hw) (hfirst.height_eq.trans hh)
    refine ⟨after, ?_, (hfirst.trans hrest).congr fun px py => ?_⟩
    · rw [List.foldlM_cons, hmiddle, Option.bind_eq_bind, Option.bind_some, hafter]
    · simp only [List.mem_cons, exists_eq_or_imp]

/-! ## One pixel -/

/-- In one direction: `p` is a place on a canvas that has `size` places, and under a bitmap that has
`n` places from `start` on. -/
structure Covered (start p : Int) (n size : Nat) : Prop where
  nonneg : 0 ≤ p
  lt_size : p < size
  le : start ≤ p
  lt : p - start < n

/-- In one direction: the places that are gone through are those under the bitmap that are not
clipped. Stopping an edge at the end of the range loses none of them and adds none. -/
theorem mem_scanned_iff {lower upper start p : Int} {n size : Nat} (hn : (n : Int) ≤ Coord.highest)
    (hsize : (size : Int) ≤ Coord.highest) :
    p ∈ scanned lower upper start n size ↔
      (lower ≤ p ∧ p < upper) ∧ Covered start p n size := by
  rw [scanned, Std.Rco.mem_toList_iff_mem, Coord.ofSize_of_le hn, Coord.ofSize_of_le hsize]
  change (_ ≤ p ∧ p < _) ↔ _
  simp only [Coord.satAdd, Coord.clamp, Coord.lowest, Coord.highest] at *
  constructor
  · intro h
    exact ⟨by omega, by omega, by omega, by omega, by omega⟩
  · rintro ⟨hclip, hnonneg, hlt, hle, hend⟩
    omega

/-- The byte of a pixel is there. -/
theorem lt_size_data {px py : Nat} (hx : px < canvas.width) (hy : py < canvas.height) :
    py * canvas.width + px < canvas.data.size := by
  have hend := canvas.row_end_le hy
  omega

/-- Raising the byte of a pixel changes that pixel. -/
theorem raise?_spec {px py : Nat} (hx : px < canvas.width) (hy : py < canvas.height)
    (value : UInt8) :
    ∃ after, raise? canvas (py * canvas.width + px) value = some after ∧
      after.width = canvas.width ∧ after.height = canvas.height ∧
      ∀ qx qy, after.pixel? qx qy = (canvas.pixel? qx qy).map fun old =>
        if qx = px ∧ qy = py then max old value else old := by
  refine ⟨_, if_pos (lt_size_data hx hy), rfl, rfl, fun qx qy => ?_⟩
  unfold pixel?
  split
  · next hin =>
    rw [Array.getElem?_modify]
    have hplace : py * canvas.width + px = qy * canvas.width + qx ↔ py = qy ∧ px = qx :=
      row_col_eq_iff hx hin.1
    grind
  · rfl

/-- One step on a pixel under the bitmap: both differences are coordinates, the bitmap has a value
there, the canvas has the byte, and the pixel is drawn over. -/
theorem drawPixel?_spec (hw : (surface.width : Int) ≤ Coord.highest)
    (hh : (surface.height : Int) ≤ Coord.highest) {px py : Int}
    (hx : Covered x px surface.width canvas.width)
    (hy : Covered y py surface.height canvas.height) :
    ∃ after, drawPixel? surface x y py canvas px = some after ∧
      Raised surface x y (fun qx qy => (qx : Int) = px ∧ (qy : Int) = py) canvas after := by
  obtain ⟨hpx, hxlt, hxle, hxend⟩ := hx
  obtain ⟨hpy, hylt, hyle, hyend⟩ := hy
  obtain ⟨value, hvalue⟩ : ∃ value,
      surface.pixel? (px - x).toNat (py - y).toNat = some value := by
    rw [← Option.isSome_iff_exists, isSome_pixel?]
    omega
  have hplace {a b : Int} {n : Nat} (hn : (n : Int) ≤ Coord.highest) (hle : b ≤ a)
      (hlt : a - b < n) : difference? a b = some (a - b) ∧ place? (a - b) = some (a - b).toNat := by
    have hrange : Coord.InRange (a - b) := by
      simp only [Coord.InRange, Coord.lowest]
      omega
    exact ⟨if_pos hrange, if_pos (by omega)⟩
  have hnat {n : Int} (hn : 0 ≤ n) : place? n = some n.toNat := if_pos hn
  have hcolumn : px.toNat < canvas.width := by omega
  have hrow : py.toNat < canvas.height := by omega
  obtain ⟨after, hafter, hwidth, hheight, hpixel⟩ := raise?_spec hcolumn hrow value
  refine ⟨after, ?_, hwidth, hheight, ?_, ?_⟩
  · simp only [drawPixel?, hplace hw hxle hxend, hplace hh hyle hyend, hvalue, hnat hpx, hnat hpy,
      Option.bind_eq_bind, Option.bind_some, hafter]
  · rintro qx qy ⟨rfl, rfl⟩
    have hoverlay : surface.overlay x y qx qy = fun old => max old value := by
      funext old
      rw [overlay, valueAt?, if_pos (by omega), hvalue]
      rfl
    rw [hpixel, hoverlay]
    simp only [Int.toNat_natCast, and_self, if_true]
  · intro qx qy hq
    have hne : ¬ (qx = px.toNat ∧ qy = py.toNat) := by omega
    rw [hpixel]
    simp only [if_neg hne, Option.map_id']

/-! ## Rows and the whole bitmap -/

theorem drawRow?_spec (hw : (surface.width : Int) ≤ Coord.highest)
    (hh : (surface.height : Int) ≤ Coord.highest) {columns : List Int} {py : Int}
    (hcolumns : ∀ px ∈ columns, Covered x px surface.width canvas.width)
    (hy : Covered y py surface.height canvas.height) :
    ∃ after, drawRow? surface x y columns canvas py = some after ∧
      Raised surface x y (fun qx qy => (qx : Int) ∈ columns ∧ (qy : Int) = py) canvas after := by
  have hpixel (px : Int) (hpx : px ∈ columns) (before : Bitmap)
      (hwidth : before.width = canvas.width) (hheight : before.height = canvas.height) :
      ∃ after, drawPixel? surface x y py before px = some after ∧
        Raised surface x y (fun qx qy => (qx : Int) = px ∧ (qy : Int) = py) before after := by
    apply drawPixel?_spec hw hh
    · rw [hwidth]
      exact hcolumns px hpx
    · rw [hheight]
      exact hy
  obtain ⟨after, hafter, hraised⟩ := foldlM_spec hpixel canvas rfl rfl
  refine ⟨after, hafter, hraised.congr fun qx qy => ?_⟩
  constructor
  · rintro ⟨px, hpx, rfl, hqy⟩
    exact ⟨hpx, hqy⟩
  · rintro ⟨hqx, hqy⟩
    exact ⟨qx, hqx, rfl, hqy⟩

/-- Where nothing of the bitmap lies over a canvas, its pixels keep their values. -/
theorem overlay_of_not_covered {px py : Nat} (hx : px < canvas.width) (hy : py < canvas.height)
    (h : ¬ (Covered x px surface.width canvas.width ∧ Covered y py surface.height canvas.height))
    (old : UInt8) : surface.overlay x y px py old = old := by
  have hnone : surface.valueAt? (px - x) (py - y) = none := by
    rw [← Option.not_isSome_iff_eq_none, isSome_valueAt?]
    rintro ⟨hdx, hdy⟩
    apply h
    exact ⟨⟨by omega, by omega, by omega, by omega⟩, by omega, by omega, by omega, by omega⟩
  rw [overlay, hnone]
  rfl

/-- Drawing over the pixels that are under the bitmap and not clipped is drawing the bitmap. -/
theorem Raised.eq_draw {clip : ClipRect}
    (h : Raised surface x y
      (fun px py =>
        ((clip.left ≤ px ∧ px < clip.right) ∧ Covered x px surface.width canvas.width) ∧
          (clip.top ≤ py ∧ py < clip.bottom) ∧ Covered y py surface.height canvas.height)
      canvas after)
    (hcw : (canvas.width : Int) ≤ Coord.highest) (hch : (canvas.height : Int) ≤ Coord.highest)
    (hw : (surface.width : Int) ≤ Coord.highest) (hh : (surface.height : Int) ≤ Coord.highest) :
    after = canvas.draw surface x y clip := by
  apply ext_pixel?
  · exact h.width_eq.trans (width_draw ..).symm
  · exact h.height_eq.trans (height_draw ..).symm
  intro px py
  rw [pixel?_draw_eq canvas surface hcw hch hw hh]
  apply h.pixel?_eq
  · rintro old - ⟨⟨hcol, -⟩, hrow, -⟩
    exact if_pos ⟨hcol, hrow⟩
  · intro old hold hout
    obtain ⟨hx, hy⟩ := lt_of_pixel?_eq_some hold
    split
    · next hclip =>
      apply overlay_of_not_covered hx hy
      rintro ⟨hcx, hcy⟩
      exact hout ⟨⟨hclip.1, hcx⟩, hclip.2, hcy⟩
    · rfl

/-- Drawing pixel by pixel goes well, and what comes of it is what drawing makes. -/
theorem draw?_eq (hcw : (canvas.width : Int) ≤ Coord.highest)
    (hch : (canvas.height : Int) ≤ Coord.highest) (hw : (surface.width : Int) ≤ Coord.highest)
    (hh : (surface.height : Int) ≤ Coord.highest) (x y : Int) (clip : ClipRect) :
    draw? canvas surface x y clip = some (canvas.draw surface x y clip) := by
  let columns := scanned clip.left clip.right x surface.width canvas.width
  let rows := scanned clip.top clip.bottom y surface.height canvas.height
  have hcolumns (px : Int) : px ∈ columns ↔ (clip.left ≤ px ∧ px < clip.right) ∧
      Covered x px surface.width canvas.width := mem_scanned_iff hw hcw
  have hrows (py : Int) : py ∈ rows ↔ (clip.top ≤ py ∧ py < clip.bottom) ∧
      Covered y py surface.height canvas.height := mem_scanned_iff hh hch
  have hrow (py : Int) (hpy : py ∈ rows) (before : Bitmap)
      (hwidth : before.width = canvas.width) (hheight : before.height = canvas.height) :
      ∃ after, drawRow? surface x y columns before py = some after ∧
        Raised surface x y (fun qx qy => (qx : Int) ∈ columns ∧ (qy : Int) = py) before after := by
    apply drawRow?_spec hw hh
    · intro px hpx
      rw [hwidth]
      exact ((hcolumns px).1 hpx).2
    · rw [hheight]
      exact ((hrows py).1 hpy).2
  obtain ⟨after, hafter, hraised⟩ := foldlM_spec hrow canvas rfl rfl
  have hsame : after = canvas.draw surface x y clip := by
    refine (hraised.congr fun px py => ?_).eq_draw hcw hch hw hh
    rw [← hcolumns, ← hrows]
    constructor
    · rintro ⟨_, hpy, hpx, rfl⟩
      exact ⟨hpx, hpy⟩
    · rintro ⟨hpx, hpy⟩
      exact ⟨py, hpy, hpx, rfl⟩
  rw [← hsame]
  exact hafter

end Scan

/-- Drawing on a canvas does not change its size. A pixel of the canvas that is inside the clip
rectangle and under the drawn bitmap keeps the larger one of its own value and the value of the
bitmap there, and every other pixel keeps its own. When the canvas is gone through pixel by pixel,
no difference of coordinates leaves their range and no byte is looked up where there is none. -/
theorem Bitmap.draw_exact {canvas surface : Bitmap} (hcw : (canvas.width : Int) ≤ Coord.highest)
    (hch : (canvas.height : Int) ≤ Coord.highest) (hw : (surface.width : Int) ≤ Coord.highest)
    (hh : (surface.height : Int) ≤ Coord.highest) (x y : Int) (clip : ClipRect) :
    Scan.draw? canvas surface x y clip = some (canvas.draw surface x y clip) ∧
      (canvas.draw surface x y clip).width = canvas.width ∧
      (canvas.draw surface x y clip).height = canvas.height ∧
      ∀ px py, (canvas.draw surface x y clip).pixel? px py =
        (canvas.pixel? px py).map fun old =>
          if (clip.left ≤ px ∧ px < clip.right) ∧ clip.top ≤ py ∧ py < clip.bottom then
            (surface.valueAt? (px - x) (py - y)).elim old (max old)
          else old :=
  ⟨Scan.draw?_eq hcw hch hw hh x y clip, width_draw .., height_draw ..,
    canvas.pixel?_draw_eq surface hcw hch hw hh x y clip⟩

/-- A square of three columns that begins two columns left of the canvas shows its last one, however
far the clip rectangle reaches. -/
theorem Bitmap.draw_exact_off_left :
    let square := (blank 3 3).modifyRegion 0 0 3 3 fun _ _ _ => 255
    let clip : ClipRect := ⟨Coord.lowest, Coord.lowest, Coord.highest, Coord.highest⟩
    let drawn := (blank 4 4).draw square (-2) 2 clip
    Scan.draw? (blank 4 4) square (-2) 2 clip = some drawn ∧
      drawn.pixel? 0 2 = some 255 ∧ drawn.pixel? 1 2 = some 0 ∧ drawn.pixel? 0 1 = some 0 := by
  intro square clip drawn
  have hsmall {n : Nat} (hn : n ≤ 4) : (n : Int) ≤ Coord.highest := by
    simp only [Coord.highest]
    omega
  obtain ⟨hscan, -, -, hpixel⟩ :=
    draw_exact (hsmall (by decide : (blank 4 4).width ≤ 4)) (hsmall (by decide))
      (hsmall (by decide : square.width ≤ 4)) (hsmall (by decide)) (-2) 2 clip
  refine ⟨hscan, ?_, ?_, ?_⟩
  · exact (hpixel 0 2).trans (by decide +kernel)
  · exact (hpixel 1 2).trans (by decide +kernel)
  · exact (hpixel 0 1).trans (by decide +kernel)

end BitmapText
