import BitmapText.Font
import BitmapText.Proofs.Bitmap.Draw
import Mathlib.Order.Bounds.Basic

/-!
# Drawings on one canvas

A canvas keeps the largest one of the values that were drawn on each of its pixels. What a drawing
brings to a pixel depends on the size of the canvas, but not on what is there already. So neither
the order of the drawings nor their repetition makes a difference, and no drawing takes coverage
away. The canvas is one that a program can have: sizes whose product does not fit into 64 bits are
left out.

## Main definitions

* `Bitmap.drawAll`: draw bitmaps on a canvas, one after the other.
* `Font.DrawCall.valueOn`: what a drawing brings to a pixel.

## Main statements

* `Bitmap.pixel?_drawAll`: the value of a pixel is the largest one that was brought to it.
* `Bitmap.drawAll_eq_of_mem_iff`: the same drawings leave the same canvas.
* `Bitmap.inkedRows_le_iff`: the rows down to the last one with coverage.
* `Bitmap.drawAll_unordered`: order and repetition, and the growth of the coverage.
-/

namespace BitmapText

open Font (DrawCall)

/-! ## The largest value -/

/-- No value brought to a pixel and no value it has had before is above the largest one. -/
theorem foldl_max_le_iff (values : List UInt8) (old bound : UInt8) :
    values.foldl max old ≤ bound ↔ old ≤ bound ∧ ∀ v ∈ values, v ≤ bound := by
  induction values generalizing old with
  | nil => simp
  | cons first rest ih =>
    have hmax : max old first ≤ bound ↔ old ≤ bound ∧ first ≤ bound := by
      grind [Bitmap.max_eq_ite]
    rw [List.foldl_cons, ih, hmax, List.forall_mem_cons, and_assoc]

/-- The largest value depends only on which values there are. -/
theorem foldl_max_eq_of_mem_iff {values others : List UInt8} (h : ∀ v, v ∈ others ↔ v ∈ values)
    (old : UInt8) : others.foldl max old = values.foldl max old := by
  apply UInt8.le_antisymm
  · obtain ⟨hold, hvalues⟩ := (foldl_max_le_iff values old _).1 UInt8.le_rfl
    exact (foldl_max_le_iff ..).2 ⟨hold, fun v hv => hvalues v ((h v).1 hv)⟩
  · obtain ⟨hold, hothers⟩ := (foldl_max_le_iff others old _).1 UInt8.le_rfl
    exact (foldl_max_le_iff ..).2 ⟨hold, fun v hv => hothers v ((h v).2 hv)⟩

/-! ## One drawing -/

namespace Font.DrawCall

/-- The pixel in column `px` of row `py` of a canvas of this size is one that a drawing may change.
What is on the canvas makes no difference. -/
def Touches (call : DrawCall) (width height px py : Nat) : Prop :=
  ((max call.clip.left (max call.x 0)).toNat ≤ px ∧
      px < (min call.clip.right
        (min (Coord.satAdd call.x (Coord.ofSize call.surface.width)) (Coord.ofSize width))).toNat) ∧
    (max call.clip.top (max call.y 0)).toNat ≤ py ∧
      py < (min call.clip.bottom
        (min (Coord.satAdd call.y (Coord.ofSize call.surface.height)) (Coord.ofSize height))).toNat

instance (call : DrawCall) (width height px py : Nat) :
    Decidable (call.Touches width height px py) :=
  inferInstanceAs (Decidable ((_ ∧ _) ∧ _ ∧ _))

/-- The value that a drawing brings to a pixel of a canvas of this size; zero if it brings none. -/
def valueOn (call : DrawCall) (width height px py : Nat) : UInt8 :=
  if call.Touches width height px py then
    (call.surface.pixel? (px - call.x).toNat (py - call.y).toNat).getD 0
  else 0

end Font.DrawCall

namespace Bitmap

/-- A drawing raises each pixel to the value that it brings. -/
theorem pixel?_draw_eq_max (canvas : Bitmap) (call : DrawCall) (px py : Nat) :
    (canvas.draw call.surface call.x call.y call.clip).pixel? px py =
      (canvas.pixel? px py).map (max · (call.valueOn canvas.width canvas.height px py)) := by
  have hzero (old : UInt8) : max old 0 = old := by grind [max_eq_ite]
  rw [draw, pixel?_modifyRegion]
  refine congrArg (fun f => Option.map f (canvas.pixel? px py)) (funext fun old => ?_)
  by_cases htouches : call.Touches canvas.width canvas.height px py
  · rw [DrawCall.valueOn, if_pos htouches]
    refine (if_pos htouches).trans ?_
    cases call.surface.pixel? (px - call.x).toNat (py - call.y).toNat with
    | none => exact (hzero old).symm
    | some value => rfl
  · rw [DrawCall.valueOn, if_neg htouches, hzero]
    exact if_neg htouches

/-! ## One drawing after the other -/

/-- Draw bitmaps on a canvas, one after the other. -/
def drawAll (canvas : Bitmap) (calls : List DrawCall) : Bitmap :=
  calls.foldl (fun canvas call => canvas.draw call.surface call.x call.y call.clip) canvas

variable {canvas : Bitmap} {calls others : List DrawCall}

@[simp] theorem drawAll_cons (canvas : Bitmap) (call : DrawCall) (calls : List DrawCall) :
    canvas.drawAll (call :: calls) =
      (canvas.draw call.surface call.x call.y call.clip).drawAll calls := rfl

theorem drawAll_append (canvas : Bitmap) (before after : List DrawCall) :
    canvas.drawAll (before ++ after) = (canvas.drawAll before).drawAll after :=
  List.foldl_append

@[simp] theorem width_drawAll (canvas : Bitmap) (calls : List DrawCall) :
    (canvas.drawAll calls).width = canvas.width := by
  induction calls generalizing canvas with
  | nil => rfl
  | cons call rest ih => rw [drawAll_cons, ih, width_draw]

@[simp] theorem height_drawAll (canvas : Bitmap) (calls : List DrawCall) :
    (canvas.drawAll calls).height = canvas.height := by
  induction calls generalizing canvas with
  | nil => rfl
  | cons call rest ih => rw [drawAll_cons, ih, height_draw]

/-- After some drawings, the value of a pixel is the largest one of its own and those brought to
it. -/
theorem pixel?_drawAll (canvas : Bitmap) (calls : List DrawCall) (px py : Nat) :
    (canvas.drawAll calls).pixel? px py =
      (canvas.pixel? px py).map fun old =>
        (calls.map fun call => call.valueOn canvas.width canvas.height px py).foldl max old := by
  induction calls generalizing canvas with
  | nil => exact (Option.map_id' ..).symm
  | cons call rest ih =>
    rw [drawAll_cons, ih, pixel?_draw_eq_max, width_draw, height_draw, Option.map_map]
    rfl

/-- The same drawings leave the same canvas, in whatever order and however often. -/
theorem drawAll_eq_of_mem_iff (h : ∀ call, call ∈ others ↔ call ∈ calls) :
    canvas.drawAll others = canvas.drawAll calls := by
  apply ext_pixel?
  · rw [width_drawAll, width_drawAll]
  · rw [height_drawAll, height_drawAll]
  intro px py
  have hvalues (old : UInt8) :
      (others.map fun call => call.valueOn canvas.width canvas.height px py).foldl max old =
        (calls.map fun call => call.valueOn canvas.width canvas.height px py).foldl max old := by
    apply foldl_max_eq_of_mem_iff
    intro v
    simp only [List.mem_map, h]
  simp only [pixel?_drawAll, hvalues]

/-- No drawing makes a pixel smaller. -/
theorem exists_pixel?_drawAll_ge {px py : Nat} {old : UInt8} (h : canvas.pixel? px py = some old)
    (calls : List DrawCall) : ∃ new, (canvas.drawAll calls).pixel? px py = some new ∧ old ≤ new := by
  rw [pixel?_drawAll, h]
  exact ⟨_, rfl, ((foldl_max_le_iff ..).1 UInt8.le_rfl).1⟩

/-! ## Rows with coverage -/

/-- The values of a row are those of its pixels. -/
theorem getElem?_row (b : Bitmap) (x : Nat) {y : Nat} (hy : y < b.height) :
    (b.row y)[x]? = b.pixel? x y := by
  rw [row, Array.getElem?_extract, Nat.min_eq_left (b.row_end_le hy), Nat.add_sub_cancel_left, pixel?]
  simp only [hy, and_true]

/-- A row without coverage is all zero. -/
theorem isInked_eq_false_iff (b : Bitmap) {y : Nat} (hy : y < b.height) :
    b.isInked y = false ↔ ∀ x v, b.pixel? x y = some v → v = 0 := by
  simp only [← b.getElem?_row _ hy, isInked, Array.any_eq_false', Array.mem_iff_getElem?]
  constructor
  · intro h x v hv
    simpa using h v ⟨x, hv⟩
  · rintro h v ⟨x, hv⟩
    simp [h x v hv]

theorem inkedRowsBelow_le_iff (b : Bitmap) (bottom n : Nat) :
    b.inkedRowsBelow bottom ≤ n ↔ ∀ y, n ≤ y → y < bottom → b.isInked y = false := by
  induction bottom with
  | zero => simp [inkedRowsBelow]
  | succ last ih =>
    rw [inkedRowsBelow]
    split
    · next hinked => grind
    · next hblank => grind

/-- There is nothing but zeros from row `n` on exactly if the rows with coverage end there or
before. -/
theorem inkedRows_le_iff (b : Bitmap) (n : Nat) :
    b.inkedRows ≤ n ↔ ∀ x y v, n ≤ y → b.pixel? x y = some v → v = 0 := by
  rw [inkedRows, inkedRowsBelow_le_iff]
  constructor
  · intro h x y v hn hv
    obtain ⟨-, hy⟩ := lt_of_pixel?_eq_some hv
    exact (b.isInked_eq_false_iff hy).1 (h y hn hy) x v hv
  · intro h y hn hy
    exact (b.isInked_eq_false_iff hy).2 fun x v => h x y v hn

/-- Where pixels do not become smaller, the rows with coverage do not become fewer. -/
theorem inkedRows_le_inkedRows_drawAll (canvas : Bitmap) (calls : List DrawCall) :
    canvas.inkedRows ≤ (canvas.drawAll calls).inkedRows := by
  rw [inkedRows_le_iff]
  intro x y old hy hold
  obtain ⟨new, hnew, hle⟩ := exists_pixel?_drawAll_ge hold calls
  obtain rfl : new = 0 := (inkedRows_le_iff ..).1 (Nat.le_refl _) x y new hy hnew
  exact UInt8.le_antisymm hle UInt8.zero_le

/-- Drawings may be made in any order, and some of them more than once, and the same canvas comes of
it. At every point on the way no pixel is larger and there are no more rows with coverage than at
the end, and the rows with coverage are those down to the last one that is not all zero; there are
none if the canvas has no columns or no rows. -/
theorem drawAll_unordered (canvas : Bitmap) (calls : List DrawCall) :
    (∀ repeated, repeated ⊆ calls → ∀ others, others.Perm (calls ++ repeated) →
      canvas.drawAll others = canvas.drawAll calls) ∧
    ∀ before after, calls = before ++ after →
      let early := canvas.drawAll before
      let late := canvas.drawAll calls
      (∀ x y old, early.pixel? x y = some old →
        ∃ new, late.pixel? x y = some new ∧ old ≤ new) ∧
      early.inkedRows ≤ late.inkedRows ∧
      IsLeast {n | ∀ x y v, n ≤ y → early.pixel? x y = some v → v = 0} early.inkedRows ∧
      (canvas.width = 0 ∨ canvas.height = 0 → early.inkedRows = 0) := by
  constructor
  · intro repeated hrepeated others hperm
    apply drawAll_eq_of_mem_iff
    intro call
    rw [hperm.mem_iff, List.mem_append]
    exact or_iff_left_of_imp fun hcall => hrepeated hcall
  · rintro before after rfl early late
    have hlate : late = early.drawAll after := canvas.drawAll_append before after
    refine ⟨?_, ?_, ?_, ?_⟩
    · intro x y old hold
      rw [hlate]
      exact exists_pixel?_drawAll_ge hold after
    · rw [hlate]
      exact early.inkedRows_le_inkedRows_drawAll after
    · constructor
      · exact (early.inkedRows_le_iff _).1 (Nat.le_refl _)
      · intro n hn
        exact (early.inkedRows_le_iff n).2 hn
    · intro hempty
      rw [← Nat.le_zero, inkedRows_le_iff]
      intro x y v _ hv
      obtain ⟨hx, hy⟩ := lt_of_pixel?_eq_some hv
      rw [width_drawAll] at hx
      rw [height_drawAll] at hy
      omega

/-- Two squares that overlap in one pixel, in the other order and one of them three times. -/
theorem drawAll_unordered_two_squares :
    let square (value : UInt8) := (blank 2 2).modifyRegion 0 0 2 2 fun _ _ _ => value
    let clip : ClipRect := ⟨Coord.lowest, Coord.lowest, Coord.highest, Coord.highest⟩
    let first : DrawCall := ⟨square 100, 0, 0, clip⟩
    let second : DrawCall := ⟨square 200, 1, 1, clip⟩
    let canvas := blank 3 4
    let drawn := canvas.drawAll [first, second]
    canvas.drawAll [second, first, second, second] = drawn ∧ drawn.pixel? 1 1 = some 200 ∧
      (canvas.drawAll [first]).inkedRows ≤ drawn.inkedRows ∧ drawn.inkedRows = 3 := by
  intro square clip first second canvas drawn
  obtain ⟨horder, hgrowth⟩ := drawAll_unordered canvas [first, second]
  obtain ⟨-, hinked, -⟩ := hgrowth [first] [second] rfl
  refine ⟨?_, by decide +kernel, hinked, by decide +kernel⟩
  apply horder [second, second]
  · simp
  · exact List.Perm.swap first second [second, second]

end Bitmap

end BitmapText
