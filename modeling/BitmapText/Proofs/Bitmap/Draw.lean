import BitmapText.Bitmap.Clip
import BitmapText.Bitmap.Pgm
import BitmapText.Proofs.Bitmap.Region

/-!
# Drawing a bitmap

Drawing changes the pixels that lie both in the clip rectangle and under the drawn bitmap, and each
of them keeps the larger value. So a bitmap that is drawn without clipping on a blank canvas of its
own size is all that there is on the canvas.

## Main statements

* `Bitmap.ext_pixel?`: a bitmap is known by its size and its pixels.
* `Bitmap.pixel?_draw`: which pixels are changed, and to what.
* `Bitmap.pixel?_draw_of_clipped`: no pixel outside the clip rectangle is changed.
* `Bitmap.draw_blank`: a bitmap drawn on a blank canvas of its size.
-/

namespace BitmapText

namespace Bitmap

/-- A bitmap is known by its size and its pixels. -/
theorem ext_pixel? {a b : Bitmap} (hw : a.width = b.width) (hh : a.height = b.height)
    (hp : ∀ x y, a.pixel? x y = b.pixel? x y) : a = b := by
  obtain ⟨w, h, data, hsize⟩ := a
  obtain ⟨w', h', data', hsize'⟩ := b
  obtain rfl : w = w' := hw
  obtain rfl : h = h' := hh
  have hdata : data = data' := by
    refine Array.ext (hsize.trans hsize'.symm) fun k hk hk' => ?_
    -- The value at `k` is that of the pixel in column `k % w` of row `k / w`.
    have hpos : 0 < w := Nat.pos_of_ne_zero fun hzero => by simp [hsize, hzero] at hk
    have hin : k % w < w ∧ k / w < h :=
      ⟨Nat.mod_lt k hpos, Nat.div_lt_of_lt_mul (hsize ▸ hk)⟩
    have hpixel := hp (k % w) (k / w)
    simp only [pixel?, if_pos hin, Nat.mul_comm (k / w) w, Nat.div_add_mod,
      Array.getElem?_eq_getElem hk, Array.getElem?_eq_getElem hk'] at hpixel
    exact Option.some.inj hpixel
  subst hdata
  rfl

theorem pixel?_blank {w h x y : Nat} (hin : x < w ∧ y < h) : (blank w h).pixel? x y = some 0 := by
  obtain ⟨v, hv⟩ := Option.isSome_iff_exists.1 ((isSome_pixel? (blank w h) x y).2 hin)
  have hin' : x < (blank w h).width ∧ y < (blank w h).height := hin
  rw [hv]
  rw [pixel?, if_pos hin'] at hv
  obtain ⟨hk, rfl⟩ := Array.getElem?_eq_some_iff.1 hv
  simp [blank]

/-- The larger one of two coverage values. -/
theorem max_eq_ite (a b : UInt8) : max a b = if a ≤ b then b else a := rfl

/-- In one direction: of what is drawn from `start` on, the place `p` of a canvas is changed if it
is not clipped. What is drawn has `n` places there, of which `p` is one unless it comes before all
of them. -/
theorem mem_drawn_iff {lower upper start : Int} {p n size : Nat}
    (hsize : (size : Int) ≤ Coord.highest) (hp : p < size) (hn : (p - start).toNat < n) :
    ((max lower (max start 0)).toNat ≤ p ∧
        p < (min upper (min (Coord.satAdd start n) size)).toNat) ↔
      (lower ≤ p ∧ p < upper) ∧ start ≤ p := by
  have hend : start ≤ p → (p : Int) < Coord.satAdd start n := by
    simp only [Coord.satAdd, Coord.clamp, Coord.lowest, Coord.highest] at *
    omega
  generalize Coord.satAdd start n = edge at *
  omega

/-- Drawing changes the pixels inside the clip rectangle and under the drawn bitmap. Each keeps the
larger one of its own value and the value drawn on it. -/
theorem pixel?_draw (canvas surface : Bitmap) (hcw : (canvas.width : Int) ≤ Coord.highest)
    (hch : (canvas.height : Int) ≤ Coord.highest) (hw : (surface.width : Int) ≤ Coord.highest)
    (hh : (surface.height : Int) ≤ Coord.highest) (x y : Int) (clip : ClipRect) (px py : Nat) :
    (canvas.draw surface x y clip).pixel? px py =
      (canvas.pixel? px py).map fun old =>
        if ((clip.left ≤ px ∧ px < clip.right) ∧ x ≤ px) ∧
            (clip.top ≤ py ∧ py < clip.bottom) ∧ y ≤ py then
          match surface.pixel? (px - x).toNat (py - y).toNat with
          | some value => max old value
          | none => old
        else old := by
  rw [draw, pixel?_modifyRegion]
  simp only [Coord.ofSize_of_le hcw, Coord.ofSize_of_le hch, Coord.ofSize_of_le hw,
    Coord.ofSize_of_le hh]
  cases hc : canvas.pixel? px py with
  | none => rfl
  | some old =>
    obtain ⟨hx, hy⟩ := lt_of_pixel?_eq_some hc
    refine congrArg some ?_
    cases hs : surface.pixel? (px - x).toNat (py - y).toNat with
    | none => simp only [ite_self]
    | some value =>
      -- A pixel of the bitmap is left of its right edge and above its bottom edge anyway.
      obtain ⟨hxs, hys⟩ := lt_of_pixel?_eq_some hs
      simp only [mem_drawn_iff hcw hx hxs, mem_drawn_iff hch hy hys]

/-- A pixel outside the clip rectangle keeps its value, however large the canvas is. -/
theorem pixel?_draw_of_clipped (canvas surface : Bitmap) (x y : Int) (clip : ClipRect)
    {px py : Nat}
    (h : ¬ ((clip.left ≤ px ∧ px < clip.right) ∧ clip.top ≤ py ∧ py < clip.bottom)) :
    (canvas.draw surface x y clip).pixel? px py = canvas.pixel? px py := by
  rw [draw, pixel?_modifyRegion]
  cases canvas.pixel? px py with
  | none => rfl
  | some old =>
    rw [Option.map_some, if_neg]
    rintro ⟨⟨hleft, hright⟩, htop, hbottom⟩
    rw [Int.toNat_le] at hleft htop
    rw [Int.lt_toNat] at hright hbottom
    apply h
    constructor
    · exact ⟨Int.le_trans (Int.le_max_left ..) hleft,
        Int.lt_of_lt_of_le hright (Int.min_le_left ..)⟩
    · exact ⟨Int.le_trans (Int.le_max_left ..) htop,
        Int.lt_of_lt_of_le hbottom (Int.min_le_left ..)⟩

/-- Nothing is drawn in a clip rectangle without rows. -/
theorem draw_of_bottom_le_top (canvas surface : Bitmap) (x y : Int) {clip : ClipRect}
    (h : clip.bottom ≤ clip.top) : canvas.draw surface x y clip = canvas := by
  apply ext_pixel?
  · exact width_draw ..
  · exact height_draw ..
  intro px py
  apply pixel?_draw_of_clipped
  omega

/-- A bitmap that is drawn without clipping on a blank canvas of its own size is all that there is
on the canvas. -/
theorem draw_blank (surface : Bitmap) (hw : (surface.width : Int) ≤ Coord.highest)
    (hh : (surface.height : Int) ≤ Coord.highest) :
    (blank surface.width surface.height).draw surface 0 0
      ⟨0, 0, Coord.satAdd 0 surface.width, Coord.satAdd 0 surface.height⟩ = surface := by
  refine ext_pixel? (width_draw ..) (height_draw ..) fun x y => ?_
  rw [pixel?_draw (blank surface.width surface.height) surface hw hh hw hh]
  by_cases hin : x < surface.width ∧ y < surface.height
  · obtain ⟨v, hv⟩ := Option.isSome_iff_exists.1 ((isSome_pixel? surface x y).2 hin)
    have hclip (size p : Nat) (hsize : (size : Int) ≤ Coord.highest) (hp : p < size) :
        ((0 : Int) ≤ p ∧ (p : Int) < Coord.satAdd 0 size) ∧ (0 : Int) ≤ p := by
      have hrange : Coord.InRange size := ⟨by simp only [Coord.lowest]; omega, hsize⟩
      rw [Coord.satAdd, Int.zero_add, Coord.clamp_of_inRange hrange]
      omega
    rw [pixel?_blank hin, Option.map_some, if_pos ⟨hclip _ x hw hin.1, hclip _ y hh hin.2⟩]
    have hmax : max 0 v = v := if_pos (UInt8.le_iff_toNat_le.2 (Nat.zero_le _))
    simp only [Int.sub_zero, Int.toNat_natCast, hv, hmax]
  · have hout (b : Bitmap) (hbw : b.width = surface.width) (hbh : b.height = surface.height) :
        b.pixel? x y = none := if_neg (by rw [hbw, hbh]; exact hin)
    rw [hout surface rfl rfl, hout (blank surface.width surface.height) rfl rfl, Option.map_none]

end Bitmap

end BitmapText
