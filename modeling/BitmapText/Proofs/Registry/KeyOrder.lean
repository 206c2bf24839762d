import Mathlib.Data.String.Basic
import BitmapText.FontKey

/-!
# The order of font keys

The order of a listing is a total order, in which two keys tie exactly when they are of one font.
What comes first is said without the comparison: a path by the first component that differs, then
the smaller size, then the smaller resolution.

## Main definitions

* `Path.Component.Before`, `Path.Before`, `FontKey.Before`: what comes first.

## Main statements

* `FontKey.order_eq_lt_iff`: the comparison finds that.
* `FontKey.order_eq_eq_iff`: it finds a tie for two keys of one font only.
-/

namespace BitmapText

namespace Path

/-! ## Components -/

namespace Component

/-- The root comes before an opening `.`, that before any `..`, and that before any name. Names are
ordered by their characters. -/
inductive Before : Component → Component → Prop where
  | root_here : Before .root .here
  | root_parent : Before .root .parent
  | root_name (s : String) : Before .root (.name s)
  | here_parent : Before .here .parent
  | here_name (s : String) : Before .here (.name s)
  | parent_name (s : String) : Before .parent (.name s)
  | name {s t : String} : s < t → Before (.name s) (.name t)

instance : Std.TransCmp order :=
  inferInstanceAs (Std.TransCmp (compareLex (compareOn rank) (compareOn label)))

theorem order_eq (a b : Component) :
    a.order b = (compare a.rank b.rank).then (compare a.label b.label) := rfl

instance : Std.LawfulEqCmp order where
  compare_self := Std.ReflCmp.compare_self
  eq_of_compare {a b} h := by
    rw [order_eq, Ordering.then_eq_eq, Std.LawfulEqCmp.compare_eq_iff_eq,
      Std.LawfulEqCmp.compare_eq_iff_eq] at h
    obtain ⟨hrank, hlabel⟩ := h
    cases a <;> cases b <;> simp_all [rank, label]

theorem order_eq_lt_iff {a b : Component} : a.order b = .lt ↔ a.Before b := by
  constructor
  · intro h
    rw [order_eq, Ordering.then_eq_lt, Nat.compare_eq_lt, Nat.compare_eq_eq] at h
    cases a <;> cases b <;> simp [rank, label] at h <;> constructor
    exact compareOfLessAndEq_eq_lt.mp h
  · intro h
    cases h with
    | name hlt => exact compareOfLessAndEq_eq_lt.mpr hlt
    | _ => rfl

end Component

/-! ## Paths -/

/-- The first component that differs comes first, and a path comes before those below it. -/
def Before (p q : Path) : Prop := List.Lex Component.Before p.components q.components

theorem orderComponents_eq (as bs : List Component) :
    orderComponents as bs = List.compareLex Component.order as bs := by
  induction as generalizing bs with
  | nil => cases bs <;> rfl
  | cons a as ih =>
    cases bs with
    | nil => rfl
    | cons b bs => rw [orderComponents, List.compareLex_cons_cons, ih]

theorem orderComponents_eq_lt_iff {as bs : List Component} :
    orderComponents as bs = .lt ↔ List.Lex Component.Before as bs := by
  induction as generalizing bs with
  | nil => cases bs <;> simp [orderComponents]
  | cons a as ih =>
    cases bs with
    | nil => simp [orderComponents]
    | cons b bs =>
      rw [orderComponents, Ordering.then_eq_lt, Component.order_eq_lt_iff,
        Std.LawfulEqCmp.compare_eq_iff_eq, ih, List.cons_lex_cons_iff]

/-- A comparison of what things have in common is as good as the one it uses. -/
theorem transCmp_on {α γ : Type} (cmp : α → α → Ordering) [Std.TransCmp cmp] (f : γ → α) :
    Std.TransCmp fun a b => cmp (f a) (f b) where
  eq_swap := Std.OrientedCmp.eq_swap
  isLE_trans := Std.TransCmp.isLE_trans

instance : Std.TransCmp order := by
  have hlists : orderComponents = List.compareLex Component.order :=
    funext fun as => funext fun bs => orderComponents_eq as bs
  have htrans : Std.TransCmp orderComponents := hlists ▸ inferInstance
  exact transCmp_on orderComponents components

theorem order_eq_eq_iff {p q : Path} : p.order q = .eq ↔ p.components = q.components := by
  rw [order, orderComponents_eq, Std.LawfulEqCmp.compare_eq_iff_eq]

end Path

/-! ## Keys -/

namespace FontKey

/-- The path that comes first; below one path the smaller size, and then the smaller resolution. -/
def Before (a b : FontKey) : Prop :=
  a.path.Before b.path ∨ a.path.components = b.path.components ∧
    (a.size < b.size ∨ a.size = b.size ∧ a.dpi < b.dpi)

instance : Std.TransCmp order := by
  have hpath := Path.transCmp_on Path.order path
  exact inferInstanceAs (Std.TransCmp (compareLex (fun a b : FontKey => a.path.order b.path)
    (compareLex (compareOn fun k => k.size.toNat) (compareOn fun k => k.dpi.toNat))))

theorem order_eq_lt_iff {a b : FontKey} : a.order b = .lt ↔ a.Before b := by
  simp only [order, Before, Ordering.then_eq_lt, Path.order_eq_eq_iff, Nat.compare_eq_lt,
    Nat.compare_eq_eq, UInt32.lt_iff_toNat_lt, UInt32.toNat_inj]
  exact or_congr_left Path.orderComponents_eq_lt_iff

theorem order_eq_eq_iff {a b : FontKey} : a.order b = .eq ↔ a.Same b := by
  simp only [order, Same, identity, Ordering.then_eq_eq, Path.order_eq_eq_iff, Nat.compare_eq_eq,
    UInt32.toNat_inj, Prod.mk.injEq]

end FontKey

end BitmapText
