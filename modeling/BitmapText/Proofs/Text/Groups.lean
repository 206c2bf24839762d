import BitmapText.Proofs.Text.Utf8
import Mathlib.Data.List.Basic

/-!
# Every byte string falls into groups

Text need not be UTF-8. From left to right, any bytes at all fall into groups in one way only: a
byte below `0x80` alone, any other with the two bytes after it, and at the end perhaps a group that
is cut short. Reading goes by groups, so it can be taken up where a complete group ends, and a group
that is cut short reads as if zero bytes followed.

## Main definitions

* `CodePoints.Splits`: bytes and the groups they fall into.

## Main statements

* `CodePoints.splits_groups`, `CodePoints.Splits.groups_eq`: the groups that are read are the only
  ones that bytes fall into.
* `CodePoints.Splits.append`, `CodePoints.Splits.pad`: what may follow.
* `CodePoints.exists_unique_splits`: reading any bytes at all.
-/

namespace BitmapText

namespace CodePoints

/-- `Splits bytes gs`: the groups `gs` make up `bytes`, from left to right. All of them are
complete, or all but the last one, for which the bytes have run out. -/
inductive Splits : List UInt8 → List Group → Prop where
  | nil : Splits [] []
  | cut {lead : UInt8} (second : Option UInt8) :
      ¬ lead < 0x80 → Splits (lead :: second.toList) [.cut lead second]
  | cons {g : Group} {rest : List UInt8} {gs : List Group} :
      g.Complete → Splits rest gs → Splits (g.bytes ++ rest) (g :: gs)

/-! ## One way to split -/

theorem groups_cut {lead : UInt8} (second : Option UInt8) (hlead : ¬ lead < 0x80) :
    groups (lead :: second.toList) = [.cut lead second] := by
  rw [groups.eq_def]
  cases second <;> exact if_neg hlead

/-- Bytes fall into the groups that are read. -/
theorem splits_groups (bytes : List UInt8) : Splits bytes (groups bytes) := by
  fun_induction groups bytes with
  | case1 => exact .nil
  | case2 byte rest hbyte ih => exact .cons (.single hbyte) ih
  | case3 lead hlead second third rest ih => exact .cons (.triple second third hlead) ih
  | case4 lead hlead second => exact .cut (some second) hlead
  | case5 lead hlead => exact .cut none hlead

/-- Bytes fall into no other groups. -/
theorem Splits.groups_eq {bytes : List UInt8} {gs : List Group} (h : Splits bytes gs) :
    groups bytes = gs := by
  induction h with
  | nil => rfl
  | cut second hlead => exact groups_cut second hlead
  | cons hg _ ih => rw [groups_append hg, ih]

/-! ## What follows -/

/-- Behind a complete group, the groups of what follows are as they are alone. -/
theorem Splits.append {bytes rest : List UInt8} {gs gs' : List Group} (h : Splits bytes gs)
    (hlast : ∀ g ∈ gs.getLast?, g.Complete) (hrest : Splits rest gs') :
    Splits (bytes ++ rest) (gs ++ gs') := by
  induction h with
  | nil => exact hrest
  | cut second _ => cases hlast _ rfl
  | cons hg _ ih =>
    rw [List.append_assoc, List.cons_append]
    exact .cons hg (ih fun g hg => hlast g (List.mem_getLast?_cons hg))

/-- Zero bytes complete a group that is cut short, and do not change its code point. -/
theorem Splits.pad {bytes : List UInt8} {gs : List Group} {lead : UInt8} {second : Option UInt8}
    (h : Splits bytes gs) (hlast : gs.getLast? = some (.cut lead second)) :
    let zeros := List.replicate (3 - (Group.cut lead second).bytes.length) (0 : UInt8)
    ∃ g : Group, g.Complete ∧ g.bytes = (Group.cut lead second).bytes ++ zeros ∧
      g.codePoint = (Group.cut lead second).codePoint ∧
      Splits (bytes ++ zeros) (gs.dropLast ++ [g]) := by
  induction h with
  | nil => simp at hlast
  | @cut lead second hlead =>
    obtain ⟨rfl, rfl⟩ := Group.cut.inj (Option.some.inj hlast)
    have hg : (Group.triple lead (second.getD 0) 0).Complete := .triple _ _ hlead
    refine ⟨_, hg, ?_⟩
    cases second <;> exact ⟨rfl, rfl, .cons hg .nil⟩
  | @cons g rest gs hg hrest ih =>
    cases gs with
    | nil =>
      -- The only group is complete, so it is not the one that is cut short.
      obtain rfl : g = .cut lead second := Option.some.inj hlast
      cases hg
    | cons g' gs =>
      obtain ⟨padded, hpadded, hbytes, hpoint, hsplits⟩ := ih hlast
      refine ⟨padded, hpadded, hbytes, hpoint, ?_⟩
      rw [List.append_assoc, List.dropLast_cons_cons, List.cons_append]
      exact .cons hg hsplits

/-! ## Code points -/

theorem Group.codePoint_le (g : Group) : g.codePoint ≤ 0xFFFF := by
  cases g with
  | single byte =>
    have := byte.toNat_lt
    simp only [codePoint]
    omega
  | triple lead second third => exact Nat.le_of_lt_succ (Nat.mod_lt _ (by decide))
  | cut lead second => exact Nat.le_of_lt_succ (Nat.mod_lt _ (by decide))

theorem Splits.decode_eq {bytes : List UInt8} {gs : List Group} (h : Splits bytes gs) :
    decode bytes = gs.map Group.codePoint := by
  rw [decode, h.groups_eq]

/-- Any bytes fall into groups in one way and are read as one code point of 16 bits for each. What
follows a complete group is read as it is alone, and a group that is cut short at the end is read
as the group that zero bytes make of it. -/
theorem exists_unique_splits (bytes : List UInt8) :
    (∃! gs, Splits bytes gs) ∧
      ∀ gs, Splits bytes gs →
        decode bytes = gs.map Group.codePoint ∧ (∀ n ∈ decode bytes, n ≤ 0xFFFF) ∧
        ((∀ g ∈ gs.getLast?, g.Complete) →
          ∀ rest, decode (bytes ++ rest) = decode bytes ++ decode rest) ∧
        ∀ lead second, gs.getLast? = some (.cut lead second) →
          let zeros := List.replicate (3 - (Group.cut lead second).bytes.length) (0 : UInt8)
          (∃ g : Group, g.Complete ∧ g.bytes = (Group.cut lead second).bytes ++ zeros ∧
            Splits (bytes ++ zeros) (gs.dropLast ++ [g])) ∧
          decode (bytes ++ zeros) = decode bytes := by
  refine ⟨⟨_, splits_groups bytes, fun gs h => h.groups_eq.symm⟩, fun gs h => ?_⟩
  refine ⟨h.decode_eq, fun n hn => ?_, fun hlast rest => ?_, fun lead second hlast => ?_⟩
  · rw [h.decode_eq] at hn
    obtain ⟨g, -, rfl⟩ := List.mem_map.1 hn
    exact g.codePoint_le
  · have hrest := splits_groups rest
    rw [(h.append hlast hrest).decode_eq, List.map_append, ← h.decode_eq, ← hrest.decode_eq]
  · obtain ⟨g, hg, hbytes, hpoint, hsplits⟩ := h.pad hlast
    have hgs : gs = gs.dropLast ++ [.cut lead second] :=
      (List.dropLast_append_getLast? _ hlast).symm
    refine ⟨⟨g, hg, hbytes, hsplits⟩, ?_⟩
    rw [hsplits.decode_eq, h.decode_eq, hgs, List.dropLast_concat, List.map_append, List.map_append,
      List.map_singleton, List.map_singleton, hpoint]

-- Behind a group that is cut short, what follows is not read as it is alone: the group takes it.
example : decode ([0xC3, 0xA9] ++ [0x61]) = [0x3A61] ∧
    decode [0xC3, 0xA9] ++ decode [0x61] = [0x3A40, 0x61] := by decide +kernel

end CodePoints

end BitmapText
