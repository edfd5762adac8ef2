/-
The length of an encoding, from the lengths of its parts, and the size of a printed
document, which does not depend on the order of keys.
-/
import Mathlib.Algebra.Order.BigOperators.Group.List
import Mathlib.Tactic.Ring
import WebOvpn.Lib.JsonCanonical

namespace WebOvpn

open List

variable (sep : Separators)

def memberLength (member : Text × JVal) : Nat :=
  (encodeString member.1).length + sep.key.length + (encode sep member.2).length

variable (items : List JVal)

theorem length_encodeItems : (encodeItems sep items).length =
      (items.map fun v => (encode sep v).length).sum + (items.length - 1) * sep.item.length := by
  induction items with
  | nil => simp [encodeItems]
  | cons v rest ih =>
    cases rest with
    | nil => simp [encodeItems]
    | cons w more =>
      rw [encodeItems, length_append, length_append, ih]
      simp only [map_cons, sum_cons, length_cons, Nat.add_sub_cancel]
      ring

variable (members : List (Text × JVal))

theorem length_encodeMembers : (encodeMembers sep members).length =
      (members.map (memberLength sep)).sum + (members.length - 1) * sep.item.length := by
  induction members with
  | nil => simp [encodeMembers]
  | cons member rest ih =>
    obtain ⟨k, v⟩ := member
    cases rest with
    | nil => simp [encodeMembers, memberLength, Nat.add_assoc]
    | cons next more =>
      rw [encodeMembers]
      simp only [length_append]
      rw [ih]
      simp only [map_cons, sum_cons, length_cons, Nat.add_sub_cancel, memberLength]
      ring

theorem length_encode_arr :
    (encode sep (.arr items)).length = (encodeItems sep items).length + 2 := by
  rw [encode, length_cons, length_append]
  rfl

theorem length_encode_obj : (encode sep (.obj members)).length =
      (members.map (memberLength sep)).sum + (members.length - 1) * sep.item.length + 2 := by
  rw [encode, length_cons, length_append, length_encodeMembers]
  rfl

theorem length_sortKeysItems : (sortKeysItems items).length = items.length := by
  induction items with
  | nil => rfl
  | cons v rest ih => rw [sortKeysItems, length_cons, length_cons, ih]

theorem length_sortKeysMembers :
    (sortKeysMembers members).length = members.length := by
  induction members with
  | nil => rfl
  | cons member rest ih => rw [sortKeysMembers, length_cons, length_cons, ih]

mutual

theorem length_encode_sortKeys (v : JVal) :
    (encode sep (sortKeys v)).length = (encode sep v).length := by
  cases v with
  | null | bool | int | float | str => rw [sortKeys]
  | arr items =>
    rw [sortKeys, length_encode_arr, length_encode_arr, length_encodeItems, length_encodeItems,
      lengths_sortKeysItems items, length_sortKeysItems]
  | obj members =>
    have hpr : (sortMembers (sortKeysMembers members)).Perm (sortKeysMembers members) :=
      perm_insertionSort _ _
    rw [sortKeys, length_encode_obj, length_encode_obj, (hpr.map _).sum_eq, hpr.length_eq,
      lengths_sortKeysMembers members, length_sortKeysMembers]

theorem lengths_sortKeysItems (items : List JVal) :
    (sortKeysItems items).map (fun v => (encode sep v).length) =
      items.map fun v => (encode sep v).length := by
  cases items with
  | nil => rfl
  | cons v rest =>
    rw [sortKeysItems, map_cons, map_cons, length_encode_sortKeys v, lengths_sortKeysItems rest]

theorem lengths_sortKeysMembers (members : List (Text × JVal)) :
    (sortKeysMembers members).map (memberLength sep) = members.map (memberLength sep) := by
  cases members with
  | nil => rfl
  | cons member rest =>
    obtain ⟨k, v⟩ := member
    rw [sortKeysMembers, map_cons, map_cons, lengths_sortKeysMembers rest,
      memberLength, memberLength, length_encode_sortKeys v]

end

theorem length_dumps (v : JVal) : (dumps sep v).length = (encode sep v).length :=
  length_encode_sortKeys sep v

theorem length_encodeItems_le {items : List JVal} {bound : Nat}
    (h : ∀ v ∈ items, (encode compact v).length ≤ bound) :
    (encodeItems compact items).length ≤ items.length * (bound + 1) := by
  have hsum := List.sum_le_card_nsmul (items.map fun v => (encode compact v).length) bound (by
    intro n hn
    obtain ⟨v, hv, rfl⟩ := List.mem_map.1 hn
    exact h v hv)
  rw [List.length_map] at hsum
  change _ ≤ items.length * bound at hsum
  rw [length_encodeItems]
  change _ + (items.length - 1) * 1 ≤ _
  rw [Nat.mul_add]
  omega

/-- The number of bytes of a text. -/
def byteSize (chars : List Char) : Nat := (utf8Chars chars).length

@[simp]
theorem byteSize_append (a b : List Char) : byteSize (a ++ b) = byteSize a + byteSize b := by
  unfold byteSize utf8Chars
  rw [List.flatMap_append, List.length_append]

theorem byteSize_cons (c : Char) (rest : List Char) :
    byteSize (c :: rest) = byteSize [c] + byteSize rest :=
  byteSize_append [c] rest

variable (esc : CodePoint → List Char) (layout : Layout) (depth : Nat)

def memberSize (m : Text × JVal) : Nat :=
  byteSize [','] + byteSize (layout.next depth) + byteSize (renderString esc m.1) + byteSize [':'] +
    byteSize layout.colon +
    byteSize (render esc layout (depth + 1) m.2)

def itemSize (v : JVal) : Nat :=
  byteSize [','] + byteSize (layout.next depth) + byteSize (render esc layout (depth + 1) v)

variable {esc layout}

theorem byteSize_renderMoreItems (items : List JVal) :
    byteSize (renderMoreItems esc layout depth items) =
    (items.map (itemSize esc layout depth)).sum + byteSize (layout.last depth) := by
  induction items with
  | nil => rw [renderMoreItems, List.map_nil, List.sum_nil, Nat.zero_add]
  | cons v rest ih =>
    rw [renderMoreItems, byteSize_cons, byteSize_append, byteSize_append, ih, List.map_cons, List.sum_cons]
    unfold itemSize
    omega

theorem byteSize_renderMoreMembers (members : List (Text × JVal)) :
    byteSize (renderMoreMembers esc layout depth members) =
    (members.map (memberSize esc layout depth)).sum + byteSize (layout.last depth) := by
  induction members with
  | nil => rw [renderMoreMembers, List.map_nil, List.sum_nil, Nat.zero_add]
  | cons m rest ih =>
    obtain ⟨k, v⟩ := m
    rw [renderMoreMembers, byteSize_cons ',', byteSize_append, byteSize_append, byteSize_cons ':',
      byteSize_append,
      byteSize_append, ih, List.map_cons, List.sum_cons]
    dsimp only [memberSize]
    omega

section

variable (hfirst : layout.first = layout.next)
include hfirst

theorem byteSize_renderItems {items : List JVal} (hits : items ≠ []) :
    byteSize [','] + byteSize (renderItems esc layout depth items) =
      (items.map (itemSize esc layout depth)).sum + byteSize (layout.last depth) := by
  cases items with
  | nil => exact absurd rfl hits
  | cons v rest =>
    rw [renderItems, byteSize_append, byteSize_append, byteSize_renderMoreItems, hfirst,
      List.map_cons, List.sum_cons]
    unfold itemSize
    omega

theorem byteSize_renderMembers {members : List (Text × JVal)} (hms : members ≠ []) :
    byteSize [','] + byteSize (renderMembers esc layout depth members) =
      (members.map (memberSize esc layout depth)).sum + byteSize (layout.last depth) := by
  cases members with
  | nil => exact absurd rfl hms
  | cons m rest =>
    obtain ⟨k, v⟩ := m
    rw [renderMembers, byteSize_append, byteSize_append, byteSize_cons ':', byteSize_append, byteSize_append,
      byteSize_renderMoreMembers, hfirst, List.map_cons, List.sum_cons]
    dsimp only [memberSize]
    omega

theorem byteSize_render_sortKeys (v : JVal) :
    ∀ depth, byteSize (render esc layout depth (sortKeys v)) =
      byteSize (render esc layout depth v) := by
  induction v using JVal.induction with
  | arr items ih =>
    intro depth
    cases items with
    | nil => rfl
    | cons v rest =>
      have hsum : ((sortKeysItems (v :: rest)).map (itemSize esc layout depth)) =
        (v :: rest).map (itemSize esc layout depth) := by
        rw [sortKeysItems_eq, List.map_map]
        apply List.map_congr_left
        intro w hw
        change _ + byteSize (render esc layout (depth + 1) (sortKeys w)) = _
        rw [ih w hw]
        rfl
      have hsr : sortKeysItems (v :: rest) ≠ [] := by
        rw [sortKeysItems_eq]
        exact List.cons_ne_nil _ _
      have hlf := @byteSize_renderItems esc layout depth hfirst _ hsr
      have hrg := @byteSize_renderItems esc layout depth hfirst _ (List.cons_ne_nil v rest)
      rw [hsum] at hlf
      rw [sortKeys, render, render, byteSize_cons '[', byteSize_append, byteSize_cons '[' (_ ++ _),
        byteSize_append]
      omega
  | obj members ih =>
    intro depth
    cases members with
    | nil => rfl
    | cons m rest =>
      have hpr := sortByName_perm ((m :: rest).map fun m => (m.1, sortKeys m.2))
      have hsum : ((sortByName ((m :: rest).map fun m => (m.1, sortKeys m.2))).map
        (memberSize esc layout depth)).sum =
          ((m :: rest).map (memberSize esc layout depth)).sum := by
        rw [(hpr.map _).sum_nat, List.map_map]
        apply congrArg List.sum
        apply List.map_congr_left
        intro n hn
        change _ + byteSize (render esc layout (depth + 1) (sortKeys n.2)) = _
        rw [ih n hn]
        rfl
      have hsr : sortByName ((m :: rest).map fun m => (m.1, sortKeys m.2)) ≠ [] := by
        intro hnil
        rw [hnil] at hpr
        exact List.cons_ne_nil _ _ (List.nil_perm.1 hpr)
      have hlf := @byteSize_renderMembers esc layout depth hfirst _ hsr
      have hrg := @byteSize_renderMembers esc layout depth hfirst _ (List.cons_ne_nil m rest)
      rw [hsum] at hlf
      rw [sortKeys_obj, render, render, byteSize_cons '{', byteSize_append,
        byteSize_cons '{' (_ ++ _), byteSize_append]
      omega
  | _ => exact fun _ => rfl

end

end WebOvpn
