/-
Records as JSON objects: when what a parser reads is written so that it is read
again, as the same record and with the same document up to the order of keys.
-/
import WebOvpn.Lib.JsonCanonical
import WebOvpn.Lib.Listing

namespace WebOvpn

/-- A value as `json.loads` builds it. -/
abbrev Loaded : JVal → Prop := IsReadable escapeCodePoint IsFloatText

mutual

/-- The strings and keys in a value. -/
def JVal.texts : JVal → List Text
  | .str s => [s]
  | .arr items => itemTexts items
  | .obj members => memberTexts members
  | _ => []

def itemTexts : List JVal → List Text
  | [] => []
  | v :: rest => v.texts ++ itemTexts rest

def memberTexts : List (Text × JVal) → List Text
  | [] => []
  | (k, v) :: rest => k :: (v.texts ++ memberTexts rest)

end

theorem forall_itemTexts {P : Text → Prop} {items : List JVal} :
    (∀ s ∈ itemTexts items, P s) ↔ ∀ v ∈ items, ∀ s ∈ v.texts, P s := by
  induction items with
  | nil => simp [itemTexts]
  | cons v rest ih => rw [itemTexts, List.forall_mem_append, ih, List.forall_mem_cons]

theorem forall_memberTexts {P : Text → Prop} {members : List (Text × JVal)} :
    (∀ s ∈ memberTexts members, P s) ↔ ∀ m ∈ members, P m.1 ∧ ∀ s ∈ m.2.texts, P s := by
  induction members with
  | nil => simp [memberTexts]
  | cons m rest ih =>
    rw [memberTexts, List.forall_mem_cons, List.forall_mem_append, ih, List.forall_mem_cons, and_assoc]

theorem isReadable_of_texts {esc : CodePoint → List Char} {v : JVal} (h : IsPython v)
    (hpr : v.isPrintable = true)
    (htx : ∀ s ∈ v.texts, Spells esc s) : IsReadable esc IsFloatText v := by
  induction v using JVal.induction with
  | int n =>
    rw [JVal.isPrintable, decide_eq_true_eq] at hpr
    rw [IsReadable]
    exact hpr
  | float token =>
    rw [IsPython] at h
    rw [IsReadable]
    exact h
  | str s =>
    rw [IsReadable]
    exact htx s (List.mem_singleton.2 rfl)
  | arr items ih =>
    rw [IsPython, arePython_iff] at h
    rw [JVal.isPrintable, itemsPrintable_iff] at hpr
    rw [JVal.texts, forall_itemTexts] at htx
    rw [IsReadable, areReadable_iff]
    exact fun v hv => ih v hv (h v hv) (hpr v hv) (htx v hv)
  | obj members ih =>
    rw [IsPython, membersPython_iff] at h
    rw [JVal.isPrintable, membersPrintable_iff] at hpr
    rw [JVal.texts, forall_memberTexts] at htx
    rw [IsReadable, membersReadable_iff]
    refine ⟨h.1, fun m hm => ⟨(htx m hm).1, ?_⟩⟩
    exact ih m hm (h.2 m hm) (hpr m hm) (htx m hm).2
  | _ => trivial

namespace JsonCodec

open List

variable {ε α : Type}

/-- What is read is written with the same document, up to the order of keys, and is
read again. -/
structure Stable (parse : JVal → Except ε α) (encode : α → JVal) : Prop where
  rewrites : ∀ j v, parse j = .ok v → Loaded j → sortKeys (encode v) = sortKeys j
  accepts : ∀ j v, parse j = .ok v → parse (encode v) = .ok v

/-- A parser and the encoding of what it reads: what is written is read as nothing else. -/
structure Codec (parse : JVal → Except ε α) (encode : α → JVal) : Prop extends Stable parse encode where
  tells : ∀ v w, parse (encode v) = .ok w → w = v

/-- A parser that takes a value for what it stands for. -/
theorem Codec.of_exact {parse : JVal → Except ε α} {encode : α → JVal}
    (hexact : ∀ j v, parse j = .ok v → j = encode v)
    (hinj : Function.Injective encode) : Codec parse encode where
  rewrites := fun j v h _ => by rw [hexact j v h]
  accepts := fun j v h => by rwa [← hexact j v h]
  tells := fun v w h => (hinj (hexact _ w h)).symm

structure Slot where
  key : Text
  value : JVal
  Reads : JVal → Prop

namespace Slot

structure Faithful (slot : Slot) : Prop where
  rewrites : ∀ j, slot.Reads j → Loaded j → sortKeys slot.value = sortKeys j
  accepts : ∀ j, slot.Reads j → slot.Reads slot.value

/-- A field that is read as it stands. -/
def plain (key : Text) (value : JVal) : Slot := ⟨key, value, (· = value)⟩

/-- A field with a parser of its own. -/
def nested (key : Text) (parse : JVal → Except ε α) (encode : α → JVal) (v : α) : Slot :=
  ⟨key, encode v, fun j => parse j = .ok v⟩

theorem faithful_plain (key : Text) (value : JVal) : (plain key value).Faithful where
  rewrites := by
    rintro j rfl _
    rfl
  accepts := fun _ _ => rfl

theorem faithful_nested {parse : JVal → Except ε α} {encode : α → JVal} (h : Stable parse encode)
    (key : Text) (v : α) :
    (nested key parse encode v).Faithful where
  rewrites := fun j hj hla => h.rewrites j v hj hla
  accepts := fun j hj => h.accepts j v hj

end Slot

def written (slots : List Slot) : List (Text × JVal) := slots.map fun slot => (slot.key, slot.value)

def valueOf (members : List (Text × JVal)) (key : Text) : JVal := (members.lookup key).getD .null

def ReadsAs (members : List (Text × JVal)) (slots : List Slot) : Prop :=
  (∀ key, key ∈ members.map Prod.fst ↔ key ∈ slots.map Slot.key) ∧ ∀ slot ∈ slots,
    slot.Reads (valueOf members slot.key)

theorem keys_written (slots : List Slot) : (written slots).map Prod.fst = slots.map Slot.key := by
  unfold written
  rw [map_map]
  rfl

theorem valueOf_of_mem {members : List (Text × JVal)} (hnodup : (members.map Prod.fst).Nodup)
    {key : Text} {value : JVal}
    (h : (key, value) ∈ members) : valueOf members key = value := by
  unfold valueOf
  rw [lookup_of_mem hnodup h]
  rfl

theorem valueOf_mem {members : List (Text × JVal)} {key : Text} (h : key ∈ members.map Prod.fst) :
    (key, valueOf members key) ∈ members := by
  unfold valueOf
  cases hlo : members.lookup key with
  | none => exact absurd h (not_mem_of_lookup hlo)
  | some value => exact mem_of_lookup hlo

variable {members : List (Text × JVal)} {slots : List Slot}

section

variable (hnodup : (slots.map Slot.key).Nodup)
include hnodup

theorem valueOf_written {slot : Slot} (h : slot ∈ slots) :
    valueOf (written slots) slot.key = slot.value := by
  apply valueOf_of_mem
  · rw [keys_written]
    exact hnodup
  · exact mem_map.2 ⟨slot, h, rfl⟩

theorem readsAs_written (hfi : ∀ slot ∈ slots, slot.Faithful)
    (h : ReadsAs members slots) : ReadsAs (written slots) slots := by
  constructor
  · intro key
    rw [keys_written]
  · intro slot hsl
    rw [valueOf_written hnodup hsl]
    exact (hfi slot hsl).accepts _ (h.2 slot hsl)

theorem sortKeys_written (hfi : ∀ slot ∈ slots, slot.Faithful)
    (h : ReadsAs members slots) (hla : Loaded (.obj members)) :
    sortKeys (.obj (written slots)) = sortKeys (.obj members) := by
  unfold Loaded at hla
  rw [IsReadable, membersReadable_iff] at hla
  obtain ⟨hms, hvas⟩ := hla
  have hsm : ∀ slot ∈ slots, sortKeys slot.value = sortKeys (valueOf members slot.key) := by
    intro slot hsl
    apply (hfi slot hsl).rewrites _ (h.2 slot hsl)
    exact (hvas _ (valueOf_mem ((h.1 slot.key).2 (mem_map_of_mem hsl)))).2
  rw [sortKeys_obj, sortKeys_obj]
  apply congrArg JVal.obj
  apply sortByName_eq_of_perm
  · rw [map_map]
    change ((written slots).map Prod.fst).Nodup
    rw [keys_written]
    exact hnodup
  · apply (perm_ext_iff_of_nodup _ _).2
    · rintro ⟨key, value⟩
      constructor
      · intro hmem
        obtain ⟨entry, hen, heq⟩ := mem_map.1 hmem
        obtain ⟨slot, hsl, rfl⟩ := mem_map.1 hen
        cases heq
        apply mem_map.2
        refine ⟨(slot.key, valueOf members slot.key), valueOf_mem ((h.1 _).2 (mem_map_of_mem hsl)), ?_⟩
        rw [hsm slot hsl]
      · intro hmem
        obtain ⟨entry, hen, heq⟩ := mem_map.1 hmem
        cases heq
        obtain ⟨slot, hsl, hkey⟩ := mem_map.1 ((h.1 entry.1).1 (mem_map_of_mem hen))
        apply mem_map.2
        refine ⟨(slot.key, slot.value), mem_map.2 ⟨slot, hsl, rfl⟩, ?_⟩
        rw [hsm slot hsl, hkey, valueOf_of_mem hms hen]
    · apply Nodup.of_map Prod.fst
      rw [map_map]
      change ((written slots).map Prod.fst).Nodup
      rw [keys_written]
      exact hnodup
    · apply Nodup.of_map Prod.fst
      rw [map_map]
      exact hms

end

theorem forall₂_of_readsAs {slots' : List Slot} (hnodup : (slots.map Slot.key).Nodup)
    (hks : slots'.map Slot.key = slots.map Slot.key) (h : ReadsAs (written slots) slots') :
    List.Forall₂ (fun slot slot' => slot'.Reads slot.value) slots slots' := by
  have hlen : slots.length = slots'.length := by
    rw [← length_map (f := Slot.key), ← hks, length_map]
  apply forall₂_iff_zip.2
  refine ⟨hlen, ?_⟩
  intro slot slot' hmem
  have hkey : slot.key = slot'.key := by
    have hzip : (slot.key, slot'.key) ∈ (slots.map Slot.key).zip (slots'.map Slot.key) := by
      rw [zip_map]
      exact mem_map.2 ⟨(slot, slot'), hmem, rfl⟩
    rw [hks] at hzip
    rw [zip_eq_zipWith, zipWith_self] at hzip
    obtain ⟨key, -, heq⟩ := mem_map.1 hzip
    exact (congrArg Prod.fst heq).symm.trans (congrArg Prod.snd heq)
  have hrd := h.2 slot' (of_mem_zip hmem).2
  rwa [← hkey, valueOf_written hnodup (of_mem_zip hmem).1] at hrd

structure RecordCodec (parse : JVal → Except ε α) (encode : α → JVal) (slots : α → List Slot)
    (Valid : α → Prop)
    (keys : List Text) : Prop where
  reads : ∀ j v, parse j = .ok v ↔ (∃ members, j = .obj members ∧ ReadsAs members (slots v)) ∧ Valid v
  writes : ∀ v, encode v = .obj (written (slots v)) := by exact fun _ => rfl
  nodup : keys.Nodup := by decide
  keys_slots : ∀ v, (slots v).map Slot.key = keys := by exact fun _ => rfl
  faithful : ∀ v, ∀ slot ∈ slots v, slot.Faithful

namespace RecordCodec

variable {parse : JVal → Except ε α} {encode : α → JVal} {fields : α → List Slot} {Valid : α → Prop}
    {keys : List Text}

section

variable (h : RecordCodec parse encode fields Valid keys)
include h

theorem slots_nodup (v : α) : ((fields v).map Slot.key).Nodup := by
  rw [h.keys_slots v]
  exact h.nodup

theorem stable : Stable parse encode where
  rewrites := fun j v hv hla => by
    obtain ⟨⟨members, rfl, hrd⟩, -⟩ := (h.reads j v).1 hv
    rw [h.writes v]
    exact sortKeys_written (h.slots_nodup v) (h.faithful v) hrd hla
  accepts := fun j v hv => by
    obtain ⟨⟨members, rfl, hrd⟩, hvl⟩ := (h.reads j v).1 hv
    apply (h.reads _ v).2
    exact ⟨⟨_, h.writes v, readsAs_written (h.slots_nodup v) (h.faithful v) hrd⟩, hvl⟩

/-- A record is read from what it is written as, if it passes the checks and its fields are
read from what they are written as. -/
theorem parse_encode {v : α}
    (hfl : ∀ slot ∈ fields v, slot.Reads slot.value) (hvl : Valid v) : parse (encode v) = .ok v := by
  apply (h.reads _ v).2
  refine ⟨⟨_, h.writes v, ?_, ?_⟩, hvl⟩
  · intro key
    rw [keys_written]
  · intro slot hsl
    rw [valueOf_written (h.slots_nodup v) hsl]
    exact hfl slot hsl

theorem agree {v w : α} (hw : parse (encode v) = .ok w) :
    List.Forall₂ (fun slot slot' => slot'.Reads slot.value) (fields v) (fields w) := by
  obtain ⟨⟨members, hms, hrd⟩, -⟩ := (h.reads _ w).1 hw
  rw [h.writes v] at hms
  cases hms
  apply forall₂_of_readsAs (h.slots_nodup v) _ hrd
  rw [h.keys_slots v, h.keys_slots w]

theorem isPython {v : α} (hvas : ∀ slot ∈ fields v, IsPython slot.value) :
    IsPython (encode v) := by
  rw [h.writes v, IsPython, membersPython_iff, keys_written]
  refine ⟨h.slots_nodup v, ?_⟩
  intro m hm
  obtain ⟨slot, hsl, rfl⟩ := mem_map.1 hm
  exact hvas slot hsl

end

end RecordCodec

end JsonCodec

theorem isPrintable_sortKeys (v : JVal) : (sortKeys v).isPrintable = v.isPrintable := by
  rw [Bool.eq_iff_iff]
  induction v using JVal.induction with
  | arr items ih =>
    rw [sortKeys, sortKeysItems_eq, JVal.isPrintable, JVal.isPrintable, itemsPrintable_iff, itemsPrintable_iff,
      List.forall_mem_map]
    exact forall₂_congr ih
  | obj members ih =>
    rw [sortKeys_obj, JVal.isPrintable, JVal.isPrintable, membersPrintable_iff, membersPrintable_iff]
    simp only [mem_sortByName]
    rw [List.forall_mem_map]
    exact forall₂_congr ih
  | _ => rfl

end WebOvpn
