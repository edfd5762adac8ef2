/-
`sorted(items, key=key)`: the keys come out in order, and items with one key keep
the order in which they were given.  Entries in the order of their names are in the
order of code points.
-/
import Mathlib.Data.List.Dedup
import Mathlib.Data.List.Sort
import Mathlib.Data.Prod.Lex
import Mathlib.Order.MinMax
import WebOvpn.Lib.Text

namespace WebOvpn

open List

section

variable {α κ : Type} [LinearOrder κ] {key : α → κ} {items items' : List α}

def sortedBy (key : α → κ) (items : List α) : List α := items.insertionSort fun a b => key a ≤ key b

instance total_key (key : α → κ) : Std.Total fun a b => key a ≤ key b :=
  ⟨fun a b => le_total (key a) (key b)⟩

instance trans_key (key : α → κ) : IsTrans α fun a b => key a ≤ key b := ⟨fun _ _ _ => le_trans⟩

theorem sortedBy_perm (key : α → κ) (items : List α) : (sortedBy key items).Perm items :=
  perm_insertionSort ..

@[simp]
theorem mem_sortedBy {a : α} : a ∈ sortedBy key items ↔ a ∈ items := (sortedBy_perm key items).mem_iff

@[simp]
theorem length_sortedBy : (sortedBy key items).length = items.length :=
  (sortedBy_perm key items).length_eq

theorem sortedBy_pairwise (key : α → κ) (items : List α) :
    (sortedBy key items).Pairwise fun a b => key a ≤ key b :=
  pairwise_insertionSort ..

theorem sortedBy_of_pairwise (h : items.Pairwise fun a b => key a ≤ key b) :
    sortedBy key items = items :=
  h.insertionSort_eq

omit [LinearOrder κ] in
theorem eq_of_map_eq (hkey : ∀ a ∈ items, ∀ b ∈ items', key a = key b → a = b)
    (h : items.map key = items'.map key) :
    items = items' := by
  induction items generalizing items' with
  | nil => exact (map_eq_nil_iff.1 h.symm).symm
  | cons a items ih =>
    cases items' with
    | nil => cases h
    | cons b items' =>
      rw [map_cons, map_cons, List.cons.injEq] at h
      rw [hkey a mem_cons_self b mem_cons_self h.1, ih _ h.2]
      intro c hc d hd
      exact hkey c (mem_cons_of_mem a hc) d (mem_cons_of_mem b hd)

/-- Tuples are compared at the first place where they differ. -/
theorem ite_iff_toLex_le {α β : Type} [LinearOrder α] [LinearOrder β] {x y : α} {k k' : β}
    {c : Prop} [Decidable c]
    {before rest : Bool} (hc : c ↔ x ≠ y) (hbf : before = true ↔ x < y) (hrs : rest = true ↔ k ≤ k') :
    (if c then before else rest) = true ↔ toLex (x, k) ≤ toLex (y, k') := by
  rw [Prod.Lex.toLex_le_toLex]
  split_ifs with hne
  · rw [hbf]
    exact ⟨.inl, fun h => h.resolve_right fun heq => hc.1 hne heq.1⟩
  · have heq : x = y := not_not.1 fun h => hne (hc.2 h)
    rw [hrs]
    exact ⟨fun h => .inr ⟨heq, h⟩, fun h => (h.resolve_left fun hlt => hlt.ne heq).2⟩

/-- The keys of a permuted list come out in the same order. -/
theorem keys_sortedBy_of_perm (h : items.Perm items') :
    (sortedBy key items).map key = (sortedBy key items').map key := by
  have hpr : ((sortedBy key items).map key).Perm ((sortedBy key items').map key) :=
    ((sortedBy_perm key items).trans (h.trans (sortedBy_perm key items').symm)).map key
  have hsr := pairwise_map.2 (sortedBy_pairwise key items)
  have hsr' := pairwise_map.2 (sortedBy_pairwise key items')
  apply hpr.eq_of_pairwise _ hsr hsr'
  intro a b _ _ hab hba
  exact le_antisymm hab hba

theorem sortedBy_eq_of_perm (hkey : ∀ a ∈ items, ∀ b ∈ items, key a = key b → a = b)
    (h : items.Perm items') :
    sortedBy key items = sortedBy key items' := by
  have hpr : (sortedBy key items).Perm (sortedBy key items') :=
    (sortedBy_perm key items).trans (h.trans (sortedBy_perm key items').symm)
  apply hpr.eq_of_pairwise _ (sortedBy_pairwise key items) (sortedBy_pairwise key items')
  intro a b ha hb hab hba
  exact hkey a (mem_sortedBy.1 ha) b (h.mem_iff.2 (mem_sortedBy.1 hb)) (le_antisymm hab hba)

theorem sortedBy_cons_split (key : α → κ) (item : α) (items : List α) : ∃ before after,
    sortedBy key (item :: items) = before ++ item :: after ∧ ∀ other ∈ before,
      key other < key item := by
  refine ⟨_, _, orderedInsert_eq_take_drop .., ?_⟩
  intro other hot
  have hnot := mem_takeWhile_imp (p := fun b => decide ¬key item ≤ key b) hot
  exact not_le.1 (of_decide_eq_true hnot)

theorem max?_eq_some_iff {ranks : List κ} {greatest : κ} :
    ranks.max? = some greatest ↔ greatest ∈ ranks ∧ ∀ rank ∈ ranks, rank ≤ greatest := by
  have : Std.LawfulOrderMax κ :=
    { max_eq_or := max_choice
      max_le_iff := fun _ _ _ => max_le_iff }
  exact List.max?_eq_some_iff

theorem max?_congr {ranks ranks' : List κ} (h : ∀ rank, rank ∈ ranks ↔ rank ∈ ranks') :
    ranks.max? = ranks'.max? := by
  cases hmax : ranks'.max? with
  | none =>
    rw [max?_eq_none_iff] at hmax ⊢
    subst hmax
    exact eq_nil_iff_forall_not_mem.2 fun rank hran => not_mem_nil ((h rank).1 hran)
  | some greatest =>
    rw [max?_eq_some_iff] at hmax ⊢
    exact ⟨(h greatest).2 hmax.1, fun rank hran => hmax.2 rank ((h rank).1 hran)⟩

/-- Distinct items have one order. -/
theorem sortedBy_dedup_congr [DecidableEq κ] {ranks ranks' : List κ}
    (h : ∀ rank, rank ∈ ranks ↔ rank ∈ ranks') :
    sortedBy id ranks.dedup = sortedBy id ranks'.dedup := by
  apply sortedBy_eq_of_perm (fun a _ b _ heq => heq)
  apply (perm_ext_iff_of_nodup (nodup_dedup _) (nodup_dedup _)).2
  intro rank
  rw [mem_dedup, mem_dedup, h]

end

namespace Text

theorem le_total (s t : Text) : le s t = true ∨ le t s = true := by
  induction s generalizing t with
  | nil => exact .inl rfl
  | cons a as ih =>
    cases t with
    | nil => exact .inr rfl
    | cons b bs =>
      unfold le
      rcases Nat.lt_trichotomy a.val b.val with hlt | heq | hgt
      · left
        simp [hlt]
      · rcases ih bs with h | h
        · left
          simp [heq, h]
        · right
          simp [heq, h]
      · right
        simp [hgt]

theorem le_trans {s t u : Text} (h : le s t = true) (h' : le t u = true) : le s u = true := by
  induction s generalizing t u with
  | nil => rfl
  | cons a as ih =>
    cases t with
    | nil => cases h
    | cons b bs =>
      cases u with
      | nil => cases h'
      | cons c cs =>
        unfold le at h h' ⊢
        simp only [Bool.or_eq_true, Bool.and_eq_true, decide_eq_true_eq, beq_iff_eq] at h h' ⊢
        rcases h with hlt | ⟨heq, hle⟩
        · left
          omega
        · rcases h' with hlt' | ⟨heq', hle'⟩
          · left
            omega
          · exact .inr ⟨heq.trans heq', ih hle hle'⟩

theorem le_antisymm {s t : Text} (h : le s t = true) (h' : le t s = true) : s = t := by
  induction s generalizing t with
  | nil =>
    cases t with
    | nil => rfl
    | cons b bs => cases h'
  | cons a as ih =>
    cases t with
    | nil => cases h
    | cons b bs =>
      unfold le at h h'
      simp only [Bool.or_eq_true, Bool.and_eq_true, decide_eq_true_eq, beq_iff_eq] at h h'
      rcases h with hlt | ⟨heq, hle⟩
      · omega
      · rcases h' with hlt' | ⟨-, hle'⟩
        · omega
        · rw [Fin.ext heq, ih hle hle']

theorem le_of_le {s t : Text} (h : le s t = true) : s ≤ t := by
  induction s generalizing t with
  | nil =>
    cases t with
    | nil => exact le_rfl
    | cons b bs => exact le_of_lt .nil
  | cons a as ih =>
    cases t with
    | nil => cases h
    | cons b bs =>
      unfold le at h
      simp only [Bool.or_eq_true, Bool.and_eq_true, decide_eq_true_eq, beq_iff_eq] at h
      rcases h with hlt | ⟨heq, hle⟩
      · exact le_of_lt (.rel hlt)
      · rw [Fin.ext heq]
        exact cons_le_cons b (ih hle)

/-- The order of texts is the order of lists of code points. -/
theorem le_iff {s t : Text} : le s t = true ↔ s ≤ t := by
  constructor
  · exact le_of_le
  · intro h
    rcases le_total s t with hle | hle
    · exact hle
    · have heq : s = t := h.antisymm (le_of_le hle)
      rw [heq] at hle ⊢
      exact hle

end Text

section

variable {α β : Type} {entries : List (Text × α)}

def sortByName (entries : List (Text × α)) : List (Text × α) :=
  entries.insertionSort fun a b => Text.le a.1 b.1 = true

instance total_name : Std.Total fun a b : Text × α => Text.le a.1 b.1 = true :=
  ⟨fun a b => Text.le_total a.1 b.1⟩

instance trans_name : IsTrans (Text × α) fun a b => Text.le a.1 b.1 = true :=
  ⟨fun _ _ _ => Text.le_trans⟩

theorem sortByName_sorted (entries : List (Text × α)) :
    (sortByName entries).Pairwise fun a b => Text.le a.1 b.1 = true :=
  pairwise_insertionSort ..

theorem sortByName_of_sorted (h : entries.Pairwise fun a b => Text.le a.1 b.1 = true) :
    sortByName entries = entries :=
  h.insertionSort_eq

@[simp]
theorem sortByName_sortByName (entries : List (Text × α)) :
    sortByName (sortByName entries) = sortByName entries :=
  sortByName_of_sorted (sortByName_sorted entries)

theorem sortByName_perm (entries : List (Text × α)) : (sortByName entries).Perm entries :=
  perm_insertionSort ..

@[simp]
theorem mem_sortByName {entry : Text × α} : entry ∈ sortByName entries ↔ entry ∈ entries :=
  (sortByName_perm entries).mem_iff

theorem sortByName_eq_of_perm {entries' : List (Text × α)} (hnd : (entries.map Prod.fst).Nodup)
    (h : entries.Perm entries') : sortByName entries = sortByName entries' := by
  have hpr : (sortByName entries).Perm (sortByName entries') :=
    (sortByName_perm entries).trans (h.trans (sortByName_perm entries').symm)
  apply hpr.eq_of_pairwise _ (sortByName_sorted entries) (sortByName_sorted entries')
  intro a b ha hb hle hle'
  have ha' := mem_sortByName.1 ha
  have hb' := h.mem_iff.2 (mem_sortByName.1 hb)
  exact inj_on_of_nodup_map hnd ha' hb' (Text.le_antisymm hle hle')

/-- The names stay when the values are changed. -/
theorem map_sortByName (f : Text × α → Text × β) (hf : ∀ entry, (f entry).1 = entry.1) :
    (sortByName entries).map f = sortByName (entries.map f) := by
  unfold sortByName
  apply map_insertionSort
  intro a _ b _
  rw [hf a, hf b]

end

end WebOvpn
