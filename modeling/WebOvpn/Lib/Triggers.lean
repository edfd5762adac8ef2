/-
Tables whose writes fire triggers for each row: what a write makes of the rows,
which images of the row a trigger sees, and what is unchanged when no trigger
fires.
-/
import Mathlib.Data.List.Basic

namespace WebOvpn

open List

inductive RowWrite (ρ : Type) where
  | insert (row : ρ)
  | update (i : Nat) (row : ρ)
  | delete (i : Nat)

section

variable {ρ κ δ φ : Type} {rows : List ρ} {w : RowWrite ρ}

namespace RowWrite

def apply (rows : List ρ) : RowWrite ρ → List ρ
  | insert row => rows ++ [row]
  | update i row => rows.set i row
  | delete i => rows.eraseIdx i

def images (rows : List ρ) : RowWrite ρ → Option ρ × Option ρ
  | insert row => (none, some row)
  | update i row => (rows[i]?, rows[i]?.map fun _ => row)
  | delete i => (rows[i]?, none)

theorem mem_apply {new : ρ} (h : (w.images rows).2 = some new) : new ∈ w.apply rows := by
  cases w with
  | insert row =>
    cases h
    exact mem_append_right _ (mem_singleton.2 rfl)
  | update i row =>
    change rows[i]?.map (fun _ => row) = some new at h
    obtain ⟨old, hold, rfl⟩ := Option.map_eq_some_iff.1 h
    exact List.mem_set (List.getElem?_eq_some_iff.1 hold).1 row
  | delete i => cases h

theorem filterMap_apply {f : ρ → Option φ} (h : (w.images rows).1.bind f = (w.images rows).2.bind f) :
    (w.apply rows).filterMap f = rows.filterMap f := by
  cases w with
  | insert row =>
    have hrow : f row = none := h.symm
    change (rows ++ [row]).filterMap f = _
    rw [filterMap_append, filterMap_cons_none hrow, filterMap_nil, append_nil]
  | update i row =>
    change (rows.set i row).filterMap f = _
    change rows[i]?.bind f = (rows[i]?.map fun _ => row).bind f at h
    rcases Nat.lt_or_ge i rows.length with hi | hi
    · rw [getElem?_eq_getElem hi] at h
      have hrow : f rows[i] = f row := h
      have hsp : rows = rows.take i ++ rows[i] :: rows.drop (i + 1) := by
        rw [getElem_cons_drop, take_append_drop]
      rw [set_eq_take_append_cons_drop, if_pos hi, filterMap_append, filterMap_cons, ← hrow]
      conv_rhs => rw [hsp, filterMap_append, filterMap_cons]
    · rw [set_eq_of_length_le hi]
  | delete i =>
    change (rows.eraseIdx i).filterMap f = _
    change rows[i]?.bind f = none at h
    rcases Nat.lt_or_ge i rows.length with hi | hi
    · rw [getElem?_eq_getElem hi] at h
      have hrow : f rows[i] = none := h
      have hsp : rows = rows.take i ++ rows[i] :: rows.drop (i + 1) := by
        rw [getElem_cons_drop, take_append_drop]
      rw [eraseIdx_eq_take_drop_succ, filterMap_append]
      conv_rhs => rw [hsp, filterMap_append, filterMap_cons_none hrow]
    · rw [eraseIdx_of_length_le hi]

theorem map_apply {view : ρ → φ} (h : (w.images rows).1.map view = (w.images rows).2.map view) :
    (w.apply rows).map view = rows.map view := by
  have hmap : ∀ image : Option ρ, image.bind (some ∘ view) = image.map view := by
    intro image
    cases image <;> rfl
  rw [← filterMap_eq_map]
  apply filterMap_apply
  rw [hmap, hmap]
  exact h

end RowWrite

/-- A trigger that tells the owners of a row when a fact about them changes.
The rows that `counts` selects are facts; an update tells the owners of a fact
that comes, or that was one of those which may go. -/
structure FactTrigger (ρ κ δ : Type) where
  owners : ρ → List κ
  counts : ρ → Bool
  leaves : ρ → Bool
  columns : ρ → δ
  leaves_counts : ∀ r, leaves r = true → counts r = true
  determined : ∀ r r', columns r = columns r' → owners r = owners r' ∧ counts r = counts r'

namespace FactTrigger

variable (t : FactTrigger ρ κ δ) {owner : κ}

/-- No update turns a fact that may not go into something else. -/
def Settled (images : Option ρ × Option ρ) : Prop :=
  ∀ old new, images = (some old, some new) → t.counts old = true → t.leaves old = true ∨ t.counts new = true

/-- Where every fact may go, every write is settled. -/
theorem settled_of_leaves (h : ∀ r, t.counts r = true → t.leaves r = true)
    (images : Option ρ × Option ρ) :
    t.Settled images :=
  fun old _ _ hcn => .inl (h old hcn)

variable [DecidableEq κ]

def fact (owner : κ) (r : ρ) : Option δ := if t.counts r = true ∧
    owner ∈ t.owners r then some (t.columns r) else none

def facts (owner : κ) (rows : List ρ) : List δ := rows.filterMap (t.fact owner)

variable {t}

theorem fact_eq_of_columns {r r' : ρ} (h : t.columns r = t.columns r') :
    t.fact owner r = t.fact owner r' := by
  obtain ⟨hown, hcn⟩ := t.determined r r' h
  unfold fact
  rw [hown, hcn, h]

theorem fact_eq_none_of_not_mem {r : ρ} (h : owner ∉ t.owners r) : t.fact owner r = none :=
  if_neg fun hmem => h hmem.2

theorem fact_eq_none_of_not_counts {r : ρ} (h : ¬ t.counts r = true) : t.fact owner r = none :=
  if_neg fun hcn => h hcn.1

variable [DecidableEq δ]

def targets (t : FactTrigger ρ κ δ) : Option ρ × Option ρ → List κ
  | (none, some new) => if t.counts new = true then t.owners new else []
  | (some old, some new) =>
    if (t.counts new = true ∨ t.leaves old = true) ∧
      t.columns old ≠ t.columns new then t.owners new ++ t.owners old
    else []
  | (some old, none) => if t.counts old = true then t.owners old else []
  | (none, none) => []

variable {images : Option ρ × Option ρ}

theorem bind_fact_eq (hset : t.Settled images) (h : owner ∉ t.targets images) :
    images.1.bind (t.fact owner) = images.2.bind (t.fact owner) := by
  obtain ⟨old, new⟩ := images
  cases old with
  | none =>
    cases new with
    | none => rfl
    | some new =>
      change none = t.fact owner new
      change owner ∉ if t.counts new = true then t.owners new else [] at h
      split_ifs at h with hcn
      · exact (fact_eq_none_of_not_mem h).symm
      · exact (fact_eq_none_of_not_counts hcn).symm
  | some old =>
    cases new with
    | none =>
      change t.fact owner old = none
      change owner ∉ if t.counts old = true then t.owners old else [] at h
      split_ifs at h with hcn
      · exact fact_eq_none_of_not_mem h
      · exact fact_eq_none_of_not_counts hcn
    | some new =>
      change t.fact owner old = t.fact owner new
      change owner ∉ if (t.counts new = true ∨ t.leaves old = true) ∧ t.columns old ≠ t.columns new then
        t.owners new ++ t.owners old else [] at h
      split_ifs at h with hfr
      · rw [mem_append, not_or] at h
        rw [fact_eq_none_of_not_mem h.1, fact_eq_none_of_not_mem h.2]
      · rw [not_and_or, not_or, not_not] at hfr
        rcases hfr with ⟨hnew, hla⟩ | hcl
        · have hold : ¬ t.counts old = true := by
            intro hcn
            rcases hset old new rfl hcn with hgo | hst
            · exact hla hgo
            · exact hnew hst
          rw [fact_eq_none_of_not_counts hold, fact_eq_none_of_not_counts hnew]
        · exact fact_eq_of_columns hcl

def isQuiet (t : FactTrigger ρ κ δ) : Option ρ × Option ρ → Bool
  | (none, some new) => !t.counts new
  | (some old, some new) => (!t.counts old && !t.counts new) || t.columns old = t.columns new
  | (some old, none) => !t.counts old
  | (none, none) => true

omit [DecidableEq κ] in
theorem targets_of_isQuiet (h : t.isQuiet images = true) : t.targets images = [] := by
  obtain ⟨old, new⟩ := images
  cases old with
  | none =>
    cases new with
    | none => rfl
    | some new =>
      have hnew : t.counts new = false := Bool.not_eq_true' _ ▸ h
      change (if t.counts new = true then t.owners new else []) = []
      rw [hnew]
      rfl
  | some old =>
    cases new with
    | none =>
      have hold : t.counts old = false := Bool.not_eq_true' _ ▸ h
      change (if t.counts old = true then t.owners old else []) = []
      rw [hold]
      rfl
    | some new =>
      change ((!t.counts old && !t.counts new) || t.columns old = t.columns new) = true at h
      rw [Bool.or_eq_true, Bool.and_eq_true, Bool.not_eq_true', Bool.not_eq_true', decide_eq_true_iff] at h
      change (if (t.counts new = true ∨ t.leaves old = true) ∧
        t.columns old ≠ t.columns new then _ else []) = []
      apply if_neg
      rintro ⟨hfr, hcl⟩
      rcases h with ⟨hold, hnew⟩ | hsm
      · rcases hfr with hcn | hla
        · rw [hnew] at hcn
          cases hcn
        · rw [t.leaves_counts old hla] at hold
          cases hold
      · exact hcl hsm

theorem facts_apply (hset : t.Settled (w.images rows)) (h : owner ∉ t.targets (w.images rows)) :
    t.facts owner (w.apply rows) = t.facts owner rows :=
  RowWrite.filterMap_apply (bind_fact_eq hset h)

end FactTrigger

def fires [DecidableEq φ] (view : ρ → φ) (images : Option ρ × Option ρ) : Bool :=
  images.1.map view ≠ images.2.map view

end

end WebOvpn
