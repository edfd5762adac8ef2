/-
Answers to many queries read at once: the keys are cut into pieces, each piece
is one query, and the rows it gives are gathered under their keys.
-/
import Mathlib.Data.List.Dedup
import Mathlib.Data.List.MinMax
import Mathlib.Data.List.Sort

namespace WebOvpn.Chunks

open List

variable {κ ρ : Type*}

/-- `ordered[index:index + size] for index in range(0, len(ordered), size)`. -/
def chunksOf (size : Nat) (ordered : List κ) : List (List κ) :=
  (List.range ((ordered.length + size - 1) / size)).map fun index => (ordered.drop (index * size)).take size

theorem flatMap_take (size count : Nat) (ordered : List κ) :
    ((List.range count).flatMap fun index => (ordered.drop (index * size)).take size) =
      ordered.take (count * size) := by
  induction count with
  | zero => simp
  | succ count ih =>
    rw [range_succ, flatMap_append, ih, Nat.succ_mul, take_add]
    simp

theorem length_le_pieces {size : Nat} (hsz : 0 < size) (n : Nat) : n ≤ (n + size - 1) / size * size := by
  have hmod := Nat.div_add_mod (n + size - 1) size
  have hlt := Nat.mod_lt (n + size - 1) hsz
  rw [Nat.mul_comm] at hmod
  omega

theorem flatten_chunksOf {size : Nat} (hsz : 0 < size) (ordered : List κ) :
    (chunksOf size ordered).flatten = ordered := by
  have hfl := flatMap_take size ((ordered.length + size - 1) / size) ordered
  rw [flatMap_def] at hfl
  unfold chunksOf
  rw [hfl]
  exact take_of_length_le (length_le_pieces hsz _)

variable [DecidableEq κ]

def append (keyOf : ρ → Option κ) (found : κ → List ρ) (row : ρ) : κ → List ρ :=
  match keyOf row with
  | some key => Function.update found key (found key ++ [row])
  | none => found

def selected (keyOf : ρ → Option κ) (values : List κ) (rows : List ρ) : List ρ :=
  rows.filter fun row => (keyOf row).any (· ∈ values)

def gather (keyOf : ρ → Option κ) (pieces : List (List κ)) (rows : List ρ) : κ → List ρ :=
  pieces.foldl (fun found values => (selected keyOf values rows).foldl (append keyOf) found) fun _ => []

variable (keyOf : ρ → Option κ) {found : κ → List ρ} {rows : List ρ} {pieces : List (List κ)} {key : κ}

theorem append_apply (found : κ → List ρ) (row : ρ) (key : κ) :
    append keyOf found row key = found key ++ if keyOf row = some key then [row] else [] := by
  unfold append
  cases hown : keyOf row with
  | none => simp
  | some own =>
    by_cases heq : key = own
    · subst heq
      simp
    · have hne : ¬own = key := fun h => heq h.symm
      simp [Function.update_of_ne heq, hne]

theorem foldl_append (rows : List ρ) (found : κ → List ρ) (key : κ) :
    rows.foldl (append keyOf) found key = found key ++ rows.filter fun row => keyOf row = some key := by
  induction rows generalizing found with
  | nil => simp
  | cons row rows ih =>
    rw [foldl_cons, ih, append_apply, append_assoc]
    by_cases hrow : keyOf row = some key <;> simp [hrow]

theorem selected_filter (values : List κ) (rows : List ρ) (key : κ) :
    ((selected keyOf values rows).filter fun row => keyOf row = some key) =
      if key ∈ values then rows.filter fun row => keyOf row = some key else [] := by
  unfold selected
  rw [filter_filter]
  split
  · rename_i hkey
    apply filter_congr
    intro row _
    by_cases hrow : keyOf row = some key <;> simp [hrow, hkey]
  · rename_i hkey
    apply filter_eq_nil_iff.2
    intro row _ hrow
    simp only [Bool.and_eq_true, decide_eq_true_eq] at hrow
    rw [hrow.1] at hrow
    simp [hkey] at hrow

theorem foldl_gather (pieces : List (List κ)) (found : κ → List ρ) (hnd : pieces.flatten.Nodup) :
    pieces.foldl
      (fun found values => (selected keyOf values rows).foldl (append keyOf) found) found key =
      found key ++ if key ∈ pieces.flatten then rows.filter fun row => keyOf row = some key else [] := by
  induction pieces generalizing found with
  | nil => simp
  | cons values pieces ih =>
    rw [flatten_cons] at hnd
    have hrs := (nodup_append.1 hnd).2.1
    have hds := disjoint_of_nodup_append hnd
    rw [foldl_cons, ih _ hrs, foldl_append, selected_filter, append_assoc, flatten_cons]
    -- a key of this piece is in no later one
    by_cases hkey : key ∈ values
    · have hlt : key ∉ pieces.flatten := fun h => hds hkey h
      simp [hkey, hlt]
    · simp [hkey]

theorem gather_apply (hnd : pieces.flatten.Nodup) (hkey : key ∈ pieces.flatten) :
    gather keyOf pieces rows key = rows.filter fun row => keyOf row = some key := by
  unfold gather
  rw [foldl_gather keyOf pieces _ hnd]
  simp [hkey]

section single

variable (keyOf : ρ → κ)

def put (found : κ → Option ρ) (row : ρ) : κ → Option ρ := Function.update found (keyOf row) (some row)

def collect (queries : List (List ρ)) : κ → Option ρ :=
  queries.foldl (fun found rows => rows.foldl (put keyOf) found) fun _ => none

theorem foldl_put {rows : List ρ} {found : κ → Option ρ} {key : κ} (best : Option ρ)
    (honl : ∀ row ∈ rows, keyOf row = key → best = some row) :
    rows.foldl (put keyOf) found key = if ∃ row ∈ rows, keyOf row = key then best else found key := by
  induction rows generalizing found with
  | nil => simp
  | cons row rows ih =>
    rw [foldl_cons, ih fun r hr => honl r (mem_cons_of_mem _ hr)]
    by_cases hrow : keyOf row = key
    · have hbs := honl row mem_cons_self hrow
      subst hrow
      simp [put, hbs]
    · have hput : put keyOf found row key = found key := Function.update_of_ne (fun h => hrow h.symm) _ _
      simp [hput, hrow]

theorem collect_apply {queries : List (List ρ)} {key : κ} {best : Option ρ}
    (honl : ∀ rows ∈ queries, ∀ row ∈ rows, keyOf row = key → best = some row)
    (hsm : ∀ row, best = some row → ∃ rows ∈ queries, ∃ row ∈ rows, keyOf row = key) :
    collect keyOf queries key = best := by
  have hfl : collect keyOf queries = queries.flatten.foldl (put keyOf) fun _ => none := by
    unfold collect
    rw [foldl_flatten]
  rw [hfl, foldl_put keyOf best]
  · split
    · rfl
    · rename_i hnn
      cases hbs : best with
      | none => rfl
      | some row =>
        obtain ⟨rows, hrs, r, hr, hkey⟩ := hsm row hbs
        exact absurd ⟨r, mem_flatten.2 ⟨rows, hrs, hr⟩, hkey⟩ hnn
  · intro row hrow
    obtain ⟨rows, hrs, hmem⟩ := mem_flatten.1 hrow
    exact honl rows hrs row hmem

variable {ι : Type*} [LinearOrder ι] (rank : ρ → ι)

/-- `ORDER BY rank DESC LIMIT 1`. -/
def newest (rows : List ρ) : Option ρ := rows.argmax rank

/-- The rows whose `ROW_NUMBER() OVER (PARTITION BY key ORDER BY rank DESC)` is 1. -/
def heads (rows : List ρ) : List ρ :=
  (rows.map keyOf).dedup.filterMap fun key => newest rank (rows.filter fun row => keyOf row = key)

theorem mem_heads {rows : List ρ} {row : ρ} :
    row ∈ heads keyOf rank rows ↔ newest rank (rows.filter fun r => keyOf r = keyOf row) = some row := by
  unfold heads
  rw [mem_filterMap]
  constructor
  · rintro ⟨key, -, hnew⟩
    have hkey := (mem_filter.1 (argmax_mem hnew)).2
    rw [decide_eq_true_eq] at hkey
    rw [hkey]
    exact hnew
  · intro hnew
    have hrow := (mem_filter.1 (argmax_mem hnew)).1
    exact ⟨keyOf row, mem_dedup.2 (mem_map_of_mem hrow), hnew⟩

theorem collect_heads (rows : List ρ) {pieces : List (κ → Bool)} {key : κ}
    (hpie : ∃ asked ∈ pieces, asked key = true) :
    collect keyOf
      (pieces.map fun asked => heads keyOf rank (rows.filter fun row => asked (keyOf row))) key =
      newest rank (rows.filter fun row => keyOf row = key) := by
  have hsm {asked : κ → Bool} (hask : asked key = true) :
      ((rows.filter fun row => asked (keyOf row)).filter fun row => keyOf row = key) =
        rows.filter fun row => keyOf row = key := by
    rw [filter_filter]
    apply filter_congr
    intro row _
    by_cases hrow : keyOf row = key <;> simp [hrow, hask]
  apply collect_apply
  · intro found hfn row hrow hkey
    obtain ⟨asked, -, rfl⟩ := mem_map.1 hfn
    have hnew := (mem_heads keyOf rank).1 hrow
    rw [hkey] at hnew
    have hask : asked key = true := by
      have hmem := (mem_filter.1 (mem_filter.1 (argmax_mem hnew)).1).2
      rw [← hkey]
      exact hmem
    rw [hsm hask] at hnew
    exact hnew
  · intro row hrow
    obtain ⟨asked, hmem, hask⟩ := hpie
    have hkey := (mem_filter.1 (argmax_mem hrow)).2
    rw [decide_eq_true_eq] at hkey
    refine ⟨_, mem_map_of_mem hmem, row, (mem_heads keyOf rank).2 ?_, hkey⟩
    rw [hkey, hsm hask]
    exact hrow

end single

end WebOvpn.Chunks
