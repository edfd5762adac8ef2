/-
Dictionaries that are filled row by row, in the order in which their keys first
come. A row may be skipped or refused, and a second value for a key is refused.
-/
import Mathlib.Data.List.Sort
import WebOvpn.Lib.Listing

namespace WebOvpn.Dict

open List

variable {κ β ρ : Type} [DecidableEq κ]

section

variable [DecidableEq β] {d d' : List (κ × β)} {key : κ} {value : β} {rows : List ρ}

def add (d : List (κ × β)) (key : κ) (value : β) : Option (List (κ × β)) :=
  match d.lookup key with
  | none => some (d ++ [(key, value)])
  | some old => if old = value then some d else none

theorem add_cases (h : add d key value = some d') :
    (d.lookup key = none ∧ d' = d ++ [(key, value)]) ∨ (d.lookup key = some value ∧ d' = d) := by
  unfold add at h
  split at h
  · rename_i hfr
    cases h
    exact .inl ⟨hfr, rfl⟩
  · rename_i old hold
    split at h
    · rename_i hsm
      cases h
      exact .inr ⟨hsm ▸ hold, rfl⟩
    · cases h

theorem mem_add (h : add d key value = some d') (entry : κ × β) :
    entry ∈ d' ↔ entry ∈ d ∨ entry = (key, value) := by
  rcases add_cases h with ⟨-, rfl⟩ | ⟨hold, rfl⟩
  · simp
  · constructor
    · exact .inl
    · rintro (hen | rfl)
      · exact hen
      · exact mem_of_lookup hold

theorem nodup_add (h : add d key value = some d') (hd : (d.map Prod.fst).Nodup) :
    (d'.map Prod.fst).Nodup := by
  rcases add_cases h with ⟨hfr, rfl⟩ | ⟨-, rfl⟩
  · exact nodup_concat hd hfr
  · exact hd

variable (entryOf : ρ → Option (Option (κ × β)))

/-- One row: `none` is a refusal, and a row without an entry is skipped. -/
def addRow (d : List (κ × β)) (row : ρ) : Option (List (κ × β)) :=
  match entryOf row with
  | none => none
  | some none => some d
  | some (some (key, value)) => add d key value

def collect (rows : List ρ) : Option (List (κ × β)) := rows.foldlM (addRow entryOf) []

variable {entryOf}

theorem mem_addRow {row : ρ} (h : addRow entryOf d row = some d') (entry : κ × β) :
    entry ∈ d' ↔ entry ∈ d ∨ entryOf row = some (some entry) := by
  unfold addRow at h
  split at h
  · cases h
  · rename_i hrow
    cases h
    simp [hrow]
  · rename_i key value hrow
    rw [mem_add h, hrow, Option.some.injEq, Option.some.injEq]
    exact or_congr_right eq_comm

theorem nodup_addRow {row : ρ} (h : addRow entryOf d row = some d') (hd : (d.map Prod.fst).Nodup) :
    (d'.map Prod.fst).Nodup := by
  unfold addRow at h
  split at h
  · cases h
  · cases h
    exact hd
  · exact nodup_add h hd

theorem foldlM_spec (h : rows.foldlM (addRow entryOf) d = some d') (hd : (d.map Prod.fst).Nodup) :
    (d'.map Prod.fst).Nodup ∧
      (∀ entry, entry ∈ d' ↔ entry ∈ d ∨ ∃ row ∈ rows, entryOf row = some (some entry)) ∧
      ∀ row ∈ rows, (entryOf row).isSome = true := by
  induction rows generalizing d with
  | nil =>
    cases h
    exact ⟨hd, by simp, by simp⟩
  | cons row rows ih =>
    rw [foldlM_cons] at h
    obtain ⟨middle, hmid, hrs⟩ := Option.bind_eq_some_iff.1 h
    obtain ⟨hnd, hmem, hsm⟩ := ih hrs (nodup_addRow hmid hd)
    refine ⟨hnd, ?_, ?_⟩
    · intro entry
      rw [hmem, mem_addRow hmid, or_assoc]
      simp
    · intro r hr
      rcases mem_cons.1 hr with rfl | hr
      · unfold addRow at hmid
        split at hmid
        · cases hmid
        · rename_i hrow
          rw [hrow]
          rfl
        · rename_i hrow
          rw [hrow]
          rfl
      · exact hsm r hr

theorem nodup_collect (h : collect entryOf rows = some d) : (d.map Prod.fst).Nodup :=
  (foldlM_spec h nodup_nil).1

theorem mem_collect (h : collect entryOf rows = some d) (entry : κ × β) :
    entry ∈ d ↔ ∃ row ∈ rows, entryOf row = some (some entry) := by
  rw [(foldlM_spec h nodup_nil).2.1]
  simp

theorem lookup_collect (h : collect entryOf rows = some d) :
    d.lookup key = some value ↔ ∃ row ∈ rows, entryOf row = some (some (key, value)) := by
  rw [← mem_collect h]
  exact ⟨mem_of_lookup, lookup_of_mem (nodup_collect h)⟩

end

variable {d : List (κ × β)} {key : κ} {value : β}

def set (d : List (κ × β)) (key : κ) (value : β) : List (κ × β) :=
  if key ∈ d.map Prod.fst then d.map fun entry => if entry.1 = key then (key, value) else entry
    else d ++ [(key, value)]

def ofList (entries : List (κ × β)) : List (κ × β) :=
  entries.foldl (fun d entry => set d entry.1 entry.2) []

theorem foldl_set (entries : List (κ × β)) (h : ((d ++ entries).map Prod.fst).Nodup) :
    entries.foldl (fun d entry => set d entry.1 entry.2) d = d ++ entries := by
  induction entries generalizing d with
  | nil => simp
  | cons entry entries ih =>
    obtain ⟨key, value⟩ := entry
    have hfr : key ∉ d.map Prod.fst := by
      rw [map_append, nodup_append] at h
      intro hmem
      exact h.2.2 key hmem key (by simp) rfl
    have hset : set d key value = d ++ [(key, value)] := if_neg hfr
    rw [foldl_cons, hset, ih]
    · simp
    · simpa using h

theorem ofList_eq (entries : List (κ × β)) (h : (entries.map Prod.fst).Nodup) :
    ofList entries = entries :=
  foldl_set entries h

theorem mem_set {entry : κ × β} (h : entry ∈ set d key value) : entry = (key, value) ∨ entry ∈ d := by
  unfold set at h
  split at h
  · obtain ⟨old, hold, rfl⟩ := mem_map.1 h
    split
    · exact .inl rfl
    · exact .inr hold
  · rcases mem_append.1 h with h | h
    · exact .inr h
    · exact .inl (mem_singleton.1 h)

theorem nodup_set (h : (d.map Prod.fst).Nodup) : ((set d key value).map Prod.fst).Nodup := by
  unfold set
  split
  · have hks : ((d.map fun entry => if entry.1 = key then (key, value) else entry).map Prod.fst) =
      d.map Prod.fst := by
      rw [map_map]
      apply map_congr_left
      intro entry _
      rw [Function.comp_apply]
      split
      · rename_i heq
        exact heq.symm
      · rfl
    rw [hks]
    exact h
  · rename_i hfr
    rw [map_append, nodup_append]
    refine ⟨h, nodup_singleton key, ?_⟩
    intro a ha b hb
    rw [mem_singleton.1 hb]
    rintro rfl
    exact hfr ha

def sortBy (le : κ → κ → Bool) (entries : List (κ × β)) : List (κ × β) :=
  entries.insertionSort fun a b => le a.1 b.1 = true

omit [DecidableEq κ] in
theorem sortBy_perm (le : κ → κ → Bool) (entries : List (κ × β)) : (sortBy le entries).Perm entries :=
  perm_insertionSort _ entries

omit [DecidableEq κ] in
theorem mem_sortBy {le : κ → κ → Bool} {entries : List (κ × β)} {entry : κ × β} :
    entry ∈ sortBy le entries ↔ entry ∈ entries :=
  (sortBy_perm le entries).mem_iff

end WebOvpn.Dict
