/-
Tables with a key: no two rows have the same one, and a row that is put takes the
place of the row with its key.
-/
import Mathlib.Data.List.Nodup

namespace WebOvpn

open List

structure Keyed {ρ κ : Type} (key : ρ → κ) where
  rows : List ρ
  unique : (rows.map key).Nodup

namespace Keyed

variable {ρ κ : Type} [DecidableEq κ] {key : ρ → κ}

def empty : Keyed key := ⟨[], List.nodup_nil⟩

def find (table : Keyed key) (k : κ) : Option ρ := table.rows.find? fun row => key row = k

variable {table : Keyed key} {row : ρ} {k : κ}

theorem key_of_find (h : table.find k = some row) : key row = k := by
  simpa using find?_some h

theorem find_eq_some_iff : table.find k = some row ↔ row ∈ table.rows ∧ key row = k := by
  constructor
  · intro h
    exact ⟨mem_of_find?_eq_some h, key_of_find h⟩
  · rintro ⟨hrow, rfl⟩
    unfold find
    cases hfn : table.rows.find? fun other => key other = key row with
    | none => exact absurd (find?_eq_none.1 hfn row hrow) (by simp)
    | some other =>
      have hkey : key other = key row := by simpa using find?_some hfn
      rw [inj_on_of_nodup_map table.unique (mem_of_find?_eq_some hfn) hrow hkey]

theorem find_eq_none_iff : table.find k = none ↔ ∀ row ∈ table.rows, key row ≠ k := by
  unfold find
  simp

theorem mem_iff_find : row ∈ table.rows ↔ table.find (key row) = some row := by
  rw [find_eq_some_iff, and_iff_left rfl]

theorem map_replace (rows : List ρ) (row : ρ) :
    (rows.map fun other => if key other = key row then row else other).map key = rows.map key := by
  rw [map_map]
  apply map_congr_left
  intro other _
  dsimp only [Function.comp_apply]
  split_ifs with h
  · exact h.symm
  · rfl

def put (table : Keyed key) (row : ρ) : Keyed key :=
  if h : table.find (key row) = none then
    { rows := table.rows ++ [row]
      unique := by
        rw [List.map_append, List.map_singleton, ← List.concat_eq_append]
        apply table.unique.concat
        intro hmem
        obtain ⟨other, hot, hkey⟩ := List.mem_map.1 hmem
        exact find_eq_none_iff.1 h other hot hkey }
  else
    { rows := table.rows.map fun other => if key other = key row then row else other
      unique := by
        rw [map_replace]
        exact table.unique }

theorem mem_put {other : ρ} : other ∈ (table.put row).rows ↔ other = row ∨ other ∈ table.rows ∧
    key other ≠ key row := by
  unfold put
  split_ifs with hfr
  · rw [mem_append, mem_singleton, or_comm]
    apply or_congr_right
    exact ⟨fun h => ⟨h, find_eq_none_iff.1 hfr other h⟩, And.left⟩
  · obtain ⟨old, hold⟩ := Option.ne_none_iff_exists'.1 hfr
    obtain ⟨hmem, hkey⟩ := find_eq_some_iff.1 hold
    simp only [mem_map]
    constructor
    · rintro ⟨source, hsrc, rfl⟩
      split_ifs with h
      · exact .inl rfl
      · exact .inr ⟨hsrc, h⟩
    · rintro (rfl | ⟨hot, hne⟩)
      · exact ⟨old, hmem, if_pos hkey⟩
      · exact ⟨other, hot, if_neg hne⟩

theorem find_put_of_ne (h : key row ≠ k) : (table.put row).find k = table.find k := by
  apply Option.ext
  intro other
  rw [find_eq_some_iff, find_eq_some_iff, mem_put]
  constructor
  · rintro ⟨rfl | ⟨hot, -⟩, hkey⟩
    · exact absurd hkey h
    · exact ⟨hot, hkey⟩
  · rintro ⟨hot, rfl⟩
    exact ⟨.inr ⟨hot, h.symm⟩, rfl⟩

theorem find_put : (table.put row).find k = if key row = k then some row else table.find k := by
  split_ifs with h
  · subst h
    exact find_eq_some_iff.2 ⟨mem_put.2 (.inl rfl), rfl⟩
  · exact find_put_of_ne h

def map (table : Keyed key) (f : ρ → ρ) (hf : ∀ row, key (f row) = key row) : Keyed key :=
  ⟨table.rows.map f, by
    rw [List.map_map, funext (f := key ∘ f) hf]
    exact table.unique⟩

theorem find_map {f : ρ → ρ} (hf : ∀ row, key (f row) = key row) :
    (table.map f hf).find k = (table.find k).map f := by
  unfold find map
  rw [find?_map]
  simp only [Function.comp_def, hf]

def filter (table : Keyed key) (kept : ρ → Bool) : Keyed key :=
  ⟨table.rows.filter kept, table.unique.sublist (List.filter_sublist.map key)⟩

theorem find_filter {kept : ρ → Bool} : (table.filter kept).find k = (table.find k).filter kept := by
  apply Option.ext
  intro row
  rw [find_eq_some_iff, Option.filter_eq_some_iff, find_eq_some_iff]
  change row ∈ table.rows.filter kept ∧ _ ↔ _
  rw [mem_filter]
  exact and_right_comm

end Keyed

end WebOvpn
