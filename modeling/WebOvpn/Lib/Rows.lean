/-
Logs of changes, replayed over a table by key, and tables whose rows are added
and changed in place, but never removed: unique indexes on the rows, and what
every row goes through.
-/
import Mathlib.Data.List.Nodup

namespace WebOvpn

open List

section

variable {ε κ ν : Type} [DecidableEq κ] (key : ε → κ) (act : ε → Option ν → Option ν)

def replay (log : List ε) (table : κ → Option ν) : κ → Option ν :=
  log.foldl (fun table entry => Function.update table (key entry) (act entry (table (key entry)))) table

variable {key act} {log more : List ε} {table table' : κ → Option ν} {k : κ} {entry : ε}

theorem replay_append :
    replay key act (log ++ more) table = replay key act more (replay key act log table) :=
  List.foldl_append

theorem replay_of_not_mem (h : ∀ entry ∈ log, key entry ≠ k) :
    replay key act log table k = table k := by
  induction log generalizing table with
  | nil => rfl
  | cons first rest ih =>
    have hrs : replay key act rest (Function.update table (key first) (act first (table (key first)))) k = _ :=
      ih fun entry hen => h entry (mem_cons_of_mem _ hen)
    rw [Function.update_of_ne (h first mem_cons_self).symm] at hrs
    exact hrs

theorem replay_of_mem (hnd : (log.map key).Nodup) (hen : entry ∈ log) :
    replay key act log table (key entry) = act entry (table (key entry)) := by
  induction log generalizing table with
  | nil => cases hen
  | cons first rest ih =>
    obtain ⟨hfs, hrs⟩ := nodup_cons.1 hnd
    rcases mem_cons.1 hen with rfl | hmem
    · have hlt : ∀ later ∈ rest, key later ≠ key entry := fun later hlt heq =>
        hfs (heq ▸ mem_map_of_mem hlt)
      have hkp : replay key act rest
        (Function.update table (key entry) (act entry (table (key entry)))) (key entry) = _ :=
        replay_of_not_mem hlt
      rw [Function.update_self] at hkp
      exact hkp
    · have hne : key entry ≠ key first := fun heq => hfs (heq ▸ mem_map_of_mem hmem)
      have hkp : replay key act rest
        (Function.update table (key first) (act first (table (key first)))) (key entry) = _ :=
        ih hrs hmem
      rw [Function.update_of_ne hne] at hkp
      exact hkp

/-- The entries lead from one table to another when there is at most one for a
row, each makes its row what it is afterwards, and the rows without one are the
same. -/
theorem replay_eq_of_diff (hnd : (log.map key).Nodup)
    (hes : ∀ entry ∈ log, act entry (table (key entry)) = table' (key entry))
    (hot : ∀ k, k ∉ log.map key → table k = table' k) : replay key act log table = table' := by
  funext k
  by_cases hk : k ∈ log.map key
  · obtain ⟨entry, hen, rfl⟩ := mem_map.1 hk
    rw [replay_of_mem hnd hen]
    exact hes entry hen
  · have hnn : ∀ entry ∈ log, key entry ≠ k := by
      rintro entry hen rfl
      exact hk (mem_map_of_mem hen)
    rw [replay_of_not_mem hnn]
    exact hot k hk

end

variable {ρ : Type}

section

variable {clash : ρ → ρ → Bool} {rows : List ρ} {f : ρ → ρ} {id : Nat}

def Unclashed (clash : ρ → ρ → Bool) (rows : List ρ) : Prop :=
  ∀ (i j : Nat) (r r' : ρ), rows[i]? = some r → rows[j]? = some r' → i ≠ j → clash r r' = false

theorem pairwise_iff_unclashed (hsym : ∀ r r', clash r r' = clash r' r) :
    rows.Pairwise (fun r r' => clash r r' = false) ↔ Unclashed clash rows := by
  rw [pairwise_iff_getElem]
  constructor
  · intro h i j r r' hi hj hne
    obtain ⟨hi', rfl⟩ := List.getElem?_eq_some_iff.1 hi
    obtain ⟨hj', rfl⟩ := List.getElem?_eq_some_iff.1 hj
    rcases Nat.lt_or_gt_of_ne hne with hlt | hgt
    · exact h i j hi' hj' hlt
    · rw [hsym]
      exact h j i hj' hi' hgt
  · intro h i j hi hj hlt
    exact h i j _ _ (getElem?_eq_getElem hi) (getElem?_eq_getElem hj) (Nat.ne_of_lt hlt)

theorem getElem?_append_cases {news : List ρ} {i : Nat} {r : ρ} (h : (rows ++ news)[i]? = some r) :
    i < rows.length ∧ rows[i]? = some r ∨ rows.length ≤ i ∧ news[i - rows.length]? = some r := by
  rw [getElem?_append] at h
  split_ifs at h with hlt
  · exact .inl ⟨hlt, h⟩
  · exact .inr ⟨Nat.le_of_not_lt hlt, h⟩

theorem getElem?_modify_cases {i : Nat} {r : ρ} (h : (rows.modify id f)[i]? = some r) :
    i ≠ id ∧ rows[i]? = some r ∨ i = id ∧ ∃ old, rows[id]? = some old ∧ r = f old := by
  rw [getElem?_modify] at h
  obtain ⟨old, hold, hr⟩ := Option.map_eq_some_iff.1 h
  split_ifs at hr with hid
  · subst hid
    exact .inr ⟨rfl, old, hold, hr.symm⟩
  · exact .inl ⟨Ne.symm hid, hold.trans (congrArg some hr)⟩

theorem mem_modify_cases {r : ρ} (h : r ∈ rows.modify id f) :
    r ∈ rows ∨ ∃ old, rows[id]? = some old ∧ r = f old := by
  obtain ⟨i, hi⟩ := mem_iff_getElem?.1 h
  rcases getElem?_modify_cases hi with ⟨-, hold⟩ | ⟨-, hold⟩
  · exact .inl (mem_of_getElem? hold)
  · exact .inr hold

theorem Unclashed.append (h : Unclashed clash rows) (hsym : ∀ r r', clash r r' = clash r' r)
    {news : List ρ}
    (hns : Unclashed clash news) (hcl : ∀ r ∈ news, ∀ r' ∈ rows, clash r r' = false) :
    Unclashed clash (rows ++ news) := by
  intro i j r r' hi hj hne
  rcases getElem?_append_cases hi with ⟨-, hi'⟩ | ⟨hle, hi'⟩
  · rcases getElem?_append_cases hj with ⟨-, hj'⟩ | ⟨-, hj'⟩
    · exact h i j r r' hi' hj' hne
    · rw [hsym]
      exact hcl r' (mem_of_getElem? hj') r (mem_of_getElem? hi')
  · rcases getElem?_append_cases hj with ⟨-, hj'⟩ | ⟨hle', hj'⟩
    · exact hcl r (mem_of_getElem? hi') r' (mem_of_getElem? hj')
    · exact hns _ _ r r' hi' hj' (by omega)

theorem Unclashed.modify (h : Unclashed clash rows) (hsym : ∀ r r', clash r r' = clash r' r)
    (hcl : ∀ r, rows[id]? = some r → ∀ j r', rows[j]? = some r' → j ≠ id → clash (f r) r' = false) :
    Unclashed clash (rows.modify id f) := by
  intro i j a b hi hj hne
  rcases getElem?_modify_cases hi with ⟨hi', ha⟩ | ⟨rfl, old, hold, rfl⟩
  · rcases getElem?_modify_cases hj with ⟨-, hb⟩ | ⟨rfl, old, hold, rfl⟩
    · exact h i j a b ha hb hne
    · rw [hsym]
      exact hcl old hold i a ha hne
  · rcases getElem?_modify_cases hj with ⟨hj', hb⟩ | ⟨rfl, -⟩
    · exact hcl old hold j b hb hj'
    · exact absurd rfl hne

theorem Unclashed.map (h : Unclashed clash rows)
    (hcl : ∀ r r', clash (f r) (f r') = true → clash r r' = true) :
    Unclashed clash (rows.map f) := by
  intro i j a b hi hj hne
  rw [getElem?_map] at hi hj
  obtain ⟨r, hr, rfl⟩ := Option.map_eq_some_iff.1 hi
  obtain ⟨r', hr', rfl⟩ := Option.map_eq_some_iff.1 hj
  rw [← Bool.not_eq_true]
  intro hfi
  have hok := h i j r r' hr hr' hne
  rw [hcl r r' hfi] at hok
  cases hok

end

section

variable {R : ρ → ρ → Prop} {rows rows' rows'' : List ρ} {f : ρ → ρ} {id : Nat}

/-- Every row is still at its place, and related to what it was. -/
def Grows (R : ρ → ρ → Prop) (rows rows' : List ρ) : Prop :=
  ∀ (i : Nat) (r : ρ), rows[i]? = some r → ∃ r', rows'[i]? = some r' ∧ R r r'

theorem grows_refl (href : ∀ r, R r r) (rows : List ρ) : Grows R rows rows :=
  fun _ r hr => ⟨r, hr, href r⟩

theorem Grows.trans (htr : ∀ a b c, R a b → R b c → R a c) (h : Grows R rows rows')
    (h' : Grows R rows' rows'') : Grows R rows rows'' := by
  intro i r hr
  obtain ⟨r', hr', hR⟩ := h i r hr
  obtain ⟨r'', hr'', hR'⟩ := h' i r' hr'
  exact ⟨r'', hr'', htr _ _ _ hR hR'⟩

theorem grows_append (href : ∀ r, R r r) (rows news : List ρ) : Grows R rows (rows ++ news) := by
  intro i r hr
  exact ⟨r, (getElem?_append_left (List.getElem?_eq_some_iff.1 hr).1).trans hr, href r⟩

theorem grows_modify (href : ∀ r, R r r) (h : ∀ r, rows[id]? = some r → R r (f r)) :
    Grows R rows (rows.modify id f) := by
  intro i r hr
  rw [getElem?_modify, hr]
  split_ifs with hid
  · subst hid
    exact ⟨f r, rfl, h r hr⟩
  · exact ⟨r, rfl, href r⟩

theorem grows_map (h : ∀ r, R r (f r)) : Grows R rows (rows.map f) := by
  intro i r hr
  rw [getElem?_map, hr]
  exact ⟨f r, rfl, h r⟩

end

end WebOvpn
