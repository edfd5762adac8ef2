/-
Lists of named entries, as a directory is read, and the outcome of reading
each of their entries in turn.
-/
import Mathlib.Data.List.Nodup

namespace WebOvpn

open List

section

variable {κ α : Type} [BEq κ] [LawfulBEq κ] {entries : List (κ × α)} {key : κ} {a : α}

theorem lookup_of_mem (hnd : (entries.map Prod.fst).Nodup) (h : (key, a) ∈ entries) :
    entries.lookup key = some a := by
  induction entries with
  | nil => simp at h
  | cons entry rest ih =>
    obtain ⟨k, b⟩ := entry
    simp only [map_cons, nodup_cons] at hnd
    rcases mem_cons.1 h with heq | hmem
    · simp only [Prod.mk.injEq] at heq
      simp [heq.1, heq.2]
    · have hne : (key == k) = false := by
        simp only [beq_eq_false_iff_ne]
        rintro rfl
        exact hnd.1 (mem_map.2 ⟨_, hmem, rfl⟩)
      simpa [lookup_cons, hne] using ih hnd.2 hmem

theorem mem_of_lookup (h : entries.lookup key = some a) : (key, a) ∈ entries := by
  obtain ⟨before, after, rfl, -⟩ := List.lookup_eq_some_iff.1 h
  simp

theorem lookup_eq_none_of_not_mem (h : key ∉ entries.map Prod.fst) : entries.lookup key = none := by
  rw [List.lookup_eq_none_iff]
  intro entry hen
  rw [bne_iff_ne]
  rintro rfl
  exact h (mem_map.2 ⟨entry, hen, rfl⟩)

theorem lookup_cons_of_ne {k : κ} (h : key ≠ k) :
    ((k, a) :: entries).lookup key = entries.lookup key := by
  rw [lookup_cons, beq_eq_false_iff_ne.2 h]

theorem lookup_filter_ne [DecidableEq κ] (entries : List (κ × α)) (gone key : κ) :
    List.lookup key (entries.filter fun entry => entry.1 ≠ gone) =
      if key = gone then none else List.lookup key entries := by
  induction entries with
  | nil => simp
  | cons entry rest ih =>
    obtain ⟨k, b⟩ := entry
    by_cases hk : k = gone
    · rw [filter_cons_of_neg (by simpa using hk), ih]
      split_ifs with hkey
      · rfl
      · rw [lookup_cons_of_ne fun h => hkey (h.trans hk)]
    · rw [filter_cons_of_pos (by simpa using hk)]
      by_cases hkey : key = k
      · subst hkey
        simp [hk]
      · rw [lookup_cons_of_ne hkey, lookup_cons_of_ne hkey, ih]

theorem lookup_concat_self (hfr : entries.lookup key = none) :
    (entries ++ [(key, a)]).lookup key = some a := by
  rw [lookup_append, hfr]
  simp

theorem lookup_concat_of_ne {k : κ} (h : key ≠ k) :
    (entries ++ [(k, a)]).lookup key = entries.lookup key := by
  rw [lookup_append, lookup_cons_of_ne h]
  simp

omit [LawfulBEq κ] in
theorem lookup_concat_of_some {k : κ} {b : α} (h : entries.lookup key = some b) :
    (entries ++ [(k, a)]).lookup key = some b := by
  rw [lookup_append, h]
  rfl

/-- What is found after an entry with a new name is added. -/
theorem lookup_concat_eq_some {k : κ} {b : α} (hfr : entries.lookup k = none)
    (h : (entries ++ [(k, a)]).lookup key = some b) :
    key = k ∧ b = a ∨ key ≠ k ∧ entries.lookup key = some b := by
  by_cases hkey : key = k
  · subst hkey
    rw [lookup_concat_self hfr] at h
    cases h
    exact .inl ⟨rfl, rfl⟩
  · rw [lookup_concat_of_ne hkey] at h
    exact .inr ⟨hkey, h⟩

theorem not_mem_of_lookup (h : entries.lookup key = none) : key ∉ entries.map Prod.fst := by
  intro hmem
  obtain ⟨entry, hen, rfl⟩ := mem_map.1 hmem
  have hne := List.lookup_eq_none_iff.1 h entry hen
  simp at hne

theorem nodup_concat (hnd : (entries.map Prod.fst).Nodup) (hfr : entries.lookup key = none) :
    ((entries ++ [(key, a)]).map Prod.fst).Nodup := by
  rw [map_append, nodup_append]
  refine ⟨hnd, nodup_singleton _, ?_⟩
  intro k hk k' hk' heq
  rw [map_singleton, mem_singleton] at hk'
  subst hk' heq
  exact not_mem_of_lookup hfr hk

end

section

variable {α β : Type} {f : α → Option β} {items : List α}

theorem mapM_eq_some_iff {results : List β} :
    items.mapM f = some results ↔ List.Forall₂ (fun a b => f a = some b) items results := by
  induction items generalizing results with
  | nil =>
    rw [mapM_nil, forall₂_nil_left_iff]
    exact ⟨fun h => (Option.some.inj h).symm, fun h => congrArg some h.symm⟩
  | cons a rest ih =>
    rw [mapM_cons, forall₂_cons_left_iff]
    constructor
    · intro h
      obtain ⟨b, hb, h⟩ := Option.bind_eq_some_iff.1 h
      obtain ⟨bs, hbs, h⟩ := Option.bind_eq_some_iff.1 h
      exact ⟨b, bs, hb, ih.1 hbs, (Option.some.inj h).symm⟩
    · rintro ⟨b, bs, hb, hbs, rfl⟩
      rw [hb, ih.2 hbs]
      rfl

end

section

variable {ε α β : Type} {f : α → Except ε β} {items : List α}

theorem mapM_eq_ok_iff {results : List β} :
    items.mapM f = .ok results ↔ List.Forall₂ (fun a b => f a = .ok b) items results := by
  induction items generalizing results with
  | nil =>
    rw [mapM_nil, forall₂_nil_left_iff]
    constructor
    · intro h
      cases h
      rfl
    · intro h
      subst h
      rfl
  | cons a rest ih =>
    rw [mapM_cons, forall₂_cons_left_iff]
    constructor
    · intro h
      cases hb : f a with
      | error e =>
        rw [hb] at h
        cases h
      | ok b =>
        rw [hb] at h
        cases hbs : rest.mapM f with
        | error e =>
          rw [hbs] at h
          cases h
        | ok bs =>
          rw [hbs] at h
          cases h
          exact ⟨b, bs, rfl, ih.1 hbs, rfl⟩
    · rintro ⟨b, bs, hb, hbs, rfl⟩
      rw [hb, ih.2 hbs]
      rfl

theorem mapM_eq_ok {g : α → β} (items : List α) (h : ∀ x ∈ items, f x = .ok (g x)) :
    items.mapM f = .ok (items.map g) := by
  rw [mapM_eq_ok_iff, forall₂_map_right_iff, forall₂_same]
  exact h

theorem mem_of_mapM {results : List β} (h : items.mapM f = .ok results) {b : β} :
    b ∈ results ↔ ∃ a ∈ items, f a = .ok b := by
  induction mapM_eq_ok_iff.1 h with
  | nil => simp
  | cons hb hrs ih =>
    have hrs := ih (mapM_eq_ok_iff.2 hrs)
    rw [mem_cons, hrs, exists_mem_cons_iff, hb, Except.ok.injEq, @eq_comm _ b]

/-- Reading all entries succeeds when each can be read. -/
theorem mapM_isOk (h : ∀ a ∈ items, ∃ b, f a = .ok b) : ∃ results, items.mapM f = .ok results := by
  induction items with
  | nil => exact ⟨[], rfl⟩
  | cons a rest ih =>
    obtain ⟨b, hb⟩ := h a mem_cons_self
    obtain ⟨bs, hbs⟩ := ih fun a' ha' => h a' (mem_cons_of_mem a ha')
    rw [mapM_cons, hb, hbs]
    exact ⟨b :: bs, rfl⟩

theorem mapM_eq_error {x : α} {e : ε} (hx : x ∈ items) (hf : f x = .error e) :
    ∃ e', items.mapM f = .error e' := by
  induction items with
  | nil => cases hx
  | cons y rest ih =>
    rw [mapM_cons]
    cases hy : f y with
    | error e' => exact ⟨e', rfl⟩
    | ok b =>
      rcases mem_cons.1 hx with rfl | hx
      · rw [hy] at hf
        cases hf
      · obtain ⟨e', he'⟩ := ih hx
        exact ⟨e', by rw [he']; rfl⟩

end

end WebOvpn
