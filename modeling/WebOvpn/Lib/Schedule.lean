/-
Orders of things that depend on one another: lists in which everything comes
after what it depends on, the depth-first closure that finds one, and the
regrouping of one by classes.
-/
import Mathlib.Data.List.Nodup
import Mathlib.Data.List.Perm.Subperm

namespace WebOvpn.Schedule

open List

variable {α : Type} {deps : α → List α} {xs ys : List α} {x : α}

/-- Nothing in the list depends on itself, on something later or on something
outside. -/
structure Follows (deps : α → List α) (xs : List α) : Prop where
  closed : ∀ x ∈ xs, ∀ d ∈ deps x, d ∈ xs
  irreflexive : ∀ x ∈ xs, x ∉ deps x
  ordered : xs.Pairwise fun a b => b ∉ deps a

theorem Follows.nil : Follows deps [] := by
  constructor
  · nofun
  · nofun
  · exact List.Pairwise.nil

theorem Follows.mem_before (h : Follows deps xs) {before after : List α}
    (hxs : xs = before ++ x :: after) :
    ∀ d ∈ deps x, d ∈ before := by
  intro d hd
  have hx : x ∈ xs := by
    rw [hxs]
    exact mem_append_right _ mem_cons_self
  have hmem := h.closed x hx d hd
  have hord := h.ordered
  rw [hxs] at hmem hord
  rcases mem_append.1 hmem with hbf | hlt
  · exact hbf
  rcases mem_cons.1 hlt with rfl | haf
  · exact absurd hd (h.irreflexive _ hx)
  · have hpi := (pairwise_cons.1 (pairwise_append.1 hord).2.1).1 d haf
    exact absurd hd hpi

/-- What depends only on members of the list, and is none of them or of what
they depend on, can be put at its end. -/
theorem Follows.snoc (h : Follows deps xs) (hx : x ∉ xs) (hsl : x ∉ deps x)
    (hds : ∀ d ∈ deps x, d ∈ xs) :
    Follows deps (xs ++ [x]) := by
  constructor
  · intro y hy d hd
    rcases mem_append.1 hy with hold | hnew
    · exact mem_append_left _ (h.closed y hold d hd)
    · cases mem_singleton.1 hnew
      exact mem_append_left _ (hds d hd)
  · intro y hy
    rcases mem_append.1 hy with hold | hnew
    · exact h.irreflexive y hold
    · cases mem_singleton.1 hnew
      exact hsl
  · apply pairwise_append.2
    refine ⟨h.ordered, pairwise_singleton _ _, ?_⟩
    intro a ha b hb hdep
    cases mem_singleton.1 hb
    exact hx (h.closed a ha _ hdep)

section Closure

variable [DecidableEq α] {known : α → Option (List α)} {fuel : Nat} {visiting done : List α}

/-- Puts a thing after all it depends on behind what is done.  `none`: it is
unknown, or depends on itself by way of what is being visited.  The fuel is for
the depth. -/
def visit (known : α → Option (List α)) : Nat → List α → List α → α → Option (List α)
  | 0, _, _, _ => none
  | fuel + 1, visiting, done, x =>
    match known x with
    | none => none
    | some ds =>
      if x ∈ visiting then none
      else if x ∈ done then some done
      else (ds.foldlM (visit known fuel (x :: visiting)) done).map (· ++ [x])

def depsOf (known : α → Option (List α)) (x : α) : List α := (known x).getD []

/-- What a closure keeps: an order without repetitions of known things, none of
which is being visited. -/
structure Closed (known : α → Option (List α)) (visiting done : List α) : Prop where
  follows : Follows (depsOf known) done
  nodup : done.Nodup
  known : ∀ x ∈ done, (known x).isSome
  apart : ∀ x ∈ done, x ∉ visiting

structure Visited (known : α → Option (List α)) (visiting done : List α) (targets : List α)
    (result : List α) : Prop where
  closed : Closed known visiting result
  kept : ∀ x ∈ done, x ∈ result
  found : ∀ x ∈ targets, x ∈ result

omit [DecidableEq α] in
theorem visited_foldlM {ds : List α} {step : List α → α → Option (List α)} {result : List α}
    (hst : ∀ d ∈ ds, ∀ done result, Closed known visiting done → step done d = some result →
      Visited known visiting done [d] result)
    (hcl : Closed known visiting done) (h : ds.foldlM step done = some result) :
    Visited known visiting done ds result := by
  induction ds generalizing done with
  | nil =>
    cases Option.some.inj h
    exact ⟨hcl, fun _ hx => hx, nofun⟩
  | cons d rest ih =>
    rw [foldlM_cons] at h
    obtain ⟨middle, hfs, hrs⟩ := Option.bind_eq_some_iff.1 h
    have hone := hst d mem_cons_self done middle hcl hfs
    have hmr := ih (fun e he => hst e (mem_cons_of_mem d he)) hone.closed hrs
    refine ⟨hmr.closed, fun x hx => hmr.kept x (hone.kept x hx), ?_⟩
    intro x hx
    rcases mem_cons.1 hx with rfl | hx
    · exact hmr.kept x (hone.found x (mem_singleton_self x))
    · exact hmr.found x hx

theorem visited_visit {result : List α} (hcl : Closed known visiting done)
    (h : visit known fuel visiting done x = some result) : Visited known visiting done [x] result := by
  induction fuel generalizing visiting done x result with
  | zero => cases h
  | succ fuel ih =>
    unfold visit at h
    cases hkn : known x with
    | none => simp [hkn] at h
    | some ds =>
      simp only [hkn] at h
      by_cases hvis : x ∈ visiting
      · simp [hvis] at h
      rw [if_neg hvis] at h
      by_cases hdn : x ∈ done
      · rw [if_pos hdn] at h
        cases Option.some.inj h
        refine ⟨hcl, fun _ hx => hx, ?_⟩
        intro y hy
        cases mem_singleton.1 hy
        exact hdn
      rw [if_neg hdn] at h
      obtain ⟨inner, hinn, rfl⟩ := Option.map_eq_some_iff.1 h
      have hst : Closed known (x :: visiting) done := by
        refine ⟨hcl.follows, hcl.nodup, hcl.known, ?_⟩
        intro y hy hmem
        rcases mem_cons.1 hmem with rfl | hmem
        · exact hdn hy
        · exact hcl.apart y hy hmem
      have hall := visited_foldlM (fun d _ done result hc hs => ih hc hs) hst hinn
      have hnew : x ∉ inner := fun hx => hall.closed.apart x hx mem_cons_self
      have hds : depsOf known x = ds := by
        unfold depsOf
        rw [hkn]
        rfl
      have hsl : x ∉ depsOf known x := by
        rw [hds]
        exact fun hx => hnew (hall.found x hx)
      refine ⟨⟨?_, ?_, ?_, ?_⟩, ?_, ?_⟩
      · apply hall.closed.follows.snoc hnew hsl
        rw [hds]
        exact hall.found
      · rw [nodup_append]
        refine ⟨hall.closed.nodup, nodup_singleton x, ?_⟩
        intro y hy z hz heq
        cases mem_singleton.1 hz
        exact hnew (heq ▸ hy)
      · intro y hy
        rcases mem_append.1 hy with hy | hy
        · exact hall.closed.known y hy
        · cases mem_singleton.1 hy
          rw [hkn]
          rfl
      · intro y hy hmem
        rcases mem_append.1 hy with hy | hy
        · exact hall.closed.apart y hy (mem_cons_of_mem x hmem)
        · cases mem_singleton.1 hy
          exact hvis hmem
      · intro y hy
        exact mem_append_left _ (hall.kept y hy)
      · intro y hy
        cases mem_singleton.1 hy
        exact mem_append_right _ (mem_singleton_self x)

/-- The things and all they depend on, each after what it depends on. -/
def closure (known : α → Option (List α)) (fuel : Nat) (targets : List α) : Option (List α) :=
  targets.foldlM (visit known fuel []) []

theorem visited_closure {targets result : List α} (h : closure known fuel targets = some result) :
    Visited known [] [] targets result := by
  apply visited_foldlM _ _ h
  · intro d _ done result hcl hst
    exact visited_visit hcl hst
  · exact ⟨Follows.nil, nodup_nil, nofun, nofun⟩

end Closure

section Regrouping

variable {κ : Type} [DecidableEq κ] {keys : List κ} {key : α → κ}

def regroup (keys : List κ) (key : α → κ) (xs : List α) : List α :=
  keys.flatMap fun k => xs.filter fun x => key x = k

@[simp]
theorem mem_regroup : x ∈ regroup keys key xs ↔ x ∈ xs ∧ key x ∈ keys := by
  unfold regroup
  simp only [mem_flatMap, mem_filter, decide_eq_true_eq]
  constructor
  · rintro ⟨k, hk, hx, rfl⟩
    exact ⟨hx, hk⟩
  · rintro ⟨hx, hk⟩
    exact ⟨key x, hk, hx, rfl⟩

theorem nodup_regroup (hks : keys.Nodup) (hxs : xs.Nodup) : (regroup keys key xs).Nodup := by
  unfold regroup
  rw [nodup_flatMap]
  refine ⟨fun k _ => hxs.filter _, ?_⟩
  apply hks.imp
  intro k l hne x hk hl
  simp only [mem_filter, decide_eq_true_eq] at hk hl
  exact hne (hk.2.symm.trans hl.2)

/-- An order stays one under regrouping when nothing depends on a thing of a
later class. -/
theorem Follows.regroup (h : Follows deps xs) (hcov : ∀ x ∈ xs, key x ∈ keys)
    (hcl : keys.Pairwise fun k l => ∀ x ∈ xs, ∀ d ∈ deps x, key x = k → key d ≠ l) :
    Follows deps (regroup keys key xs) := by
  constructor
  · intro x hx d hd
    rw [mem_regroup] at hx ⊢
    have hmem := h.closed x hx.1 d hd
    exact ⟨hmem, hcov d hmem⟩
  · intro x hx
    exact h.irreflexive x (mem_regroup.1 hx).1
  · unfold Schedule.regroup
    rw [pairwise_flatMap]
    constructor
    · intro k _
      exact h.ordered.filter _
    · apply hcl.imp
      intro k l hlt a ha b hb hdep
      simp only [mem_filter, decide_eq_true_eq] at ha hb
      exact hlt a ha.1 b hdep ha.2 hb.2

end Regrouping

end WebOvpn.Schedule
