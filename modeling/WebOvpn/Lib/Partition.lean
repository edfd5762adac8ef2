/-
Sequences cut into increasing pieces: when the pieces can be told from the sequence
and their number.
-/
import Mathlib.Data.List.Chain

namespace WebOvpn.Partition

open List

variable {α : Type} (lt : α → α → Prop)

/-- The two pieces cannot be one, and neither is empty. -/
def Boundary (l m : List α) : Prop := ∃ a ∈ l.getLast?, ∃ b ∈ m.head?, ¬ lt a b

/-- The pieces stand apart: there is nothing in them, or a boundary between any two
of them. -/
def Apart (pieces : List (List α)) : Prop := (∀ l ∈ pieces, l = []) ∨ pieces.IsChain (Boundary lt)

variable {lt}

variable {l m : List α} {pieces : List (List α)}

theorem Boundary.ne_nil (h : Boundary lt l m) : l ≠ [] ∧ m ≠ [] := by
  obtain ⟨a, ha, b, hb, -⟩ := h
  constructor
  · rintro rfl
    cases ha
  · rintro rfl
    cases hb

theorem Boundary.of_suffix {s : List α} (h : Boundary lt (l ++ s) m) (hs : s ≠ []) :
    Boundary lt s m := by
  obtain ⟨a, ha, b, hb, hlt⟩ := h
  rw [getLast?_append_of_ne_nil l hs] at ha
  exact ⟨a, ha, b, hb, hlt⟩

theorem Boundary.not_pairwise {s t : List α} (h : Boundary lt l m) (hs : s <+: m ++ t) (hne : s ≠ []) :
    ¬ (l ++ s).Pairwise lt := by
  obtain ⟨a, ha, b, hb, hlt⟩ := h
  intro hsr
  have hha : b ∈ s.head? := by
    obtain ⟨c, more, rfl⟩ := exists_cons_of_ne_nil hne
    cases m with
    | nil => cases hb
    | cons d m =>
      cases hb
      rw [cons_append, cons_prefix_cons] at hs
      rw [hs.1]
      rfl
  exact hlt ((pairwise_append.1 hsr).2.2 a (mem_of_getLast? ha) b (mem_of_mem_head? hha))

/-- Pieces with boundaries are the fewest and the only ones of their number. -/
theorem length_le_of_flatten_eq {pieces' : List (List α)} (hsr : ∀ l ∈ pieces', l.Pairwise lt) :
    ∀ {pieces : List (List α)}, (∀ l ∈ pieces, l ≠ []) → pieces.IsChain (Boundary lt) →
      pieces.flatten = pieces'.flatten →
      pieces.length ≤ pieces'.length ∧ (pieces.length = pieces'.length → pieces = pieces') := by
  induction pieces' with
  | nil =>
    intro pieces hne _ hfl
    cases pieces with
    | nil => exact ⟨le_rfl, fun _ => rfl⟩
    | cons l rest => exact absurd (append_eq_nil_iff.1 hfl).1 (hne l mem_cons_self)
  | cons l' rest' ih =>
    intro pieces hne hch hfl
    rw [forall_mem_cons] at hsr
    cases pieces with
    | nil => exact ⟨Nat.zero_le _, fun h => by cases h⟩
    | cons l rest =>
      rw [forall_mem_cons] at hne
      rw [flatten_cons, flatten_cons] at hfl
      rcases append_eq_append_iff.1 hfl with ⟨s, hl', hrs⟩ | ⟨s, hl, hrs⟩
      · by_cases hs : s = []
        · subst hs
          rw [append_nil] at hl'
          obtain ⟨hle, heq⟩ := ih hsr.2 hne.2 hch.tail hrs
          refine ⟨Nat.succ_le_succ hle, fun hlen => ?_⟩
          rw [heq (Nat.succ.inj hlen), hl']
        · -- the other first piece would go on over the boundary
          exfalso
          cases rest with
          | nil => exact hs (append_eq_nil_iff.1 hrs.symm).1
          | cons m rest =>
            have hbou : Boundary lt l m := (isChain_cons_cons.1 hch).1
            apply hbou.not_pairwise (t := rest.flatten) _ hs
            · rw [← hl']
              exact hsr.1
            · exact ⟨rest'.flatten, hrs.symm⟩
      · by_cases hs : s = []
        · subst hs
          rw [append_nil] at hl
          obtain ⟨hle, heq⟩ := ih hsr.2 hne.2 hch.tail hrs.symm
          refine ⟨Nat.succ_le_succ hle, fun hlen => ?_⟩
          rw [heq (Nat.succ.inj hlen), hl]
        · have hnx : (s :: rest).IsChain (Boundary lt) := by
            cases rest with
            | nil => exact isChain_singleton s
            | cons m rest =>
              rw [isChain_cons_cons] at hch ⊢
              rw [hl] at hch
              exact ⟨hch.1.of_suffix hs, hch.2⟩
          have hall : ∀ l ∈ s :: rest, l ≠ [] := forall_mem_cons.2 ⟨hs, hne.2⟩
          obtain ⟨hle, -⟩ := ih hsr.2 hall hnx hrs.symm
          rw [length_cons] at hle ⊢
          rw [length_cons]
          exact ⟨by omega, fun hlen => by omega⟩

theorem ne_nil_of_isChain {rest : List (List α)} (h : (l :: m :: rest).IsChain (Boundary lt)) :
    ∀ p ∈ l :: m :: rest, p ≠ [] := by
  induction rest generalizing l m with
  | nil =>
    have hbou := (isChain_cons_cons.1 h).1.ne_nil
    intro p hp
    rcases mem_cons.1 hp with rfl | hp
    · exact hbou.1
    · rw [mem_singleton.1 hp]
      exact hbou.2
  | cons n rest ih =>
    rw [isChain_cons_cons] at h
    intro p hp
    rcases mem_cons.1 hp with rfl | hp
    · exact h.1.ne_nil.1
    · exact ih h.2 p hp

theorem eq_replicate_of_flatten_eq_nil (h : pieces.flatten = []) :
    pieces = List.replicate pieces.length [] :=
  eq_replicate_iff.2 ⟨rfl, flatten_eq_nil_iff.1 h⟩

theorem eq_of_flatten_eq {pieces' : List (List α)} (hap : Apart lt pieces)
    (hsr : ∀ l ∈ pieces', l.Pairwise lt)
    (hlen : pieces.length = pieces'.length) (hfl : pieces.flatten = pieces'.flatten) :
      pieces = pieces' := by
  have hem : pieces.flatten = [] → pieces = pieces' := by
    intro hnil
    have hlf := eq_replicate_of_flatten_eq_nil hnil
    have hrg := eq_replicate_of_flatten_eq_nil (hfl ▸ hnil : pieces'.flatten = [])
    rw [← hlen, ← hlf] at hrg
    exact hrg.symm
  rcases hap with hnil | hch
  · exact hem (flatten_eq_nil_iff.2 hnil)
  · match pieces, pieces', hlen, hch with
    | [], [], _, _ => rfl
    | [l], [l'], _, _ =>
      rw [flatten_singleton, flatten_singleton] at hfl
      rw [hfl]
    | l :: m :: rest, pieces', hlen, hch =>
      exact (length_le_of_flatten_eq hsr (ne_nil_of_isChain hch) hch hfl).2 hlen

theorem forall_mem_cons_cons {P : List α → Prop} {rest : List (List α)} :
    (∀ p ∈ l :: m :: rest, P p) ↔ P l ∧ P m ∧ ∀ p ∈ rest, P p := by
  rw [forall_mem_cons, forall_mem_cons]

theorem exists_ne_of_not_apart (htr : ∀ a b c, lt a b → lt b c → lt a c)
    (hsr : ∀ l ∈ pieces, l.Pairwise lt) (h : ¬ Apart lt pieces) :
    ∃ pieces', pieces' ≠ pieces ∧ pieces'.length = pieces.length ∧ pieces'.flatten = pieces.flatten ∧
      ∀ l ∈ pieces', l.Pairwise lt := by
  induction pieces with
  | nil => exact absurd (.inl nofun) h
  | cons l rest ih =>
    cases rest with
    | nil => exact absurd (.inr (isChain_singleton l)) h
    | cons m rest =>
      -- a cut further on is a cut of the whole
      have hlt : ¬ Apart lt (m :: rest) → ∃ pieces', pieces' ≠ l :: m :: rest ∧
          pieces'.length = (l :: m :: rest).length ∧ pieces'.flatten = (l :: m :: rest).flatten ∧
          ∀ p ∈ pieces', p.Pairwise lt := by
        intro hrs
        obtain ⟨pieces', hne, hlen, hfl, hall⟩ := ih (forall_mem_cons.1 hsr).2 hrs
        refine ⟨l :: pieces', fun heq => hne (List.cons.inj heq).2, congrArg Nat.succ hlen, ?_, ?_⟩
        · exact congrArg (l ++ ·) hfl
        · exact forall_mem_cons.2 ⟨(forall_mem_cons.1 hsr).1, hall⟩
      rw [forall_mem_cons_cons] at hsr
      obtain ⟨hl, hm, hrs⟩ := hsr
      rcases eq_nil_or_concat' l with rfl | ⟨p, a, rfl⟩
      · cases m with
        | nil =>
          apply hlt
          rintro (hnil | hch)
          · exact h (.inl (forall_mem_cons.2 ⟨rfl, hnil⟩))
          · cases rest with
            | nil => exact h (.inl (by simp))
            | cons n rest => exact (isChain_cons_cons.1 hch).1.ne_nil.1 rfl
        | cons b t =>
          refine ⟨[b] :: t :: rest, nofun, rfl, rfl, ?_⟩
          exact forall_mem_cons_cons.2 ⟨pairwise_singleton _ _, (pairwise_cons.1 hm).2, hrs⟩
      · cases m with
        | nil =>
          refine ⟨p :: [a] :: rest, ?_, rfl, ?_, ?_⟩
          · intro heq
            cases (List.cons.inj (List.cons.inj heq).2).1
          · simp
          · exact forall_mem_cons_cons.2 ⟨(pairwise_append.1 hl).1, pairwise_singleton _ _, hrs⟩
        | cons b t =>
          by_cases hab : lt a b
          · refine ⟨((p ++ [a]) ++ [b]) :: t :: rest, ?_, rfl, ?_, ?_⟩
            · intro heq
              have hleng := congrArg List.length (List.cons.inj heq).1
              rw [length_append, length_singleton] at hleng
              omega
            · simp
            · refine forall_mem_cons_cons.2 ⟨?_, (pairwise_cons.1 hm).2, hrs⟩
              rw [pairwise_append]
              refine ⟨hl, pairwise_singleton _ _, ?_⟩
              intro x hx y hy
              rw [mem_singleton.1 hy]
              rcases mem_append.1 hx with hx | hx
              · exact htr x a b ((pairwise_append.1 hl).2.2 x hx a mem_cons_self) hab
              · rw [mem_singleton.1 hx]
                exact hab
          · apply hlt
            rintro (hnil | hch)
            · cases hnil _ mem_cons_self
            · apply h
              right
              rw [isChain_cons_cons]
              refine ⟨⟨a, ?_, b, rfl, hab⟩, hch⟩
              rw [getLast?_concat]
              rfl

end WebOvpn.Partition
