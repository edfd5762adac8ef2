/-
Tables whose references restrict deletion, and runs of deletions over them: when a
run goes through, and which rows it leaves.
-/
import Mathlib.Data.List.Nodup

namespace WebOvpn

open List Option

/-- The rows of each table. -/
abbrev Tables (τ ρ : Type) := τ → List ρ

/-- Rows of `child` may refer to rows of `parent`; a row that is referred to is
restricted from deletion. -/
structure Reference (τ ρ : Type) where
  child : τ
  parent : τ
  refers : ρ → ρ → Bool

namespace Pruning

variable {τ ρ : Type} [DecidableEq τ]

def clear (table : τ) (goes : ρ → Bool) (rows : Tables τ ρ) : Tables τ ρ :=
  Function.update rows table ((rows table).filter fun row => !goes row)

def restricted (references : List (Reference τ ρ)) (rows : Tables τ ρ) (table : τ)
    (goes : ρ → Bool) : Bool :=
  references.any fun ref => decide (ref.parent = table) && (rows table).any fun parent =>
    goes parent && (rows ref.child).any fun child => ref.refers child parent

/-- The number of rows deleted and the tables after it; `none` when a reference
restricts the deletion. -/
def delete (references : List (Reference τ ρ)) (table : τ) (goes : ρ → Bool) (rows : Tables τ ρ) :
    Option (Nat × Tables τ ρ) :=
  if restricted references rows table goes then none
  else some ((rows table).countP goes, clear table goes rows)

/-- A statement that looks up in the tables which rows of one table to delete, and
may fail at that. -/
structure Statement (τ ρ : Type) where
  table : τ
  goes : Tables τ ρ → Option (ρ → Bool)

def sweep (references : List (Reference τ ρ)) :
    List (Statement τ ρ) → Tables τ ρ → Option (List (τ × Nat) × Tables τ ρ)
  | [], rows => some ([], rows)
  | statement :: rest, rows => do
      let goes ← statement.goes rows
      let (count, rows) ← delete references statement.table goes rows
      let (counts, rows) ← sweep references rest rows
      return ((statement.table, count) :: counts, rows)

def cleared (gone : τ → ρ → Bool) (tables : List τ) (rows : Tables τ ρ) : Tables τ ρ :=
  fun t => if t ∈ tables then (rows t).filter fun row => !gone t row else rows t

def Aims (gone : τ → ρ → Bool) (statement : Statement τ ρ) (rows : Tables τ ρ) : Prop :=
  ∀ goes, statement.goes rows = some goes → ∀ row ∈ rows statement.table, goes row = gone statement.table row

def Succeeds (statement : Statement τ ρ) (rows : Tables τ ρ) : Prop := (statement.goes rows).isSome

def Each (gone : τ → ρ → Bool) (P : Statement τ ρ → Tables τ ρ → Prop) :
    List (Statement τ ρ) → Tables τ ρ → Prop
  | [], _ => True
  | statement :: rest, rows =>
    P statement rows ∧ Each gone P rest (clear statement.table (gone statement.table) rows)

/-- The same, with the tables that were swept before. -/
def EachAfter (gone : τ → ρ → Bool) (P : Statement τ ρ → Tables τ ρ → Prop) (rows : Tables τ ρ) :
    List τ → List (Statement τ ρ) → Prop
  | _, [] => True
  | done, statement :: rest =>
    P statement (cleared gone done rows) ∧ EachAfter gone P rows (statement.table :: done) rest

def Precedes (references : List (Reference τ ρ)) (earlier later : τ) : Prop :=
  ∀ ref ∈ references, ref.parent = earlier → ref.child ≠ later

instance (references : List (Reference τ ρ)) (earlier later : τ) :
    Decidable (Precedes references earlier later) :=
  inferInstanceAs (Decidable (∀ ref ∈ references, ref.parent = earlier → ref.child ≠ later))

/-- Each table is swept once, and the rows that refer to its rows before it. -/
structure ChildrenFirst (references : List (Reference τ ρ)) (tables : List τ) : Prop where
  nodup : tables.Nodup
  others : tables.Pairwise (Precedes references)
  itself : ∀ table ∈ tables, Precedes references table table

def Unreferenced (references : List (Reference τ ρ)) (gone : τ → ρ → Bool) (tables : List τ)
    (rows : Tables τ ρ) : Prop :=
  ∀ ref ∈ references, ref.parent ∈ tables → ∀ parent ∈ rows ref.parent, gone ref.parent parent = true →
    ∀ child ∈ cleared gone tables rows ref.child, ref.refers child parent = false

variable {references : List (Reference τ ρ)} {gone : τ → ρ → Bool} {statement : Statement τ ρ}
  {rest statements : List (Statement τ ρ)} {rows : Tables τ ρ} {table : τ} {tables : List τ} {goes : ρ → Bool}

theorem clear_self : clear table goes rows table = (rows table).filter fun row => !goes row := by
  simp [clear]

variable {t : τ} {other : ρ → Bool} {P : Statement τ ρ → Tables τ ρ → Prop}

theorem clear_of_ne (h : t ≠ table) : clear table goes rows t = rows t := by
  simp [clear, h]

theorem clear_congr (h : ∀ row ∈ rows table, goes row = other row) :
    clear table goes rows = clear table other rows := by
  unfold clear
  congr 1
  apply filter_congr
  intro row hrow
  rw [h row hrow]

theorem restricted_eq_false : restricted references rows table goes = false ↔
      ∀ ref ∈ references, ref.parent = table → ∀ parent ∈ rows table, goes parent = true →
        ∀ child ∈ rows ref.child, ref.refers child parent = false := by
  simp [restricted, List.any_eq_false]

theorem restricted_congr (h : ∀ row ∈ rows table, goes row = other row) :
    restricted references rows table goes = restricted references rows table other := by
  unfold restricted
  congr 1
  funext ref
  congr 1
  apply Bool.eq_iff_iff.2
  simp only [List.any_eq_true]
  apply exists_congr
  intro parent
  apply and_congr_right
  intro hpr
  rw [h parent hpr]

theorem delete_congr (h : ∀ row ∈ rows table, goes row = other row) :
    delete references table goes rows = delete references table other rows := by
  unfold delete
  rw [restricted_congr h, clear_congr h, countP_congr fun row hrow => by rw [h row hrow]]

theorem cleared_nil : cleared gone [] rows = rows := by
  funext t
  simp [cleared]

theorem cleared_of_notMem (h : t ∉ tables) : cleared gone tables rows t = rows t := by
  simp [cleared, h]

theorem mem_cleared {row : ρ} :
    row ∈ cleared gone tables rows t ↔ row ∈ rows t ∧ (t ∈ tables → gone t row = false) := by
  unfold cleared
  split
  · rename_i hin
    simp [hin]
  · rename_i hot
    simp [hot]

theorem mem_of_mem_cleared {row : ρ} (h : row ∈ cleared gone tables rows t) : row ∈ rows t :=
  (mem_cleared.1 h).1

theorem clear_cleared :
    clear table (gone table) (cleared gone tables rows) = cleared gone (table :: tables) rows := by
  funext t
  by_cases ht : t = table
  · subst ht
    rw [clear_self]
    by_cases hin : t ∈ tables <;> simp [cleared, hin]
  · simp [cleared, clear_of_ne ht, ht]

theorem cleared_clear (htb : table ∉ tables) :
    cleared gone tables (clear table (gone table) rows) = cleared gone (table :: tables) rows := by
  funext t
  by_cases ht : t = table
  · subst ht
    rw [cleared_of_notMem htb, clear_self]
    simp [cleared]
  · simp [cleared, clear_of_ne ht, ht]

omit [DecidableEq τ] in
theorem ChildrenFirst.tail (h : ChildrenFirst references (table :: tables)) :
    ChildrenFirst references tables :=
  ⟨h.nodup.of_cons, h.others.of_cons, fun t ht => h.itself t (mem_cons_of_mem _ ht)⟩

theorem sweep_cons (hais : Aims gone statement rows) (hsc : Succeeds statement rows) :
    sweep references (statement :: rest) rows =
      (delete references statement.table (gone statement.table) rows).bind fun deleted =>
        (sweep references rest deleted.2).bind fun result =>
          some ((statement.table, deleted.1) :: result.1, result.2) := by
  obtain ⟨goes, hgos⟩ := isSome_iff_exists.1 hsc
  rw [sweep, hgos, ← delete_congr (hais goes hgos)]
  rfl

theorem sweep_append {more : List (Statement τ ρ)} : sweep references (statements ++ more) rows =
      (sweep references statements rows).bind fun first =>
        (sweep references more first.2).map fun second => (first.1 ++ second.1, second.2) := by
  induction statements generalizing rows with
  | nil => simp [sweep]
  | cons statement rest ih =>
    rw [cons_append, sweep, sweep]
    cases statement.goes rows with
    | none => rfl
    | some goes =>
      cases hdel : delete references statement.table goes rows with
      | none => simp [hdel]
      | some deleted =>
        simp only [bind_eq_bind, bind_some, hdel, ih]
        cases sweep references rest deleted.2 with
        | none => rfl
        | some first => cases h : sweep references more first.2 <;> simp [h]

theorem Each.imp {Q : Statement τ ρ → Tables τ ρ → Prop} (himp : ∀ s r, P s r → Q s r)
    (h : Each gone P statements rows) : Each gone Q statements rows := by
  induction statements generalizing rows with
  | nil => trivial
  | cons statement rest ih => exact ⟨himp _ _ h.1, ih h.2⟩

theorem EachAfter.each (h : EachAfter gone P rows tables statements) :
    Each gone P statements (cleared gone tables rows) := by
  induction statements generalizing tables with
  | nil => trivial
  | cons statement rest ih =>
    refine ⟨h.1, ?_⟩
    rw [clear_cleared]
    exact ih h.2

/-- What does not depend on the tables that a statement finds holds of each one. -/
theorem each_iff_forall {Q : Statement τ ρ → Prop}
    (h : Each gone (fun s r => P s r ↔ Q s) statements rows) :
    Each gone P statements rows ↔ ∀ s ∈ statements, Q s := by
  induction statements generalizing rows with
  | nil => simp [Each]
  | cons statement rest ih =>
    have hher : P statement rows ↔ Q statement := h.1
    rw [forall_mem_cons, ← hher, ← ih h.2]
    rfl

theorem succeeds_of_sweep (h : (sweep references (statement :: rest) rows).isSome) :
    Succeeds statement rows := by
  unfold Succeeds
  cases hgos : statement.goes rows with
  | none => simp [sweep, hgos] at h
  | some goes => rfl

/-- Referring rows come from tables that are swept earlier or not at all, so the
rows that stay are there when the statement runs. -/
theorem unreferenced_cons (hfs : ChildrenFirst references (table :: tables)) :
    Unreferenced references gone (table :: tables) rows ↔
      restricted references rows table (gone table) = false ∧
        Unreferenced references gone tables (clear table (gone table) rows) := by
  have hnew : table ∉ tables := (nodup_cons.1 hfs.nodup).1
  rw [restricted_eq_false]
  unfold Unreferenced
  rw [cleared_clear hnew]
  constructor
  · intro h
    refine ⟨?_, ?_⟩
    · intro ref href hpr parent hmem hgn child hch
      refine h ref href (by simp [hpr]) parent (by rwa [hpr]) (by rwa [hpr]) child ?_
      rw [cleared_of_notMem]
      · exact hch
      · intro hin
        rcases mem_cons.1 hin with heq | hin
        · exact hfs.itself table mem_cons_self ref href hpr heq
        · exact (pairwise_cons.1 hfs.others).1 _ hin ref href hpr rfl
    · intro ref href hpr parent hmem
      rw [clear_of_ne (ne_of_mem_of_not_mem hpr hnew)] at hmem
      exact h ref href (mem_cons_of_mem _ hpr) parent hmem
  · rintro ⟨hher, hthe⟩ ref href hpr parent hmem hgn child hch
    rcases mem_cons.1 hpr with heq | hpr
    · refine hher ref href heq parent (by rwa [← heq]) (by rwa [← heq]) child (mem_of_mem_cleared hch)
    · refine hthe ref href hpr parent ?_ hgn child hch
      rwa [clear_of_ne (ne_of_mem_of_not_mem hpr hnew)]

/-- A run whose statements aim well goes through iff each statement succeeds and
no row that stays refers to a row that goes. -/
theorem sweep_isSome_iff (hfs : ChildrenFirst references (statements.map (·.table)))
    (hais : Each gone (Aims gone) statements rows) : (sweep references statements rows).isSome ↔
      Each gone Succeeds statements rows ∧
        Unreferenced references gone (statements.map (·.table)) rows := by
  induction statements generalizing rows with
  | nil => simp [sweep, Each, Unreferenced]
  | cons statement rest ih =>
    obtain ⟨haim, hais⟩ := hais
    rw [map_cons] at hfs ⊢
    rw [unreferenced_cons hfs, Each]
    by_cases hsc : Succeeds statement rows
    · rw [sweep_cons haim hsc, delete]
      cases hrestr : restricted references rows statement.table (gone statement.table) with
      | true => simp
      | false =>
        have hrs := ih hfs.tail hais
        simp [isSome_bind, hsc, hrs]
    · have hnn : ¬ (sweep references (statement :: rest) rows).isSome := fun h =>
        hsc (succeeds_of_sweep h)
      simp [hnn, hsc]

theorem sweep_result {result : List (τ × Nat) × Tables τ ρ}
    (hnd : (statements.map (·.table)).Nodup) (hais : Each gone (Aims gone) statements rows)
    (h : sweep references statements rows = some result) :
    result.1 = statements.map (fun s => (s.table, (rows s.table).countP (gone s.table))) ∧
      result.2 = cleared gone (statements.map (·.table)) rows := by
  induction statements generalizing rows result with
  | nil =>
    cases h
    simp [cleared_nil]
  | cons statement rest ih =>
    obtain ⟨haim, hais⟩ := hais
    obtain ⟨hnew, hnd⟩ := nodup_cons.1 hnd
    rw [sweep_cons haim (succeeds_of_sweep (isSome_iff_exists.2 ⟨_, h⟩)), delete] at h
    split at h
    · cases h
    · rw [bind_some] at h
      obtain ⟨later, hlt, hrs⟩ := bind_eq_some_iff.1 h
      cases hrs
      obtain ⟨hcn, hro⟩ := ih hnd hais hlt
      refine ⟨?_, ?_⟩
      · rw [map_cons]
        apply congrArg (List.cons _)
        rw [hcn]
        apply map_congr_left
        intro other hot
        rw [clear_of_ne (ne_of_mem_of_not_mem (List.mem_map_of_mem hot) hnew)]
      · rw [map_cons, ← cleared_clear hnew]
        exact hro

def Sound (references : List (Reference τ ρ)) (rows : Tables τ ρ) : Prop :=
  ∀ ref ∈ references, ∀ child ∈ rows ref.child, ∃ parent ∈ rows ref.parent, ref.refers child parent = true

instance (references : List (Reference τ ρ)) (rows : Tables τ ρ) : Decidable (Sound references rows) :=
  inferInstanceAs (Decidable (∀ ref ∈ references, ∀ child ∈ rows ref.child,
    ∃ parent ∈ rows ref.parent, ref.refers child parent = true))

theorem Sound.cleared (h : Sound references rows) (hcle : Unreferenced references gone tables rows) :
    Sound references (Pruning.cleared gone tables rows) := by
  intro ref href child hch
  obtain ⟨parent, hpr, hrefe⟩ := h ref href child (mem_of_mem_cleared hch)
  refine ⟨parent, ?_, hrefe⟩
  unfold Pruning.cleared
  split
  · rename_i hin
    refine mem_filter.2 ⟨hpr, ?_⟩
    cases hgn : gone ref.parent parent with
    | false => rfl
    | true =>
      have hfr := hcle ref href hin parent hpr hgn child hch
      rw [hrefe] at hfr
      cases hfr
  · exact hpr

end Pruning

end WebOvpn
