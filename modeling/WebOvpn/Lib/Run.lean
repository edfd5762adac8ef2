/-
Runs of a machine: steps of any kind taken one after another from a state.  In a
crew, workers with states of their own share a state, and a move is a step of one
of them.
-/
import Mathlib.Data.List.Nodup

namespace WebOvpn

open List

section

variable {σ ι : Type} (next : σ → ι → σ)

def run (s : σ) (steps : List ι) : σ := steps.foldl next s

theorem run_append (s : σ) (first second : List ι) :
    run next s (first ++ second) = run next (run next s first) second :=
  List.foldl_append

/-- Every step of the run meets the condition in the state it is taken from. -/
def Along (condition : σ → ι → Prop) : σ → List ι → Prop
  | _, [] => True
  | s, i :: rest => condition s i ∧ Along condition (next s i) rest

variable {next} {P : σ → Prop} {s : σ} {steps : List ι}

theorem along_of_forall {condition : ι → Prop} (h : ∀ i ∈ steps, condition i) :
    Along next (fun _ i => condition i) s steps := by
  induction steps generalizing s with
  | nil => trivial
  | cons i rest ih =>
    exact ⟨h i mem_cons_self, ih fun j hj => h j (mem_cons_of_mem i hj)⟩

theorem Along.concat {condition : σ → ι → Prop} {i : ι}
    (hst : Along next condition s steps) (hi : condition (run next s steps) i) :
    Along next condition s (steps ++ [i]) := by
  induction steps generalizing s with
  | nil => exact ⟨hi, trivial⟩
  | cons j rest ih => exact ⟨hst.1, ih hst.2 hi⟩

theorem Along.middle {condition : σ → ι → Prop} {before after : List ι} {i : ι}
    (h : Along next condition s (before ++ i :: after)) : condition (run next s before) i := by
  induction before generalizing s with
  | nil => exact h.1
  | cons j rest ih => exact ih h.2

theorem run_keeps_along {condition : σ → ι → Prop} (hs : P s) (hst : Along next condition s steps)
    (hke : ∀ s i, P s → condition s i → P (next s i)) : P (run next s steps) := by
  induction steps generalizing s with
  | nil => exact hs
  | cons i rest ih => exact ih (hke s i hs hst.1) hst.2

theorem run_keeps (hs : P s) (hke : ∀ s i, P s → P (next s i)) : P (run next s steps) := by
  induction steps generalizing s with
  | nil => exact hs
  | cons i rest ih => exact ih (hke s i hs)

/-- A property kept by every step from a state with the invariant `I` relates
the state before a run to the state after it. -/
theorem run_relates {I : σ → Prop} {R : σ → σ → Prop} (hs : I s)
    (hke : ∀ s i, I s → I (next s i)) (href : ∀ s, R s s)
    (htr : ∀ a b c, R a b → R b c → R a c) (hst : ∀ s i, I s → R s (next s i)) :
    R s (run next s steps) := by
  induction steps generalizing s with
  | nil => exact href s
  | cons i rest ih => exact htr _ _ _ (hst s i hs) (ih (hke s i hs))

end

section

variable {σ ι α : Type} (next : σ → ι → σ) (label : σ → ι → Option α)

/-- What the steps of a run give out, one after another. -/
def emitted : σ → List ι → List α
  | _, [] => []
  | s, i :: rest => (label s i).toList ++ emitted (next s i) rest

variable {next label} {I : σ → Prop} {condition : σ → ι → Prop} {spent : σ → α → Prop}
    {R : α → α → Prop} {s : σ}
  {steps : List ι}

theorem emitted_after_spent (hs : I s) (hst : Along next condition s steps)
    (hke : ∀ s i, I s → condition s i → I (next s i))
    (hemi : ∀ s i a b, I s → condition s i → spent s a → label s i = some b → R a b)
    (hsp : ∀ s i a, I s → condition s i → spent s a → spent (next s i) a) {a b : α} (ha : spent s a)
    (hb : b ∈ emitted next label s steps) : R a b := by
  induction steps generalizing s with
  | nil => cases hb
  | cons i rest ih =>
    rcases mem_append.1 hb with hfs | hrs
    · exact hemi s i a b hs hst.1 ha (Option.mem_toList.1 hfs)
    · exact ih (hke s i hs hst.1) hst.2 (hsp s i a hs hst.1 ha) hrs

/-- What is given out is spent, stays so, and is related to what is given out
after it. -/
theorem emitted_pairwise (hs : I s) (hst : Along next condition s steps)
    (hke : ∀ s i, I s → condition s i → I (next s i))
    (hemi : ∀ s i a b, I s → condition s i → spent s a → label s i = some b → R a b)
    (hspen : ∀ s i a, I s → condition s i → label s i = some a → spent (next s i) a)
    (hsp : ∀ s i a, I s → condition s i → spent s a → spent (next s i) a) :
    (emitted next label s steps).Pairwise R := by
  induction steps generalizing s with
  | nil => exact List.Pairwise.nil
  | cons i rest ih =>
    apply pairwise_append.2
    refine ⟨?_, ih (hke s i hs hst.1) hst.2, ?_⟩
    · cases label s i with
      | none => exact List.Pairwise.nil
      | some a => exact pairwise_singleton R a
    · intro a hfs b hrs
      have hsp' := hspen s i a hs hst.1 (Option.mem_toList.1 hfs)
      exact emitted_after_spent (hke s i hs hst.1) hst.2 hke hemi hsp hsp' hrs

/-- Nothing is given out twice when what is given out is spent, and stays so. -/
theorem emitted_nodup (hs : I s) (hke : ∀ s i, I s → I (next s i))
    (hemi : ∀ s i a, I s → label s i = some a → ¬ spent s a ∧ spent (next s i) a)
    (hsp : ∀ s i a, I s → spent s a → spent (next s i) a) : (emitted next label s steps).Nodup := by
  have hst : Along next (fun _ _ => True) s steps := along_of_forall fun _ _ => trivial
  apply emitted_pairwise hs hst (fun s i h _ => hke s i h)
  · rintro s i a b h - ha hb rfl
    exact (hemi s i a h hb).1 ha
  · exact fun s i a h _ ha => (hemi s i a h ha).2
  · exact fun s i a h _ ha => hsp s i a h ha

end

/-- A computation that goes on with the value of another one. -/
theorem bind_eq_ok {ε α β : Type} {x : Except ε α} {f : α → Except ε β} {y : β} :
    (x >>= f) = .ok y ↔ ∃ a, x = .ok a ∧ f a = .ok y := by
  cases x with
  | error e =>
    constructor
    · nofun
    · rintro ⟨_, h, _⟩
      cases h
  | ok a =>
    constructor
    · intro h
      exact ⟨a, rfl, h⟩
    · rintro ⟨_, h', h⟩
      cases h'
      exact h

section

variable {σ α ε : Type} {m : σ → α → Except ε σ} {P : List α → σ → Prop} {s : σ} {items : List α}

/-- What every successful turn keeps holds after a successful loop. -/
theorem foldlM_keeps {Q : σ → Prop} {s' : σ} (h : items.foldlM m s = .ok s') (hs : Q s)
    (hst : ∀ s a s', a ∈ items → Q s → m s a = .ok s' → Q s') : Q s' := by
  induction items generalizing s with
  | nil => exact Except.ok.inj h ▸ hs
  | cons a rest ih =>
    rw [foldlM_cons] at h
    cases ha : m s a with
    | error e =>
      rw [ha] at h
      cases h
    | ok t =>
      rw [ha] at h
      exact ih h (hst s a t mem_cons_self hs ha) fun s b s' hb =>
        hst s b s' (mem_cons_of_mem a hb)

/-- The loop rule: what holds before the loop and is kept by every turn, which
knows the items done so far, holds after it. -/
theorem foldlM_ok (hs : P [] s) (hst : ∀ done a rest s, items = done ++ a :: rest → P done s →
      ∃ s', m s a = .ok s' ∧ P (done ++ [a]) s') : ∃ s', items.foldlM m s = .ok s' ∧ P items s' := by
  suffices hlo : ∀ done rest s, items = done ++ rest → P done s →
      ∃ s', rest.foldlM m s = .ok s' ∧ P items s' from hlo [] items s rfl hs
  intro done rest
  induction rest generalizing done with
  | nil =>
    intro s hits hdn
    rw [append_nil] at hits
    exact ⟨s, rfl, hits ▸ hdn⟩
  | cons a rest ih =>
    intro s hits hdn
    obtain ⟨s', ha, hs'⟩ := hst done a rest s hits hdn
    obtain ⟨s'', hrs, hs''⟩ := ih (done ++ [a]) s' (by rw [hits, append_assoc]; rfl) hs'
    refine ⟨s'', ?_, hs''⟩
    rw [foldlM_cons, ha]
    exact hrs

end

structure Crew (κ σ μ : Type) where
  shared : σ
  workers : κ → μ

namespace Crew

variable {κ σ μ ι : Type} [DecidableEq κ] (act : κ → ι → σ → μ → σ × μ)

def step (c : Crew κ σ μ) (move : κ × ι) : Crew κ σ μ where
  shared := (act move.1 move.2 c.shared (c.workers move.1)).1
  workers := Function.update c.workers move.1 (act move.1 move.2 c.shared (c.workers move.1)).2

variable {act} {c : Crew κ σ μ} {who other : κ} {i : ι} {moves : List (κ × ι)}

@[simp]
theorem step_shared : (step act c (who, i)).shared = (act who i c.shared (c.workers who)).1 :=
  rfl

@[simp]
theorem step_self : (step act c (who, i)).workers who = (act who i c.shared (c.workers who)).2 :=
  Function.update_self ..

theorem step_other (h : other ≠ who) : (step act c (who, i)).workers other = c.workers other :=
  Function.update_of_ne h ..

/-- The moves of the others leave a worker where it is. -/
theorem run_other (h : ∀ move ∈ moves, move.1 ≠ who) :
    (run (Crew.step act) c moves).workers who = c.workers who :=
  run_keeps_along (P := fun c' : Crew κ σ μ => c'.workers who = c.workers who) rfl (along_of_forall h)
    fun _ _ hc hne => (step_other hne.symm).trans hc

structure Holds (I : σ → Prop) (J : σ → κ → μ → Prop) (c : Crew κ σ μ) : Prop where
  shared : I c.shared
  worker : ∀ who, J c.shared who (c.workers who)

structure Keeps (act : κ → ι → σ → μ → σ × μ) (I : σ → Prop) (J : σ → κ → μ → Prop) : Prop where
  own : ∀ who i s w, I s → J s who w → I (act who i s w).1 ∧ J (act who i s w).1 who (act who i s w).2
  others : ∀ who i s w other v, other ≠ who → I s → J s who w → J s other v → J (act who i s w).1 other v

variable {I : σ → Prop} {J : σ → κ → μ → Prop}

theorem Holds.step (h : Holds I J c) (hke : Keeps act I J) (move : κ × ι) :
    Holds I J (c.step act move) := by
  obtain ⟨who, i⟩ := move
  obtain ⟨hsha, hown⟩ := hke.own who i _ _ h.shared (h.worker who)
  refine ⟨hsha, fun other => ?_⟩
  by_cases hot : other = who
  · subst hot
    rw [step_self]
    exact hown
  · rw [step_other hot]
    exact hke.others who i _ _ other _ hot h.shared (h.worker who) (h.worker other)

theorem Holds.run (h : Holds I J c) (hke : Keeps act I J) : Holds I J (run (Crew.step act) c moves) :=
  run_keeps h fun _ move hc => hc.step hke move

end Crew

end WebOvpn
