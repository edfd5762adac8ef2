/-
Operations on a disk, taken step by step.  A process may die after any of its
steps; `Passes` says of an operation what holds at each point where it can be
interrupted, beside what holds when it ends.
-/
import WebOvpn.Lib.Effect

namespace WebOvpn

open List

/-- The state of a disk and the points passed on the way to it, each with the
state there. -/
structure History (σ κ : Type) where
  current : σ
  points : List (κ × σ)

namespace Op

variable {σ κ ε α β : Type}

def step (point : κ) (f : σ → σ) : Op (History σ κ) ε Unit :=
  update fun h => ⟨f h.current, h.points ++ [(point, f h.current)]⟩

def look (f : σ → Except ε α) : Op (History σ κ) ε α := inspect fun h => f h.current

def ensuring (m : Op σ ε α) (cleanup : Op σ ε Unit) : Op σ ε α :=
  ExceptT.mk fun s =>
    match exec m s with
    | (r, s') =>
      match exec cleanup s' with
      | (.ok _, s'') => (r, s'')
      | (.error e, s'') => (.error e, s'')

theorem exec_ensuring (m : Op σ ε α) (cleanup : Op σ ε Unit) (s : σ) : exec (ensuring m cleanup) s =
      match exec cleanup (exec m s).2 with
      | (.ok _, s') => ((exec m s).1, s')
      | (.error e, s') => (.error e, s') := by
  change (match exec m s with
    | (r, s') =>
      match exec cleanup s' with
      | (.ok _, s'') => (r, s'')
      | (.error e, s'') => (.error e, s'')) = _
  rcases exec m s with ⟨r, s'⟩
  rfl

/-- The points at which the operation can be interrupted: before its first step
and after each step. -/
def interruptions (m : Op (History σ κ) ε α) (s : σ) : List (Option κ × σ) :=
  (none, s) :: (exec m ⟨s, []⟩).2.points.map fun p => (some p.1, p.2)

/-- The disk when the operation has ended. -/
def finish (m : Op (History σ κ) ε α) (s : σ) : Except ε α × σ :=
  ((exec m ⟨s, []⟩).1, (exec m ⟨s, []⟩).2.current)

/-- `C` holds at every point the operation passes from `s`, and `Q` at its end. -/
def Passes (m : Op (History σ κ) ε α) (s : σ) (C : κ → σ → Prop) (Q : Except ε α → σ → Prop) : Prop :=
  ∀ points, Holds m ⟨s, points⟩ fun r h =>
    ∃ passed, h.points = points ++ passed ∧ (∀ p ∈ passed, C p.1 p.2) ∧ Q r h.current

section

variable {m : Op (History σ κ) ε α} {f : α → Op (History σ κ) ε β} {s : σ}
  {C : κ → σ → Prop} {Q : Except ε α → σ → Prop} {R : Except ε β → σ → Prop}

theorem passes_lift {x : Except ε α} (hx : Q x s) : Passes (lift x) s C Q := by
  intro points
  exact ⟨[], (append_nil points).symm, by simp, hx⟩

theorem passes_pure {a : α} (ha : Q (.ok a) s) : Passes (pure a) s C Q := passes_lift ha

theorem passes_raise {e : ε} (he : Q (.error e) s) : Passes (raise e) s C Q := passes_lift he

theorem passes_step {point : κ} {g : σ → σ} {Q : Except ε Unit → σ → Prop}
    (hpi : C point (g s)) (hend : Q (.ok ()) (g s)) : Passes (step point g) s C Q := by
  intro points
  refine ⟨[(point, g s)], rfl, ?_, hend⟩
  intro p hp
  rw [mem_singleton] at hp
  subst hp
  exact hpi

theorem Passes.bind (hm : Passes m s C Q) (herr : ∀ e s', Q (.error e) s' → R (.error e) s')
    (hok : ∀ a s', Q (.ok a) s' → Passes (f a) s' C R) : Passes (m >>= f) s C R := by
  intro points
  refine (holds_bind _ _ _ _).2 ((hm points).mono ?_)
  rintro r ⟨s', points'⟩ ⟨passed, rfl, hps, hend⟩
  cases r with
  | error e => exact ⟨passed, rfl, hps, herr e s' hend⟩
  | ok a =>
    refine (hok a s' hend (points ++ passed)).mono ?_
    rintro r' h' ⟨passed', hpt, hps', hend'⟩
    refine ⟨passed ++ passed', by rw [hpt, append_assoc], ?_, hend'⟩
    intro p hp
    rcases mem_append.1 hp with hp | hp
    · exact hps p hp
    · exact hps' p hp

theorem Passes.bind_ok {a : α} {P : σ → Prop} (hm : Passes m s C fun r s' => r = .ok a ∧ P s')
    (hok : ∀ s', P s' → Passes (f a) s' C R) : Passes (m >>= f) s C R := by
  apply hm.bind
  · rintro e s' ⟨h, -⟩
    cases h
  · rintro _ s' ⟨h, hs'⟩
    cases h
    exact hok s' hs'

variable {Q' : Except ε α → σ → Prop} {C' : κ → σ → Prop}

theorem Passes.mono (hm : Passes m s C Q)
    (hC : ∀ k s', C k s' → C' k s') (hQ : ∀ r s', Q r s' → Q' r s') : Passes m s C' Q' := by
  intro points
  refine (hm points).mono ?_
  rintro r h ⟨passed, hpt, hps, hend⟩
  exact ⟨passed, hpt, fun p hp => hC _ _ (hps p hp), hQ _ _ hend⟩

theorem Passes.and (h : Passes m s C Q)
    (h' : Passes m s C' Q') : Passes m s (fun k d => C k d ∧ C' k d) (fun r d => Q r d ∧ Q' r d) := by
  intro points
  obtain ⟨passed, hpt, hps, hend⟩ := h points
  obtain ⟨passed', hpt', hps', hend'⟩ := h' points
  have hsm : passed' = passed := append_cancel_left (hpt'.symm.trans hpt)
  subst hsm
  exact ⟨passed', hpt, fun p hp => ⟨hps p hp, hps' p hp⟩, hend, hend'⟩

theorem passes_step_bind {point : κ} {g : σ → σ} {f : Unit → Op (History σ κ) ε β}
    (hpi : C point (g s)) (hf : Passes (f ()) (g s) C R) : Passes (step point g >>= f) s C R := by
  refine Passes.bind (Q := fun r s' => r = .ok () ∧ s' = g s)
    (passes_step hpi ⟨rfl, rfl⟩) ?_ ?_
  · rintro e s' ⟨h, -⟩
    cases h
  · rintro _ _ ⟨-, rfl⟩
    exact hf

theorem passes_look_bind {g : σ → Except ε α} (herr : ∀ e, g s = .error e → R (.error e) s)
    (hok : ∀ a, g s = .ok a → Passes (f a) s C R) : Passes (look g >>= f) s C R := by
  refine Passes.bind (Q := fun r s' => r = g s ∧ s' = s) ?_ ?_ ?_
  · intro points
    exact ⟨[], (append_nil points).symm, by simp, rfl, rfl⟩
  · rintro e s' ⟨h, rfl⟩
    exact herr e h.symm
  · rintro a s' ⟨h, rfl⟩
    exact hok a h.symm

theorem passes_look_ok {g : σ → Except ε α} {a : α} (hg : g s = .ok a) (hf : Passes (f a) s C R) :
    Passes (look g >>= f) s C R := by
  apply passes_look_bind
  · intro e he
    cases hg.symm.trans he
  · intro b hb
    cases hg.symm.trans hb
    exact hf

theorem passes_lift_bind {x : Except ε α} (herr : ∀ e, x = .error e → R (.error e) s)
    (hok : ∀ a, x = .ok a → Passes (f a) s C R) : Passes (lift x >>= f) s C R := by
  refine Passes.bind (Q := fun r s' => r = x ∧ s' = s) (passes_lift ⟨rfl, rfl⟩) ?_ ?_
  · rintro e s' ⟨h, rfl⟩
    exact herr e h.symm
  · rintro a s' ⟨h, rfl⟩
    exact hok a h.symm

theorem Passes.ensuring {cleanup : Op (History σ κ) ε Unit} {R : Except ε α → σ → Prop}
    (hm : Passes m s C Q)
    (hcle : ∀ r s', Q r s' → Passes cleanup s' C fun r' s'' =>
      match r' with
      | .ok _ => R r s''
      | .error e => R (.error e) s'') : Passes (ensuring m cleanup) s C R := by
  intro points
  obtain ⟨passed, hpt, hps, hend⟩ := hm points
  obtain ⟨passed', hpt', hps', hend'⟩ :=
    hcle _ _ hend (exec m ⟨s, points⟩).2.points
  have hcur : (⟨(exec m ⟨s, points⟩).2.current, (exec m ⟨s, points⟩).2.points⟩ :
      History σ κ) = (exec m ⟨s, points⟩).2 := rfl
  rw [hcur] at hpt' hend'
  rw [hpt, append_assoc] at hpt'
  have hall : ∀ p ∈ passed ++ passed', C p.1 p.2 := by
    intro p hp
    rcases mem_append.1 hp with hp | hp
    · exact hps p hp
    · exact hps' p hp
  unfold Holds
  rw [exec_ensuring]
  rcases hr : exec cleanup (exec m ⟨s, points⟩).2 with ⟨e | _, h⟩ <;>
    rw [hr] at hpt' hend' <;> exact ⟨_, hpt', hall, hend'⟩

theorem Passes.forEach {f : α → Op (History σ κ) ε β} {I : List α → List β → σ → Prop}
    {E : ε → σ → Prop}
    (hf : ∀ a rest results s, I (a :: rest) results s → Passes (f a) s C fun r s' =>
      match r with
      | .ok b => I rest (results ++ [b]) s'
      | .error e => E e s')
    {items : List α} (results : List β) (h : I items results s) :
    Passes (forEach f items) s C fun r s' =>
      match r with
      | .ok bs => I [] (results ++ bs) s'
      | .error e => E e s' := by
  induction items generalizing results s with
  | nil =>
    apply passes_pure
    change I [] (results ++ []) s
    rw [append_nil]
    exact h
  | cons a rest ih =>
    apply Passes.bind (hf a rest results s h)
    · intro e s' he
      exact he
    · intro b s' hb
      apply Passes.bind (ih (results ++ [b]) hb)
      · intro e s'' he
        exact he
      · intro bs s'' hbs
        apply passes_pure
        change I [] (results ++ [b] ++ bs) s'' at hbs
        rw [append_assoc] at hbs
        exact hbs

/-- What holds at every point holds wherever the operation is interrupted. -/
theorem Passes.interruptions {k : Option κ} {d : σ} (hm : Passes m s C Q)
    (h : (k, d) ∈ interruptions m s) :
    (k = none ∧ d = s) ∨ ∃ point, k = some point ∧ C point d := by
  obtain ⟨passed, hpt, hps, -⟩ := hm []
  rcases mem_cons.1 h with h | h
  · cases h
    exact .inl ⟨rfl, rfl⟩
  · obtain ⟨⟨point, d'⟩, hp, heq⟩ := mem_map.1 h
    cases heq
    rw [hpt, nil_append] at hp
    exact .inr ⟨point, rfl, hps _ hp⟩

theorem Passes.finish (hm : Passes m s C Q) : Q (Op.finish m s).1 (Op.finish m s).2 := by
  obtain ⟨_, -, -, hend⟩ := hm []
  exact hend

/-- A sequence that returns has a first part that returns. -/
theorem finish_bind_eq_ok {b : β} (h : (Op.finish (m >>= f) s).1 = .ok b) :
    ∃ a, (Op.finish m s).1 = .ok a := by
  unfold Op.finish at h ⊢
  rw [exec_bind] at h
  rcases hm : exec m ⟨s, []⟩ with ⟨e | a, h'⟩
  · rw [hm] at h
    cases h
  · exact ⟨a, rfl⟩

theorem finish_raiseIf_bind_eq_ok {c : Prop} [Decidable c] {e : ε}
    {f : Unit → Op (History σ κ) ε β} {b : β} (h : (Op.finish (raiseIf c e >>= f) s).1 = .ok b) :
    ¬ c ∧ (Op.finish (f ()) s).1 = .ok b := by
  unfold Op.finish at h ⊢
  rw [exec_bind, raiseIf] at h
  by_cases hc : c
  · rw [if_pos hc] at h
    cases h
  · rw [if_neg hc] at h
    exact ⟨hc, h⟩

end

/-- The operation, started in `s`, passes the point `k` in a state with `P`. -/
def Reaches (m : Op (History σ κ) ε α) (s : σ) (k : κ) (P : σ → Prop) : Prop :=
  ∀ points, Holds m ⟨s, points⟩ fun _ h =>
    ∃ passed, h.points = points ++ passed ∧ ∃ d, (k, d) ∈ passed ∧ P d

section

variable {m : Op (History σ κ) ε α} {f : α → Op (History σ κ) ε β} {s : σ} {k : κ}
  {C : κ → σ → Prop} {P : σ → Prop} {Q : Except ε α → σ → Prop}

theorem reaches_step {g : σ → σ} (hP : P (g s)) :
    Reaches (step k g : Op (History σ κ) ε Unit) s k P := by
  intro points
  exact ⟨[(k, g s)], rfl, g s, mem_singleton_self _, hP⟩

/-- The second part of a sequence reaches the point, where the first returns. -/
theorem Passes.bind_reaches (hm : Passes m s C Q) (herr : ∀ e s', ¬ Q (.error e) s')
    (hok : ∀ a s', Q (.ok a) s' → Reaches (f a) s' k P) : Reaches (m >>= f) s k P := by
  intro points
  apply (holds_bind _ _ _ _).2
  apply (hm points).mono
  rintro r ⟨s', points'⟩ ⟨passed, rfl, -, hend⟩
  cases r with
  | error e => exact absurd hend (herr e s')
  | ok a =>
    apply (hok a s' hend (points ++ passed)).mono
    rintro r' h' ⟨passed', hpt, d, hd, hP⟩
    refine ⟨passed ++ passed', ?_, d, mem_append_right _ hd, hP⟩
    rw [hpt, append_assoc]

theorem Reaches.bind (hm : Reaches m s k P)
    (hf : ∀ a s', Passes (f a) s' (fun _ _ => True) fun _ _ => True) : Reaches (m >>= f) s k P := by
  intro points
  apply (holds_bind _ _ _ _).2
  apply (hm points).mono
  rintro r ⟨s', points'⟩ ⟨passed, rfl, d, hd, hP⟩
  cases r with
  | error e => exact ⟨passed, rfl, d, hd, hP⟩
  | ok a =>
    apply (hf a s' (points ++ passed)).mono
    rintro r' h' ⟨passed', hpt, -, -⟩
    refine ⟨passed ++ passed', ?_, d, mem_append_left _ hd, hP⟩
    rw [hpt, append_assoc]

theorem reaches_look_bind {g : σ → Except ε α} {a : α} (hg : g s = .ok a)
    (hf : Reaches (f a) s k P) : Reaches (look g >>= f) s k P := by
  intro points
  apply holds_inspect_bind
  · intro e he
    change g s = .error e at he
    rw [hg] at he
    cases he
  · intro b hb
    change g s = .ok b at hb
    rw [hg] at hb
    cases hb
    exact hf points

theorem reaches_lift_bind {x : Except ε α} {a : α} (hx : x = .ok a) (hf : Reaches (f a) s k P) :
    Reaches (lift x >>= f) s k P := by
  subst hx
  exact hf

theorem Reaches.interruptions (hm : Reaches m s k P) :
    ∃ d, (some k, d) ∈ Op.interruptions m s ∧ P d := by
  obtain ⟨passed, hpt, d, hd, hP⟩ := hm []
  refine ⟨d, ?_, hP⟩
  apply mem_cons_of_mem
  rw [hpt, nil_append]
  exact mem_map.2 ⟨_, hd, rfl⟩

end

end Op

end WebOvpn
