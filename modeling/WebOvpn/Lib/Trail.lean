/-
Trails of a labelled relation, and operations whose steps are steps of it: each
point is reached from the state at the point before.
-/
import WebOvpn.Lib.Crash

namespace WebOvpn

open List

variable {σ κ ε α β : Type}

/-- From `s` the points lead to `t`, and every step is one of `R`. -/
inductive Trail (R : κ → σ → σ → Prop) : σ → List (κ × σ) → σ → Prop where
  | nil (s : σ) : Trail R s [] s
  | cons {s t u : σ} {k : κ} {rest : List (κ × σ)} :
      R k s t → Trail R t rest u → Trail R s ((k, t) :: rest) u

def stateAfter (s : σ) (points : List (κ × σ)) : σ := (points.getLast?.map Prod.snd).getD s

section

variable {R R' : κ → σ → σ → Prop} {s t u : σ} {points points' : List (κ × σ)}

theorem Trail.append (h : Trail R s points t) (h' : Trail R t points' u) :
    Trail R s (points ++ points') u := by
  induction h with
  | nil => exact h'
  | cons hst _ ih => exact .cons hst (ih h')

theorem Trail.single {k : κ} (h : R k s t) : Trail R s [(k, t)] t := .cons h (.nil t)

theorem Trail.mono (h : Trail R s points t) (hR : ∀ k s t, R k s t → R' k s t) :
    Trail R' s points t := by
  induction h with
  | nil => exact .nil _
  | cons hst _ ih => exact .cons (hR _ _ _ hst) ih

theorem Trail.stateAfter_eq (h : Trail R s points t) : stateAfter s points = t := by
  induction h with
  | nil => rfl
  | @cons s t u k rest hst hrs ih =>
    cases rest with
    | nil =>
      cases hrs
      rfl
    | cons point rest =>
      rw [← ih]
      unfold stateAfter
      rw [getLast?_cons_cons]
      simp only [getLast?_cons, Option.map_some, Option.getD_some]

theorem Trail.take (h : Trail R s points t) (n : Nat) :
    Trail R s (points.take n) (stateAfter s (points.take n)) := by
  suffices hex : ∃ u, Trail R s (points.take n) u by
    obtain ⟨u, hu⟩ := hex
    rw [hu.stateAfter_eq]
    exact hu
  induction h generalizing n with
  | nil =>
    rw [take_nil]
    exact ⟨_, .nil _⟩
  | cons hst _ ih =>
    cases n with
    | zero => exact ⟨_, .nil _⟩
    | succ n =>
      obtain ⟨u, hu⟩ := ih n
      exact ⟨u, .cons hst hu⟩

theorem Trail.last {k : κ} (h : Trail R s points t) (hls : (points.map Prod.fst).getLast? = some k) :
    ∃ u, R k u t := by
  induction h with
  | nil => cases hls
  | @cons s t u k' rest hst hrs ih =>
    cases hrs with
    | nil =>
      cases hls
      exact ⟨s, hst⟩
    | cons hst' hrs' =>
      apply ih
      rw [map_cons, map_cons, getLast?_cons_cons] at hls
      exact hls

/-- What holds of the points passed so far and the state there, and is kept by
every step, holds at the end of the trail. -/
theorem Trail.keeps {I : List κ → σ → Prop} {before : List κ} (h : Trail R s points t)
    (hs : I before s) (hst : ∀ before k s t, I before s → R k s t → I (before ++ [k]) t) :
    I (before ++ points.map Prod.fst) t := by
  induction h generalizing before with
  | nil =>
    rw [map_nil, append_nil]
    exact hs
  | @cons _ _ _ k rest hR _ ih =>
    have hrs := ih (hst before k _ _ hs hR)
    rw [append_assoc] at hrs
    exact hrs

theorem Trail.invariant {I : σ → Prop} (h : Trail R s points t) (hs : I s)
    (hst : ∀ k s t, I s → R k s t → I t) : I t := by
  induction h with
  | nil => exact hs
  | cons hR _ ih => exact ih (hst _ _ _ hs hR)

end

namespace Op

/-- The points passed and the state when the operation is cut off after `n` steps. -/
def stopAfter (m : Op (History σ κ) ε α) (s : σ) (n : Nat) : List κ × σ :=
  let passed := (exec m ⟨s, []⟩).2.points.take n
  (passed.map Prod.fst, (passed.getLast?.map Prod.snd).getD s)

/-- The steps of `m` from `s` are a trail of `R`, and `Q` holds at its end. -/
def Follows (m : Op (History σ κ) ε α) (R : κ → σ → σ → Prop) (s : σ)
    (Q : Except ε α → σ → Prop) : Prop :=
  ∀ points, Holds m ⟨s, points⟩ fun r h =>
    ∃ passed, h.points = points ++ passed ∧ Trail R s passed h.current ∧ Q r h.current

section

variable {m : Op (History σ κ) ε α} {f : α → Op (History σ κ) ε β} {s : σ}
  {R : κ → σ → σ → Prop} {Q : Except ε α → σ → Prop} {T : Except ε β → σ → Prop}

theorem follows_lift {x : Except ε α} (hx : Q x s) : Follows (lift x) R s Q := by
  intro points
  exact ⟨[], (append_nil points).symm, .nil s, hx⟩

theorem follows_pure {a : α} (ha : Q (.ok a) s) : Follows (pure a) R s Q := follows_lift ha

theorem follows_look {g : σ → Except ε α} (hg : Q (g s) s) : Follows (look g) R s Q := by
  intro points
  exact ⟨[], (append_nil points).symm, .nil s, hg⟩

theorem follows_step {point : κ} {g : σ → σ} {Q : Except ε Unit → σ → Prop}
    (hst : R point s (g s)) (hend : Q (.ok ()) (g s)) : Follows (step point g) R s Q := by
  intro points
  exact ⟨[(point, g s)], rfl, .single hst, hend⟩

theorem Follows.bind (hm : Follows m R s Q) (herr : ∀ e s', Q (.error e) s' → T (.error e) s')
    (hok : ∀ a s', Q (.ok a) s' → Follows (f a) R s' T) : Follows (m >>= f) R s T := by
  intro points
  apply (holds_bind _ _ _ _).2
  apply (hm points).mono
  rintro r ⟨s', points'⟩ ⟨passed, rfl, htr, hend⟩
  cases r with
  | error e => exact ⟨passed, rfl, htr, herr e s' hend⟩
  | ok a =>
    apply (hok a s' hend (points ++ passed)).mono
    rintro r' h' ⟨passed', hpt, htr', hend'⟩
    refine ⟨passed ++ passed', ?_, htr.append htr', hend'⟩
    rw [hpt, append_assoc]

theorem Follows.mono {R' : κ → σ → σ → Prop} {Q' : Except ε α → σ → Prop} (hm : Follows m R s Q)
    (hR : ∀ k s t, R k s t → R' k s t) (hQ : ∀ r s', Q r s' → Q' r s') : Follows m R' s Q' := by
  intro points
  apply (hm points).mono
  rintro r h ⟨passed, hpt, htr, hend⟩
  exact ⟨passed, hpt, htr.mono hR, hQ _ _ hend⟩

theorem follows_step_bind {point : κ} {g : σ → σ} {f : Unit → Op (History σ κ) ε β}
    (hst : R point s (g s)) (hf : Follows (f ()) R (g s) T) : Follows (step point g >>= f) R s T := by
  have hfs : Follows (step point g : Op (History σ κ) ε Unit) R s
      fun r s' => r = .ok () ∧ s' = g s := follows_step hst ⟨rfl, rfl⟩
  apply hfs.bind
  · rintro e s' ⟨h, -⟩
    cases h
  · rintro _ _ ⟨-, rfl⟩
    exact hf

theorem follows_look_bind {g : σ → Except ε α} (herr : ∀ e, g s = .error e → T (.error e) s)
    (hok : ∀ a, g s = .ok a → Follows (f a) R s T) : Follows (look g >>= f) R s T := by
  have hfs : Follows (look g : Op (History σ κ) ε α) R s fun r s' => r = g s ∧ s' = s :=
    follows_look ⟨rfl, rfl⟩
  apply hfs.bind
  · rintro e s' ⟨h, rfl⟩
    exact herr e h.symm
  · rintro a s' ⟨h, rfl⟩
    exact hok a h.symm

theorem follows_lift_bind {x : Except ε α} (herr : ∀ e, x = .error e → T (.error e) s)
    (hok : ∀ a, x = .ok a → Follows (f a) R s T) : Follows (lift x >>= f) R s T := by
  have hfs : Follows (lift x : Op (History σ κ) ε α) R s fun r s' => r = x ∧ s' = s :=
    follows_lift ⟨rfl, rfl⟩
  apply hfs.bind
  · rintro e s' ⟨h, rfl⟩
    exact herr e h.symm
  · rintro a s' ⟨h, rfl⟩
    exact hok a h.symm

theorem follows_raiseIf_bind {c : Prop} [Decidable c] {e : ε} {f : Unit → Op (History σ κ) ε β}
    (herr : c → T (.error e) s) (hok : ¬ c → Follows (f ()) R s T) :
      Follows (raiseIf c e >>= f) R s T := by
  apply follows_lift_bind
  · intro e' he'
    split_ifs at he' with hc
    cases he'
    exact herr hc
  · intro _ hu
    split_ifs at hu with hc
    exact hok hc

/-- Every step of the operation from `s` is one of `R`. -/
def Walks (m : Op (History σ κ) ε α) (R : κ → σ → σ → Prop) (s : σ) : Prop :=
  Follows m R s fun _ _ => True

theorem walks_pure {a : α} : Walks (pure a : Op (History σ κ) ε α) R s := follows_lift trivial

theorem walks_raise {e : ε} : Walks (raise e : Op (History σ κ) ε α) R s := follows_lift trivial

theorem walks_look {g : σ → Except ε α} : Walks (look g : Op (History σ κ) ε α) R s :=
  follows_look trivial

theorem walks_look_bind {g : σ → Except ε α} (hok : ∀ a, g s = .ok a → Walks (f a) R s) :
    Walks (look g >>= f) R s :=
  follows_look_bind (fun _ _ => trivial) hok

theorem walks_lift_bind {x : Except ε α} (hok : ∀ a, x = .ok a → Walks (f a) R s) :
    Walks (lift x >>= f) R s :=
  follows_lift_bind (fun _ _ => trivial) hok

theorem walks_raiseIf_bind {c : Prop} [Decidable c] {e : ε} {f : Unit → Op (History σ κ) ε β}
    (hok : ¬ c → Walks (f ()) R s) : Walks (raiseIf c e >>= f) R s :=
  follows_raiseIf_bind (fun _ => trivial) hok

theorem Follows.walks_bind (hm : Follows m R s Q) (hok : ∀ a s', Q (.ok a) s' → Walks (f a) R s') :
    Walks (m >>= f) R s :=
  hm.bind (fun _ _ _ => trivial) hok

/-- The loop rule for a property of the state that every turn keeps. -/
theorem Follows.forEach {f : α → Op (History σ κ) ε β} {I : σ → Prop} {items : List α} (hs : I s)
    (hf : ∀ a ∈ items, ∀ s, I s → Follows (f a) R s fun _ s' => I s') :
    Follows (forEach f items) R s fun _ s' => I s' := by
  induction items generalizing s with
  | nil => exact follows_pure hs
  | cons a rest ih =>
    apply (hf a mem_cons_self s hs).bind
    · intro e s' h
      exact h
    · intro b s' hb
      apply (ih hb fun a ha => hf a (mem_cons_of_mem _ ha)).bind
      · intro e s'' h
        exact h
      · intro bs s'' h
        exact follows_pure h

theorem Follows.finish (hm : Follows m R s Q) : Q (Op.finish m s).1 (Op.finish m s).2 := by
  obtain ⟨_, -, -, hend⟩ := hm []
  exact hend

/-- Wherever the operation is cut off, it has followed a trail. -/
theorem Follows.stopAfter (hm : Follows m R s Q) (n : Nat) :
    ∃ passed, Trail R s passed (Op.stopAfter m s n).2 ∧
      (Op.stopAfter m s n).1 = passed.map Prod.fst := by
  obtain ⟨passed, hpt, htr, -⟩ := hm []
  rw [nil_append] at hpt
  unfold Op.stopAfter
  rw [hpt]
  exact ⟨passed.take n, htr.take n, rfl⟩

theorem Follows.trail (hm : Follows m R s Q) :
    Trail R s (exec m ⟨s, []⟩).2.points (exec m ⟨s, []⟩).2.current := by
  obtain ⟨passed, hpt, htr, -⟩ := hm []
  rw [hpt, nil_append]
  exact htr

end

/-- From `s` the operation takes one step, at `point` and to `s'`, and returns `a`. -/
def Steps (m : Op (History σ κ) ε α) (s : σ) (point : κ) (s' : σ) (a : α) : Prop :=
  ∀ points, exec m ⟨s, points⟩ = (.ok a, ⟨s', points ++ [(point, s')]⟩)

section

variable {m : Op (History σ κ) ε β} {f : α → Op (History σ κ) ε β} {s s' : σ} {point : κ} {b : β}

theorem steps_look_bind {g : σ → Except ε α} {a : α} (hg : g s = .ok a)
    (hf : Steps (f a) s point s' b) : Steps (look g >>= f) s point s' b := by
  intro points
  have hlo : exec (look g : Op (History σ κ) ε α) ⟨s, points⟩ = (.ok a, ⟨s, points⟩) := by
    rw [← hg]
    rfl
  rw [exec_bind, hlo]
  exact hf points

theorem steps_raiseIf_bind {c : Prop} [Decidable c] {e : ε} {f : Unit → Op (History σ κ) ε β}
    (hc : ¬ c) (hf : Steps (f ()) s point s' b) : Steps (raiseIf c e >>= f) s point s' b := by
  intro points
  have hrai : exec (raiseIf c e : Op (History σ κ) ε Unit) ⟨s, points⟩ = (.ok (), ⟨s, points⟩) := by
    rw [raiseIf, if_neg hc]
    rfl
  rw [exec_bind, hrai]
  exact hf points

theorem steps_step_look {g : σ → σ} {f : σ → Except ε β} (hf : f (g s) = .ok b) :
    Steps (step point g >>= fun _ => look f) s point (g s) b := by
  intro points
  rw [exec_bind]
  change (f (g s), _) = _
  rw [hf]

theorem Steps.finish (h : Steps m s point s' b) : Op.finish m s = (.ok b, s') := by
  rw [Op.finish, h []]

theorem Steps.stopAfter (h : Steps m s point s' b) {n : Nat} (hn : 0 < n) :
    Op.stopAfter m s n = ([point], s') := by
  rw [Op.stopAfter, h [], nil_append]
  cases n with
  | zero => cases hn
  | succ n =>
    rw [take_succ_cons, take_nil]
    rfl

end

end Op

end WebOvpn
