/-
Operations that read and write a state and may stop early.  An operation is
described pointwise: `Holds m s post` says what its outcome and final state
are when it starts in `s`.
-/
import Mathlib.Tactic.Common

namespace WebOvpn

/-- An operation on states `σ` that returns a value or stops with `ε`. -/
abbrev Op (σ ε α : Type) := ExceptT ε (StateM σ) α

namespace Op

variable {σ ε α β : Type}

/-- Outcome and final state of an operation started in `s`. -/
def exec (m : Op σ ε α) (s : σ) : Except ε α × σ := (ExceptT.run m).run s

/-- The operation started in `s` ends with an outcome and state in `post`. -/
def Holds (m : Op σ ε α) (s : σ) (post : Except ε α → σ → Prop) : Prop :=
  post (exec m s).1 (exec m s).2

/-- A computation that does not touch the state. -/
def lift (x : Except ε α) : Op σ ε α := ExceptT.mk (pure x)

def raise (e : ε) : Op σ ε α := lift (.error e)

/-- Stop with `e` when the condition holds. -/
def raiseIf (c : Prop) [Decidable c] (e : ε) : Op σ ε Unit :=
  lift (if c then .error e else .ok ())

/-- Compute from the state without changing it. -/
def inspect (f : σ → Except ε α) : Op σ ε α :=
  ExceptT.mk fun s => (f s, s)

/-- Replace the state. -/
def update (f : σ → σ) : Op σ ε Unit :=
  ExceptT.mk fun s => (.ok (), f s)

/-- Run `m`; when it stops with `e`, run `handler e` in the state it left. -/
def onError (m : Op σ ε α) (handler : ε → Op σ ε α) : Op σ ε α :=
  ExceptT.tryCatch m handler

/-- Run the operation on each item in turn and collect the results. -/
def forEach (f : α → Op σ ε β) : List α → Op σ ε (List β)
  | [] => pure []
  | a :: rest => do
      let b ← f a
      let bs ← forEach f rest
      return b :: bs

theorem exec_bind (m : Op σ ε α) (f : α → Op σ ε β) (s : σ) : exec (m >>= f) s = match exec m s with
      | (.ok a, s') => exec (f a) s'
      | (.error e, s') => (.error e, s') := by
  unfold exec ExceptT.run StateT.run
  simp only [bind, ExceptT.bind, ExceptT.mk, StateT.bind, ExceptT.bindCont]
  rcases m s with ⟨_ | _, _⟩ <;> rfl

theorem exec_onError (m : Op σ ε α) (handler : ε → Op σ ε α) (s : σ) : exec (onError m handler) s =
      match exec m s with
      | (.ok a, s') => (.ok a, s')
      | (.error e, s') => exec (handler e) s' := by
  unfold exec onError ExceptT.run StateT.run ExceptT.tryCatch
  simp only [bind, ExceptT.mk, StateT.bind]
  rcases m s with ⟨_ | _, _⟩ <;> rfl

theorem holds_lift (x : Except ε α) (s : σ) (post : Except ε α → σ → Prop) :
    Holds (lift x) s post ↔ post x s :=
  Iff.rfl

theorem holds_bind (m : Op σ ε α) (f : α → Op σ ε β) (s : σ) (post : Except ε β → σ → Prop) :
    Holds (m >>= f) s post ↔ Holds m s fun r s' =>
        match r with
        | .ok a => Holds (f a) s' post
        | .error e => post (.error e) s' := by
  unfold Holds
  rw [exec_bind]
  rcases exec m s with ⟨_ | _, _⟩ <;> rfl

theorem holds_onError (m : Op σ ε α) (handler : ε → Op σ ε α) (s : σ) (post : Except ε α → σ → Prop) :
    Holds (onError m handler) s post ↔ Holds m s fun r s' =>
        match r with
        | .ok a => post (.ok a) s'
        | .error e => Holds (handler e) s' post := by
  unfold Holds
  rw [exec_onError]
  rcases exec m s with ⟨_ | _, _⟩ <;> rfl

variable {s : σ}

theorem Holds.mono {m : Op σ ε α} {post post' : Except ε α → σ → Prop}
    (hm : Holds m s post) (himp : ∀ r s', post r s' → post' r s') : Holds m s post' :=
  himp _ _ hm

theorem Holds.and {m : Op σ ε α} {post post' : Except ε α → σ → Prop}
    (hm : Holds m s post) (hm' : Holds m s post') : Holds m s fun r s' => post r s' ∧ post' r s' :=
  ⟨hm, hm'⟩

/-- A state-free step either stops in the state it found or goes on in it. -/
theorem holds_lift_bind {x : Except ε α} {f : α → Op σ ε β}
    {post : Except ε β → σ → Prop} (herr : ∀ e, x = .error e → post (.error e) s)
    (hok : ∀ a, x = .ok a → Holds (f a) s post) : Holds (lift x >>= f) s post := by
  rw [holds_bind, holds_lift]
  cases x with
  | error e => exact herr e rfl
  | ok a => exact hok a rfl

theorem holds_raiseIf_bind {c : Prop} [Decidable c] {e : ε} {f : Unit → Op σ ε β}
    {post : Except ε β → σ → Prop} (herr : c → post (.error e) s)
    (hok : ¬ c → Holds (f ()) s post) : Holds (raiseIf c e >>= f) s post := by
  rw [raiseIf, holds_bind, holds_lift]
  split_ifs with hc
  · exact herr hc
  · exact hok hc

theorem holds_inspect_bind {g : σ → Except ε α} {f : α → Op σ ε β} {post : Except ε β → σ → Prop}
    (herr : ∀ e, g s = .error e → post (.error e) s) (hok : ∀ a, g s = .ok a → Holds (f a) s post) :
    Holds (inspect g >>= f) s post := by
  rw [holds_bind]
  change match g s with | .ok a => _ | .error e => _
  cases hg : g s with
  | error e => exact herr e hg
  | ok a => exact hok a hg

/-- A property of states kept by the operation on every item is kept by the
loop, whatever its outcome. -/
theorem Holds.forEach {f : α → Op σ ε β} {P : σ → Prop} {items : List α} {s : σ}
    (hs : P s) (hf : ∀ a ∈ items, ∀ s, P s → Holds (f a) s fun _ s' => P s') :
    Holds (forEach f items) s fun _ s' => P s' := by
  induction items generalizing s with
  | nil => exact hs
  | cons a rest ih =>
    rw [Op.forEach, holds_bind]
    refine (hf a List.mem_cons_self s hs).mono fun r s' hs' => ?_
    cases r with
    | error e => exact hs'
    | ok b =>
      refine (holds_bind _ _ _ _).2 ?_
      refine (ih hs' fun a ha => hf a (List.mem_cons_of_mem _ ha)).mono ?_
      intro r s' hs'
      cases r <;> exact hs'

section

variable {τ : Type} {embed : τ → σ}

/-- The operation, started where the part of the state is `b`, changes at most
that part. -/
def HoldsIn (embed : τ → σ) (m : Op σ ε α) (b : τ) (post : Except ε α → τ → Prop) : Prop :=
  Holds m (embed b) fun r s' => ∃ b', s' = embed b' ∧ post r b'

variable {m : Op σ ε α} {f : α → Op σ ε β} {b : τ} {post : Except ε β → τ → Prop}

theorem HoldsIn.mono {Q Q' : Except ε α → τ → Prop} (hm : HoldsIn embed m b Q)
    (himp : ∀ r b', Q r b' → Q' r b') : HoldsIn embed m b Q' :=
  Holds.mono hm fun r _ ⟨b', hs, hQ⟩ => ⟨b', hs, himp r b' hQ⟩

theorem holdsIn_lift {x : Except ε β} (hx : post x b) : HoldsIn embed (lift x) b post :=
  ⟨b, rfl, hx⟩

theorem holdsIn_pure {v : β} (hv : post (.ok v) b) : HoldsIn embed (pure v) b post :=
  ⟨b, rfl, hv⟩

theorem holdsIn_raise {e : ε} (he : post (.error e) b) : HoldsIn embed (raise e) b post :=
  ⟨b, rfl, he⟩

theorem HoldsIn.bind {Q : Except ε α → τ → Prop} (hm : HoldsIn embed m b Q)
    (herr : ∀ e b', Q (.error e) b' → post (.error e) b')
    (hok : ∀ a b', Q (.ok a) b' → HoldsIn embed (f a) b' post) : HoldsIn embed (m >>= f) b post := by
  refine (holds_bind _ _ _ _).2 (Holds.mono hm ?_)
  rintro r _ ⟨b', rfl, hQ⟩
  cases r with
  | error e => exact ⟨b', rfl, herr e b' hQ⟩
  | ok a => exact hok a b' hQ

theorem HoldsIn.onError {handler : ε → Op σ ε α} {Q post : Except ε α → τ → Prop}
    (hm : HoldsIn embed m b Q) (hok : ∀ a b', Q (.ok a) b' → post (.ok a) b')
    (herr : ∀ e b', Q (.error e) b' → HoldsIn embed (handler e) b' post) :
    HoldsIn embed (Op.onError m handler) b post := by
  refine (holds_onError _ _ _ _).2 (Holds.mono hm ?_)
  rintro r _ ⟨b', rfl, hQ⟩
  cases r with
  | error e => exact herr e b' hQ
  | ok a => exact ⟨b', rfl, hok a b' hQ⟩

theorem holdsIn_lift_bind {x : Except ε α} (herr : ∀ e, x = .error e → post (.error e) b)
    (hok : ∀ a, x = .ok a → HoldsIn embed (f a) b post) : HoldsIn embed (lift x >>= f) b post :=
  holds_lift_bind (fun e he => ⟨b, rfl, herr e he⟩) hok

theorem holdsIn_raiseIf_bind {c : Prop} [Decidable c] {e : ε} {f : Unit → Op σ ε β}
    (herr : c → post (.error e) b) (hok : ¬ c → HoldsIn embed (f ()) b post) :
    HoldsIn embed (raiseIf c e >>= f) b post :=
  holds_raiseIf_bind (fun hc => ⟨b, rfl, herr hc⟩) hok

theorem holdsIn_inspect_bind {g : σ → Except ε α}
    (herr : ∀ e, g (embed b) = .error e → post (.error e) b)
    (hok : ∀ a, g (embed b) = .ok a → HoldsIn embed (f a) b post) :
      HoldsIn embed (inspect g >>= f) b post :=
  holds_inspect_bind (fun e he => ⟨b, rfl, herr e he⟩) hok

end

end Op

end WebOvpn
