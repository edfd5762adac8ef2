/-
Operations among others. Before each step of an operation the others make moves,
and the step itself may fail. `Meets` says what holds when the operation ends,
whatever the turns are.
-/
import WebOvpn.Lib.Effect
import WebOvpn.Lib.Run

namespace WebOvpn

structure Turn (ι : Type) where
  moves : List ι
  fails : Bool

/-- A state and the turns that are still to come. When they are used up, nobody
interferes any more. -/
structure Scene (σ ι : Type) where
  state : σ
  turns : List (Turn ι)

namespace Op

variable {σ ι ε α β : Type} (others : σ → ι → σ)

/-- A step: the others move, and then it fails with `fault` or is taken. -/
def own (fault : ε) (f : σ → Except ε α × σ) : Op (Scene σ ι) ε α :=
  ExceptT.mk fun s =>
    match s.turns with
    | [] => ((f s.state).1, ⟨(f s.state).2, []⟩)
    | turn :: rest =>
      if turn.fails then (.error fault, ⟨run others s.state turn.moves, rest⟩)
      else ((f (run others s.state turn.moves)).1, ⟨(f (run others s.state turn.moves)).2, rest⟩)

/-- A change that nobody sees, such as an assignment to a variable. -/
def assign (f : σ → σ) : Op (Scene σ ι) ε Unit := update fun s => ⟨f s.state, s.turns⟩

/-- Look at what nobody else changes. -/
def view (f : σ → Except ε α) : Op (Scene σ ι) ε α := inspect fun s => f s.state

def Stable (P : σ → Prop) : Prop := ∀ s i, P s → P (others s i)

/-- Started where `P` holds, the operation ends with a value where `Q` holds, or
stops where `E` holds. -/
def Meets (P : σ → Prop) (m : Op (Scene σ ι) ε α) (Q : α → σ → Prop) (E : ε → σ → Prop) : Prop :=
  ∀ s : Scene σ ι, P s.state → Holds m s fun r s' =>
    match r with
    | .ok a => Q a s'.state
    | .error e => E e s'.state

variable {others} {P P' : σ → Prop} {m : Op (Scene σ ι) ε α} {f : α → Op (Scene σ ι) ε β}
    {Q Q' : α → σ → Prop}
  {R : β → σ → Prop} {E E' : ε → σ → Prop} {fault : ε}

theorem Stable.and (h : Stable others P) (h' : Stable others P') : Stable others fun s => P s ∧ P' s :=
  fun s i hs => ⟨h s i hs.1, h' s i hs.2⟩

theorem Stable.congr (h : Stable others P) (hP : ∀ s, P s ↔ P' s) : Stable others P' :=
  fun s i hs => (hP _).1 (h s i ((hP s).2 hs))

theorem Stable.run (h : Stable others P) {s : σ} (hs : P s) (moves : List ι) : P (run others s moves) :=
  run_keeps hs h

theorem meets_own {g : σ → Except ε α × σ} (hsa : Stable others P) (hfau : ∀ s, P s → E fault s)
    (hst : ∀ s, P s → match (g s).1 with
      | .ok a => Q a (g s).2
      | .error e => E e (g s).2) : Meets P (own others fault g) Q E := by
  rintro ⟨state, turns⟩ hs
  cases turns with
  | nil => exact hst state hs
  | cons turn rest =>
    obtain ⟨moves, fails⟩ := turn
    have hmv := hsa.run hs moves
    cases fails with
    | true => exact hfau _ hmv
    | false => exact hst _ hmv

theorem meets_own_cases {g : σ → Except ε α × σ} (hst : Stable others P) (hfau : ∀ s, P s → E fault s)
    (hok : ∀ s a s', P s → g s = (.ok a, s') → Q a s')
    (herr : ∀ s e s', P s → g s = (.error e, s') → E e s') :
    Meets P (own others fault g) Q E := by
  apply meets_own hst hfau
  intro s hs
  cases hg : (g s).1 with
  | ok a => exact hok s a _ hs (Prod.ext hg rfl)
  | error e => exact herr s e _ hs (Prod.ext hg rfl)

theorem meets_assign {g : σ → σ} {Q : Unit → σ → Prop} (h : ∀ s, P s → Q () (g s)) :
    Meets P (assign g : Op (Scene σ ι) ε Unit) Q E :=
  fun s hs => h s.state hs

theorem meets_view {g : σ → Except ε α} (h : ∀ s, P s → match g s with
      | .ok a => Q a s
      | .error e => E e s) : Meets P (view g : Op (Scene σ ι) ε α) Q E := by
  intro s hs
  exact h s.state hs

theorem meets_pure {a : α} (h : ∀ s, P s → Q a s) : Meets P (pure a : Op (Scene σ ι) ε α) Q E :=
  fun s hs => h s.state hs

theorem meets_raise {e : ε} (h : ∀ s, P s → E e s) : Meets P (raise e : Op (Scene σ ι) ε α) Q E :=
  fun s hs => h s.state hs

theorem meets_lift {x : Except ε α} (hok : ∀ a s, x = .ok a → P s → Q a s)
    (herr : ∀ e s, x = .error e → P s → E e s) :
    Meets P (lift x : Op (Scene σ ι) ε α) Q E := by
  intro s hs
  rw [holds_lift]
  cases hx : x with
  | ok a => exact hok a s.state hx hs
  | error e => exact herr e s.state hx hs

theorem meets_raiseIf {c : Prop} [Decidable c] {e : ε} {Q : Unit → σ → Prop}
    (hok : ∀ s, ¬ c → P s → Q () s)
    (herr : ∀ s, c → P s → E e s) : Meets P (raiseIf c e : Op (Scene σ ι) ε Unit) Q E := by
  unfold raiseIf
  split
  · exact meets_lift nofun fun _ s h hs => by cases h; exact herr s ‹_› hs
  · exact meets_lift (fun _ s _ hs => hok s ‹_› hs) nofun

theorem Meets.bind (hm : Meets P m Q E) (hf : ∀ a, Meets (Q a) (f a) R E) : Meets P (m >>= f) R E := by
  intro s hs
  rw [holds_bind]
  apply (hm s hs).mono
  rintro (e | a) s' h
  · exact h
  · exact hf a s' h

theorem Meets.mono (hm : Meets P m Q E) (hP : ∀ s, P' s → P s) (hQ : ∀ a s, Q a s → Q' a s)
    (hE : ∀ e s, E e s → E' e s) : Meets P' m Q' E' := by
  intro s hs
  apply (hm s (hP _ hs)).mono
  rintro (e | a) s' h
  · exact hE e _ h
  · exact hQ a _ h

theorem Meets.pre (hm : Meets P m Q E) (hP : ∀ s, P' s → P s) : Meets P' m Q E :=
  hm.mono hP (fun _ _ h => h) fun _ _ h => h

theorem Meets.post (hm : Meets P m Q E) (hQ : ∀ a s, Q a s → Q' a s) : Meets P m Q' E :=
  hm.mono (fun _ h => h) hQ fun _ _ h => h

/-- What is no matter of the state is known beforehand. -/
theorem Meets.assuming {c : Prop} (hm : c → Meets P m Q E) : Meets (fun s => P s ∧ c) m Q E :=
  fun s hs => hm hs.2 s hs.1

/-- An unknown of the assertion before is named. -/
theorem Meets.exists {γ : Type} {S : γ → σ → Prop} (hm : ∀ c, Meets (S c) m Q E) :
    Meets (fun s => ∃ c, S c s) m Q E :=
  fun s hs => hs.elim fun c hc => hm c s hc

theorem Meets.onError {handler : ε → Op (Scene σ ι) ε α} (hm : Meets P m Q E)
    (hhn : ∀ e, Meets (E e) (handler e) Q E') :
    Meets P (Op.onError m handler) Q E' := by
  intro s hs
  rw [holds_onError]
  apply (hm s hs).mono
  rintro (e | a) s' h
  · exact hhn e s' h
  · exact h

variable {g : α → Op (Scene σ ι) ε β}

theorem Meets.forEach {I : List α → List β → σ → Prop} {items : List α}
    (hst : ∀ done a rest results, items = done ++ a :: rest →
      Meets (I done results) (g a) (fun b => I (done ++ [a]) (results ++ [b])) E) :
    Meets (I [] []) (Op.forEach g items) (fun results => I items results) E := by
  suffices hlo : ∀ done rest results, items = done ++ rest →
      Meets (I done results) (Op.forEach g rest) (fun more => I items (results ++ more)) E by
    exact (hlo [] items [] rfl).post fun more s h => by simpa using h
  intro done rest
  induction rest generalizing done with
  | nil =>
    intro results hits
    rw [List.append_nil] at hits
    subst hits
    apply meets_pure
    intro s hs
    rw [List.append_nil]
    exact hs
  | cons a rest ih =>
    intro results hits
    apply (hst done a rest results hits).bind
    intro b
    apply (ih (done ++ [a]) (results ++ [b]) (by rw [hits, List.append_assoc]; rfl)).bind
    intro bs
    apply meets_pure
    intro s hs
    rw [List.append_assoc] at hs
    exact hs

theorem Meets.forEach_keeps {items : List α}
    (hst : ∀ a ∈ items, Meets P (g a) (fun _ => P) E) : Meets P (Op.forEach g items) (fun _ => P) E := by
  apply Meets.forEach (I := fun _ _ => P)
  intro done a rest _ hits
  apply hst
  rw [hits]
  exact List.mem_append_right _ List.mem_cons_self

end Op

end WebOvpn
