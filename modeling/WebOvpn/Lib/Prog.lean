/-
Commands that work on shared files.  A command reads whole files and replaces
whole files; two commands may take such steps in any order, and a command that
takes the lock keeps out every other one that does.
-/
import Mathlib.Tactic.Common

namespace WebOvpn

open List

/-- A command over files with the given contents.  It returns a value or stops
with `ε`. -/
inductive Prog {File : Type} (Content : File → Type) (ε α : Type) where
  | done (a : α)
  | stop (e : ε)
  | read (f : File) (next : Content f → Prog Content ε α)
  | replace (f : File) (content : Content f) (next : Prog Content ε α)

abbrev Contents {File : Type} (Content : File → Type) := (f : File) → Content f

namespace Prog

variable {File : Type} {Content : File → Type} {ε α β : Type}

def bind : Prog Content ε α → (α → Prog Content ε β) → Prog Content ε β
  | .done a, k => k a
  | .stop e, _ => .stop e
  | .read f next, k => .read f fun content => (next content).bind k
  | .replace f content next, k => .replace f content (next.bind k)

instance : Monad (Prog Content ε) where
  pure := .done
  bind := bind

def get (f : File) : Prog Content ε (Content f) := .read f .done

def put (f : File) (content : Content f) : Prog Content ε Unit := .replace f content (.done ())

/-- A computation that touches no file. -/
def lift : Except ε α → Prog Content ε α
  | .ok a => .done a
  | .error e => .stop e

/-- Stop with `e` when the condition holds. -/
def raiseIf (c : Prop) [Decidable c] (e : ε) : Prog Content ε Unit :=
  if c then .stop e else .done ()

/-- The command has no step left. -/
def isOver : Prog Content ε α → Bool
  | .done _ => true
  | .stop _ => true
  | .read _ _ => false
  | .replace _ _ _ => false

structure Access (File : Type) where
  file : File
  writes : Bool

/-- The steps do not commute: they are on one file, and one of them replaces it. -/
def Access.Conflicts (a b : Access File) : Prop := a.file = b.file ∧ (a.writes = true ∨ b.writes = true)

instance [DecidableEq File] (a b : Access File) : Decidable (a.Conflicts b) :=
  inferInstanceAs (Decidable (_ ∧ _))

variable [DecidableEq File]

/-- What the command returns, and the files it leaves. -/
def exec : Prog Content ε α → Contents Content → Except ε α × Contents Content
  | .done a, s => (.ok a, s)
  | .stop e, s => (.error e, s)
  | .read f next, s => (next (s f)).exec s
  | .replace f content next, s => next.exec (Function.update s f content)

/-- The steps it takes. -/
def accesses : Prog Content ε α → Contents Content → List (Access File)
  | .done _, _ => []
  | .stop _, _ => []
  | .read f next, s => ⟨f, false⟩ :: (next (s f)).accesses s
  | .replace f content next, s => ⟨f, true⟩ :: next.accesses (Function.update s f content)

section

variable {p : Prog Content ε α} {k : α → Prog Content ε β} {s : Contents Content} {f : File}
    {content : Content f}

theorem exec_bind (p : Prog Content ε α) (k : α → Prog Content ε β) (s : Contents Content) :
    exec (p >>= k) s = match exec p s with
      | (.ok a, t) => exec (k a) t
      | (.error e, t) => (.error e, t) := by
  induction p generalizing s with
  | read f next ih => exact ih (s f) s
  | replace f content next ih => exact ih (Function.update s f content)
  | _ => rfl

theorem exec_bind_of_ok {a : α} {t : Contents Content} (h : exec p s = (.ok a, t)) :
    exec (p >>= k) s = exec (k a) t := by
  rw [exec_bind, h]

variable {e : ε} {c : Prop}

theorem exec_bind_of_error {t : Contents Content} (h : exec p s = (.error e, t)) :
    exec (p >>= k) s = (.error e, t) := by
  rw [exec_bind, h]

theorem exec_bind_fst_error (h : (exec p s).1 = .error e) : (exec (p >>= k) s).1 = .error e := by
  rw [exec_bind_of_error (t := (exec p s).2) (Prod.ext h rfl)]

@[simp]
theorem exec_lift_bind_ok {a : α} : exec (lift (.ok a) >>= k) s = exec (k a) s :=
  rfl

theorem exec_raiseIf_bind [Decidable c] {k : Unit → Prog Content ε β} (h : ¬ c) :
    exec (raiseIf c e >>= k) s = exec (k ()) s := by
  unfold raiseIf
  rw [if_neg h]
  rfl

theorem exec_raiseIf_bind_error [Decidable c] {k : Unit → Prog Content ε β} (h : c) :
    exec (raiseIf c e >>= k) s = (.error e, s) := by
  unfold raiseIf
  rw [if_pos h]
  rfl

@[simp]
theorem exec_get_bind (k : Content f → Prog Content ε β) : exec (get f >>= k) s = exec (k (s f)) s :=
  rfl

@[simp]
theorem exec_put :
    exec (put f content : Prog Content ε Unit) s = (.ok (), Function.update s f content) :=
  rfl

@[simp]
theorem exec_lift (x : Except ε α) : exec (lift x : Prog Content ε α) s = (x, s) := by
  cases x <;> rfl

@[simp]
theorem exec_raiseIf [Decidable c] (e : ε) :
    exec (raiseIf c e : Prog Content ε Unit) s = (if c then .error e else .ok (), s) := by
  unfold raiseIf
  split <;> rfl

theorem exec_of_isOver (h : p.isOver = true) : (exec p s).2 = s := by
  cases p with
  | done a => rfl
  | stop e => rfl
  | _ => cases h

theorem exec_frame (h : ∀ a ∈ p.accesses s, a.file = f → a.writes = false) : (exec p s).2 f = s f := by
  induction p generalizing s with
  | read g next ih => exact ih (s g) fun a ha => h a (mem_cons_of_mem _ ha)
  | replace g content next ih =>
    have hne : f ≠ g := by
      rintro rfl
      cases h ⟨f, true⟩ mem_cons_self rfl
    rw [exec, ih fun a ha => h a (mem_cons_of_mem _ ha), Function.update_of_ne hne]
  | _ => rfl

/-- What a command that does not touch a file finds in it makes no difference. -/
theorem exec_update (h : ∀ a ∈ p.accesses (Function.update s f content), a.file ≠ f) :
    (exec p (Function.update s f content)).2 = Function.update (exec p s).2 f content ∧
      p.accesses (Function.update s f content) = p.accesses s := by
  induction p generalizing s with
  | read g next ih =>
    have hne : g ≠ f := h ⟨g, false⟩ mem_cons_self
    have hsm : Function.update s f content g = s g := Function.update_of_ne hne _ _
    have hnx := ih (s g) (s := s) fun a ha => h a (by
      rw [accesses, hsm]
      exact mem_cons_of_mem _ ha)
    rw [exec, exec, accesses, accesses, hsm, hnx.1, hnx.2]
    exact ⟨rfl, rfl⟩
  | replace g c next ih =>
    have hne : g ≠ f := h ⟨g, true⟩ mem_cons_self
    have hcm : Function.update (Function.update s f content) g c =
        Function.update (Function.update s g c) f content := Function.update_comm hne.symm _ _ _
    have hnx := ih (s := Function.update s g c) fun a ha => h a (by
      rw [accesses, hcm]
      exact mem_cons_of_mem _ ha)
    rw [exec, exec, accesses, accesses, hcm, hnx.1, hnx.2]
    exact ⟨rfl, rfl⟩
  | _ => exact ⟨rfl, rfl⟩

end

/-- Whatever it finds, the command reads only files in `R` and replaces only
files in `W`. -/
def Uses (R W : File → Prop) : Prog Content ε α → Prop
  | .done _ => True
  | .stop _ => True
  | .read f next => R f ∧ ∀ content, (next content).Uses R W
  | .replace f _ next => W f ∧ next.Uses R W

/-- The command replaces no file. -/
abbrev ReadsOnly (p : Prog Content ε α) : Prop := p.Uses (fun _ => True) fun _ => False

section

variable {R W : File → Prop} {p : Prog Content ε α} {k : α → Prog Content ε β} {s t : Contents Content}
  {f : File} {content : Content f}

omit [DecidableEq File]

theorem uses_pure (a : α) : (pure a : Prog Content ε α).Uses R W :=
  trivial

theorem uses_stop (e : ε) : (.stop e : Prog Content ε α).Uses R W :=
  trivial

theorem uses_lift (x : Except ε α) : (lift x : Prog Content ε α).Uses R W := by
  cases x <;> trivial

theorem uses_raiseIf {c : Prop} [Decidable c] (e : ε) :
    (raiseIf c e : Prog Content ε Unit).Uses R W := by
  unfold raiseIf
  split <;> trivial

theorem uses_get (h : R f) : (get f : Prog Content ε (Content f)).Uses R W :=
  ⟨h, fun _ => trivial⟩

theorem uses_put (h : W f) : (put f content : Prog Content ε Unit).Uses R W :=
  ⟨h, trivial⟩

theorem Uses.bind (hp : p.Uses R W) (hk : ∀ a, (k a).Uses R W) : (p >>= k).Uses R W := by
  induction p with
  | done a => exact hk a
  | stop e => trivial
  | read f next ih => exact ⟨hp.1, fun content => ih content (hp.2 content)⟩
  | replace f content next ih => exact ⟨hp.1, ih hp.2⟩

end

section

variable {R W : File → Prop} {p : Prog Content ε α} {k : α → Prog Content ε β}
    {s t : Contents Content} {f : File}

theorem Uses.frame (hp : p.Uses R W) (hf : ¬ W f) : (exec p s).2 f = s f := by
  induction p generalizing s with
  | read g next ih => exact ih (s g) (hp.2 (s g))
  | replace g content next ih =>
    have hne : f ≠ g := by
      rintro rfl
      exact hf hp.1
    rw [exec, ih hp.2, Function.update_of_ne hne]
  | _ => rfl

/-- A command that replaces nothing leaves the files as they are. -/
theorem Uses.keeps (hp : p.Uses R fun _ => False) : (exec p s).2 = s :=
  funext fun _ => hp.frame id

/-- What such a command returns depends on the files that it reads. -/
theorem Uses.congr (hp : p.Uses R fun _ => False) (hst : ∀ f, R f → s f = t f) :
    (exec p s).1 = (exec p t).1 := by
  induction p with
  | read f next ih =>
    rw [exec, exec, hst f hp.1]
    exact ih (t f) (hp.2 (t f))
  | replace f content next ih => exact hp.1.elim
  | _ => rfl

theorem Uses.exec_eq (hp : p.Uses R fun _ => False) : exec p s = ((exec p s).1, s) :=
  Prod.ext rfl hp.keeps

/-- The command goes on with what one that replaces nothing returned. -/
theorem Uses.exec_bind {a : α} (hp : p.Uses R fun _ => False) (h : (exec p s).1 = .ok a) :
    exec (p >>= k) s = exec (k a) s := by
  rw [Prog.exec_bind, hp.exec_eq, h]

theorem Uses.exec_bind_error {e : ε} (hp : p.Uses R fun _ => False) (h : (exec p s).1 = .error e) :
    exec (p >>= k) s = (.error e, s) := by
  rw [Prog.exec_bind, hp.exec_eq, h]

theorem Uses.bind_eq_ok {b : β} (hp : p.Uses R fun _ => False) (h : (exec (p >>= k) s).1 = .ok b) :
    ∃ a, (exec p s).1 = .ok a ∧ (exec (k a) s).1 = .ok b := by
  cases hv : (exec p s).1 with
  | error e =>
    rw [hp.exec_bind_error hv] at h
    cases h
  | ok a =>
    rw [hp.exec_bind hv] at h
    exact ⟨a, rfl, h⟩

end

/-- Whatever it finds, the command stops in no other way than `E` allows. -/
def StopsIn (E : ε → Prop) : Prog Content ε α → Prop
  | .done _ => True
  | .stop e => E e
  | .read _ next => ∀ content, (next content).StopsIn E
  | .replace _ _ next => next.StopsIn E

section

variable {E : ε → Prop} {p : Prog Content ε α} {k : α → Prog Content ε β} {s : Contents Content}

omit [DecidableEq File] in
omit [DecidableEq File] in
theorem stopsIn_raiseIf {c : Prop} [Decidable c] {e : ε} (h : c → E e) :
    (raiseIf c e : Prog Content ε Unit).StopsIn E := by
  unfold raiseIf
  split
  · exact h ‹_›
  · trivial

omit [DecidableEq File] in
theorem StopsIn.bind (hp : p.StopsIn E) (hk : ∀ a, (k a).StopsIn E) : (p >>= k).StopsIn E := by
  induction p with
  | done a => exact hk a
  | stop e => exact hp
  | read f next ih => exact fun content => ih content (hp content)
  | replace f content next ih => exact ih hp

theorem StopsIn.exec_ne_error (hp : p.StopsIn E) {e : ε} (he : ¬ E e) : (exec p s).1 ≠ .error e := by
  induction p generalizing s with
  | done a => nofun
  | stop e' =>
    intro h
    cases h
    exact he hp
  | read f next ih => exact ih (s f) (hp (s f))
  | replace f content next ih => exact ih hp

end

/-- What the command returns and the files it leaves are as `post` says. -/
def Holds (p : Prog Content ε α) (s : Contents Content)
    (post : Except ε α → Contents Content → Prop) : Prop :=
  post (exec p s).1 (exec p s).2

section

variable {R : File → Prop} {p : Prog Content ε α} {k : α → Prog Content ε β}
    {s : Contents Content} {f : File}
  {content : Content f} {post' : Except ε β → Contents Content → Prop}

theorem Holds.bind {post : Except ε α → Contents Content → Prop} (hp : Holds p s post)
    (herr : ∀ e t, post (.error e) t → post' (.error e) t)
    (hk : ∀ a t, post (.ok a) t → Holds (k a) t post') : Holds (p >>= k) s post' := by
  unfold Holds at hp ⊢
  rw [Prog.exec_bind]
  generalize exec p s = outcome at hp ⊢
  obtain ⟨_ | a, t⟩ := outcome
  · exact herr _ _ hp
  · exact hk a t hp

theorem Holds.congr {q : Prog Content ε α} {post : Except ε α → Contents Content → Prop}
    (hq : Holds q s post)
    (h : exec p s = exec q s) : Holds p s post := by
  unfold Holds
  rw [h]
  exact hq

theorem holds_get_bind {k : Content f → Prog Content ε β} (h : Holds (k (s f)) s post') :
    Holds (get f >>= k) s post' :=
  h

theorem holds_lift_bind {x : Except ε α} (herr : ∀ e, x = .error e → post' (.error e) s)
    (hk : ∀ a, x = .ok a → Holds (k a) s post') : Holds (lift x >>= k) s post' := by
  cases x with
  | error e => exact herr e rfl
  | ok a => exact hk a rfl

theorem holds_raiseIf_bind {c : Prop} [Decidable c] {e : ε} {k : Unit → Prog Content ε β}
    (herr : c → post' (.error e) s) (hk : ¬ c → Holds (k ()) s post') :
      Holds (raiseIf c e >>= k) s post' := by
  unfold raiseIf
  split
  · exact herr ‹_›
  · exact hk ‹_›

theorem Uses.holds_bind_ok {a : α} (hp : p.Uses R fun _ => False) (h : (exec p s).1 = .ok a)
    (hk : Holds (k a) s post') : Holds (p >>= k) s post' := by
  unfold Holds
  rw [hp.exec_bind h]
  exact hk

end

/-- Two commands under way, told apart by a flag; `holder` holds the lock. -/
structure Race {File : Type} (Content : File → Type) (ε α : Type) where
  progs : Bool → Prog Content ε α
  store : Contents Content
  holder : Option Bool

namespace Race

variable {s t : Race Content ε α} {locks : Bool → Bool} {who : Bool} {schedule : List Bool}

def advance (s : Race Content ε α) (who : Bool) : Race Content ε α × Option (Access File) :=
  match s.progs who with
  | .done _ => (s, none)
  | .stop _ => (s, none)
  | .read f next => ({ s with progs := Function.update s.progs who (next (s.store f)) }, some ⟨f, false⟩)
  | .replace f content next =>
    ({ s with
      progs := Function.update s.progs who next
      store := Function.update s.store f content }, some ⟨f, true⟩)

/-- The turn of one of the commands.  One that takes the lock waits for it,
keeps it as long as it has steps left, and gives it back. -/
def turn (locks : Bool → Bool) (s : Race Content ε α) (who : Bool) :
    Race Content ε α × Option (Access File) :=
  if locks who = false then s.advance who
  else if s.holder = some who then
    if (s.progs who).isOver then ({ s with holder := none }, none) else s.advance who
  else if s.holder = none ∧ (s.progs who).isOver = false then ({ s with holder := some who }, none)
  else (s, none)

/-- The state after the turns, and the steps on files that were taken in them. -/
def play (locks : Bool → Bool) : Race Content ε α → List Bool →
    Race Content ε α × List (Bool × Access File)
  | s, [] => (s, [])
  | s, who :: rest =>
    let played := play locks (s.turn locks who).1 rest
    (played.1, ((s.turn locks who).2.map (Prod.mk who)).toList ++ played.2)

/-- Both commands have ended. -/
def isOver (s : Race Content ε α) : Bool := (s.progs true).isOver && (s.progs false).isOver

/-- The files after one command and then the other. -/
def serial (s : Race Content ε α) (first : Bool) : Contents Content :=
  ((s.progs !first).exec ((s.progs first).exec s.store).2).2

/-- No step of the other command stands before a step of the first one that it
conflicts with. -/
def Ordered (first : Bool) (trace : List (Bool × Access File)) : Prop :=
  trace.Pairwise fun a b => a.1 ≠ first → b.1 = first → ¬ a.2.Conflicts b.2

def stepsOf (who : Bool) (trace : List (Bool × Access File)) : List (Access File) :=
  (trace.filter fun a => a.1 = who).map Prod.snd

variable {a : Access File} {first : Bool}

omit [DecidableEq File] in
theorem mem_stepsOf {trace : List (Bool × Access File)} : a ∈ stepsOf who trace ↔ (who, a) ∈ trace := by
  unfold stepsOf
  simp

omit [DecidableEq File] in
theorem stepsOf_cons (b : Bool × Access File) (trace : List (Bool × Access File)) :
    stepsOf who (b :: trace) = if b.1 = who then b.2 :: stepsOf who trace else stepsOf who trace := by
  unfold stepsOf
  split_ifs with h
  · rw [filter_cons_of_pos (by simpa using h), map_cons]
  · rw [filter_cons_of_neg (by simpa using h)]

theorem turn_cases (locks : Bool → Bool) (s : Race Content ε α) (who : Bool) :
    (∃ holder, s.turn locks who = ({ s with holder := holder }, none)) ∨
      s.turn locks who = s.advance who := by
  unfold turn
  split_ifs
  · exact .inr rfl
  · exact .inl ⟨_, rfl⟩
  · exact .inr rfl
  · exact .inl ⟨_, rfl⟩
  · exact .inl ⟨s.holder, rfl⟩

theorem serial_of_isOver (h : s.isOver = true) (first : Bool) : s.serial first = s.store := by
  unfold isOver at h
  rw [Bool.and_eq_true] at h
  have hover : ∀ who, (s.progs who).isOver = true := fun who => by
    cases who
    · exact h.2
    · exact h.1
  unfold serial
  rw [exec_of_isOver (hover first), exec_of_isOver (hover _)]

theorem advance_first (h : (s.advance first).2 = some a) : (s.progs first).accesses s.store =
        a :: ((s.advance first).1.progs first).accesses (s.advance first).1.store ∧
      (s.advance first).1.serial first = s.serial first := by
  unfold advance at h ⊢
  cases hpr : s.progs first with
  | done _ => simp [hpr] at h
  | stop _ => simp [hpr] at h
  | _ =>
    rw [hpr] at h
    cases h
    refine ⟨?_, ?_⟩
    · simp [accesses]
    · simp [serial, hpr, exec]

theorem advance_other (h : (s.advance !first).2 = some a)
    (hfr : ∀ b ∈ ((s.advance !first).1.progs first).accesses (s.advance !first).1.store,
      ¬ a.Conflicts b) :
    (s.progs first).accesses s.store =
        ((s.advance !first).1.progs first).accesses (s.advance !first).1.store ∧
      (s.advance !first).1.serial first = s.serial first := by
  have hne : first ≠ !first := by cases first <;> decide
  unfold advance at h hfr ⊢
  cases hpr : s.progs !first with
  | read f next =>
    rw [hpr] at h hfr
    cases h
    simp only [Function.update_of_ne hne] at hfr ⊢
    have hkp : ((s.progs first).exec s.store).2 f = s.store f := by
      apply exec_frame
      intro b hb hfl
      rw [← Bool.not_eq_true]
      intro hwr
      exact hfr b hb ⟨hfl.symm, .inr hwr⟩
    refine ⟨trivial, ?_⟩
    simp only [serial, Function.update_of_ne hne, Function.update_self, hpr, exec, hkp]
  | replace f content next =>
    rw [hpr] at h hfr
    cases h
    simp only [Function.update_of_ne hne] at hfr ⊢
    have hdel := exec_update fun b hb hfl => hfr b hb ⟨hfl.symm, .inl rfl⟩
    refine ⟨hdel.2.symm, ?_⟩
    simp only [serial, Function.update_of_ne hne, Function.update_self, hpr, exec, hdel.1]
  | _ => simp [hpr] at h

theorem play_ordered (hover : ((play locks s schedule).1.progs first).isOver = true)
    (hord : Ordered first (play locks s schedule).2) :
    stepsOf first (play locks s schedule).2 = (s.progs first).accesses s.store ∧
      (play locks s schedule).1.serial first = s.serial first := by
  induction schedule generalizing s with
  | nil =>
    refine ⟨?_, rfl⟩
    change [] = (s.progs first).accesses s.store
    change (s.progs first).isOver = true at hover
    cases hpr : s.progs first with
    | done _ => rfl
    | stop _ => rfl
    | _ => simp [hpr, Prog.isOver] at hover
  | cons who rest ih =>
    unfold play at hover hord ⊢
    simp only at hover hord ⊢
    rcases turn_cases locks s who with ⟨holder, htr⟩ | htr
    · rw [htr] at hover hord ⊢
      exact ih hover hord
    rw [htr] at hover hord ⊢
    cases hac : (s.advance who).2 with
    | none =>
      rw [hac] at hord
      have hidle : (s.advance who).1 = s := by
        unfold advance at hac ⊢
        split <;> simp_all
      rw [hidle] at hover hord ⊢
      exact ih hover hord
    | some a =>
      rw [hac] at hord
      change Ordered first ((who, a) :: (play locks (s.advance who).1 rest).2) at hord
      obtain ⟨hha, hrs⟩ := pairwise_cons.1 hord
      obtain ⟨hst, hser⟩ := ih hover hrs
      change stepsOf first ((who, a) :: (play locks (s.advance who).1 rest).2) = _ ∧ _
      rw [stepsOf_cons, hst, hser]
      by_cases hwho : who = first
      · subst hwho
        obtain ⟨hacces, hsm⟩ := advance_first hac
        rw [if_pos rfl, hacces]
        exact ⟨rfl, hsm⟩
      · have hot : who = !first := by cases who <;> cases first <;> simp_all
        subst hot
        rw [if_neg hwho]
        have hfr := advance_other hac fun b hb => by
          rw [← hst, mem_stepsOf] at hb
          exact hha (first, b) hb hwho rfl
        exact ⟨hfr.1.symm, hfr.2⟩

/-- Commands whose conflicting steps are all taken in one order leave the files
as one command after the other does. -/
theorem serial_of_ordered (hover : (play locks s schedule).1.isOver = true)
    (hord : Ordered first (play locks s schedule).2) :
    (play locks s schedule).1.store = s.serial first := by
  have hfs : ((play locks s schedule).1.progs first).isOver = true := by
    unfold isOver at hover
    rw [Bool.and_eq_true] at hover
    cases first
    · exact hover.2
    · exact hover.1
  rw [← serial_of_isOver hover first, (play_ordered hfs hord).2]

section

variable {R W : Bool → File → Prop}

/-- The step is on a file that the command may use so. -/
def Within (R W : Bool → File → Prop) (a : Bool × Access File) : Prop :=
  if a.2.writes then W a.1 a.2.file else R a.1 a.2.file

theorem advance_within (h : ∀ who, (s.progs who).Uses (R who) (W who)) (side : Bool) :
    (∀ who, ((s.advance side).1.progs who).Uses (R who) (W who)) ∧
      ∀ a ∈ (s.advance side).2, Within R W (side, a) := by
  have hsid := h side
  unfold advance
  cases hpr : s.progs side with
  | read f next =>
    rw [hpr] at hsid
    refine ⟨fun who => ?_, ?_⟩
    · by_cases hwho : who = side
      · subst hwho
        simpa using hsid.2 (s.store f)
      · simpa [Function.update_of_ne hwho] using h who
    · rintro a ⟨⟩
      exact hsid.1
  | replace f content next =>
    rw [hpr] at hsid
    refine ⟨fun who => ?_, ?_⟩
    · by_cases hwho : who = side
      · subst hwho
        simpa using hsid.2
      · simpa [Function.update_of_ne hwho] using h who
    · rintro a ⟨⟩
      exact hsid.1
  | _ => exact ⟨h, nofun⟩

theorem play_within (h : ∀ who, (s.progs who).Uses (R who) (W who)) :
    ∀ a ∈ (play locks s schedule).2, Within R W a := by
  induction schedule generalizing s with
  | nil => nofun
  | cons side rest ih =>
    unfold play
    rcases turn_cases locks s side with ⟨holder, htr⟩ | htr
    · rw [htr]
      exact ih h
    rw [htr]
    obtain ⟨hnx, hst⟩ := advance_within h side
    intro a ha
    rcases mem_append.1 ha with hnow | hlt
    · rw [Option.mem_toList, Option.map_eq_some_iff] at hnow
      obtain ⟨b, hb, rfl⟩ := hnow
      exact hst b hb
    · exact ih hnx a hlt

/-- Commands of which neither replaces a file that the other one uses. -/
theorem ordered_of_apart (first : Bool) (h : ∀ who, (s.progs who).Uses (R who) (W who))
    (hap : ∀ who f, W who f → ¬ (R (!who) f ∨ W (!who) f)) :
      Ordered first (play locks s schedule).2 := by
  apply List.Pairwise.imp_of_mem _ (pairwise_of_forall (R := fun _ _ => True) fun _ _ => trivial)
  intro a b ha hb _ hot hft hcn
  have hdf : b.1 = !a.1 := by
    cases h : a.1 <;> cases h' : b.1 <;> simp_all
  have ha := play_within h a ha
  have hb := play_within h b hb
  obtain ⟨hfl, hwr⟩ := hcn
  have huse : ∀ c : Bool × Access File, Within R W c → R c.1 c.2.file ∨ W c.1 c.2.file := by
    intro c hc
    unfold Within at hc
    split at hc
    · exact .inr hc
    · exact .inl hc
  rcases hwr with hwr | hwr
  · unfold Within at ha
    rw [if_pos hwr] at ha
    apply hap a.1 a.2.file ha
    have hfs := huse b hb
    rwa [hdf, ← hfl] at hfs
  · unfold Within at hb
    rw [if_pos hwr] at hb
    apply hap b.1 b.2.file hb
    have hfs := huse a ha
    rwa [show a.1 = !b.1 by rw [hdf, Bool.not_not], hfl] at hfs

end

theorem steps_of_isOver (h : (s.progs who).isOver = true) : ∀ a ∈ (play locks s schedule).2,
    a.1 ≠ who := by
  induction schedule generalizing s with
  | nil => nofun
  | cons side rest ih =>
    unfold play
    simp only
    rcases turn_cases locks s side with ⟨holder, htr⟩ | htr
    · rw [htr]
      exact ih h
    rw [htr]
    by_cases hsid : side = who
    · subst hsid
      have hidle : s.advance side = (s, none) := by
        unfold advance
        cases hpr : s.progs side with
        | done _ => rfl
        | stop _ => rfl
        | _ => simp [hpr, Prog.isOver] at h
      rw [hidle]
      exact ih h
    · have hsti : ((s.advance side).1.progs who).isOver = true := by
        unfold advance
        split <;> simp_all [Function.update_of_ne (Ne.symm hsid)]
      intro a ha
      rcases mem_append.1 ha with hnow | hlt
      · rw [Option.mem_toList, Option.map_eq_some_iff] at hnow
        obtain ⟨b, -, rfl⟩ := hnow
        exact hsid
      · exact ih hsti a hlt

omit [DecidableEq File] in
theorem ordered_of_steps {trace : List (Bool × Access File)}
    (h : ∀ a ∈ trace, a.1 ≠ first) : Ordered first trace := by
  apply List.Pairwise.imp_of_mem _ (pairwise_of_forall (R := fun _ _ => True) fun _ _ => trivial)
  intro a b _ hb _ _ hfs
  exact absurd hfs (h b hb)

omit [DecidableEq File] in
theorem locked (hlc : ∀ who, locks who = true) (who : Bool) : ¬ locks who = false := by
  rw [hlc]
  nofun

theorem ordered_of_holder (hlc : ∀ who, locks who = true) (hhl : s.holder = some first) :
    Ordered first (play locks s schedule).2 := by
  induction schedule generalizing s with
  | nil => exact .nil
  | cons side rest ih =>
    unfold play
    simp only
    by_cases hsid : side = first
    · subst hsid
      by_cases hover : (s.progs side).isOver = true
      · have htr : s.turn locks side = ({ s with holder := none }, none) := by
          unfold turn
          rw [if_neg (locked hlc side), if_pos hhl, if_pos hover]
        rw [htr]
        exact ordered_of_steps (steps_of_isOver (s := { s with holder := none }) hover)
      · have htr : s.turn locks side = s.advance side := by
          unfold turn
          rw [if_neg (locked hlc side), if_pos hhl, if_neg hover]
        have hkp : (s.advance side).1.holder = some side := by
          unfold advance
          split <;> exact hhl
        rw [htr]
        cases hac : (s.advance side).2 with
        | none => exact ih hkp
        | some a =>
          apply List.Pairwise.cons
          · intro b _ hne
            exact absurd rfl hne
          · exact ih hkp
    · have htr : s.turn locks side = (s, none) := by
        unfold turn
        rw [if_neg (locked hlc side), if_neg, if_neg]
        · rw [hhl]
          nofun
        · rw [hhl]
          intro h
          exact hsid (Option.some.inj h).symm
      rw [htr]
      exact ih hhl

/-- Two commands that take the lock are run one after the other. -/
theorem ordered_of_locks (hlc : ∀ who, locks who = true) (hfr : s.holder = none) :
    ∃ first, Ordered first (play locks s schedule).2 := by
  induction schedule generalizing s with
  | nil => exact ⟨true, .nil⟩
  | cons side rest ih =>
    by_cases hover : (s.progs side).isOver = true
    · have htr : s.turn locks side = (s, none) := by
        unfold turn
        rw [if_neg (locked hlc side), if_neg, if_neg]
        · rintro ⟨-, h⟩
          rw [hover] at h
          cases h
        · rw [hfr]
          nofun
      unfold play
      rw [htr]
      exact ih hfr
    · have htr : s.turn locks side = ({ s with holder := some side }, none) := by
        unfold turn
        rw [if_neg (locked hlc side), if_neg, if_pos ⟨hfr, Bool.eq_false_iff.2 hover⟩]
        rw [hfr]
        nofun
      unfold play
      rw [htr]
      exact ⟨side, ordered_of_holder (s := { s with holder := some side }) hlc rfl⟩

end Race

end Prog

end WebOvpn
