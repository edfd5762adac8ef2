/-
How the stored-record validator and the transition validator fit together.
A record is reachable when a chain of accepted transitions leads to it from
the absent execution.
-/
import WebOvpn.Install.ExecutionStatus

namespace WebOvpn

open List

namespace Execution

variable {e : Execution} {s : ExecutionState} {a : Option Instant}

theorem stateOf_eq_some : e.stateOf = some s ↔ e .state = .str (text s.name) := by
  constructor
  · intro h
    simpa using find?_some h
  · intro h
    cases s <;> simp only [stateOf, h, ExecutionState.all] <;> decide

def timeOf (e : Execution) (f : ExecutionField) : Option Instant :=
  (executionTimestamp (e f)).toOption

def times (e : Execution) : List Instant :=
  ExecutionField.ordered.filterMap e.timeOf

variable {f : ExecutionField} {cleared : List ExecutionField}

theorem timeOf_of_null (hf : e f = .null) : e.timeOf f = none := by
  simp [timeOf, hf, executionTimestamp, awareTimestamp, Except.toOption]

theorem timeOf_eq_some {t : Instant} : e.timeOf f = some t ↔ executionTimestamp (e f) = .ok t := by
  unfold timeOf
  cases executionTimestamp (e f) <;> simp [Except.toOption]

theorem parseTimes_eq_ok {fields : List ExecutionField} {ts : List Instant} :
    e.parseTimes a fields = .ok ts ↔
      (∀ f ∈ fields, e f ≠ .null → ∃ t, e.timeOf f = some t ∧ ∀ x ∈ a, x ≤ t) ∧
      ts = fields.filterMap e.timeOf := by
  induction fields generalizing ts with
  | nil => simp [parseTimes, eq_comm]
  | cons f rest ih =>
    rw [parseTimes]
    by_cases hf : e f = .null
    · rw [if_pos hf, ih, filterMap_cons_none (timeOf_of_null hf)]
      simp [hf]
    · rw [if_neg hf]
      simp only [bind_eq_ok, raiseWhen_eq_ok, exists_const, ih,
        ← timeOf_eq_some, forall_mem_cons]
      constructor
      · rintro ⟨t, ht, haf, times, ⟨hrs, rfl⟩, hts⟩
        refine ⟨⟨fun _ => ⟨t, ht, ?_⟩, hrs⟩, ?_⟩
        · intro x hx
          simp only [Option.mem_def] at hx
          simpa [hx] using haf
        · rw [filterMap_cons_some ht]
          simpa [pure, Except.pure, eq_comm] using hts
      · rintro ⟨⟨hha, hrs⟩, rfl⟩
        obtain ⟨t, ht, haf⟩ := hha hf
        refine ⟨t, ht, ?_, _, ⟨hrs, rfl⟩, ?_⟩
        · cases a with
          | none => simp
          | some x => simpa using haf x rfl
        · rw [filterMap_cons_some ht]
          rfl

/-- The shape of a stored record: `a` is the time of authorization, absent
only for an execution cancelled before it was authorized. -/
structure WellFormed (e : Execution) (s : ExecutionState) (a : Option Instant) :
    Prop where
  schemaVersion : e .schemaVersion = .int 1
  revision : e .revision = .int 1
  state : e .state = .str (text s.name)
  noSecret : ∀ f, (e f).holdsSecret = false
  bound : e.bindingPresent = true ∨ (s = .cancelled ∧ e.bindingAbsent = true)
  authorized : e.authorization = .ok a
  parsed : ∀ f ∈ ExecutionField.ordered, e f ≠ .null → ∃ t, e.timeOf f = some t ∧ ∀ x ∈ a, x ≤ t
  entered : e s.timeField ≠ .null
  reached : ∀ f ∈ ExecutionField.ordered, f ∉ s.reached → e f = .null
  claimed : e .handoffStartedAt ≠ .null → e .claimedAt ≠ .null
  sorted : e.times.IsChain (· ≤ ·)
  failureCode : if s = .failed then (e .failureCode).matches Text.isIdentifier = true
    else e .failureCode = .null
  cancelReason : if s = .cancelled then (e .cancelReason).matches Text.isBounded = true
    else e .cancelReason = .null

theorem validateTimes_eq_ok : e.validateTimes s a = .ok () ↔
    (∀ f ∈ ExecutionField.ordered, e f ≠ .null →
        ∃ t, e.timeOf f = some t ∧ ∀ x ∈ a, x ≤ t) ∧ e s.timeField ≠ .null ∧
      (∀ f ∈ ExecutionField.ordered, f ∉ s.reached → e f = .null) ∧
      (e .handoffStartedAt ≠ .null → e .claimedAt ≠ .null) ∧ e.times.IsChain (· ≤ ·) ∧
      (if s = .failed then (e .failureCode).matches Text.isIdentifier = true
        else e .failureCode = .null) ∧
      (if s = .cancelled then (e .cancelReason).matches Text.isBounded = true
        else e .cancelReason = .null) := by
  simp only [validateTimes, bind_eq_ok, raiseWhen_eq_ok, exists_const, parseTimes_eq_ok]
  constructor
  · rintro ⟨ts, ⟨hps, rfl⟩, hen, hra, hcl, hsr, hfi, hcn⟩
    refine ⟨hps, hen, ?_, ?_, not_not.1 hsr, ?_, ?_⟩
    · intro f hf hnot
      by_contra hne
      exact hra ⟨f, hf, hnot, hne⟩
    · intro hhn hcm
      exact hcl ⟨hhn, hcm⟩
    · split_ifs at hfi ⊢ <;> simpa using hfi
    · split_ifs at hcn ⊢ <;> simpa using hcn
  · rintro ⟨hps, hen, hra, hcl, hsr, hfi, hcn⟩
    refine ⟨_, ⟨hps, rfl⟩, hen, ?_, ?_, not_not.2 hsr, ?_, ?_⟩
    · rintro ⟨f, hf, hnot, hne⟩
      exact hne (hra f hf hnot)
    · rintro ⟨hhn, hcm⟩
      exact hcl hhn hcm
    · split_ifs at hfi ⊢ <;> simpa using hfi
    · split_ifs at hcn ⊢ <;> simpa using hcn

theorem validate_eq_ok : e.validate = .ok () ↔ ∃ s a, e.WellFormed s a := by
  simp only [validate, bind_eq_ok, raiseWhen_eq_ok, exists_const]
  constructor
  · rintro ⟨hves, -, h⟩
    simp only [not_or, not_not] at hves
    cases hst : e.stateOf with
    | none => simp [hst] at h
    | some s =>
      simp only [hst, bind_eq_ok, raiseWhen_eq_ok, exists_const, validateTimes_eq_ok] at h
      obtain ⟨hsc, hcn, hpr, a, hau, hps, hen,
        hra, hcl, hsr, hfi, hcanc⟩ := h
      refine ⟨s, a, hves.1, hves.2, stateOf_eq_some.1 hst, ?_, ?_,
        hau, hps, hen, hra, hcl, hsr, hfi, hcanc⟩
      · intro f
        simpa using fun h => hsc ⟨f, h⟩
      · by_cases hs : s = .cancelled
        · simp only [hs, true_and, not_and] at hcn ⊢
          cases hp : e.bindingPresent with
          | true => exact .inl rfl
          | false => exact .inr (by simpa using hcn hp)
        · exact .inl (by simpa [hs] using hpr)
  · rintro ⟨s, a, h⟩
    refine ⟨by simp [h.schemaVersion, h.revision], by simp [h.state, JVal.isHashable], ?_⟩
    simp only [stateOf_eq_some.2 h.state, bind_eq_ok, raiseWhen_eq_ok,
      exists_const, validateTimes_eq_ok]
    refine ⟨by simp [h.noSecret], ?_, ?_, a, h.authorized, h.parsed, h.entered,
      h.reached, h.claimed, h.sorted, h.failureCode, h.cancelReason⟩
    · rcases h.bound with hb | ⟨-, hb⟩ <;> simp [hb]
    · rcases h.bound with hb | ⟨hs, -⟩ <;> simp [*]

def rewind (e : Execution) (s : ExecutionState) (cleared : List ExecutionField) : Execution := fun f =>
  if f = .state then .str (text s.name) else if f ∈ cleared then .null else e f

theorem rewind_of_not_mem (hst : f ≠ .state) (hf : f ∉ cleared) : e.rewind s cleared f = e f := by
  simp [rewind, hst, hf]

theorem rewind_eq_null_or (e : Execution) (s : ExecutionState)
    (cleared : List ExecutionField) (hst : f ≠ .state) :
    e.rewind s cleared f = .null ∨ e.rewind s cleared f = e f := by
  by_cases hf : f ∈ cleared
  · exact .inl (by simp [rewind, hst, hf])
  · exact .inr (rewind_of_not_mem hst hf)

theorem rewind_times_sublist (cleared : List ExecutionField) :
    (e.rewind s cleared).times.Sublist e.times := by
  unfold times
  have hmem : ∀ f ∈ ExecutionField.ordered, f ≠ .state := by decide
  revert hmem
  generalize ExecutionField.ordered = fields
  intro hmem
  induction fields with
  | nil => exact .slnil
  | cons f rest ih =>
    have hrs := ih fun g hg => hmem g (mem_cons_of_mem _ hg)
    rcases rewind_eq_null_or e s cleared
      (hmem f mem_cons_self) with h | h
    · rw [filterMap_cons_none (timeOf_of_null h)]
      exact hrs.trans ((sublist_cons_self f rest).filterMap _)
    · have htm : (e.rewind s cleared).timeOf f = e.timeOf f := by
        rw [timeOf, h, timeOf]
      cases hf : e.timeOf f with
      | none =>
        rw [filterMap_cons_none (htm.trans hf), filterMap_cons_none hf]
        exact hrs
      | some t =>
        rw [filterMap_cons_some (htm.trans hf), filterMap_cons_some hf]
        exact hrs.cons_cons t

theorem rewind_binding (hcle : ∀ f ∈ cleared, f ∉ ExecutionField.binding) :
    ∀ f ∈ ExecutionField.binding, e.rewind s cleared f = e f := by
  intro f hf
  refine rewind_of_not_mem ?_ fun h => hcle f h hf
  rintro rfl
  revert hf
  decide

theorem bindingPresent_congr {e' : Execution} (h : ∀ f ∈ ExecutionField.binding, e' f = e f) :
    e'.bindingPresent = e.bindingPresent := by
  rw [bindingPresent, bindingPresent, Bool.eq_iff_iff, all_eq_true, all_eq_true]
  exact forall₂_congr fun f hf => by rw [h f hf]

theorem authorization_congr {e' : Execution} (h : ∀ f ∈ ExecutionField.binding, e' f = e f) :
    e'.authorization = e.authorization := by
  have hsha : e'.bindingShaped = e.bindingShaped := by
    simp only [bindingShaped, h .planSha256 (by decide),
      h .inventorySha256 (by decide), h .diskFingerprint (by decide),
      h .targetDisk (by decide), h .manifestSha256 (by decide),
      h .profileId (by decide), h .profileVersion (by decide),
      h .isoId (by decide), h .isoSha256 (by decide), h .reason (by decide)]
  rw [authorization, authorization, bindingPresent_congr h, validateBinding,
    validateBinding, hsha, h .authorizedAt (by decide), h .expiresAt (by decide)]

theorem name_holdsSecret (s : ExecutionState) : (JVal.str (text s.name)).holdsSecret = false := by
  cases s <;> decide

/-- Taking away what the last stages added leaves a record of the earlier
stage, provided that stage had been stamped. -/
theorem WellFormed.rewind {s₀ : ExecutionState} (h : e.WellFormed s a) (hpr : e.bindingPresent = true)
    (hop : s₀ ≠ .failed ∧ s₀ ≠ .cancelled) (hcle : ∀ f ∈ cleared, f ∉ ExecutionField.binding ∧
      f ≠ .schemaVersion ∧ f ≠ .revision) (hen : e s₀.timeField ≠ .null ∧ s₀.timeField ∉ cleared)
    (hra : ∀ f ∈ ExecutionField.ordered, f ∉ s₀.reached → f ∈ cleared ∨ e f = .null)
    (hcd : .claimedAt ∈ cleared → .handoffStartedAt ∈ cleared ∨ e .handoffStartedAt = .null)
    (hfi : .failureCode ∈ cleared ∨ e .failureCode = .null)
    (hcn : .cancelReason ∈ cleared ∨ e .cancelReason = .null) :
    (e.rewind s₀ cleared).WellFormed s₀ a := by
  have hbin := rewind_binding (e := e) (s := s₀) fun f hf => (hcle f hf).1
  have hnul : ∀ {f : ExecutionField}, f ≠ .state → f ∈ cleared ∨ e f = .null →
      e.rewind s₀ cleared f = .null := by
    intro f hst hf
    rcases hf with hf | hf
    · simp [Execution.rewind, hst, hf]
    · rcases rewind_eq_null_or e s₀ cleared hst
        with h | h
      · exact h
      · rw [h, hf]
  have htm : s₀.timeField ≠ .state := by cases s₀ <;> decide
  refine
    { schemaVersion := ?_, revision := ?_, state := by simp [Execution.rewind]
      noSecret := ?_, bound := .inl ?_, authorized := ?_, parsed := ?_
      entered := ?_, reached := ?_, claimed := ?_, sorted := ?_
      failureCode := ?_, cancelReason := ?_ }
  · rw [rewind_of_not_mem (by decide) fun hf => (hcle _ hf).2.1 rfl, h.schemaVersion]
  · rw [rewind_of_not_mem (by decide) fun hf => (hcle _ hf).2.2 rfl, h.revision]
  · intro f
    by_cases hst : f = .state
    · rw [hst, Execution.rewind, if_pos rfl, name_holdsSecret]
    · rcases rewind_eq_null_or e s₀ cleared hst
        with hf | hf
      · rw [hf]
        rfl
      · rw [hf, h.noSecret f]
  · rw [bindingPresent_congr hbin, hpr]
  · rw [authorization_congr hbin, h.authorized]
  · intro f hf hne
    have hst : f ≠ .state := by
      rintro rfl
      revert hf
      decide
    rcases rewind_eq_null_or e s₀ cleared hst
      with hg | hg
    · exact absurd hg hne
    · rw [hg] at hne
      obtain ⟨t, ht, haf⟩ := h.parsed f hf hne
      exact ⟨t, by rw [timeOf, hg]; exact ht, haf⟩
  · rw [rewind_of_not_mem htm hen.2]
    exact hen.1
  · intro f hf hnot
    refine hnul ?_ (hra f hf hnot)
    rintro rfl
    revert hf
    decide
  · intro hhn hcl
    by_cases hc : ExecutionField.claimedAt ∈ cleared
    · exact hhn (hnul (by decide) (hcd hc))
    · rw [rewind_of_not_mem (by decide) hc] at hcl
      have hh := rewind_eq_null_or e s₀ cleared
        (f := .handoffStartedAt) (by decide)
      rcases hh with hh | hh
      · exact hhn hh
      · exact h.claimed (by rwa [hh] at hhn) hcl
  · have hpi := isChain_iff_pairwise.1 h.sorted
    exact isChain_iff_pairwise.2 (hpi.sublist (rewind_times_sublist cleared))
  · rw [if_neg hop.1]
    exact hnul (by decide) hfi
  · rw [if_neg hop.2]
    exact hnul (by decide) hcn

theorem follows_rewind {s₀ : ExecutionState} (h : e.WellFormed s a) (hnx : s ∈ s₀.next)
    (hcle : ∀ f ∈ cleared, f ∈ s₀.mutable s) : (e.rewind s₀ cleared).follows e = true := by
  have hbc : (e.rewind s₀ cleared).stateOf = some s₀ :=
    stateOf_eq_some.2 (by simp [Execution.rewind])
  have hmut : ExecutionField.state ∈ s₀.mutable s := by
    revert hnx
    cases s₀ <;> cases s <;> decide
  rw [follows, hbc, stateOf_eq_some.2 h.state]
  refine decide_eq_true ⟨hnx, fun f hf => ?_⟩
  refine rewind_of_not_mem ?_ fun hmem => hf (hcle f hmem)
  rintro rfl
  exact hf hmut

end Execution

/-- One accepted transition; `null` is the absent execution. -/
def ExecutionStep (before after : JVal) : Prop :=
  validateExecutionTransition before after = .ok ()

/-- The last record of a chain of accepted transitions that starts from the
absent execution. -/
def ExecutionReachable (record : JVal) : Prop :=
  Relation.TransGen ExecutionStep .null record

def Represents (record : JVal) (e : Execution) : Prop :=
  ∃ members, record = .obj members ∧ Execution.ofMembers members = some e

variable {record : JVal} {e₀ : Execution} {s₀ : ExecutionState}

theorem validateExecutionStatus_eq_ok : validateExecutionStatus record = .ok () ↔
      ∃ e, Represents record e ∧ ∃ s a, e.WellFormed s a := by
  unfold Represents
  cases record with
  | obj members =>
    simp only [validateExecutionStatus, JVal.obj.injEq]
    cases h : Execution.ofMembers members with
    | none => simp [h]
    | some e => simp [h, Execution.validate_eq_ok]
  | _ => simp [validateExecutionStatus]

theorem represents_toMembers (e : Execution) : Represents (.obj e.toMembers) e := by
  refine ⟨_, rfl, ?_⟩
  have hlo : ∀ f : ExecutionField, memberOf e.toMembers f.name = some (e f) := by
    intro f
    cases f <;> rfl
  have hks : ∀ m ∈ e.toMembers, ∃ f : ExecutionField, m.1 = text f.name := by
    intro m hm
    obtain ⟨f, -, rfl⟩ := mem_map.1 hm
    exact ⟨f, rfl⟩
  rw [Execution.ofMembers, if_pos ⟨hks, fun f => by simp [hlo f]⟩]
  exact congrArg some (funext fun f => by simp [hlo f])

theorem executionStep_initial {e : Execution} {s : ExecutionState}
    {a : Option Instant} (hrecord : Represents record e) (h : e.WellFormed s a)
    (hs : s = .authorized ∨ s = .cancelled) : ExecutionStep .null record := by
  obtain ⟨members, rfl, hms⟩ := hrecord
  have hvl := Execution.validate_eq_ok.2 ⟨s, a, h⟩
  simp only [ExecutionStep, validateExecutionTransition, hms,
    Execution.validateInitial, bind_eq_ok, raiseWhen_eq_ok,
    exists_const, hvl, true_and, Execution.stateOf_eq_some.2 h.state]
  rcases hs with rfl | rfl <;> decide

theorem executionStep_follows {before after : JVal} {e : Execution}
    {s : ExecutionState} {a₀ a : Option Instant} (hbf : Represents before e₀)
    (haf : Represents after e) (h₀ : e₀.WellFormed s₀ a₀) (h : e.WellFormed s a)
    (hfl : e₀.follows e = true) : ExecutionStep before after := by
  obtain ⟨members₀, rfl, hms₀⟩ := hbf
  obtain ⟨members, rfl, hms⟩ := haf
  have hvl₀ := Execution.validate_eq_ok.2 ⟨s₀, a₀, h₀⟩
  have hvl := Execution.validate_eq_ok.2 ⟨s, a, h⟩
  simp only [ExecutionStep, validateExecutionTransition, hms₀, hms,
    Execution.validateTransition, bind_eq_ok, raiseWhen_eq_ok,
    exists_const, hvl₀, hvl, true_and, hfl]
  simp

/-- Everything an accepted transition can be. -/
theorem executionStep_cases {before after : JVal} (h : ExecutionStep before after) :
    ∃ e s a, Represents after e ∧ e.WellFormed s a ∧
      ((before = .null ∧ (s = .authorized ∨ s = .cancelled)) ∨
        ∃ e₀ s₀ a₀, Represents before e₀ ∧ e₀.WellFormed s₀ a₀ ∧ (e₀ = e ∨ e₀.follows e = true)) := by
  unfold ExecutionStep validateExecutionTransition at h
  split at h
  · rename_i members
    cases hms : Execution.ofMembers members with
    | none => simp [hms] at h
    | some e =>
      simp only [hms, Execution.validateInitial, bind_eq_ok, raiseWhen_eq_ok] at h
      obtain ⟨_, hvl, hini⟩ := h
      obtain ⟨s, a, hwf⟩ := Execution.validate_eq_ok.1 hvl
      refine ⟨e, s, a, ⟨members, rfl, hms⟩, hwf, .inl ⟨rfl, ?_⟩⟩
      rw [Execution.stateOf_eq_some.2 hwf.state] at hini
      simpa [imp_iff_not_or, not_or] using hini
  · rename_i members₀ members
    cases hms₀ : Execution.ofMembers members₀ with
    | none => simp [hms₀] at h
    | some e₀ =>
      cases hms : Execution.ofMembers members with
      | none =>
        simp only [hms₀, hms, bind_eq_ok] at h
        obtain ⟨_, _, h⟩ := h
        contradiction
      | some e =>
        simp only [hms₀, hms, Execution.validateTransition,
          bind_eq_ok, raiseWhen_eq_ok] at h
        obtain ⟨_, hvl₀, _, hvl, hls⟩ := h
        obtain ⟨s₀, a₀, hwf₀⟩ := Execution.validate_eq_ok.1 hvl₀
        obtain ⟨s, a, hwf⟩ := Execution.validate_eq_ok.1 hvl
        refine ⟨e, s, a, ⟨members, rfl, hms⟩, hwf, .inr
          ⟨e₀, s₀, a₀, ⟨members₀, rfl, hms₀⟩, hwf₀, ?_⟩⟩
        simp only [not_and, Bool.not_eq_false] at hls
        by_cases heq : e₀ = e
        · exact .inl heq
        · exact .inr (hls heq)
  · simp at h

theorem Represents.unique {e e' : Execution}
    (h : Represents record e) (h' : Represents record e') : e = e' := by
  obtain ⟨members, rfl, hms⟩ := h
  obtain ⟨members', heq, hms'⟩ := h'
  obtain rfl := JVal.obj.inj heq
  exact Option.some.inj (hms.symm.trans hms')

theorem Execution.follows_iff {e : Execution} {s : ExecutionState}
    (hs₀ : e₀.stateOf = some s₀) (hs : e.stateOf = some s) : e₀.follows e = true ↔
      s ∈ s₀.next ∧ ∀ f, f ∉ s₀.mutable s → e₀ f = e f := by
  rw [Execution.follows, hs₀, hs, decide_eq_true_eq]

/-- The states behind the point of no return. -/
def ExecutionState.isLate : ExecutionState → Bool
  | .installerStarted | .installed | .failed => true
  | _ => false

def Execution.Stamped (e : Execution) (s : ExecutionState) : Prop :=
  s.isLate = true → ∀ f ∈ s.reached, e f ≠ .null

theorem ExecutionState.late_edge {s : ExecutionState} (hnx : s ∈ s₀.next) (hlt : s.isLate = true) :
    (s₀.isLate = true ∨ s₀ = .handoffStarted) ∧
      ∀ f ∈ s.reached, f = s.timeField ∨ (f ∈ s₀.reached ∧ f ∉ s₀.mutable s) := by
  revert hnx hlt
  cases s₀ <;> cases s <;> decide

theorem Execution.Stamped.step {e : Execution} {s : ExecutionState}
    {a₀ a : Option Instant} (h₀ : e₀.WellFormed s₀ a₀) (h : e.WellFormed s a)
    (hfl : e₀.follows e = true) (hst : e₀.Stamped s₀) : e.Stamped s := by
  rw [Execution.follows_iff (Execution.stateOf_eq_some.2 h₀.state)
    (Execution.stateOf_eq_some.2 h.state)] at hfl
  obtain ⟨hnx, hke⟩ := hfl
  intro hlt f hf
  obtain ⟨hfr, hfs⟩ := ExecutionState.late_edge hnx hlt
  have hall : ∀ f ∈ s₀.reached, e₀ f ≠ .null := by
    rcases hfr with hlt₀ | rfl
    · exact hst hlt₀
    · intro f hf
      have hhn : e₀ .handoffStartedAt ≠ .null := h₀.entered
      simp only [ExecutionState.reached, mem_cons, not_mem_nil, or_false] at hf
      rcases hf with rfl | rfl
      · exact h₀.claimed hhn
      · exact hhn
  rcases hfs f hf with rfl | ⟨hf₀, hfe⟩
  · exact h.entered
  · rw [← hke f hfe]
    exact hall f hf₀

theorem ExecutionReachable.stamped (h : ExecutionReachable record) :
    ∃ e s a, Represents record e ∧ e.WellFormed s a ∧ e.Stamped s := by
  have hini : ∀ {e : Execution} {s : ExecutionState}, s = .authorized ∨ s = .cancelled → e.Stamped s := by
    rintro e s (rfl | rfl) hlt <;> simp [ExecutionState.isLate] at hlt
  induction h with
  | single hse =>
    obtain ⟨e, s, a, hrecord, hwf, hfr⟩ := executionStep_cases hse
    rcases hfr with ⟨-, hs⟩ | ⟨e₀, s₀, a₀, ⟨members, hnul, -⟩, -⟩
    · exact ⟨e, s, a, hrecord, hwf, hini hs⟩
    · simp at hnul
  | tail _ hse ih =>
    obtain ⟨e₁, s₁, a₁, hrc₁, hwf₁, hsm⟩ := ih
    obtain ⟨e, s, a, hrecord, hwf, hfr⟩ := executionStep_cases hse
    refine ⟨e, s, a, hrecord, hwf, ?_⟩
    rcases hfr with ⟨-, hs⟩ | ⟨e₀, s₀, a₀, hrc₀, hwf₀, hch⟩
    · exact hini hs
    · obtain rfl := hrc₀.unique hrc₁
      rcases hch with rfl | hfl
      · have hst := Execution.stateOf_eq_some.2 hwf₁.state
        rw [Execution.stateOf_eq_some.2 hwf.state] at hst
        rwa [Option.some.inj hst]
      · exact hsm.step hwf₁ hwf hfl

variable {e : Execution} {s : ExecutionState} {a : Option Instant}

theorem Execution.WellFormed.present (h : e.WellFormed s a) (hs : s ≠ .cancelled) :
    e.bindingPresent = true := by
  rcases h.bound with hb | ⟨hc, -⟩
  · exact hb
  · exact absurd hc hs

theorem Execution.WellFormed.authorizedAt (h : e.WellFormed s a)
    (hs : s ≠ .cancelled) : e .authorizedAt ≠ .null := by
  have hall := all_eq_true.1 (h.present hs) .authorizedAt (by decide)
  simpa using hall

theorem ExecutionState.edge_fields {s : ExecutionState} (hnx : s ∈ s₀.next) (hs : s ≠ .cancelled) :
    (s₀ ≠ .failed ∧ s₀ ≠ .cancelled) ∧
      (∀ f ∈ s₀.mutable s, f ∉ ExecutionField.binding ∧ f ≠ .schemaVersion ∧
        f ≠ .revision) ∧ s₀.timeField ∉ s₀.mutable s ∧ (.claimedAt ∈ s₀.mutable s → s = .claimed) ∧
      (s = .failed → .failureCode ∈ s₀.mutable s) := by
  revert hnx hs
  cases s₀ <;> cases s <;>
    first
    | exact fun h => absurd h (by decide)
    | exact fun _ h => absurd rfl h
    | exact fun _ _ => ⟨by decide, by decide, by decide, by decide, by decide⟩

/-- One stage back: without what the edge from `s₀` wrote, the record is one of
state `s₀`, provided it has that state's stamp and skips nothing in between. -/
theorem reachable_of_edge (s₀ : ExecutionState)
    (hrecord : Represents record e) (h : e.WellFormed s a) (hs : s ≠ .cancelled)
    (hnx : s ∈ s₀.next) (hst : e s₀.timeField ≠ .null)
    (hsk : ∀ f ∈ s.reached, f ∉ s₀.reached → f ∈ s₀.mutable s ∨ e f = .null)
    (hra : ∀ record e₀, Represents record e₀ → e₀.WellFormed s₀ a →
      (∀ f, f ∉ s₀.mutable s → e₀ f = e f) → ExecutionReachable record) :
        ExecutionReachable record := by
  obtain ⟨hop, hfr, htm, hcl, hfi⟩ := ExecutionState.edge_fields hnx hs
  have hbc : (e.rewind s₀ (s₀.mutable s)).WellFormed s₀ a := by
    refine h.rewind (h.present hs) hop hfr ⟨hst, htm⟩ ?_ ?_ ?_ ?_
    · intro f hf hnot
      by_cases hmem : f ∈ s.reached
      · exact hsk f hmem hnot
      · exact .inr (h.reached f hf hmem)
    · intro hc
      obtain rfl := hcl hc
      exact .inr (h.reached .handoffStartedAt (by decide) (by decide))
    · have hcd := h.failureCode
      split_ifs at hcd with hfailed
      · exact .inl (hfi hfailed)
      · exact .inr hcd
    · have hrs := h.cancelReason
      rw [if_neg hs] at hrs
      exact .inr hrs
  have hfl := Execution.follows_rewind h hnx fun f hf => hf
  have hke := ((Execution.follows_iff (Execution.stateOf_eq_some.2 hbc.state)
    (Execution.stateOf_eq_some.2 h.state)).1 hfl).2
  exact (hra _ _ (represents_toMembers _) hbc hke).tail
    (executionStep_follows (represents_toMembers _) hrecord hbc h hfl)

section

variable (hrecord : Represents record e)
include hrecord

theorem reachable_of_authorized (h : e.WellFormed .authorized a) : ExecutionReachable record :=
  .single (executionStep_initial hrecord h (.inl rfl))

theorem reachable_of_claimed (h : e.WellFormed .claimed a) : ExecutionReachable record :=
  reachable_of_edge .authorized hrecord h (by decide) (by decide)
    (h.authorizedAt (by decide))
    (fun f hf hnot => .inl (by revert f; decide)) fun _ _ hrecord h _ =>
      reachable_of_authorized hrecord h

theorem reachable_of_handoffStarted (h : e.WellFormed .handoffStarted a) : ExecutionReachable record :=
  reachable_of_edge .claimed hrecord h (by decide) (by decide)
    (h.claimed h.entered)
    (fun f hf hnot => .inl (by revert f; decide)) fun _ _ hrecord h _ =>
      reachable_of_claimed hrecord h

theorem reachable_of_installerStarted (h : e.WellFormed .installerStarted a)
    (hst : e.Stamped .installerStarted) :
    ExecutionReachable record :=
  reachable_of_edge .handoffStarted hrecord h (by decide) (by decide)
    (hst rfl .handoffStartedAt (by decide))
    (fun f hf hnot => .inl (by revert f; decide)) fun _ _ hrecord h _ =>
      reachable_of_handoffStarted hrecord h

/-- The two ends of a running installation. -/
theorem reachable_of_finished (h : e.WellFormed s a) (hsm : e.Stamped s)
    (hs : s = .installed ∨ s = .failed) : ExecutionReachable record := by
  have hnx : s ∈ ExecutionState.installerStarted.next := by
    rcases hs with rfl | rfl <;> decide
  have hlt : s.isLate = true := by
    rcases hs with rfl | rfl <;> rfl
  have hst : ∀ f ∈ ExecutionState.installerStarted.reached, e f ≠ .null := by
    intro f hf
    refine hsm hlt f ?_
    revert f
    rcases hs with rfl | rfl <;> decide
  refine reachable_of_edge .installerStarted hrecord h (by rcases hs with rfl | rfl <;> decide) hnx
    (hst .installerStartedAt (by decide)) ?_ fun record e₀ hrecord h₀ hke => ?_
  · rcases hs with rfl | rfl
    · exact fun f hf hnot => .inl (by revert f; decide)
    · exact fun f hf hnot => .inl (by revert f; decide)
  · refine reachable_of_installerStarted hrecord h₀ fun _ f hf => ?_
    rw [hke f]
    · exact hst f hf
    · revert f
      rcases hs with rfl | rfl <;> decide

/-- An execution can expire at any stage before the installer runs. -/
theorem reachable_of_expired (h : e.WellFormed .expired a) : ExecutionReachable record := by
  by_cases hhn : e .handoffStartedAt = .null
  · by_cases hcl : e .claimedAt = .null
    · refine reachable_of_edge .authorized hrecord h (by decide) (by decide)
        (h.authorizedAt (by decide)) ?_ fun _ _ hrecord h _ =>
          reachable_of_authorized hrecord h
      intro f hf _
      simp only [ExecutionState.reached, mem_cons, not_mem_nil, or_false] at hf
      rcases hf with rfl | rfl | rfl
      · exact .inr hcl
      · exact .inr hhn
      · exact .inl (by decide)
    · refine reachable_of_edge .claimed hrecord h (by decide) (by decide)
        hcl ?_ fun _ _ hrecord h _ => reachable_of_claimed hrecord h
      intro f hf hnot
      simp only [ExecutionState.reached, mem_cons, not_mem_nil, or_false] at hf hnot
      rcases hf with rfl | rfl | rfl
      · exact absurd rfl hnot
      · exact .inr hhn
      · exact .inl (by decide)
  · refine reachable_of_edge .handoffStarted hrecord h (by decide) (by decide)
      hhn ?_ fun _ _ hrecord h _ => reachable_of_handoffStarted hrecord h
    exact fun f hf hnot => .inl (by revert f; decide)

theorem reachable_of_stamped (h : e.WellFormed s a) (hst : e.Stamped s) :
    ExecutionReachable record := by
  cases s with
  | authorized => exact reachable_of_authorized hrecord h
  | claimed => exact reachable_of_claimed hrecord h
  | handoffStarted => exact reachable_of_handoffStarted hrecord h
  | installerStarted => exact reachable_of_installerStarted hrecord h hst
  | installed => exact reachable_of_finished hrecord h hst (.inl rfl)
  | failed => exact reachable_of_finished hrecord h hst (.inr rfl)
  | cancelled => exact .single (executionStep_initial hrecord h (.inr rfl))
  | expired => exact reachable_of_expired hrecord h

end

def SkipsStage (record : JVal) : Prop :=
  ∃ e s a, Represents record e ∧ e.WellFormed s a ∧ ¬ e.Stamped s

/-- The validator of stored records accepts exactly the ends of chains of
transitions, and only stamped ones, save for records that skip a stage. -/
theorem validateExecutionStatus_exact_iff (record : JVal) :
    ((validateExecutionStatus record = .ok () ↔ ExecutionReachable record) ∧
      (validateExecutionStatus record = .ok () →
        ∀ e s, Represents record e → e.stateOf = some s → e.Stamped s)) ↔ ¬ SkipsStage record := by
  constructor
  · rintro ⟨-, hst⟩ ⟨e, s, a, hrecord, hwf, hsk⟩
    have hvl := validateExecutionStatus_eq_ok.2 ⟨e, hrecord, s, a, hwf⟩
    exact hsk (hst hvl e s hrecord (Execution.stateOf_eq_some.2 hwf.state))
  · intro hsk
    have hst : ∀ e s a, Represents record e → e.WellFormed s a → e.Stamped s := by
      intro e s a hrecord hwf
      by_contra hnot
      exact hsk ⟨e, s, a, hrecord, hwf, hnot⟩
    refine ⟨⟨fun hvl => ?_, fun hra => ?_⟩, fun hvl e s hrecord hs => ?_⟩
    · obtain ⟨e, hrecord, s, a, hwf⟩ := validateExecutionStatus_eq_ok.1 hvl
      exact reachable_of_stamped hrecord hwf (hst e s a hrecord hwf)
    · obtain ⟨e, s, a, hrecord, hwf, -⟩ := hra.stamped
      exact validateExecutionStatus_eq_ok.2 ⟨e, hrecord, s, a, hwf⟩
    · obtain ⟨e', hrc', s', a, hwf⟩ := validateExecutionStatus_eq_ok.1 hvl
      obtain rfl := hrecord.unique hrc'
      rw [Execution.stateOf_eq_some.2 hwf.state] at hs
      obtain rfl := Option.some.inj hs
      exact hst e _ a hrecord hwf

/-- A record that claims a started installer but was never claimed or handed
over. -/
def unclaimedInstaller : Execution
  | .schemaVersion | .revision | .profileVersion => .int 1
  | .state => .str "installer_started"
  | .authorizedAt => .str "2026-07-29T10:00:00+00:00"
  | .expiresAt => .str "2026-07-29T10:15:00+00:00"
  | .installerStartedAt => .str "2026-07-29T10:05:00+00:00"
  | .planSha256 | .inventorySha256 | .isoSha256 | .manifestSha256 =>
    .str (List.replicate 64 (CodePoint.ofChar 'a'))
  | .diskFingerprint =>
    .str (text "sha256:" ++ List.replicate 64 (CodePoint.ofChar 'b'))
  | .targetDisk => .str "/dev/sda"
  | .reason => .str "approved by operator"
  | .profileId => .str "standard-office"
  | .isoId => .str "alt-kworkstation-11.4"
  | _ => .null

/-- The validator accepts it although no chain of transitions ends in it. -/
theorem validateExecutionStatus_not_exact :
    validateExecutionStatus (.obj unclaimedInstaller.toMembers) = .ok () ∧
      ¬ ExecutionReachable (.obj unclaimedInstaller.toMembers) := by
  refine ⟨by decide, fun hrea => ?_⟩
  obtain ⟨e, s, a, hrecord, hwf, hstm⟩ := hrea.stamped
  obtain rfl := (represents_toMembers unclaimedInstaller).unique hrecord
  have hst := Execution.stateOf_eq_some.2 hwf.state
  have hlat : unclaimedInstaller.stateOf = some .installerStarted := by
    decide
  rw [hlat, Option.some.injEq] at hst
  subst hst
  exact hstm rfl .claimedAt (by decide) rfl

end WebOvpn
