/-
What runs keep about the session around an execution: terminal states, and the
way from a started installer to its recorded end.
-/
import WebOvpn.Install.ExecutionLaw

namespace WebOvpn

open Op Repository ExecutionService List Option

variable {step : Step} {id : Text} {ok : Bool} {a b : Session} {s : Store}

def Step.CancelsSession (step : Step) (id : Text) : Prop :=
  (∃ sessionId reason, step.operation = .cancelSession sessionId reason) ∧ step.operation.Targets id

def SparesExpired (id : Text) (s : Store) (step : Step) : Prop :=
  ∀ a, s.lookup id = some a → a.status.state = .expired → ¬ step.CancelsSession id

theorem Move.terminal_state (h : Move step id ok a b) (htr : a.status.state.isTerminal = true)
    (hspa : a.status.state = .expired → ¬ step.CancelsSession id) :
      b.status.state = a.status.state := by
  cases h with
  | expire _ hlv => simp [htr] at hlv
  | publish _ hwi => rw [hwi] at htr; cases htr
  | cancel hop htg hst =>
    have hex : a.status.state = .expired := by
      by_contra hne
      rw [SessionState.isTerminal_eq_false hne hst] at htr
      cases htr
    exact absurd ⟨⟨_, _, hop⟩, htg⟩ (hspa hex)
  | heartbeat _ hlv => simp [htr] at hlv
  | _ => rfl

/-- A session in a terminal state keeps it in every run that does not cancel it
after its expiry. -/
theorem terminal_states_absorb (id : Text) (first second : List Step) (a : Session)
    (ha : (sessionsAfter first).lookup id = some a) (htr : a.status.state.isTerminal = true)
    (hse : Along Store.after (SparesExpired id) (sessionsAfter first) second) :
    ∃ b, (sessionsAfter (first ++ second)).lookup id = some b ∧ b.status.state = a.status.state := by
  rw [sessionsAfter_append]
  suffices h : (run Store.after (sessionsAfter first) second).Valid ∧
      ∃ b, (run Store.after (sessionsAfter first) second).lookup id = some b ∧
        b.status.state = a.status.state from h.2
  refine run_keeps_along (P := fun s : Store => s.Valid ∧ ∃ b, s.lookup id = some b ∧
    b.status.state = a.status.state) ⟨sessionsAfter_valid first, a, ha, rfl⟩ hse ?_
  rintro s step ⟨hs, b, hb, hst⟩ hspa
  obtain ⟨c, hc, _, -, hmv⟩ := Store.after_move hs step hb
  refine ⟨Store.after_valid hs step, c, hc, ?_⟩
  rw [hmv.terminal_state (hst ▸ htr) (hspa b hb), hst]

/-- A heartbeat leaves an expired session as it is. -/
theorem terminal_states_absorb_expired : ∃ a b,
    (sessionsAfter [Sample.create, Sample.approve 40]).lookup Sample.sessionId = some a ∧
      a.status.state = .expired ∧
      (sessionsAfter ([Sample.create, Sample.approve 40] ++ [Sample.heartbeat])).lookup
        Sample.sessionId = some b ∧ b.status.state = .expired := by
  obtain ⟨-, hex, -⟩ := Sample.sample_runs
  obtain ⟨a, ha, hst⟩ := map_eq_some_iff.1 hex
  obtain ⟨b, hb, hsm⟩ := terminal_states_absorb Sample.sessionId
    [Sample.create, Sample.approve 40] [Sample.heartbeat] a ha (by rw [hst]; rfl)
    ⟨fun _ _ _ ⟨⟨_, _, hop⟩, _⟩ => (by cases hop), trivial⟩
  exact ⟨a, b, ha, hst, hb, hsm.trans hst⟩

/-- A cancel takes an expired session to cancelled. -/
theorem cancel_leaves_expired_state : ¬ ∀ (id : Text) (first second : List Step) (a : Session),
      (sessionsAfter first).lookup id = some a → a.status.state.isTerminal = true →
      ∃ b, (sessionsAfter (first ++ second)).lookup id = some b ∧ b.status.state = a.status.state := by
  intro h
  obtain ⟨-, hex, hcn, -⟩ := Sample.sample_runs
  obtain ⟨a, ha, hst⟩ := map_eq_some_iff.1 hex
  obtain ⟨b, hb, hst'⟩ := map_eq_some_iff.1 hcn
  obtain ⟨b', hb', hsm⟩ := h Sample.sessionId [Sample.create, Sample.approve 40]
    [Sample.atMinute 41 (.cancelSession Sample.sessionId (.str "stop"))] a ha
    (by rw [hst]; rfl)
  cases hb.symm.trans hb'
  rw [hsm, hst] at hst'
  cases hst'

/-- While the installer of the session runs, the step neither cancels the
session nor looks at its expiry when that is reached. -/
def SparesInstaller (id : Text) (s : Store) (step : Step) : Prop :=
  ∀ a e, s.lookup id = some a → a.status.execution = some e → e.stateOf = some .installerStarted →
    ¬ step.FindsExpired id a ∧ ¬ step.CancelsSession id

def Step.ReportsInstalled (step : Step) (id : Text) : Prop :=
  (∃ sessionId, step.operation = .postflightInstalled sessionId) ∧ step.operation.Targets id

def Session.Installing (a : Session) : Prop :=
  ∀ e, a.status.execution = some e → e.stateOf = some .installerStarted →
    a.status.state = .planPublished ∧ e.validate = .ok ()

theorem stateOf_cancelledBeforeAuthorization (now reason : Text) :
    (cancelledBeforeAuthorization now reason).stateOf = some .cancelled :=
  Execution.stateOf_eq_some.2 rfl

theorem Progress.installer_of_state {e e' : Execution} (h : Progress step ok e e')
    (hst : e'.stateOf = some .installerStarted) :
    ∃ sessionId, step.operation = .installerStarted sessionId := by
  have hot {updates : List (ExecutionField × JVal)} (s : ExecutionState)
      (hs : updates.lookup .state = some (.str (text s.name)))
      (hupd : Execution.stateOf (e.set updates) = some .installerStarted) :
      s = .installerStarted := by
    rw [Execution.stateOf_set hs] at hupd
    exact Option.some.inj hupd
  cases h with
  | expire => cases hot .expired rfl hst
  | cancel => cases hot .cancelled rfl hst
  | claim => cases hot .claimed rfl hst
  | handoff => cases hot .handoffStarted rfl hst
  | installer hop => exact ⟨_, hop⟩
  | installed => cases hot .installed rfl hst

/-- Only a report of the finished installation leads away from it. -/
theorem Progress.installed_of_state {e e' : Execution} (h : Progress step ok e e')
    (hst : e.stateOf = some .installerStarted) :
    ∃ sessionId, step.operation = .postflightInstalled sessionId := by
  cases h with
  | installed hop => exact ⟨_, hop⟩
  | _ => simp_all [canExpire]

theorem Move.installing (h : Move step id ok a b) (ha : a.Installing)
    (hspa : ∀ e, a.status.execution = some e → e.stateOf = some .installerStarted →
      ¬ step.FindsExpired id a ∧ ¬ step.CancelsSession id) : b.Installing := by
  intro e he hst
  cases h with
  | expire _ _ hdue => exact absurd hdue (hspa e he hst).1
  | publish _ _ hpb _ hex =>
    exact ⟨hpb, (ha e (hex ▸ he) hst).2⟩
  | cancel hop htg => exact absurd ⟨⟨_, _, hop⟩, htg⟩ (hspa e he hst).2
  | authorize _ _ _ _ hau =>
    cases he
    rw [hau] at hst
    cases hst
  | cancelUnauthorized =>
    cases he
    rw [stateOf_cancelledBeforeAuthorization] at hst
    cases hst
  | progress _ _ hpb hpr hlaw =>
    cases he
    refine ⟨?_, (Execution.validate_of_transition hlaw).2⟩
    obtain ⟨sessionId, hop⟩ := hpr.installer_of_state hst
    exact hpb (by rw [hop]; rfl)
  | _ => exact ha e he hst

theorem Move.installer_kept {e : Execution} (h : Move step id ok a b)
    (he : a.status.execution = some e) (hst : e.stateOf = some .installerStarted)
    (hrp : ¬ step.ReportsInstalled id) : b.status.execution = some e := by
  cases h with
  | publish _ _ _ _ hex => exact hex.trans he
  | authorize _ _ hnn => rw [hnn] at he; cases he
  | cancelUnauthorized _ hnn => rw [hnn] at he; cases he
  | progress htg he' _ hpr =>
    cases he'.symm.trans he
    exact absurd ⟨hpr.installed_of_state hst, htg⟩ hrp
  | _ => exact he

theorem holdsSecret_of_not_mem {s : Text} (h : CodePoint.ofChar '$' ∉ s) :
    (JVal.str s).holdsSecret = false :=
  Text.contains_eq_false h

theorem holdsSecret_isoformat (t : Instant) : (JVal.str t.isoformat).holdsSecret = false :=
  holdsSecret_of_not_mem
    (t.isoformat_not_mem (by decide) (by decide) (by decide) (by decide))

section

variable {e : Execution} {now : Instant}

theorem Execution.times_eq (e : Execution) : e.times =
    [ExecutionField.claimedAt, .handoffStartedAt].filterMap e.timeOf ++
      ((e.timeOf .installerStartedAt).toList ++ ((e.timeOf .installedAt).toList ++
        [ExecutionField.failedAt, .cancelledAt, .expiredAt].filterMap e.timeOf)) := by
  have hord : ExecutionField.ordered =
      [ExecutionField.claimedAt, .handoffStartedAt] ++ ([ExecutionField.installerStartedAt] ++
        ([ExecutionField.installedAt] ++ [ExecutionField.failedAt, .cancelledAt, .expiredAt])) :=
    rfl
  have hone (f : ExecutionField) : [f].filterMap e.timeOf = (e.timeOf f).toList := by
    rw [filterMap_cons, filterMap_nil]
    cases e.timeOf f <;> rfl
  rw [Execution.times, hord]
  simp only [filterMap_append, hone]

theorem Execution.WellFormed.installed {x : Option Instant} (h : e.WellFormed .installerStarted x)
    (hcl : ∀ t, e.timeOf .installerStartedAt = some t → t ≤ now) :
    Execution.WellFormed (e.set [(.state, .str "installed"),
      (.installedAt, .str now.isoformat)]) .installed x := by
  generalize hset : e.set [(.state, .str "installed"), (.installedAt, .str now.isoformat)] = e'
  have hkp {f : ExecutionField} (h₁ : f ≠ .state) (h₂ : f ≠ .installedAt) : e' f = e f := by
    rw [← hset]
    exact Execution.set_of_not_mem (by simp [h₁, h₂])
  have hbin : ∀ f ∈ ExecutionField.binding, e' f = e f := by
    intro f hf
    refine hkp ?_ ?_ <;> rintro rfl <;> revert hf <;> decide
  have hst : e' .state = .str "installed" := hset ▸ Execution.set_of_lookup rfl
  have hins : e' .installedAt = .str now.isoformat := hset ▸ Execution.set_of_lookup rfl
  have htm : e'.timeOf .installedAt = some now :=
    hset ▸ Execution.timeOf_set_isoformat rfl
  obtain ⟨t, ht, haf⟩ := h.parsed .installerStartedAt (by decide) h.entered
  refine ⟨?_, ?_, hst, ?_, ?_, ?_, ?_, ?_, ?_, ?_, ?_, ?_, ?_⟩
  · rw [hkp (by decide) (by decide)]; exact h.schemaVersion
  · rw [hkp (by decide) (by decide)]; exact h.revision
  · intro f
    by_cases h₁ : f = .state
    · subst h₁
      rw [hst]
      decide
    · by_cases h₂ : f = .installedAt
      · subst h₂
        rw [hins]
        exact holdsSecret_isoformat now
      · rw [hkp h₁ h₂]
        exact h.noSecret f
  · left
    rw [Execution.bindingPresent_congr hbin]
    exact h.present (by decide)
  · rw [Execution.authorization_congr hbin]
    exact h.authorized
  · intro f hf hne
    by_cases h₂ : f = .installedAt
    · subst h₂
      exact ⟨now, htm, fun y hy => (haf y hy).trans (hcl t ht)⟩
    · have h₁ : f ≠ .state := by rintro rfl; revert hf; decide
      rw [hkp h₁ h₂] at hne
      rw [Execution.timeOf, hkp h₁ h₂]
      exact h.parsed f hf hne
  · change e' .installedAt ≠ .null
    rw [hins]
    simp
  · intro f hf hnot
    have h₁ : f ≠ .state := by rintro rfl; revert hf; decide
    have h₂ : f ≠ .installedAt := by rintro rfl; revert hnot; decide
    rw [hkp h₁ h₂]
    refine h.reached f hf ?_
    revert hnot; cases f <;> decide
  · rw [hkp (by decide) (by decide), hkp (by decide) (by decide)]
    exact h.claimed
  · have hsm {f : ExecutionField} (h₁ : f ≠ .state) (h₂ : f ≠ .installedAt) :
        e'.timeOf f = e.timeOf f := by
      rw [Execution.timeOf, hkp h₁ h₂, Execution.timeOf]
    have hnn {f : ExecutionField} (hf : f ∈ ExecutionField.ordered)
        (hnot : f ∉ ExecutionState.installerStarted.reached) : e.timeOf f = none :=
      Execution.timeOf_of_null (h.reached f hf hnot)
    have hlt : [ExecutionField.failedAt, .cancelledAt, .expiredAt].filterMap e.timeOf = [] := by
      refine filterMap_eq_nil_iff.2 fun f hf => hnn ?_ ?_ <;>
        revert f <;> decide
    have hbf : e.times = [ExecutionField.claimedAt, .handoffStartedAt].filterMap e.timeOf ++
        [t] := by
      rw [Execution.times_eq, hlt, ht, hnn (f := .installedAt) (by decide) (by decide)]
      simp
    have haf : e'.times = e.times ++ [now] := by
      have hcn (fields : List ExecutionField)
          (hfl : ∀ f ∈ fields, f ≠ .state ∧ f ≠ .installedAt) :
          fields.filterMap e'.timeOf = fields.filterMap e.timeOf :=
        filterMap_congr fun f hf => hsm (hfl f hf).1 (hfl f hf).2
      rw [hbf, Execution.times_eq, htm, hsm (f := .installerStartedAt) (by decide)
        (by decide), ht, hcn _ (by decide), hcn _ (by decide), hlt]
      simp
    rw [haf]
    refine List.IsChain.append h.sorted (.singleton now) ?_
    intro x hx y hy
    rw [hbf, getLast?_concat, mem_some] at hx
    rw [head?_cons, mem_some] at hy
    exact hx ▸ hy ▸ hcl t ht
  · rw [hkp (by decide) (by decide)]
    exact h.failureCode
  · rw [hkp (by decide) (by decide)]
    exact h.cancelReason

theorem Execution.stateOf_installed (e : Execution) (now : Instant) :
    Execution.stateOf (e.set [(.state, .str "installed"),
      (.installedAt, .str now.isoformat)]) = some .installed := by
  refine Execution.stateOf_eq_some.2 ?_
  exact Execution.set_of_lookup rfl

theorem Execution.validateTransition_installed (hvl : e.validate = .ok ())
    (hst : e.stateOf = some .installerStarted)
    (hcl : ∀ t, e.timeOf .installerStartedAt = some t → t ≤ now) :
    e.validateTransition (e.set [(.state, .str "installed"),
      (.installedAt, .str now.isoformat)]) = .ok () := by
  obtain ⟨stage, x, hwl⟩ := Execution.validate_eq_ok.1 hvl
  rw [Execution.stateOf_eq_some.2 hwl.state, Option.some.injEq] at hst
  subst hst
  have haf := Execution.validate_eq_ok.2 ⟨_, _, hwl.installed hcl⟩
  have hfl : e.follows (e.set [(.state, .str "installed"),
      (.installedAt, .str now.isoformat)]) = true := by
    refine (Execution.follows_iff (Execution.stateOf_eq_some.2 hwl.state)
      (Execution.stateOf_installed e now)).2 ⟨by decide, fun f hf => ?_⟩
    refine (Execution.set_of_not_mem ?_).symm
    simpa [ExecutionState.mutable] using hf
  simp only [Execution.validateTransition, bind_eq_ok, raiseWhen_eq_ok]
  exact ⟨(), hvl, (), haf, fun h => by simp [hfl] at h⟩

end

theorem postflightInstalled_accepted {e : Execution} (hs : s.Valid)
    (ha : s.lookup id = some a) (he : a.status.execution = some e)
    (hpb : a.status.state = .planPublished) (hvl : e.validate = .ok ())
    (hst : e.stateOf = some .installerStarted) (hop : step.operation = .postflightInstalled id)
    (hcl : ∀ t, e.timeOf .installerStartedAt = some t → t ≤ step.clock 0) :
    (step.perform s).1 = (if step.env.unsynced id then .error statusUncertain else .ok ()) ∧
      ∃ b e', (s.after step).lookup id = some b ∧ b.status.execution = some e' ∧
        e'.stateOf = some .installed := by
  obtain ⟨hnm, hid⟩ := hs.named id a ha
  have hfc : Focus s id id := ⟨hid, a, ha⟩
  have hlaw := Execution.validateTransition_installed hvl hst hcl
  have hne : e ≠ e.set [(.state, .str "installed"), (.installedAt, .str (step.clock 0).isoformat)] :=
    (Progress.installed hop hst).ne
  have hrp : HoldsIn (put s id) (postflightInstalled (atomic step.env.unsynced) (step.clock 0) id) a
      fun r b => r.map (fun _ => ()) = (if step.env.unsynced id then .error statusUncertain else .ok ()) ∧
        b = { a with
          status := withExecution a.status (e.set [(.state, .str "installed"),
            (.installedAt, .str (step.clock 0).isoformat)]) (step.clock 0) } := by
    refine holdsIn_loadStatus_bind hfc ?_
    refine holdsIn_raiseIf_bind (fun h => absurd hpb h) fun _ => ?_
    refine holdsIn_lift_bind (fun exc hex => ?_) fun e' he' => ?_
    · rw [requireExecution_eq_ok.2 ⟨he, hvl, hst⟩] at hex
      cases hex
    · rw [requireExecution_eq_ok.2 ⟨he, hvl, hst⟩] at he'
      cases he'
      refine HoldsIn.bind (holdsIn_replaceStatus_ok hfc hnm ?_) ?_ ?_
      · simp [checkReplacement, withExecution, he, hne, validateExecutionChange, hlaw,
          raiseWhen, bind, Except.bind]
      · exact fun _ _ h => h
      · rintro _ b ⟨hr, rfl⟩
        exact holdsIn_pure ⟨hr, rfl⟩
  have hpr : Holds step.act s fun r s' =>
    r = (if step.env.unsynced id then .error statusUncertain else .ok ()) ∧
      s' = put s id { a with
        status := withExecution a.status (e.set [(.state, .str "installed"),
          (.installedAt, .str (step.clock 0).isoformat)]) (step.clock 0) } := by
    unfold Step.act
    rw [hop]
    refine holds_discard ?_
    unfold HoldsIn at hrp
    rw [put_self hs.distinct ha] at hrp
    apply hrp.mono
    rintro r s' ⟨b, hs', hr, hb⟩
    exact ⟨hr, hb ▸ hs'⟩
  obtain ⟨hr, haf⟩ := hpr
  have hlo : (s.after step).lookup id = some { a with
      status := withExecution a.status (e.set [(.state, .str "installed"),
        (.installedAt, .str (step.clock 0).isoformat)]) (step.clock 0) } := by
    rw [Store.after, show (step.perform s).2 = _ from haf]
    exact lookup_put_self ha
  exact ⟨hr, _, _, hlo, rfl, Execution.stateOf_installed e _⟩

theorem installing_run {steps : List Step} (hst : Along Store.after (SparesInstaller id) [] steps) :
    ∀ a, (sessionsAfter steps).lookup id = some a → a.Installing := by
  suffices h : (sessionsAfter steps).Valid ∧
      ∀ a, (sessionsAfter steps).lookup id = some a → a.Installing from h.2
  refine run_keeps_along (P := fun s : Store => s.Valid ∧
    ∀ a, s.lookup id = some a → a.Installing) ⟨⟨by simp, by simp⟩, by simp⟩ hst ?_
  rintro s step ⟨hs, hins⟩ hspa
  obtain ⟨_, -, hef⟩ := step.perform_effect hs
  refine ⟨Store.after_valid hs step, fun b hb => ?_⟩
  cases hid : s.lookup id with
  | none =>
    intro e he
    rw [(hef.fresh id b hid hb).2.1] at he
    cases he
  | some a =>
    obtain ⟨b', hb', hmv⟩ := hef.moves id a hid
    cases hb'.symm.trans hb
    exact hmv.installing (hins a hid) fun e => hspa a e hid

/-- In a run that leaves sessions with a running installer alone, a session whose
installer has started still accepts the report of the finished installation; the report
raises all the same when the directory cannot be synchronized. -/
theorem running_installer_not_stranded (id : Text) (first second : List Step)
    (a : Session) (e : Execution) (step : Step)
    (hse : Along Store.after (SparesInstaller id) [] (first ++ second))
    (ha : (sessionsAfter first).lookup id = some a) (he : a.status.execution = some e)
    (hst : e.stateOf = some .installerStarted) (hsn : ∀ step ∈ second, ¬ step.ReportsInstalled id)
    (hop : step.operation = .postflightInstalled id)
    (hcl : ∀ t, e.timeOf .installerStartedAt = some t → t ≤ step.clock 0) :
    (step.perform (sessionsAfter (first ++ second))).1 =
        (if step.env.unsynced id then .error statusUncertain else .ok ()) ∧
      ∃ b e', ((sessionsAfter (first ++ second)).after step).lookup id = some b ∧
        b.status.execution = some e' ∧ e'.stateOf = some .installed := by
  -- the record stays as it is through the second part of the run
  have hkp : ∃ b, (sessionsAfter (first ++ second)).lookup id = some b ∧ b.status.execution = some e := by
    rw [sessionsAfter_append]
    suffices h : (run Store.after (sessionsAfter first) second).Valid ∧
        ∃ b, (run Store.after (sessionsAfter first) second).lookup id = some b ∧
          b.status.execution = some e from h.2
    refine run_keeps_along (P := fun s : Store => s.Valid ∧ ∃ b, s.lookup id = some b ∧
      b.status.execution = some e) ⟨sessionsAfter_valid first, a, ha, he⟩
      (along_of_forall hsn) ?_
    rintro s step ⟨hs, b, hb, hbe⟩ hrp
    obtain ⟨c, hc, _, -, hmv⟩ := Store.after_move hs step hb
    exact ⟨Store.after_valid hs step, c, hc, hmv.installer_kept hbe hst hrp⟩
  obtain ⟨b, hb, hbe⟩ := hkp
  obtain ⟨hpb, hvl⟩ := installing_run hse b hb e hbe hst
  exact postflightInstalled_accepted (sessionsAfter_valid _) hb hbe hpb hvl hst
    hop hcl

theorem sparesInstaller_of_report {id : Text} {s : Store} {step : Step}
    (h : step.operation.isReport = true) : SparesInstaller id s step := by
  intro a e _ _ _
  constructor
  · intro hfn
    unfold Step.FindsExpired at hfn
    split at hfn <;> simp_all [Operation.isReport]
  · rintro ⟨⟨_, _, hop⟩, -⟩
    rw [hop] at h
    cases h

/-- The installer of the sample run reports in time, after a status request. -/
theorem running_installer_reported :
    (Sample.atMinute 26 (.postflightInstalled Sample.sessionId)).Succeeds
      (sessionsAfter (Sample.installation ++
        [Sample.atMinute 25 (.getStatus Sample.sessionId (some Sample.nonce))])) := by
  obtain ⟨a, e, ha, he, hex, hst, hstar, -⟩ := Sample.installation_execution
  obtain ⟨hcr, -, -, hap, -⟩ := Sample.sample_runs
  have hnn {steps : List Step} (h : (Sample.session steps).map
      (fun a => a.status.execution.isSome) = some false) (step : Step) :
      SparesInstaller Sample.sessionId (sessionsAfter steps) step := by
    intro b e' hb he' _
    simp [Sample.session, hb, he'] at h
  have hcr' : (Sample.session [Sample.create]).map
      (fun a => a.status.execution.isSome) = some false := by
    obtain ⟨b, hb, hfl⟩ := map_eq_some_iff.1 hcr
    simp only [Prod.mk.injEq] at hfl
    rw [hb, map_some, hfl.2]
  refine (running_installer_not_stranded Sample.sessionId Sample.installation
    [Sample.atMinute 25 (.getStatus Sample.sessionId (some Sample.nonce))] a e
    (Sample.atMinute 26 (.postflightInstalled Sample.sessionId)) ?_ ha he hst ?_ rfl ?_).1
  · have hsa : Along Store.after (SparesInstaller Sample.sessionId) [] [Sample.create] :=
      ⟨fun b _ hb => (by cases hb), trivial⟩
    have hpb := (hsa.concat (hnn hcr' (Sample.approve 1))).concat
      (hnn hap Sample.heartbeat)
    have hins : Along Store.after (SparesInstaller Sample.sessionId) []
        Sample.installation :=
      (((hpb.concat (i := Sample.authorize) (sparesInstaller_of_report rfl)).concat
        (i := Sample.atMinute 4 (.claim Sample.sessionId)) (sparesInstaller_of_report rfl)).concat
        (i := Sample.atMinute 5 (.handoffStarted Sample.sessionId))
          (sparesInstaller_of_report rfl)).concat
        (i := Sample.atMinute 20 (.installerStarted Sample.sessionId))
          (sparesInstaller_of_report rfl)
    refine hins.concat ?_
    intro b _ hb _ _
    cases ha.symm.trans hb
    refine ⟨fun hfn => ?_, fun ⟨⟨_, _, hop⟩, _⟩ => (by cases hop)⟩
    have hdue : a.status.expiresAt ≤ Sample.minute 25 := hfn.2
    rw [hex] at hdue
    exact absurd hdue (by decide)
  · intro step hse
    rw [mem_singleton] at hse
    subst hse
    exact fun ⟨⟨_, hop⟩, _⟩ => (by cases hop)
  · intro t ht
    cases hstar.symm.trans ht
    change Sample.minute 20 ≤ Sample.minute 26
    decide

/-- A status request after the session's expiry strands a running installer. -/
theorem expired_session_strands_installer :
    ¬ ∀ (id : Text) (first second : List Step) (a : Session) (e : Execution) (step : Step),
      (sessionsAfter first).lookup id = some a → a.status.execution = some e →
      e.stateOf = some .installerStarted →
      (∀ step ∈ second, ¬ step.CancelsSession id ∧ ¬ step.ReportsInstalled id) →
      step.operation = .postflightInstalled id →
      (∀ t, e.timeOf .installerStartedAt = some t → t ≤ step.clock 0) →
      step.Succeeds (sessionsAfter (first ++ second)) := by
  intro h
  obtain ⟨a, e, ha, he, -, hst, hsa, -⟩ := Sample.installation_execution
  obtain ⟨-, -, -, -, -, href, -⟩ := Sample.sample_runs
  have hok := h Sample.sessionId Sample.installation
    [Sample.atMinute 40 (.getStatus Sample.sessionId (some Sample.nonce))] a e
    (Sample.atMinute 41 (.postflightInstalled Sample.sessionId)) ha he hst ?_ rfl ?_
  · rw [hok] at href
    cases href
  · rintro step hse
    rw [mem_singleton] at hse
    subst hse
    exact ⟨fun ⟨⟨_, _, hop⟩, _⟩ => (by cases hop), fun ⟨⟨_, hop⟩, _⟩ => (by cases hop)⟩
  · intro t ht
    cases hsa.symm.trans ht
    change Sample.minute 20 ≤ Sample.minute 41
    decide

end WebOvpn
