/-
The install-session system: the operations that run one at a time under the sessions lock;
each changes at most one directory, and only when it succeeds or could not
synchronize it.
-/
import WebOvpn.Install.ExecutionChain
import WebOvpn.Install.SessionService
import WebOvpn.Lib.Listing
import WebOvpn.Lib.Run

namespace WebOvpn

open Repository List

namespace Repository

variable {s : Store} {sessionId id : Text} {a b : Session}

theorem find_eq_ok : find s sessionId = .ok (id, a) ↔
    validateSessionId sessionId = .ok id ∧ s.lookup id = some a := by
  unfold find
  simp only [bind_eq_ok]
  constructor
  · rintro ⟨id', hid, h⟩
    cases hlo : s.lookup id' with
    | none => simp [hlo] at h
    | some session =>
      simp only [hlo, Except.ok.injEq, Prod.mk.injEq] at h
      obtain ⟨rfl, rfl⟩ := h
      exact ⟨hid, hlo⟩
  · rintro ⟨hid, hlo⟩
    exact ⟨id, hid, by simp [hlo]⟩

theorem lookup_put_self (h : s.lookup id = some a) : (put s id b).lookup id = some b := by
  induction s with
  | nil => simp at h
  | cons entry rest ih =>
    obtain ⟨k, session⟩ := entry
    by_cases hk : k = id
    · subst hk
      simp [put]
    · have hne : (id == k) = false := by simpa using fun heq => hk heq.symm
      simp only [List.lookup_cons, hne] at h
      have hrs := ih h
      simp only [put] at hrs
      simp [put, List.lookup_cons, hk, hne, hrs]

theorem lookup_put_of_ne {id' : Text} (h : id' ≠ id) : (put s id b).lookup id' = s.lookup id' := by
  induction s with
  | nil => rfl
  | cons entry rest ih =>
    obtain ⟨k, session⟩ := entry
    simp only [put] at ih
    by_cases hk : k = id
    · subst hk
      have hne : (id' == k) = false := by simpa using h
      simp [put, List.lookup_cons, hne, ih]
    · cases hkey : id' == k <;> simp [put, List.lookup_cons, hk, hkey, ih]

theorem put_put (s : Store) (id : Text) (a b : Session) : put (put s id a) id b = put s id b := by
  simp only [put, map_map]
  refine map_congr_left fun entry _ => ?_
  by_cases h : entry.1 = id <;> simp [h]

theorem put_keys (s : Store) (id : Text) (b : Session) :
    (put s id b).map Prod.fst = s.map Prod.fst := by
  simp only [put, map_map]
  refine map_congr_left fun entry _ => ?_
  by_cases h : entry.1 = id <;> simp [h]

theorem put_of_not_mem (h : id ∉ s.map Prod.fst) : put s id b = s := by
  refine (map_congr_left fun entry hen => ?_).trans (map_id s)
  rw [if_neg]
  · rfl
  · rintro rfl
    exact h (mem_map.2 ⟨entry, hen, rfl⟩)

theorem put_self (hnd : (s.map Prod.fst).Nodup) (h : s.lookup id = some a) : put s id a = s := by
  induction s with
  | nil => rfl
  | cons entry rest ih =>
    obtain ⟨k, session⟩ := entry
    simp only [map_cons, nodup_cons] at hnd
    obtain ⟨hnew, hnd⟩ := hnd
    by_cases hk : k = id
    · subst hk
      have hsm : session = a := by simpa [List.lookup_cons] using h
      have hrs := put_of_not_mem (b := a) hnew
      simp only [put] at hrs
      simp [put, hsm, hrs]
    · have hne : (id == k) = false := by simpa using fun heq => hk heq.symm
      simp only [List.lookup_cons, hne] at h
      have hrs := ih hnd h
      simp only [put] at hrs
      simp [put, hk, hrs]

/-- `ok` says whether the operation has stored what it is to store; it may raise
all the same, where a directory could not be synchronized. -/
def Ends {α : Type} (unsynced : Text → Bool) (r : Except Exc α) (ok : Bool) : Prop :=
  ok = r.isOk ∨ ok = true ∧ r = .error statusUncertain ∧ ∃ id, unsynced id = true

section

variable {α β : Type} {unsynced : Text → Bool} {ok : Bool}

theorem Ends.error {e : Exc} (h : Ends unsynced (.error e : Except Exc α) ok) :
    Ends unsynced (.error e : Except Exc β) ok := by
  rcases h with hok | ⟨hok, hlt, hsyn⟩
  · exact .inl hok
  · cases hlt
    exact .inr ⟨hok, rfl, hsyn⟩

theorem Ends.eq_true {v : α} (h : Ends unsynced (.ok v) ok) : ok = true := by
  rcases h with hok | ⟨hok, -⟩
  · exact hok
  · exact hok

theorem Ends.eq_statusUncertain {e : Exc} (h : Ends unsynced (.error e : Except Exc α) true) :
    e = statusUncertain ∧ ∃ id, unsynced id = true := by
  rcases h with hok | ⟨-, hlt, hsyn⟩
  · cases hok
  · cases hlt
    exact ⟨rfl, hsyn⟩

end

-- An operation on one session is followed in its directory: the store is `put s id b`
-- throughout, and the rules say how `b` changes.

structure Focus (s : Store) (sessionId id : Text) : Prop where
  named : validateSessionId sessionId = .ok id
  present : ∃ a, s.lookup id = some a

section

variable {α : Type} {post : Except Exc α → Session → Prop}

open Op

theorem Focus.find_put (h : Focus s sessionId id) (b : Session) :
    find (put s id b) sessionId = .ok (id, b) := by
  obtain ⟨a, ha⟩ := h.present
  exact find_eq_ok.2 ⟨h.named, lookup_put_self ha⟩

theorem holdsIn_loadStatus_bind (h : Focus s sessionId id)
    {f : SessionStatus → Op Store Exc α} (hf : HoldsIn (put s id) (f b.status) b post) :
    HoldsIn (put s id) (loadStatus sessionId >>= f) b post := by
  refine holdsIn_inspect_bind (fun e he => ?_) fun status hst => ?_
  · simp [h.find_put, Except.map] at he
  · simp only [h.find_put, Except.map, Except.ok.injEq] at hst
    subst hst
    exact hf

theorem holdsIn_change (h : Focus s sessionId id) {f : Session → Except Exc Session}
    {post : Except Exc Unit → Session → Prop} (herr : ∀ e, f b = .error e → post (.error e) b)
    (hok : ∀ b', f b = .ok b' → post (.ok ()) b') : HoldsIn (put s id) (change sessionId f) b post := by
  unfold change
  cases hf : f b with
  | error e =>
    refine holdsIn_inspect_bind (fun e' he' => ?_) fun _ h' => ?_
    · simp only [h.find_put, hf, bind, Except.bind, Except.error.injEq] at he'
      exact he' ▸ herr e hf
    · simp [h.find_put, hf, bind, Except.bind] at h'
  | ok b' =>
    refine holdsIn_inspect_bind (fun e he => ?_) ?_
    · simp [h.find_put, hf, bind, Except.bind, pure, Except.pure] at he
    · rintro ⟨id', session⟩ h'
      simp only [h.find_put, hf, bind, Except.bind, pure, Except.pure, Except.ok.injEq, Prod.mk.injEq] at h'
      obtain ⟨rfl, rfl⟩ := h'
      exact ⟨b', put_put s id b b', hok b' hf⟩

variable {unsynced : Text → Bool} {allowLifecycle allowExecution : Bool} {status : SessionStatus}

section

variable (h : Focus s sessionId id)
include h

theorem holdsIn_replaceStatus {post : Except Exc Unit → Session → Prop} (herr : ∀ e, post (.error e) b)
    (hdn : ∀ r, Ends unsynced r true → status.sessionId = sessionId →
      checkReplacement allowLifecycle allowExecution b.status status = .ok () → post r
      { b with status }) :
    HoldsIn (put s id)
      (replaceStatus unsynced allowLifecycle allowExecution sessionId status) b post := by
  unfold replaceStatus
  refine holdsIn_lift_bind (fun e _ => herr e) fun _ _ => ?_
  refine holdsIn_raiseIf_bind (fun _ => herr _) fun hsm => ?_
  refine HoldsIn.bind (Q := fun r b' => if r.isOk then b' = { b with status } ∧
      checkReplacement allowLifecycle allowExecution b.status status = .ok () else b' = b) ?_ ?_ ?_
  · refine holdsIn_change h (fun e _ => rfl) fun b' hb' => ?_
    simp only [bind_eq_ok] at hb'
    obtain ⟨_, hch, hb'⟩ := hb'
    cases hb'
    exact ⟨rfl, hch⟩
  · rintro e _ rfl
    exact herr e
  · rintro _ _ ⟨rfl, hch⟩
    refine holdsIn_lift ?_
    split
    next hsyn => exact hdn _ (.inr ⟨rfl, rfl, sessionId, hsyn⟩) (not_not.1 hsm) hch
    next => exact hdn _ (.inl rfl) (not_not.1 hsm) hch

theorem holdsIn_replaceStatus_ok (hnm : status.sessionId = sessionId)
    (hch : checkReplacement allowLifecycle allowExecution b.status status = .ok ()) :
    HoldsIn (put s id) (replaceStatus unsynced allowLifecycle allowExecution sessionId status) b
      fun r b' => r = (if unsynced sessionId then .error statusUncertain else .ok ()) ∧
        b' = { b with status } := by
  unfold replaceStatus
  refine holdsIn_lift_bind (fun e he => ?_) fun _ _ => ?_
  · rw [h.named] at he
    cases he
  · refine holdsIn_raiseIf_bind (fun hne => absurd hnm hne) fun _ => ?_
    refine HoldsIn.bind (Q := fun r b' => r = .ok () ∧ b' = { b with status }) ?_ ?_ ?_
    · refine holdsIn_change h (fun e he => ?_) fun b' hb' => ?_
      · rw [hch] at he
        cases he
      · rw [hch] at hb'
        cases hb'
        exact ⟨rfl, rfl⟩
    · rintro e _ ⟨he, -⟩
      cases he
    · rintro _ _ ⟨-, rfl⟩
      exact holdsIn_lift ⟨rfl, rfl⟩

theorem holdsIn_publishExecution (bundle : Bundle) :
    HoldsIn (put s id) (publishExecution sessionId bundle) b fun r b' =>
      if r.isOk then b' = { b with execution := some bundle } else b' = b := by
  refine holdsIn_change h (fun _ _ => rfl) fun b' hb' => ?_
  simp only [bind_eq_ok] at hb'
  obtain ⟨_, -, _, -, hb'⟩ := hb'
  cases hb'
  rfl

theorem holdsIn_discardExecution (expected : Bundle) :
    HoldsIn (put s id) (discardExecution sessionId expected) b fun r b' =>
      if r.isOk then b' = { b with execution := none } else b' = b := by
  refine holdsIn_change h (fun _ _ => rfl) fun b' hb' => ?_
  simp only [bind_eq_ok] at hb'
  obtain ⟨_, -, _, -, hb'⟩ := hb'
  cases hb'
  rfl

end

end

end Repository

inductive Operation where
  | create (request : SessionService.CreateRequest)
  | approve (sessionId : Text) (request : ApprovalService.ApproveRequest)
  | cancelSession (sessionId : Text) (reason : JVal)
  | heartbeat (sessionId : Text) (bearer : Option Text) (body : JVal)
  | getStatus (sessionId : Text) (bearer : Option Text)
  | getPlan (sessionId : Text)
  | authorize (sessionId : Text) (request : ExecutionService.AuthorizeRequest)
  | cancelExecution (sessionId : Text) (reason : JVal)
  | claim (sessionId : Text)
  | handoffStarted (sessionId : Text)
  | installerStarted (sessionId : Text)
  | postflightInstalled (sessionId : Text)

def Operation.sessionId : Operation → Option Text
  | create _ => none
  | approve sessionId _ | cancelSession sessionId _ | heartbeat sessionId _ _
  | getStatus sessionId _ | getPlan sessionId | authorize sessionId _
  | cancelExecution sessionId _ | claim sessionId | handoffStarted sessionId
  | installerStarted sessionId | postflightInstalled sessionId => some sessionId

/-- The operation is called for the session stored under `id`. -/
def Operation.Targets (operation : Operation) (id : Text) : Prop :=
  ∃ sessionId, operation.sessionId = some sessionId ∧ Repository.validateSessionId sessionId = .ok id

/-- One locked operation: what it reads from its surroundings and the clock
readings it takes, in order.  Nothing relates the clocks of two steps. -/
structure Step where
  env : Env
  clock : Nat → Instant
  operation : Operation

namespace Step

def act (step : Step) : Op Store Exc Unit :=
  let now := step.clock 0
  let storage := Repository.atomic step.env.unsynced
  match step.operation with
  | .create request => discard (SessionService.create step.env now request)
  | .approve sessionId request =>
    discard (ApprovalService.approve step.env step.clock sessionId request)
  | .cancelSession sessionId reason =>
    discard (ApprovalService.cancel step.env now sessionId reason)
  | .heartbeat sessionId bearer body =>
    SessionApi.heartbeat step.env step.clock sessionId bearer body
  | .getStatus sessionId bearer =>
    discard (SessionApi.getStatus step.env step.clock sessionId bearer)
  | .getPlan sessionId => discard (SessionApi.getPlan step.env step.clock sessionId)
  | .authorize sessionId request =>
    discard (ExecutionService.authorize storage step.env now sessionId request)
  | .cancelExecution sessionId reason =>
    discard (ExecutionService.cancel storage step.env now sessionId reason)
  | .claim sessionId =>
    discard (ExecutionService.claim storage step.env now sessionId)
  | .handoffStarted sessionId =>
    discard (ExecutionService.handoffStarted storage step.env now sessionId)
  | .installerStarted sessionId =>
    discard (ExecutionService.installerStarted storage step.env now sessionId)
  | .postflightInstalled sessionId =>
    discard (ExecutionService.postflightInstalled storage now sessionId)

/-- Outcome and stored sessions after the step. -/
def perform (step : Step) (s : Store) : Except Exc Unit × Store := step.act.exec s

def Succeeds (step : Step) (s : Store) : Prop := (step.perform s).1 = .ok ()

end Step

def Store.after (s : Store) (step : Step) : Store := (step.perform s).2

def sessionsAfter (steps : List Step) : Store := run Store.after [] steps

/-- Every directory has a name of its own, the one its status carries. -/
structure Store.Valid (s : Store) : Prop where
  distinct : (s.map Prod.fst).Nodup
  named : ∀ id a, s.lookup id = some a → a.status.sessionId = id ∧ Repository.validateSessionId id = .ok id

/-- `expires_at` of the published plan. -/
def Session.planExpiry (a : Session) : Option Instant :=
  a.revision.bind fun revision =>
    (parseExecutionPlanBytes revision.plan).toOption.bind fun plan =>
      (ExecutionService.timestamp (.str plan.expiresAt)).toOption

/-- The operation looks at the expiry of the session stored under `id` and finds
it reached. -/
def Step.FindsExpired (step : Step) (id : Text) (a : Session) : Prop :=
  match step.operation with
  | .create _ => a.status.expiresAt ≤ step.clock 0
  | .approve sessionId _ =>
    Repository.validateSessionId sessionId = .ok id ∧
      a.status.state = .awaitingApproval ∧ a.status.expiresAt ≤ step.clock 0
  | .heartbeat sessionId _ _ | .getStatus sessionId _ =>
    Repository.validateSessionId sessionId = .ok id ∧ a.status.expiresAt ≤ step.clock 0
  | .getPlan sessionId =>
    Repository.validateSessionId sessionId = .ok id ∧ ∃ revision expiry, a.revision = some revision ∧
        SessionApi.planExpiry revision.plan = .ok (some expiry) ∧
        expiry ≤ (step.clock 0).val
  | _ => False

/-- Operations that report success only when they have stored a new stage of
the execution. -/
def Operation.isReport : Operation → Bool
  | authorize _ _ | claim _ | handoffStarted _ | installerStarted _
  | postflightInstalled _ => true
  | _ => false

/-- The changes the operations make to a stored execution, and whether they
then succeed. -/
inductive Progress (step : Step) : Bool → Execution → Execution → Prop
  | expire {e : Execution} {t : Instant}
      (hstate : ExecutionService.canExpire e.stateOf = true)
      (ht : e.timeOf .expiresAt = some t) (hdue : t ≤ step.clock 0) :
      Progress step false e (e.set [(.state, .str "expired"),
        (.expiredAt, .str (step.clock 0).isoformat)])
  | cancel {e : Execution} {sessionId reason' : Text} {reason : JVal}
      (hop : step.operation = .cancelExecution sessionId reason)
      (hstate : ExecutionService.canExpire e.stateOf = true) :
      Progress step true e (e.set [(.state, .str "cancelled"),
        (.cancelledAt, .str (step.clock 0).isoformat), (.cancelReason, .str reason')])
  | claim {e : Execution} {sessionId : Text} (hop : step.operation = .claim sessionId)
      (hstate : e.stateOf = some .authorized)
      (hopen : ∀ t, e.timeOf .expiresAt = some t → step.clock 0 < t) :
      Progress step true e (e.set [(.state, .str "claimed"),
        (.claimedAt, .str (step.clock 0).isoformat)])
  | handoff {e : Execution} {sessionId : Text}
      (hop : step.operation = .handoffStarted sessionId)
      (hstate : e.stateOf = some .claimed)
      (hopen : ∀ t, e.timeOf .expiresAt = some t → step.clock 0 < t) :
      Progress step true e (e.set [(.state, .str "handoff_started"),
        (.handoffStartedAt, .str (step.clock 0).isoformat)])
  | installer {e : Execution} {sessionId : Text}
      (hop : step.operation = .installerStarted sessionId)
      (hstate : e.stateOf = some .handoffStarted) :
      Progress step true e (e.set [(.state, .str "installer_started"),
        (.installerStartedAt, .str (step.clock 0).isoformat)])
  | installed {e : Execution} {sessionId : Text}
      (hop : step.operation = .postflightInstalled sessionId)
      (hstate : e.stateOf = some .installerStarted) :
      Progress step true e (e.set [(.state, .str "installed"),
        (.installedAt, .str (step.clock 0).isoformat)])

/-- The changes one step makes to the session stored under `id`, and whether
the operation then succeeds. -/
inductive Move (step : Step) (id : Text) : Bool → Session → Session → Prop
  | bystander {ok : Bool} {a : Session} (hother : ¬ step.operation.Targets id) :
      Move step id ok a a
  | refuse {a : Session} : Move step id false a a
  | keep {a : Session} (hop : step.operation.isReport = false) : Move step id true a a
  | expire {ok : Bool} {a : Session} {now : Instant}
      (hop : step.operation.isReport = false)
      (hlive : a.status.state.isTerminal = false) (hdue : step.FindsExpired id a) :
      Move step id ok a { a with status := a.status.expire now }
  | publish {a : Session} {revision : Revision} {approval : Approval}
      {updated : SessionStatus} (hop : step.operation.isReport = false)
      (hwaiting : a.status.state = .awaitingApproval)
      (hstate : updated.state = .planPublished)
      (horigin : updated.origin = a.status.origin)
      (hexecution : updated.execution = a.status.execution) :
      Move step id true a { a with
        revision := some revision, approval := some approval, status := updated }
  | draft {a : Session} {approval : Option Approval} {revision : Option Revision}
      (hwaiting : a.status.state = .awaitingApproval) :
      Move step id false a { a with approval, revision }
  | cancel {a : Session} {sessionId reason' : Text} {reason : JVal}
      (hop : step.operation = .cancelSession sessionId reason)
      (htarget : step.operation.Targets id) (hstate : a.status.state ≠ .cancelled) :
      Move step id true a { a with
        status := ApprovalService.cancelledStatus a.status reason' (step.clock 0) }
  | heartbeat {a : Session} {agent : AgentStatus} {now : Instant}
      (hop : step.operation.isReport = false)
      (hlive : a.status.state.isTerminal = false) :
      Move step id true a { a with
        status := SessionApi.heartbeatStatus a.status agent now }
  | rebundle {a : Session} {bundle : Option Bundle}
      (hnone : a.status.execution = none) :
      Move step id false a { a with execution := bundle }
  | authorize {a : Session} {e : Execution} {bundle : Bundle} {t limit : Instant}
      {sessionId : Text} {request : ExecutionService.AuthorizeRequest}
      (hop : step.operation = .authorize sessionId request)
      (hpublished : a.status.state = .planPublished)
      (hnone : a.status.execution = none) (hinitial : e.validateInitial = .ok ())
      (hstate : e.stateOf = some .authorized) (ht : e.timeOf .expiresAt = some t)
      (hlimit : a.planExpiry = some limit) (hle : t ≤ limit) :
      Move step id true a { a with
        execution := some bundle
        status := ExecutionService.withExecution a.status e (step.clock 0) }
  | cancelUnauthorized {a : Session} {reason : Text}
      (hop : step.operation.isReport = false) (hnone : a.status.execution = none)
      (hinitial : (ExecutionService.cancelledBeforeAuthorization
        (step.clock 0).isoformat reason).validateInitial = .ok ()) :
      Move step id true a { a with
        execution := none
        status := ExecutionService.withExecution a.status
          (ExecutionService.cancelledBeforeAuthorization (step.clock 0).isoformat reason)
          (step.clock 0) }
  | progress {ok : Bool} {a : Session} {e e' : Execution}
      (htarget : step.operation.Targets id) (he : a.status.execution = some e)
      (hpublished : step.operation.isReport = true → a.status.state = .planPublished)
      (hprogress : Progress step ok e e') (hlaw : e.validateTransition e' = .ok ()) :
      Move step id ok a { a with
        status := ExecutionService.withExecution a.status e' (step.clock 0) }

end WebOvpn
