/-
The operations of the execution service as moves of the session they are
called for.
-/
import WebOvpn.Install.System
import WebOvpn.Lib.CalendarRoundTrip

namespace WebOvpn

open Op Repository ExecutionService

theorem awareTimestamp_eq_ok {invalid invalid' : Exc} {value : JVal} {t : Instant} :
    awareTimestamp invalid value = .ok t ↔ awareTimestamp invalid' value = .ok t := by
  unfold awareTimestamp
  cases value with
  | str s =>
    cases hs : fromisoformat s with
    | none => simp [hs]
    | some d => cases hd : d.offset <;> simp [hs, hd]
  | _ => simp

theorem executionTimestamp_isoformat (t : Instant) : executionTimestamp (.str t.isoformat) = .ok t := by
  simp [executionTimestamp, awareTimestamp, fromisoformat_isoformat, Datetime.astimezone_utc]

theorem executionTimestamp_trimmed (t : Instant) : executionTimestamp (.str t.trimmed) = .ok t := by
  simp [executionTimestamp, awareTimestamp, fromisoformat_trimmed, Datetime.astimezone_utc]

namespace Execution

variable {e : Execution} {updates : List (ExecutionField × JVal)} {s : ExecutionState}

theorem set_of_lookup {f : ExecutionField} {value : JVal}
    (h : updates.lookup f = some value) : e.set updates f = value := by
  simp [set, h]

theorem set_of_not_mem {f : ExecutionField} (h : updates.lookup f = none) : e.set updates f = e f := by
  simp [set, h]

theorem stateOf_set (h : updates.lookup .state = some (.str (text s.name))) :
    (e.set updates).stateOf = some s :=
  stateOf_eq_some.2 (set_of_lookup h)

end Execution

theorem ExecutionState.not_mem_next_self (s : ExecutionState) : s ∉ s.next := by
  cases s <;> decide

namespace Progress

variable {step : Step} {ok : Bool} {e e' : Execution}

theorem edge (h : Progress step ok e e') : ∃ s s', e.stateOf = some s ∧
    e'.stateOf = some s' ∧ s' ∈ s.next := by
  have hop (hst : canExpire e.stateOf = true) : e.stateOf = some .authorized ∨
      e.stateOf = some .claimed ∨ e.stateOf = some .handoffStarted := by
    simpa [canExpire, or_assoc] using hst
  cases h with
  | expire hst _ _ =>
    rcases hop hst with h | h | h <;>
      exact ⟨_, .expired, h, Execution.stateOf_set rfl, by decide⟩
  | cancel _ hst =>
    rcases hop hst with h | h | h <;>
      exact ⟨_, .cancelled, h, Execution.stateOf_set rfl, by decide⟩
  | claim _ hst _ =>
    exact ⟨_, .claimed, hst, Execution.stateOf_set rfl, by decide⟩
  | handoff _ hst _ =>
    exact ⟨_, .handoffStarted, hst, Execution.stateOf_set rfl, by decide⟩
  | installer _ hst =>
    exact ⟨_, .installerStarted, hst, Execution.stateOf_set rfl, by decide⟩
  | installed _ hst =>
    exact ⟨_, .installed, hst, Execution.stateOf_set rfl, by decide⟩

theorem ne (h : Progress step ok e e') : e ≠ e' := by
  rintro rfl
  obtain ⟨s, s', hs, hs', hnx⟩ := h.edge
  rw [hs, Option.some.injEq] at hs'
  exact ExecutionState.not_mem_next_self s (hs' ▸ hnx)

end Progress

section

variable {α : Type} {s : Store} {sessionId id : Text} {step : Step} {a b : Session}

variable {m : Op Store Exc α} {Q : α → Prop} {status : SessionStatus} {now : Instant}
    {manifest : ExecutionManifest} {unsynced : Text → Bool}

theorem holdsIn_catching {e : Exc} {post : Except Exc α → Session → Prop}
    (hm : HoldsIn (put s id) m b post)
    (herr : ∀ exc b', post (.error exc) b' → post (.error (translate e exc)) b') :
    HoldsIn (put s id) (catching e m) b post :=
  hm.onError (fun _ _ h => h) fun exc b' h => holdsIn_raise (herr exc b' h)

/-- The operation changes nothing, and `Q` holds of what it returns. -/
def Reads (s : Store) (id : Text) (m : Op Store Exc α) (b : Session) (Q : α → Prop) : Prop :=
  HoldsIn (put s id) m b fun r b' => b' = b ∧ ∀ v, r = .ok v → Q v

theorem Reads.catching {e : Exc} (hm : Reads s id m b Q) :
    Reads s id (ExecutionService.catching e m) b Q :=
  holdsIn_catching hm fun exc b' h => ⟨h.1, by simp⟩

theorem Reads.bind {β : Type} {f : α → Op Store Exc β}
    {post : Except Exc β → Session → Prop} (hm : Reads s id m b Q) (herr : ∀ e, post (.error e) b)
    (hok : ∀ v, Q v → HoldsIn (put s id) (f v) b post) : HoldsIn (put s id) (m >>= f) b post := by
  refine HoldsIn.bind hm ?_ ?_
  · rintro e b' ⟨rfl, -⟩
    exact herr e
  · rintro v b' ⟨rfl, hv⟩
    exact hok v (hv v rfl)

theorem reads_inspect {f : Store → Except Exc α}
    (hf : ∀ v, f (put s id b) = .ok v → Q v) : Reads s id (Op.inspect f) b Q :=
  ⟨b, rfl, rfl, hf⟩

section

variable (h : Focus s sessionId id)
include h

theorem reads_readRevision (file : Revision → Bytes) :
    Reads s id (readRevision file sessionId) b fun raw =>
      ∃ revision, b.revision = some revision ∧ raw = file revision := by
  refine reads_inspect fun raw hraw => ?_
  simp only [h.find_put, bind, Except.bind] at hraw
  cases hrv : b.revision with
  | none => simp [hrv] at hraw
  | some revision =>
    simp only [hrv, Except.ok.injEq] at hraw
    exact ⟨revision, rfl, hraw.symm⟩

theorem reads_loadPlan : Reads s id (loadPlan (atomic unsynced) sessionId) b fun p =>
      ∃ revision, b.revision = some revision ∧ parseExecutionPlanBytes revision.plan = .ok p.2 := by
  refine Reads.catching ((reads_readRevision h _).bind (fun e => ⟨rfl, by simp⟩) ?_)
  rintro raw ⟨revision, hrv, rfl⟩
  refine holdsIn_lift_bind (fun e _ => ⟨rfl, by simp⟩) fun plan hpl => ?_
  refine holdsIn_pure ⟨rfl, fun v hv => ?_⟩
  cases hv
  exact ⟨revision, hrv, hpl⟩

theorem reads_verifyPublishedPlanSignature (env : Env)
    (plan : Bytes) (digest createdAt : Text) :
    Reads s id (verifyPublishedPlanSignature (atomic unsynced) env sessionId plan digest createdAt)
      b fun _ => True := by
  refine Reads.catching ((reads_readRevision h _).bind (fun e => ⟨rfl, by simp⟩) ?_)
  intro raw _
  exact holdsIn_lift ⟨rfl, fun _ _ => trivial⟩

theorem reads_loadBoundPlan (env : Env)
    (request : AuthorizeRequest) (now : Instant) :
    Reads s id (loadBoundPlan (atomic unsynced) env sessionId request now) b fun p =>
      b.planExpiry = some p.2 := by
  unfold loadBoundPlan
  refine holdsIn_lift_bind (fun e _ => ⟨rfl, by simp⟩) fun _ _ => ?_
  refine (reads_loadPlan h).bind (fun e => ⟨rfl, by simp⟩) ?_
  rintro ⟨raw, plan⟩ ⟨revision, hrv, hpl⟩
  refine holdsIn_raiseIf_bind (fun _ => ⟨rfl, by simp⟩) fun _ => ?_
  refine holdsIn_raiseIf_bind (fun _ => ⟨rfl, by simp⟩) fun _ => ?_
  refine (reads_verifyPublishedPlanSignature h env _ _ _).bind (fun e => ⟨rfl, by simp⟩) ?_
  intro _ _
  refine holdsIn_lift_bind (fun e _ => ⟨rfl, by simp⟩) fun expiry hex => ?_
  refine holdsIn_pure ⟨rfl, fun v hv => ?_⟩
  cases hv
  simp only [checkBoundPlan, bind_eq_ok] at hex
  obtain ⟨_, -, expiry', htm, _, -, _, -, _, -, heq⟩ := hex
  cases heq
  simp [Session.planExpiry, hrv, hpl, htm, Except.toOption]

theorem reads_readExecution :
    Reads s id (readExecution sessionId) b fun bundle => b.execution = some bundle := by
  refine reads_inspect fun bundle hbun => ?_
  simp only [h.find_put, bind, Except.bind] at hbun
  cases hex : b.execution with
  | none => simp [hex] at hbun
  | some files => simpa [hex] using hbun

theorem reads_hasExecution :
    Reads s id (hasExecution sessionId) b fun present => present = b.execution.isSome := by
  refine reads_inspect fun present hpr => ?_
  rw [h.find_put] at hpr
  exact (Except.ok.inj hpr).symm

end

theorem reads_verifyClaimBundle (env : Env) (e : Execution) (h : Focus s b.status.sessionId id) :
    Reads s id (verifyClaimBundle (atomic unsynced) env b.status e) b fun _ => True := by
  refine Reads.catching ((reads_readExecution h).bind (fun e => ⟨rfl, by simp⟩) ?_)
  intro files _
  exact holdsIn_lift ⟨rfl, fun _ _ => trivial⟩

/-- The operation ends with this outcome in a move from `a` to `b`. -/
def Moved (step : Step) (id : Text) (r : Except Exc α) (a b : Session) : Prop :=
  ∃ ok, Ends step.env.unsynced r ok ∧ Move step id ok a b

section

variable {e : Exc} {v : α}

theorem Move.error (h : Move step id false a b) : Moved step id (.error e : Except Exc α) a b :=
  ⟨false, .inl rfl, h⟩

theorem Move.ok (h : Move step id true a b) : Moved step id (.ok v) a b :=
  ⟨true, .inl rfl, h⟩

theorem Moved.refuse : Moved step id (.error e : Except Exc α) a a := Move.refuse.error

theorem Moved.keep (hop : step.operation.isReport = false) : Moved step id (.ok v) a a :=
  (Move.keep hop).ok

end

theorem Moved.error {β : Type} {e : Exc} (h : Moved step id (.error e : Except Exc α) a b) :
    Moved step id (.error e : Except Exc β) a b := by
  obtain ⟨ok, hen, hmv⟩ := h
  exact ⟨ok, hen.error, hmv⟩

theorem Moved.ok {β : Type} {v : α} {w : β} (h : Moved step id (.ok v) a b) :
    Moved step id (.ok w) a b := by
  obtain ⟨ok, hen, hmv⟩ := h
  exact ⟨ok, .inl hen.eq_true, hmv⟩

/-- The operation, started with the session at `b`, ends in a move from `a`. -/
def Moves (step : Step) (s : Store) (id : Text) (a : Session) (m : Op Store Exc α)
    (b : Session) : Prop :=
  HoldsIn (put s id) m b fun r b' => Moved step id r a b'

theorem Moves.thenPure {β : Type} {f : α → Op Store Exc β} {g : α → β} (hm : Moves step s id a m b)
    (hf : ∀ v, f v = pure (g v)) : Moves step s id a (m >>= f) b := by
  refine HoldsIn.bind hm (fun _ _ hmv => hmv.error) fun v _ hmv => ?_
  rw [hf]
  exact holdsIn_pure hmv.ok

theorem validateInitial_of_checkReplacement {e : Execution} (hnn : status.execution = none)
    (h : checkReplacement false true status (withExecution status e now) = .ok ()) :
    e.validateInitial = .ok () := by
  simp only [checkReplacement, bind_eq_ok] at h
  obtain ⟨_, -, h⟩ := h
  simpa [withExecution, hnn, validateExecutionChange, bind_eq_ok, raiseWhen_eq_ok] using h

theorem validateTransition_of_checkReplacement
    {e e' : Execution} (he : status.execution = some e) (hne : e ≠ e')
    (h : checkReplacement false true status (withExecution status e' now) = .ok ()) :
    e.validateTransition e' = .ok () := by
  simp only [checkReplacement, bind_eq_ok] at h
  obtain ⟨_, -, h⟩ := h
  simpa [withExecution, he, hne, validateExecutionChange, bind_eq_ok, raiseWhen_eq_ok] using h

theorem moves_store {e e' : Execution} (h : Focus s sessionId id) (htg : step.operation.Targets id)
    (hpb : step.operation.isReport = true → b.status.state = .planPublished)
    (he : b.status.execution = some e) (hpr : Progress step true e e') :
    Moves step s id b (store (atomic step.env.unsynced) sessionId b.status e' (step.clock 0)) b := by
  refine Moves.thenPure
    (holdsIn_replaceStatus h (fun _ => .refuse) fun r hr _ hch => ⟨true, hr, ?_⟩) fun _ => rfl
  exact .progress htg he hpb hpr (validateTransition_of_checkReplacement he hpr.ne hch)

def WithinWindow (step : Step) (status : SessionStatus) : Prop :=
  ∀ e t, status.execution = some e → canExpire e.stateOf = true →
    e.timeOf .expiresAt = some t → step.clock 0 < t

theorem holdsIn_expireExecution (h : Focus s sessionId id) (htg : step.operation.Targets id)
    (hpb : step.operation.isReport = true → b.status.state = .planPublished) :
    HoldsIn (put s id) (expireExecution (atomic step.env.unsynced) sessionId b.status (step.clock 0)) b
      fun r b' => Move step id false b b' ∧ (r = .ok false → b' = b ∧ WithinWindow step b.status) := by
  unfold expireExecution
  cases he : b.status.execution with
  | none => exact holdsIn_pure ⟨.refuse, fun _ => ⟨rfl, by simp [WithinWindow, he]⟩⟩
  | some e =>
    by_cases hst : canExpire e.stateOf = true
    · simp only [hst, if_true]
      refine holdsIn_lift_bind (fun exc _ => ⟨.refuse, by simp⟩) fun t ht => ?_
      have htm := (Execution.timeOf_eq_some.trans awareTimestamp_eq_ok).2 ht
      by_cases hop : step.clock 0 < t
      · rw [if_pos hop]
        refine holdsIn_pure ⟨.refuse, fun _ => ⟨rfl, ?_⟩⟩
        intro e' t' he' _ ht'
        rw [he, Option.some.injEq] at he'
        rw [← he', htm, Option.some.injEq] at ht'
        exact ht' ▸ hop
      · rw [if_neg hop]
        have hpr : Progress step false e _ := .expire hst htm (not_lt.1 hop)
        have hrp : HoldsIn (put s id) (replaceStatus step.env.unsynced false true sessionId
            (withExecution b.status _ (step.clock 0))) b fun _ b' => Move step id false b b' :=
          holdsIn_replaceStatus h (fun _ => .refuse) fun _ _ _ hch =>
            .progress htg he hpb hpr (validateTransition_of_checkReplacement he hpr.ne hch)
        refine hrp.bind ?_ ?_
        · exact fun exc b' hmv => ⟨hmv, by simp⟩
        · exact fun _ b' hmv => holdsIn_pure ⟨hmv, by simp⟩
    · simp only [hst]
      refine holdsIn_pure ⟨.refuse, fun _ => ⟨rfl, ?_⟩⟩
      intro e' _ he' hst'
      rw [he, Option.some.injEq] at he'
      exact absurd (he' ▸ hst') hst

theorem moves_refuseExpired_bind {f : Unit → Op Store Exc α} (h : Focus s sessionId id)
    (htg : step.operation.Targets id)
    (hpb : step.operation.isReport = true → b.status.state = .planPublished)
    (hf : WithinWindow step b.status → Moves step s id b (f ()) b) : Moves step s id b
      (refuseExpired (atomic step.env.unsynced) sessionId b.status (step.clock 0) >>= f) b := by
  refine HoldsIn.bind (Q := fun r b' => Move step id false b b' ∧
      (r = .ok () → b' = b ∧ WithinWindow step b.status)) ?_ ?_ ?_
  · refine (holdsIn_expireExecution h htg hpb).bind (fun exc b' hb' => ⟨hb'.1, by simp⟩) ?_
    intro expired b' hb'
    cases expired with
    | true => exact holdsIn_lift ⟨hb'.1, by simp⟩
    | false => exact holdsIn_lift ⟨hb'.1, fun _ => hb'.2 rfl⟩
  · exact fun exc b' hb' => hb'.1.error
  · intro _ b' hb'
    obtain ⟨rfl, hop⟩ := hb'.2 rfl
    exact hf hop

/-- The operation stops without a change, or moves the session it is called
for. -/
def Touches (step : Step) (s : Store) (sessionId : Text) (r : Except Exc α) (s' : Store) : Prop :=
  (r.isOk = false ∧ s' = s) ∨
    ∃ id a b, find s sessionId = .ok (id, a) ∧ s' = put s id b ∧ Moved step id r a b

theorem Touches.error {exc : Exc} : Touches step s sessionId (.error exc : Except Exc α) s :=
  .inl ⟨rfl, rfl⟩

theorem touches_of_moves (hs : s.Valid)
    (hfn : find s sessionId = .ok (id, a)) (hm : Moves step s id a m a) :
    Holds m s (Touches step s sessionId) := by
  have hsl := put_self hs.distinct (find_eq_ok.1 hfn).2
  unfold Moves HoldsIn at hm
  rw [hsl] at hm
  exact hm.mono fun r s' ⟨b, hput, hmv⟩ => .inr ⟨id, a, b, hfn, hput, hmv⟩

theorem touches_of_find (hs : s.Valid)
    (hms : ∀ e, find s sessionId = .error e → Holds m s (Touches step s sessionId))
    (hfd : ∀ id a, Focus s sessionId id → Focus s a.status.sessionId id → Moves step s id a m a) :
    Holds m s (Touches step s sessionId) := by
  cases hfn : find s sessionId with
  | error e => exact hms e hfn
  | ok entry =>
    have hlo := (find_eq_ok.1 hfn).2
    have hnm := hs.named _ _ hlo
    refine touches_of_moves hs hfn (hfd _ _ ⟨(find_eq_ok.1 hfn).1, _, (find_eq_ok.1 hfn).2⟩ ⟨?_, _, hlo⟩)
    rw [hnm.1, hnm.2]

theorem touches_loadStatus_bind {f : SessionStatus → Op Store Exc α} (hs : s.Valid)
    (hf : ∀ id a, Focus s sessionId id → Focus s a.status.sessionId id →
      Moves step s id a (f a.status) a) :
    Holds (loadStatus sessionId >>= f) s (Touches step s sessionId) := by
  refine touches_of_find hs (fun e hms => ?_) fun id a hfc hsl =>
    holdsIn_loadStatus_bind hfc (hf id a hfc hsl)
  refine holds_inspect_bind (fun _ _ => .error) fun status hst => ?_
  simp [hms, Except.map] at hst

theorem requireExecution_eq_ok {missing conflict : Exc} {stage : ExecutionState} {e : Execution} :
    requireExecution status missing stage conflict = .ok e ↔
      status.execution = some e ∧ e.validate = .ok () ∧ e.stateOf = some stage := by
  unfold requireExecution
  cases he : status.execution with
  | none => simp
  | some e' =>
    simp only [bind_eq_ok, raiseWhen_eq_ok, not_not, Option.some.injEq]
    constructor
    · rintro ⟨_, hvl, _, hst, heq⟩
      cases heq
      exact ⟨rfl, hvl, hst⟩
    · rintro ⟨rfl, hvl, hst⟩
      exact ⟨(), hvl, (), hst, rfl⟩

theorem moves_staged_bind {refused missing conflict : Exc} {stage : ExecutionState}
    {f : Execution → Op Store Exc α}
    (hf : ∀ e, a.status.state = .planPublished → a.status.execution = some e → e.stateOf = some stage →
      Moves step s id a (f e) a) :
    Moves step s id a (raiseIf (a.status.state ≠ .planPublished) refused >>= fun _ =>
      lift (requireExecution a.status missing stage conflict) >>= f) a := by
  refine holdsIn_raiseIf_bind (fun _ => .refuse) fun hpb => ?_
  refine holdsIn_lift_bind (fun _ _ => .refuse) fun e he => ?_
  obtain ⟨hex, -, hst⟩ := requireExecution_eq_ok.1 he
  exact hf e (not_not.1 hpb) hex hst

theorem claim_touches (hs : s.Valid) (hop : step.operation = .claim sessionId) :
    Holds (claim (atomic step.env.unsynced) step.env (step.clock 0) sessionId) s
      (Touches step s sessionId) := by
  refine touches_loadStatus_bind hs fun id a hfc hsl => ?_
  have htg : step.operation.Targets id := ⟨_, hop ▸ rfl, hfc.named⟩
  refine holdsIn_raiseIf_bind (fun _ => .refuse) fun _ => ?_
  refine moves_staged_bind fun e hpb hex hst => ?_
  refine moves_refuseExpired_bind hfc htg (fun _ => hpb) fun hoe => ?_
  refine (reads_loadPlan hfc).bind (fun _ => .refuse) ?_
  rintro ⟨_, plan⟩ -
  refine holdsIn_lift_bind (fun _ _ => .refuse) fun _ _ => ?_
  refine (reads_verifyClaimBundle step.env e hsl).bind (fun _ => .refuse) fun _ _ => ?_
  exact moves_store hfc htg (fun _ => hpb) hex
    (.claim hop hst fun t => hoe e t hex (by simp [canExpire, hst]))

theorem handoffStarted_touches (hs : s.Valid) (hop : step.operation = .handoffStarted sessionId) :
    Holds (handoffStarted (atomic step.env.unsynced) step.env (step.clock 0) sessionId) s
      (Touches step s sessionId) := by
  refine touches_loadStatus_bind hs fun id a hfc hsl => ?_
  have htg : step.operation.Targets id := ⟨_, hop ▸ rfl, hfc.named⟩
  refine holdsIn_raiseIf_bind (fun _ => .refuse) fun _ => ?_
  refine moves_staged_bind fun e hpb hex hst => ?_
  refine moves_refuseExpired_bind hfc htg (fun _ => hpb) fun hoe => ?_
  refine (reads_verifyClaimBundle step.env e hsl).bind (fun _ => .refuse) fun _ _ => ?_
  exact moves_store hfc htg (fun _ => hpb) hex
    (.handoff hop hst fun t => hoe e t hex (by simp [canExpire, hst]))

theorem installerStarted_touches (hs : s.Valid) (hop : step.operation = .installerStarted sessionId) :
    Holds (installerStarted (atomic step.env.unsynced) step.env (step.clock 0) sessionId) s
      (Touches step s sessionId) := by
  refine touches_loadStatus_bind hs fun id a hfc hsl => ?_
  have htg : step.operation.Targets id := ⟨_, hop ▸ rfl, hfc.named⟩
  refine moves_staged_bind fun e hpb hex hst => ?_
  refine (reads_verifyClaimBundle step.env e hsl).bind (fun _ => .refuse) fun _ _ => ?_
  exact moves_store hfc htg (fun _ => hpb) hex (.installer hop hst)

theorem postflightInstalled_touches (hs : s.Valid)
    (hop : step.operation = .postflightInstalled sessionId) :
    Holds (postflightInstalled (atomic step.env.unsynced) (step.clock 0) sessionId) s
      (Touches step s sessionId) := by
  refine touches_loadStatus_bind hs fun id a hfc _ => ?_
  have htg : step.operation.Targets id := ⟨_, hop ▸ rfl, hfc.named⟩
  refine moves_staged_bind fun e hpb hex hst => ?_
  exact moves_store hfc htg (fun _ => hpb) hex (.installed hop hst)

theorem holdsIn_reconcileOrphan (env : Env) (h : Focus s b.status.sessionId id) :
    HoldsIn (put s id) (reconcileOrphan (atomic step.env.unsynced) env b.status) b fun r b' =>
      if r.isOk then b' = { b with execution := none } else b' = b := by
  refine (reads_hasExecution h).bind (fun _ => by simp [Except.isOk, Except.toBool]) ?_
  rintro present rfl
  cases hpr : b.execution with
  | none =>
    refine holdsIn_pure ?_
    change b = { b with execution := none }
    rw [← hpr]
  | some files =>
    refine holdsIn_catching ?_ fun _ _ h => h
    refine (reads_readExecution h).bind (fun _ => rfl) fun bundle _ => ?_
    refine holdsIn_lift_bind (fun _ _ => rfl) fun manifest _ => ?_
    refine (reads_readRevision h _).bind (fun _ => rfl) fun raw _ => ?_
    refine holdsIn_lift_bind (fun _ _ => rfl) fun plan _ => ?_
    refine (reads_verifyPublishedPlanSignature h env _ _ _).bind (fun _ => rfl) fun _ _ => ?_
    refine holdsIn_lift_bind (fun _ _ => rfl) fun _ _ => ?_
    exact holdsIn_discardExecution h bundle

theorem holdsIn_publishThenStore {bundle : Bundle} {e : Execution} (h : Focus s sessionId id) :
    HoldsIn (put s id)
      (publishThenStore (atomic unsynced) sessionId bundle (withExecution b.status e now)) b
      fun r b' => Ends unsynced r true ∧
        checkReplacement false true b.status (withExecution b.status e now) = .ok () ∧
          b' = { b with execution := some bundle, status := withExecution b.status e now } ∨
        r.isOk = false ∧ ∃ files, b' = { b with execution := files } := by
  unfold publishThenStore
  refine (holdsIn_publishExecution h bundle).bind ?_ ?_
  · rintro exc b' rfl
    exact .inr ⟨rfl, b'.execution, rfl⟩
  · rintro _ b' rfl
    refine HoldsIn.onError (Q := fun r b' =>
        Ends unsynced r true ∧ checkReplacement false true b.status (withExecution b.status e now) = .ok () ∧
          b' = { b with execution := some bundle, status := withExecution b.status e now } ∨
        r.isOk = false ∧ b' = { b with execution := some bundle }) ?_ ?_ ?_
    · exact holdsIn_replaceStatus h (fun _ => .inr ⟨rfl, rfl⟩) fun _ hr _ hch => .inl ⟨hr, hch, rfl⟩
    · rintro _ b' (hstor | ⟨hr, -⟩)
      · exact .inl hstor
      · cases hr
    · rintro exc b' (⟨hr, hch, rfl⟩ | ⟨-, rfl⟩)
      · -- the status may have been stored, so the bundle stays
        obtain ⟨rfl, -⟩ := hr.eq_statusUncertain
        exact holdsIn_raise (.inl ⟨hr, hch, rfl⟩)
      · cases exc with
        | control error =>
          simp only
          split
          next => exact holdsIn_raise (.inr ⟨rfl, some bundle, rfl⟩)
          next =>
            refine (holdsIn_discardExecution h bundle).bind ?_ ?_
            · rintro _ b' rfl
              exact .inr ⟨rfl, some bundle, rfl⟩
            · rintro _ b' rfl
              exact holdsIn_raise (.inr ⟨rfl, none, rfl⟩)
        | _ => exact holdsIn_raise (.inr ⟨rfl, some bundle, rfl⟩)

theorem Manifest.ofMembers_expiresAt {members : Members}
    (h : Manifest.ofMembers members = .ok manifest) :
    .str manifest.expiresAt = members.field "expires_at" := by
  simp only [Manifest.ofMembers, bind_eq_ok] at h
  obtain ⟨_, -, _, -, parsed, hps, _, -, _, -, _, -, _, -, _, -, heq⟩ := h
  have hha : Manifest.head members = .ok parsed := by
    unfold Manifest.guarded at hps
    split at hps <;> simp_all
  simp only [Manifest.head, bind_eq_ok, raiseWhen_eq_ok] at hha
  obtain ⟨_, -, _, -, _, -, _, -, _, -, _, -, _, -, _, -, _, -, _, -, _, -, expires, -, _,
    hch, hha⟩ := hha
  cases hha
  cases heq
  simp only [not_or, not_not] at hch
  exact hch.2.1

theorem buildExecutionManifest_expiresAt {sha256 : Bytes → Sha256Hex} {plan : JVal}
    {planSha256 authorizedAt : JVal} {t : Instant} {artifacts : List (Text × Bytes)}
    (h : buildExecutionManifest sha256 plan planSha256 authorizedAt (.str t.isoformat)
      artifacts = .ok manifest) : manifest.expiresAt = t.trimmed := by
  cases plan with
  | obj plan =>
    simp only [buildExecutionManifest, bind_eq_ok] at h
    obtain ⟨_, -, _, -, _, -, _, -, _, -, _, -, _, -, _, -, _, -, _, -, _, -, _, -, _, -, _,
      -, _, -, _, -, _, -, _, -, expiry, hex, _, -, _, -, _, -, _, -, _, -, _, -, h⟩ := h
    have htm : executionTimestamp (.str t.isoformat) = .ok expiry :=
      awareTimestamp_eq_ok.1 hex
    rw [executionTimestamp_isoformat, Except.ok.injEq] at htm
    have hfie := Manifest.ofMembers_expiresAt h
    rw [htm]
    exact JVal.str.inj hfie
  | _ => simp [buildExecutionManifest] at h

theorem prepareAuthorization_window {env : Env} {request : AuthorizeRequest}
    {reason : Text} {plan : InstallPlan} {limit : Instant} {bundle : Bundle} {e : Execution}
    (h : prepareAuthorization env request reason plan limit now = .ok (manifest, bundle, e)) :
    e.stateOf = some .authorized ∧ ∃ t, e.timeOf .expiresAt = some t ∧ t ≤ limit := by
  simp only [prepareAuthorization, bind_eq_ok] at h
  obtain ⟨_, -, last, -, built, hbi, _, -, _, -, heq⟩ := h
  cases heq
  refine ⟨Execution.stateOf_eq_some.2 rfl, min limit last, ?_, min_le_left _ _⟩
  refine Execution.timeOf_eq_some.2 ?_
  change executionTimestamp (.str manifest.expiresAt) = _
  rw [buildExecutionManifest_expiresAt hbi, executionTimestamp_trimmed]

theorem authorize_touches {request : AuthorizeRequest} (hs : s.Valid)
    (hop : step.operation = .authorize sessionId request) :
    Holds (authorize (atomic step.env.unsynced) step.env (step.clock 0) sessionId request) s
      (Touches step s sessionId) := by
  refine holds_raiseIf_bind (fun _ => .error) fun _ => ?_
  refine holds_lift_bind (fun _ _ => .error) fun reason _ => ?_
  refine touches_loadStatus_bind hs fun id a hfc hsl => ?_
  refine holdsIn_raiseIf_bind (fun _ => .refuse) fun _ => ?_
  refine holdsIn_raiseIf_bind (fun _ => .refuse) fun hpb => ?_
  refine holdsIn_raiseIf_bind (fun _ => .refuse) fun hsm => ?_
  have hnn : a.status.execution = none := by simpa using hsm
  refine (reads_loadBoundPlan hfc _ _ _).bind (fun _ => .refuse) ?_
  rintro ⟨plan, limit⟩ hlim
  refine holdsIn_lift_bind (fun _ _ => .refuse) fun _ _ => ?_
  refine (holdsIn_reconcileOrphan _ hsl).bind ?_ ?_
  · rintro _ b rfl
    exact .refuse
  · rintro _ b rfl
    refine holdsIn_lift_bind (fun _ _ => (Move.rebundle hnn).error) ?_
    rintro ⟨manifest, bundle, e⟩ hpre
    obtain ⟨hst, t, ht, hle⟩ := prepareAuthorization_window hpre
    refine Moves.thenPure
      ((holdsIn_publishThenStore (b := { a with execution := none }) hfc).mono ?_) fun _ => rfl
    rintro r b (⟨hr, hch, rfl⟩ | ⟨hr, files, rfl⟩)
    · exact ⟨true, hr, .authorize hop (not_not.1 hpb) hnn
        (validateInitial_of_checkReplacement hnn hch) hst ht hlim hle⟩
    · exact ⟨false, .inl hr.symm, .rebundle hnn⟩

theorem canExpire_of_validate {e : Execution} (hvl : e.validate = .ok ())
    (hcn : e.stateOf ≠ some .cancelled)
    (htr : e.stateOf ∉ [some .expired, some .installerStarted, some .installed,
      some .failed]) : canExpire e.stateOf = true := by
  obtain ⟨state, _, hwl⟩ := Execution.validate_eq_ok.1 hvl
  rw [Execution.stateOf_eq_some.2 hwl.state] at hcn htr ⊢
  revert hcn htr
  cases state <;> decide

theorem cancelExecution_touches {reason : JVal} (hs : s.Valid)
    (hop : step.operation = .cancelExecution sessionId reason) :
    Holds (ExecutionService.cancel (atomic step.env.unsynced) step.env
      (step.clock 0) sessionId reason) s
      (Touches step s sessionId) := by
  have hrp : step.operation.isReport = false := by rw [hop]; rfl
  refine holds_raiseIf_bind (fun _ => .error) fun _ => ?_
  refine holds_lift_bind (fun _ _ => .error) fun reasonText _ => ?_
  refine touches_loadStatus_bind hs fun id a hfc hsl => ?_
  have htg : step.operation.Targets id := ⟨_, hop ▸ rfl, hfc.named⟩
  refine holdsIn_raiseIf_bind (fun _ => .refuse) fun _ => ?_
  cases hex : a.status.execution with
  | some e =>
    refine holdsIn_lift_bind (fun _ _ => .refuse) fun _ hvl => ?_
    by_cases hcn : e.stateOf = some .cancelled
    · rw [if_pos hcn]
      split
      · exact holdsIn_pure (.keep hrp)
      · exact holdsIn_raise .refuse
    · rw [if_neg hcn]
      refine holdsIn_raiseIf_bind (fun _ => .refuse) fun htr => ?_
      have hpb (h : step.operation.isReport = true) :
          a.status.state = .planPublished := by simp [hrp] at h
      refine moves_refuseExpired_bind hfc htg hpb fun _ => ?_
      exact moves_store hfc htg hpb hex
        (.cancel hop (canExpire_of_validate hvl hcn htr))
  | none =>
    refine (holdsIn_reconcileOrphan _ hsl).bind ?_ ?_
    · rintro _ b rfl
      exact .refuse
    · rintro _ b rfl
      refine Moves.thenPure (holdsIn_replaceStatus hfc (fun _ => (Move.rebundle hex).error)
        fun r hr _ hch => ⟨true, hr, ?_⟩) fun _ => rfl
      exact .cancelUnauthorized hrp hex (validateInitial_of_checkReplacement hex hch)

end

end WebOvpn
