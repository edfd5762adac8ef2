/-
The operations of the session services and of the API as moves, and the
effect of any step on the stored sessions.
-/
import WebOvpn.Install.ExecutionMoves

namespace WebOvpn

open Op Repository List

section

variable {α : Type} {s : Store} {sessionId id : Text} {step : Step} {a b : Session}

open ApprovalService

variable {now : Instant} {bearer : Option Text} {s' : Store}
    {request : SessionService.CreateRequest} {ok : Bool} {unsynced : Text → Bool}

theorem advanceStatus_keeps {status status' : SessionStatus} {next : Stage}
    (h : StageManager.advanceStatus now status next = .ok status') :
    status'.origin = status.origin ∧ status'.execution = status.execution := by
  simp only [StageManager.advanceStatus, bind_eq_ok] at h
  obtain ⟨_, -, _, -, h⟩ := h
  split at h
  · cases h
    exact ⟨rfl, rfl⟩
  · simp only [bind_eq_ok] at h
    obtain ⟨_, -, _, -, h⟩ := h
    cases h
    exact ⟨rfl, rfl⟩

theorem publishedStatus_keeps {clock : Nat → Instant} {status updated : SessionStatus}
    {approvedAt expiresAt : Instant}
    (h : publishedStatus clock status approvedAt expiresAt = .ok updated) :
    updated.state = .planPublished ∧ updated.origin = status.origin ∧
      updated.execution = status.execution := by
  simp only [publishedStatus, bind_eq_ok] at h
  obtain ⟨built, hbi, signed, hsig, published, hpb, _, -, h⟩ := h
  cases h
  have h1 := advanceStatus_keeps hbi
  have h2 := advanceStatus_keeps hsig
  have h3 := advanceStatus_keeps hpb
  exact ⟨rfl, h3.1.trans (h2.1.trans h1.1), h3.2.trans (h2.2.trans h1.2)⟩

def Drafts (a b : Session) : Prop :=
  ∃ approval revision, b = { a with approval, revision }

theorem Drafts.refl (a : Session) : Drafts a a := ⟨a.approval, a.revision, rfl⟩

theorem holdsIn_discardPartialPublication (h : Focus s sessionId id) (hb : Drafts a b) :
    HoldsIn (put s id) (discardPartialPublication sessionId) b fun _ b' => Drafts a b' := by
  refine holdsIn_change h (fun _ _ => hb) fun b' hb' => ?_
  cases hb'
  obtain ⟨approval, revision, rfl⟩ := hb
  exact ⟨none, none, rfl⟩

theorem holdsIn_discardPartial (h : Focus s sessionId id) :
    HoldsIn (put s id) (discardPartial sessionId) b fun _ b' => Drafts b b' := by
  refine Reads.bind (Q := fun _ => True) ?_ (fun _ => .refl b) fun present _ => ?_
  · exact reads_inspect fun _ _ => trivial
  · cases present with
    | true => exact holdsIn_discardPartialPublication h (.refl b)
    | false => exact holdsIn_pure (.refl b)

theorem moves_publish {revision : Revision} {approval : Approval}
    {updated : SessionStatus} (h : Focus s sessionId id) (hop : step.operation.isReport = false)
    (hwi : a.status.state = .awaitingApproval) (hst : updated.state = .planPublished)
    (hor : updated.origin = a.status.origin)
    (hex : updated.execution = a.status.execution) (hb : Drafts a b) :
    Moves step s id a (publish step.env.unsynced sessionId revision approval updated) b := by
  have hdr {e : Exc} : ∀ b', Drafts a b' → Moved step id (.error e : Except Exc Unit) a b' := by
    rintro _ ⟨approval, revision, rfl⟩
    exact (Move.draft hwi).error
  refine HoldsIn.onError (Q := fun r b' => Ends step.env.unsynced r true ∧ Move step id true a b' ∨
    r.isOk = false ∧ Drafts a b') ?_ ?_ ?_
  · refine HoldsIn.bind (Q := fun r b' => if r.isOk then
      ∃ approval, b' = { a with approval, revision := some revision }
      else Drafts a b') ?_ (fun _ _ hb' => .inr ⟨rfl, hb'⟩) ?_
    · refine holdsIn_change h (fun _ _ => hb) fun b' hb' => ?_
      simp only [bind_eq_ok] at hb'
      obtain ⟨_, -, hb'⟩ := hb'
      cases hb'
      obtain ⟨approval, _, rfl⟩ := hb
      exact ⟨approval, rfl⟩
    · rintro _ _ ⟨approval', rfl⟩
      refine HoldsIn.bind (Q := fun r b' => if r.isOk then
        b' = { a with approval := some approval, revision := some revision }
        else Drafts a b') ?_ (fun _ _ hb' => .inr ⟨rfl, hb'⟩) ?_
      · refine holdsIn_change h (fun _ _ => ⟨approval', some revision, rfl⟩)
          fun b' hb' => ?_
        simp only [bind_eq_ok] at hb'
        obtain ⟨_, -, hb'⟩ := hb'
        cases hb'
        rfl
      · rintro _ _ rfl
        exact holdsIn_replaceStatus h (fun _ => .inr ⟨rfl, some approval, some revision, rfl⟩)
          fun _ hr _ _ => .inl ⟨hr, .publish hop hwi hst hor hex⟩
  · rintro _ b' (⟨hr, hmv⟩ | ⟨hr, -⟩)
    · exact ⟨true, hr, hmv⟩
    · cases hr
  · rintro exc b' (⟨hr, hmv⟩ | ⟨-, hb'⟩)
    · obtain ⟨rfl, -⟩ := hr.eq_statusUncertain
      exact holdsIn_raise ⟨true, hr, hmv⟩
    · by_cases hcd : exc.code = ExecutionService.commitUncertain
      · rw [if_pos hcd]
        exact holdsIn_raise (hdr b' hb')
      · rw [if_neg hcd]
        exact (holdsIn_discardPartialPublication h hb').bind (fun _ b' hb' => hdr b' hb')
          fun _ b' hb' => holdsIn_raise (hdr b' hb')

theorem approveFresh_moves {request : ApproveRequest} {reason : Text}
    (h : Focus s sessionId id) (hop : step.operation.isReport = false)
    (hwi : a.status.state = .awaitingApproval) : Moves step s id a
      (approveFresh step.env step.clock sessionId a.status request reason) a := by
  have hdr {e : Exc} : ∀ b', Drafts a b' → Moved step id (.error e : Except Exc SessionStatus) a b' := by
    rintro _ ⟨approval, revision, rfl⟩
    exact (Move.draft hwi).error
  refine (holdsIn_discardPartial h).bind (fun _ b' hb' => hdr b' hb') ?_
  intro _ b hb
  refine Reads.bind (Q := fun _ => True) (reads_inspect fun _ _ => trivial)
    (fun _ => hdr b hb) fun raw _ => ?_
  refine holdsIn_lift_bind (fun _ _ => hdr b hb) ?_
  rintro ⟨plan, profile, expiresAt⟩ -
  refine holdsIn_lift_bind (fun _ _ => hdr b hb) fun revision _ => ?_
  refine holdsIn_lift_bind (fun _ _ => hdr b hb) fun updated hupd => ?_
  obtain ⟨hst, hor, hex⟩ := publishedStatus_keeps hupd
  exact (moves_publish h hop hwi hst hor hex hb).thenPure fun _ => rfl

theorem approve_touches {request : ApproveRequest} (hs : s.Valid)
    (hop : step.operation = .approve sessionId request) :
    Holds (approve step.env step.clock sessionId request) s (Touches step s sessionId) := by
  have hrp : step.operation.isReport = false := by rw [hop]; rfl
  refine holds_raiseIf_bind (fun _ => .error) fun _ => ?_
  refine holds_lift_bind (fun _ _ => .error) fun reason _ => ?_
  refine touches_loadStatus_bind hs fun id a hfc _ => ?_
  by_cases hpb : a.status.state = .planPublished
  · rw [if_pos hpb]
    refine Reads.bind (Q := fun _ => True) (reads_inspect fun _ _ => trivial)
      (fun _ => .refuse) fun approval _ => ?_
    split
    · exact holdsIn_pure (.keep hrp)
    · exact holdsIn_raise .refuse
  · rw [if_neg hpb]
    refine holdsIn_raiseIf_bind (fun _ => .refuse) fun _ => ?_
    refine holdsIn_raiseIf_bind (fun _ => .refuse) fun hwi => ?_
    replace hwi := not_not.1 hwi
    by_cases hdue : a.status.expiresAt ≤ step.clock 0
    · rw [if_pos hdue]
      have hex (now : Instant) : Move step id false a
          { a with status := a.status.expire now } := by
        refine .expire hrp (by rw [hwi]; rfl) ?_
        rw [Step.FindsExpired, hop]
        exact ⟨hfc.named, hwi, hdue⟩
      refine holdsIn_lift_bind (fun _ _ => .refuse) fun _ _ => ?_
      refine HoldsIn.bind (Q := fun _ b' => Move step id false a b')
        (holdsIn_replaceStatus hfc (fun _ => .refuse) fun _ _ _ _ => hex _)
        (fun _ _ hmv => hmv.error) fun _ _ hmv => holdsIn_raise hmv.error
    · rw [if_neg hdue]
      exact approveFresh_moves hfc hrp hwi

theorem cancelSession_touches {reason : JVal} (hs : s.Valid)
    (hop : step.operation = .cancelSession sessionId reason) :
    Holds (ApprovalService.cancel step.env (step.clock 0) sessionId reason) s
      (Touches step s sessionId) := by
  have hrp : step.operation.isReport = false := by rw [hop]; rfl
  refine holds_raiseIf_bind (fun _ => .error) fun _ => ?_
  refine holds_lift_bind (fun _ _ => .error) fun reason' _ => ?_
  refine touches_loadStatus_bind hs fun id a hfc _ => ?_
  have htg : step.operation.Targets id := ⟨_, hop ▸ rfl, hfc.named⟩
  by_cases hst : a.status.state = .cancelled
  · rw [if_pos hst]
    split
    · exact holdsIn_pure (.keep hrp)
    · exact holdsIn_raise .refuse
  · rw [if_neg hst]
    refine holdsIn_lift_bind (fun _ _ => .refuse) fun _ _ => ?_
    refine holdsIn_lift_bind (fun _ _ => .refuse) fun _ _ => ?_
    exact Moves.thenPure (holdsIn_replaceStatus hfc (fun _ => .refuse)
      fun _ hr _ _ => ⟨true, hr, .cancel hop htg hst⟩) fun _ => rfl

open SessionApi

theorem holdsIn_expireIfNeeded {clock : Nat → Instant} {force : Bool}
    (h : Focus s b.status.sessionId id) :
    HoldsIn (put s id) (SessionApi.expireIfNeeded unsynced clock force b.status) b fun r b' =>
      (b' = b ∨ (b.status.state.isTerminal = false ∧ (force = true ∨ b.status.expiresAt ≤ clock 0) ∧
        b' = { b with status := b.status.expire (clock 1) })) ∧
      ∀ status, r = .ok status → status = b'.status := by
  unfold SessionApi.expireIfNeeded
  cases htr : b.status.state.isTerminal with
  | true => exact holdsIn_pure ⟨.inl rfl, fun _ hr => (Except.ok.inj hr).symm⟩
  | false =>
    simp only [Bool.false_eq_true, if_false]
    by_cases hop : force = false ∧ clock 0 < b.status.expiresAt
    · rw [if_pos hop]
      exact holdsIn_pure ⟨.inl rfl, fun _ hr => (Except.ok.inj hr).symm⟩
    · rw [if_neg hop]
      have hdue : force = true ∨ b.status.expiresAt ≤ clock 0 := by
        cases force with
        | true => exact .inl rfl
        | false => exact .inr (not_lt.1 fun hlt => hop ⟨rfl, hlt⟩)
      refine holdsIn_lift_bind (fun _ _ => ⟨.inl rfl, by simp⟩) fun _ _ => ?_
      refine HoldsIn.bind (Q := fun r b' => b' = { b with status := b.status.expire (clock 1) } ∨
        r.isOk = false ∧ b' = b) (holdsIn_replaceStatus h (fun _ => .inr ⟨rfl, rfl⟩) fun _ _ _ _ =>
          .inl rfl) ?_ ?_
      · rintro exc _ (rfl | ⟨-, rfl⟩)
        · exact ⟨.inr ⟨trivial, hdue, rfl⟩, by simp⟩
        · exact ⟨.inl rfl, by simp⟩
      · rintro _ _ (rfl | ⟨hr, -⟩)
        · exact holdsIn_pure ⟨.inr ⟨trivial, hdue, rfl⟩, fun _ hr => (Except.ok.inj hr).symm⟩
        · cases hr

theorem SessionState.isTerminal_eq_false {state : SessionState}
    (hex : state ≠ .expired) (hcn : state ≠ .cancelled) : state.isTerminal = false := by
  cases state <;> first | rfl | contradiction

theorem recordHeartbeat_moves {agent : AgentStatus} (h : Focus s sessionId id)
    (hsl : Focus s a.status.sessionId id) (hop : step.operation.isReport = false)
    (hdue : a.status.expiresAt ≤ step.clock 0 → step.FindsExpired id a) :
    Moves step s id a (recordHeartbeat step.env.unsynced step.clock sessionId agent) a := by
  refine holdsIn_loadStatus_bind h ?_
  refine (holdsIn_expireIfNeeded hsl).bind ?_ ?_
  · rintro _ _ ⟨rfl | ⟨hlv, hnow, rfl⟩, -⟩
    · exact .refuse
    · exact (Move.expire hop hlv (hdue (by simpa using hnow))).error
  · rintro status b ⟨hb, hst⟩
    cases hst status rfl
    rcases hb with rfl | ⟨hlv, hnow, rfl⟩
    · refine holdsIn_raiseIf_bind (fun _ => .refuse) fun hex => ?_
      refine holdsIn_raiseIf_bind (fun _ => .refuse) fun hcn => ?_
      have hlv := SessionState.isTerminal_eq_false hex hcn
      refine holdsIn_lift_bind (fun _ _ => .refuse) fun _ _ => ?_
      refine holdsIn_raiseIf_bind (fun _ => .refuse) fun _ => ?_
      split
      · exact holdsIn_pure (.keep hop)
      · refine holdsIn_lift_bind (fun _ _ => .refuse) fun _ _ => ?_
        exact holdsIn_replaceStatus h (fun _ => .refuse) fun _ hr _ _ => ⟨true, hr, .heartbeat hop hlv⟩
    · have hmv : Move step id false a { a with status := a.status.expire (step.clock 1) } :=
        .expire hop hlv (hdue (by simpa using hnow))
      exact holdsIn_raiseIf_bind (fun _ => hmv.error) fun hex => absurd rfl hex

/-- A request with a bearer token stops without a change or goes on. -/
theorem touches_authorize_bind {f : Unit → Op Store Exc α} (hs : s.Valid)
    (hf : ∀ id a, Focus s sessionId id → Focus s a.status.sessionId id → Moves step s id a (f ()) a) :
    Holds (SessionApi.authorize step.env sessionId bearer >>= f) s (Touches step s sessionId) := by
  cases bearer with
  | none => exact .error
  | some credential =>
    refine (holds_bind _ _ _ _).2 ?_
    refine holds_inspect_bind (fun _ _ => .error) fun expected hex => ?_
    refine holds_lift _ _ _ |>.2 ?_
    split_ifs
    · exact .error
    · refine touches_of_find hs (fun e hms => ?_) hf
      simp [hms, Except.map] at hex

theorem heartbeat_touches {body : JVal} (hs : s.Valid)
    (hop : step.operation = .heartbeat sessionId bearer body) :
    Holds (heartbeat step.env step.clock sessionId bearer body) s (Touches step s sessionId) := by
  refine touches_authorize_bind hs fun id a hfc hsl => ?_
  refine holdsIn_lift_bind (fun _ _ => .refuse) fun agent _ => ?_
  refine recordHeartbeat_moves hfc hsl (by rw [hop]; rfl) fun hdue => ?_
  rw [Step.FindsExpired, hop]
  exact ⟨hfc.named, hdue⟩

theorem getStatus_touches (hs : s.Valid) (hop : step.operation = .getStatus sessionId bearer) :
    Holds (getStatus step.env step.clock sessionId bearer) s (Touches step s sessionId) := by
  have hrp : step.operation.isReport = false := by rw [hop]; rfl
  refine touches_authorize_bind hs fun id a hfc hsl => ?_
  refine holdsIn_loadStatus_bind hfc ((holdsIn_expireIfNeeded hsl).mono ?_)
  rintro r _ ⟨rfl | ⟨hlv, hnow, rfl⟩, -⟩
  · cases r with
    | error _ => exact .refuse
    | ok _ => exact .keep hrp
  · refine ⟨r.isOk, .inl rfl, .expire hrp hlv ?_⟩
    rw [Step.FindsExpired, hop]
    exact ⟨hfc.named, by simpa using hnow⟩

theorem getPlan_touches (hs : s.Valid) (hop : step.operation = .getPlan sessionId) :
    Holds (getPlan step.env step.clock sessionId) s (Touches step s sessionId) := by
  have hrp : step.operation.isReport = false := by rw [hop]; rfl
  refine touches_of_find hs (fun e hms => ?_) fun id a hfc hsl => ?_
  · refine holds_inspect_bind (fun _ _ => .error) fun raw hraw => ?_
    simp [hms, bind, Except.bind] at hraw
  · refine (reads_readRevision hfc _).bind (fun _ => .refuse) ?_
    rintro raw ⟨revision, hrv, rfl⟩
    refine holdsIn_lift_bind (fun _ _ => .refuse) fun expiry hex => ?_
    cases expiry with
    | none => exact holdsIn_raise .refuse
    | some expiry =>
      simp only
      split
      next hdue =>
        have hfn : step.FindsExpired id a := by
          rw [Step.FindsExpired, hop]
          exact ⟨hfc.named, revision, expiry, hrv, hex, hdue⟩
        refine holdsIn_loadStatus_bind hfc ?_
        refine (holdsIn_expireIfNeeded hsl).bind ?_ ?_
        · rintro _ _ ⟨rfl | ⟨hlv, -, rfl⟩, -⟩
          · exact .refuse
          · exact (Move.expire hrp hlv hfn).error
        · rintro _ _ ⟨rfl | ⟨hlv, -, rfl⟩, -⟩
          · exact holdsIn_raise .refuse
          · exact holdsIn_raise (Move.expire hrp hlv hfn).error
      next => exact holdsIn_pure (.keep hrp)

/-- Some sessions found past their expiry have been ended, and nothing else. -/
structure Sweeps (now : Instant) (s s' : Store) : Prop where
  names : s'.map Prod.fst = s.map Prod.fst
  sessions : ∀ id a, s.lookup id = some a → s'.lookup id = some a ∨
    (a.status.state.isTerminal = false ∧ a.status.expiresAt ≤ now ∧
      s'.lookup id = some { a with status := a.status.expire now })

theorem Sweeps.refl (now : Instant) (s : Store) : Sweeps now s s :=
  ⟨rfl, fun _ _ h => .inl h⟩

theorem Sweeps.put {s : Store} (hsw : Sweeps now s s')
    (ha : s.lookup id = some a) (hlv : a.status.state.isTerminal = false)
    (hdue : a.status.expiresAt ≤ now) (hb : s'.lookup id = some b) :
    Sweeps now s (put s' id { a with status := a.status.expire now }) where
  names := (put_keys _ _ _).trans hsw.names
  sessions := by
    intro id' a' ha'
    by_cases hid : id' = id
    · subst hid
      rw [ha, Option.some.injEq] at ha'
      subst ha'
      exact .inr ⟨hlv, hdue, lookup_put_self hb⟩
    · rw [lookup_put_of_ne hid]
      exact hsw.sessions id' a' ha'

def Session.isDue (a : Session) (now : Instant) : Bool :=
  !a.status.state.isTerminal && decide (a.status.expiresAt ≤ now)

theorem Session.isDue_iff : a.isDue now = true ↔
    a.status.state.isTerminal = false ∧ a.status.expiresAt ≤ now := by
  simp [Session.isDue]

/-- The sweep writes the session it listed, so it does not matter whether an
earlier round has already ended it. -/
theorem expireIfNeeded_spec {s : Store} (hs : s.Valid)
    (hsw : Sweeps now s s') (ha : s.lookup id = some a) :
    Holds (SessionService.expireIfNeeded unsynced now a.status) s' fun r s'' =>
      (s'' = s' ∧ ∀ flag, r = .ok flag → a.isDue now = false ∧ flag = a.status.state.isTerminal) ∨
      (s'' = put s' id { a with status := a.status.expire now } ∧ a.isDue now = true ∧
        ∀ flag, r = .ok flag → flag = true) := by
  unfold SessionService.expireIfNeeded
  cases htr : a.status.state.isTerminal with
  | true =>
    refine .inl ⟨rfl, ?_⟩
    rintro flag ⟨⟩
    simp [Session.isDue, htr]
  | false =>
    simp only [Bool.false_eq_true, if_false]
    by_cases hop : now < a.status.expiresAt
    · rw [if_pos hop]
      refine .inl ⟨rfl, ?_⟩
      rintro flag ⟨⟩
      simp [Session.isDue, htr, hop]
    · rw [if_neg hop]
      obtain ⟨b, hb, hsm⟩ : ∃ b, s'.lookup id = some b ∧ { b with status := a.status.expire now } =
            { a with status := a.status.expire now } := by
        rcases hsw.sessions id a ha with h | ⟨-, -, h⟩ <;> exact ⟨_, h, rfl⟩
      obtain ⟨hnm, hid⟩ := hs.named id a ha
      have hfc : Focus s' a.status.sessionId id := ⟨by rw [hnm, hid], b, hb⟩
      have hsl : put s' id b = s' := put_self (hsw.names ▸ hs.distinct) hb
      have hrp : HoldsIn (put s' id) (replaceStatus unsynced true false a.status.sessionId
          (a.status.expire now)) b fun r b' => b' = { a with status := a.status.expire now } ∨
            r.isOk = false ∧ b' = b :=
        holdsIn_replaceStatus hfc (fun _ => .inr ⟨rfl, rfl⟩) fun _ _ _ _ => .inl hsm
      unfold HoldsIn at hrp
      rw [hsl] at hrp
      have hdue : a.isDue now = true := Session.isDue_iff.2 ⟨htr, not_lt.1 hop⟩
      refine (holds_bind _ _ _ _).2 (hrp.mono ?_)
      rintro r _ ⟨_, rfl, rfl | ⟨hr, rfl⟩⟩
      · cases r with
        | error e => exact .inr ⟨rfl, hdue, by simp⟩
        | ok _ => exact .inr ⟨rfl, hdue, fun _ hfl => (Except.ok.inj hfl).symm⟩
      · cases r with
        | error e =>
          rw [hsl]
          exact .inl ⟨rfl, by simp⟩
        | ok _ => cases hr

theorem expireIfNeeded_sweeps {s : Store} (hs : s.Valid)
    (hsw : Sweeps now s s') (ha : s.lookup id = some a) :
    Holds (SessionService.expireIfNeeded unsynced now a.status) s' fun _ s'' => Sweeps now s s'' := by
  refine (expireIfNeeded_spec hs hsw ha).mono ?_
  rintro r _ (⟨rfl, -⟩ | ⟨rfl, hdue, -⟩)
  · exact hsw
  · obtain ⟨hlv, hdue⟩ := Session.isDue_iff.1 hdue
    obtain ⟨b, hb⟩ : ∃ b, s'.lookup id = some b := by
      rcases hsw.sessions id a ha with h | ⟨-, -, h⟩ <;> exact ⟨_, h⟩
    exact hsw.put ha hlv hdue hb

theorem sweep_sweeps {statuses : List SessionStatus} (hs : s.Valid)
    (hls : ∀ status ∈ statuses, ∃ id a, s.lookup id = some a ∧ a.status = status) :
    Holds (forEach (SessionService.expireIfNeeded unsynced now) statuses) s fun _ s' =>
      Sweeps now s s' := by
  refine Holds.forEach (P := Sweeps now s) (.refl now s) ?_
  intro status hst s' hsw
  obtain ⟨id, a, ha, rfl⟩ := hls status hst
  exact expireIfNeeded_sweeps hs hsw ha

/-- What any step does to the stored sessions. -/
structure Effect (step : Step) (s : Store) (ok : Bool) (s' : Store) : Prop where
  distinct : (s'.map Prod.fst).Nodup
  moves : ∀ id a, s.lookup id = some a → ∃ b, s'.lookup id = some b ∧ Move step id ok a b
  fresh : ∀ id b, s.lookup id = none → s'.lookup id = some b →
    (b.status.sessionId = id ∧ validateSessionId id = .ok id) ∧
      b.status.execution = none ∧ b.createNonceSha256.isSha256 = true
  found : ok = true → ∀ id, step.operation.Targets id → ∃ a, s.lookup id = some a
  names : (∀ request, step.operation ≠ .create request) → s'.map Prod.fst = s.map Prod.fst

theorem lookup_eq_none_of_names {s : Store} (h : s'.map Prod.fst = s.map Prod.fst)
    (hid : s.lookup id = none) : s'.lookup id = none := by
  rw [List.lookup_eq_none_iff] at hid ⊢
  intro entry hen
  obtain ⟨entry', hen', heq⟩ :=
    mem_map.1 (h ▸ mem_map.2 ⟨entry, hen, rfl⟩ : entry.1 ∈ s.map Prod.fst)
  exact heq ▸ hid entry' hen'

theorem Effect.of_sweeps {s : Store} (hs : s.Valid) (hop : step.operation = .create request)
    (hsw : Sweeps (step.clock 0) s s') (ok : Bool) : Effect step s ok s' where
  distinct := hsw.names ▸ hs.distinct
  moves := by
    intro id a ha
    rcases hsw.sessions id a ha with h | ⟨hlv, hdue, h⟩
    · refine ⟨a, h, .bystander ?_⟩
      rintro ⟨sessionId, hnm, -⟩
      rw [hop] at hnm
      cases hnm
    · refine ⟨_, h, .expire (by rw [hop]; rfl) hlv ?_⟩
      rw [Step.FindsExpired, hop]
      exact hdue
  fresh := by
    intro id b hid hb
    rw [lookup_eq_none_of_names hsw.names hid] at hb
    cases hb
  found := by
    rintro - id ⟨sessionId, hnm, -⟩
    rw [hop] at hnm
    cases hnm
  names := fun _ => hsw.names

/-- A new directory next to the old ones. -/
theorem Effect.append {s : Store} (hef : Effect step s true s') (hop : step.operation = .create request)
    (hnew : s'.lookup id = none) (hnm : a.status.sessionId = id ∧ validateSessionId id = .ok id)
    (hnone : a.status.execution = none) (hnn : a.createNonceSha256.isSha256 = true) :
    Effect step s true (s' ++ [(id, a)]) where
  distinct := by
    rw [map_append]
    refine nodup_append.2 ⟨hef.distinct, by simp, ?_⟩
    intro name hna name' hnm' heq
    simp only [map_cons, map_nil, mem_singleton] at hnm'
    obtain ⟨entry, hen, rfl⟩ := mem_map.1 hna
    have hne := List.lookup_eq_none_iff.1 hnew entry hen
    simp [heq, hnm'] at hne
  moves := by
    intro id' a' ha'
    obtain ⟨b, hb, hmv⟩ := hef.moves id' a' ha'
    exact ⟨b, by rw [lookup_append, hb]; rfl, hmv⟩
  fresh := by
    intro id' b hid' hb
    rw [lookup_append] at hb
    cases hlo : s'.lookup id' with
    | some b' =>
      rw [hlo] at hb
      exact hef.fresh id' b hid' (hlo.trans hb)
    | none =>
      rw [hlo, Option.none_or, lookup_cons] at hb
      split at hb
      next hid =>
        cases hb
        rw [beq_iff_eq.1 hid]
        exact ⟨hnm, hnone, hnn⟩
      next => simp at hb
  found := hef.found
  names := fun hot => absurd hop (hot request)

theorem createFresh_effect {nonce : Text} {inventory : InstallInventory} (hs : s.Valid)
    (hop : step.operation = .create request) :
    Holds (SessionService.createFresh step.env (step.clock 0) request nonce inventory) s
      fun r s' => Effect step s r.isOk s' := by
  have hsm := Effect.of_sweeps hs hop (.refl _ s)
  refine holds_inspect_bind (fun _ _ => hsm false) fun statuses hstatu => ?_
  have hls : ∀ status ∈ statuses, ∃ id a, s.lookup id = some a ∧ a.status = status := by
    cases hstatu
    intro status hst
    obtain ⟨⟨id, a⟩, hen, rfl⟩ := mem_map.1 hst
    exact ⟨id, a, lookup_of_mem hs.distinct ((mem_insertionSort _).1 hen), rfl⟩
  refine (holds_bind _ _ _ _).2 ((sweep_sweeps hs hls).mono fun r s' hsw => ?_)
  have hse := Effect.of_sweeps hs hop hsw
  cases r with
  | error e => exact hse false
  | ok expired =>
    refine holds_lift_bind (fun _ _ => hse false) fun _ _ => ?_
    refine holds_lift_bind (fun _ _ => hse false) fun expiresAt _ => ?_
    refine holds_lift_bind (fun _ _ => hse false) fun credential _ => ?_
    refine (holds_bind _ _ _ _).2 ?_
    refine holds_inspect_bind (fun _ _ => hse false) fun id hid => ?_
    simp only [bind_eq_ok, raiseWhen_eq_ok] at hid
    obtain ⟨id', hnm, _, -, _, -, _, hnn, _, hst, _, hnew, heq⟩ := hid
    cases heq
    have hrq : request.sessionId = id := not_not.1 hst
    exact (hse true).append hop (Option.not_isSome_iff_eq_none.1 hnew)
      ⟨hrq, hrq ▸ hnm⟩ rfl (Bool.not_eq_false _ ▸ hnn)

theorem create_effect (hs : s.Valid) (hop : step.operation = .create request) :
    Holds (SessionService.create step.env (step.clock 0) request) s fun r s' =>
      Effect step s r.isOk s' := by
  have hsm := Effect.of_sweeps hs hop (.refl _ s)
  refine holds_lift_bind (fun _ _ => hsm false) ?_
  rintro ⟨nonce, inventory⟩ -
  refine holds_inspect_bind (fun _ _ => hsm false) fun existing _ => ?_
  cases existing with
  | none => exact createFresh_effect hs hop
  | some status =>
    simp only
    split
    · exact hsm true
    · exact hsm false

/-- The step ends with this outcome in an effect on the stored sessions. -/
def Affects (step : Step) (s : Store) (r : Except Exc α) (s' : Store) : Prop :=
  ∃ ok, Ends step.env.unsynced r ok ∧ Effect step s ok s'

theorem affects_of_touches {r : Except Exc α} (hs : s.Valid)
    (hop : step.operation.sessionId = some sessionId)
    (htou : Touches step s sessionId r s') : Affects step s r s' := by
  rcases htou with ⟨hr, rfl⟩ | ⟨id, a, b, hfn, rfl, ok, hen, hmv⟩
  · refine ⟨false, .inl hr.symm, hs.distinct, fun id a ha => ⟨a, ha, .refuse⟩, fun id b hid hb => ?_, by simp,
      fun _ => rfl⟩
    rw [hid] at hb
    cases hb
  · obtain ⟨hid, hlo⟩ := find_eq_ok.1 hfn
    refine ⟨ok, hen, (put_keys s id b).symm ▸ hs.distinct, fun id' a' ha' => ?_,
      fun id' b' hid' hb' => ?_, fun _ id' htg => ?_, fun _ => put_keys s id b⟩
    · by_cases heq : id' = id
      · subst heq
        rw [hlo, Option.some.injEq] at ha'
        exact ⟨b, lookup_put_self hlo, ha' ▸ hmv⟩
      · refine ⟨a', by rw [lookup_put_of_ne heq, ha'], .bystander ?_⟩
        rintro ⟨sessionId', hop', hid'⟩
        rw [hop, Option.some.injEq] at hop'
        rw [← hop', hid, Except.ok.injEq] at hid'
        exact heq hid'.symm
    · rw [lookup_eq_none_of_names (put_keys s id b) hid'] at hb'
      cases hb'
    · obtain ⟨sessionId', hop', hid'⟩ := htg
      rw [hop, Option.some.injEq] at hop'
      rw [← hop', hid, Except.ok.injEq] at hid'
      exact ⟨a, hid' ▸ hlo⟩

theorem holds_discard {m : Op Store Exc α} {Q : Except Exc Unit → Store → Prop}
    (hm : Holds m s fun r s' => Q (r.map fun _ => ()) s') : Holds (discard m) s Q := by
  refine (holds_bind m (fun _ => pure ()) s _).2 (hm.mono fun r s' h => ?_)
  cases r <;> exact h

theorem Affects.discard {r : Except Exc α} (h : Affects step s r s') :
    Affects step s (r.map fun _ => ()) s' := by
  obtain ⟨ok, hen, hef⟩ := h
  cases r with
  | error e => exact ⟨ok, hen.error, hef⟩
  | ok v => exact ⟨ok, .inl hen.eq_true, hef⟩

theorem holds_discard_touches {m : Op Store Exc α} (hs : s.Valid)
    (hop : step.operation.sessionId = some sessionId) (hm : Holds m s (Touches step s sessionId)) :
    Holds (discard m) s fun r s' => Affects step s r s' :=
  holds_discard (hm.mono fun _ _ htou => (affects_of_touches hs hop htou).discard)

/-- Whatever the step, every stored session makes one of the moves. -/
theorem Step.perform_effect (step : Step) (hs : s.Valid) :
    Affects step s (step.perform s).1 (step.perform s).2 := by
  change Holds step.act s fun r s' => Affects step s r s'
  unfold Step.act
  cases hop : step.operation with
  | create request =>
    exact holds_discard ((create_effect hs hop).mono fun _ _ hef => Affects.discard ⟨_, .inl rfl, hef⟩)
  | approve sessionId request =>
    exact holds_discard_touches hs (hop ▸ rfl) (approve_touches hs hop)
  | cancelSession sessionId reason =>
    exact holds_discard_touches hs (hop ▸ rfl) (cancelSession_touches hs hop)
  | heartbeat sessionId bearer body =>
    exact (heartbeat_touches hs hop).mono fun _ _ => affects_of_touches hs (hop ▸ rfl)
  | getStatus sessionId bearer =>
    exact holds_discard_touches hs (hop ▸ rfl) (getStatus_touches hs hop)
  | getPlan sessionId =>
    exact holds_discard_touches hs (hop ▸ rfl) (getPlan_touches hs hop)
  | authorize sessionId request =>
    exact holds_discard_touches hs (hop ▸ rfl) (authorize_touches hs hop)
  | cancelExecution sessionId reason =>
    exact holds_discard_touches hs (hop ▸ rfl) (cancelExecution_touches hs hop)
  | claim sessionId => exact holds_discard_touches hs (hop ▸ rfl) (claim_touches hs hop)
  | handoffStarted sessionId =>
    exact holds_discard_touches hs (hop ▸ rfl) (handoffStarted_touches hs hop)
  | installerStarted sessionId =>
    exact holds_discard_touches hs (hop ▸ rfl) (installerStarted_touches hs hop)
  | postflightInstalled sessionId =>
    exact holds_discard_touches hs (hop ▸ rfl) (postflightInstalled_touches hs hop)

theorem Move.origin_eq (h : Move step id ok a b) : b.status.origin = a.status.origin := by
  cases h with
  | publish _ _ _ hor _ => exact hor
  | _ => rfl

theorem Effect.valid (hs : s.Valid) (h : Effect step s ok s') : s'.Valid where
  distinct := h.distinct
  named := by
    intro id b hb
    cases hid : s.lookup id with
    | none => exact (h.fresh id b hid hb).1
    | some a =>
      obtain ⟨b', hb', hmv⟩ := h.moves id a hid
      rw [hb, Option.some.injEq] at hb'
      subst hb'
      exact ⟨(congrArg Prod.fst hmv.origin_eq).trans (hs.named id a hid).1, (hs.named id a hid).2⟩

theorem Store.after_valid (hs : s.Valid) (step : Step) : (s.after step).Valid := by
  obtain ⟨_, -, hef⟩ := step.perform_effect hs
  exact hef.valid hs

theorem sessionsAfter_valid (steps : List Step) : (sessionsAfter steps).Valid :=
  run_keeps ⟨by simp, by simp⟩ fun _ step hs => Store.after_valid hs step

theorem sessionsAfter_induct {P : Session → Prop} (hfr : ∀ b : Session, b.status.execution = none →
      b.createNonceSha256.isSha256 = true → P b)
    (hmv : ∀ step id ok a b, Move step id ok a b → P a → P b) (steps : List Step) :
    ∀ id a, (sessionsAfter steps).lookup id = some a → P a := by
  suffices hrun : (sessionsAfter steps).Valid ∧
      ∀ id a, (sessionsAfter steps).lookup id = some a → P a from hrun.2
  refine run_keeps (P := fun s : Store => s.Valid ∧ ∀ id a, s.lookup id = some a → P a)
    ⟨⟨by simp, by simp⟩, by simp⟩ ?_
  rintro s step ⟨hs, hP⟩
  obtain ⟨_, -, hef⟩ := step.perform_effect hs
  refine ⟨Store.after_valid hs step, fun id b hb => ?_⟩
  cases hid : s.lookup id with
  | none =>
    obtain ⟨-, hnone, hnn⟩ := hef.fresh id b hid hb
    exact hfr b hnone hnn
  | some a =>
    obtain ⟨b', hb', hab⟩ := hef.moves id a hid
    cases hb'.symm.trans hb
    exact hmv _ _ _ _ _ hab (hP id a hid)

end

end WebOvpn
