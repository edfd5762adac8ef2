/-
Creation of sessions over whole runs: one session for each create nonce, the
same answer to a repeated request, and bounds on the sessions in use.
-/
import WebOvpn.Install.ExecutionLaw

namespace WebOvpn

open Op Repository SessionService List

variable {s s' : Store} {step : Step} {id : Text} {a b : Session} {now : Instant}
  {request : CreateRequest} {nonce : Text} {inventory : InstallInventory}

/-- The session is neither cancelled nor expired. -/
def Session.isActive (a : Session) : Bool := !a.status.state.isTerminal

/-- The sessions in use. -/
def Store.active (s : Store) : List (Text × Session) := s.filter fun entry => entry.2.isActive

def Store.activeFor (s : Store) (machineUuid : Text) : List (Text × Session) :=
  s.active.filter fun entry => entry.2.status.machineUuid == machineUuid

/-- Two stores with the same names: what holds of more sessions of the second
holds of more sessions of the first. -/
theorem length_filter_le_of_names {P Q : Session → Bool} (hnm : s'.map Prod.fst = s.map Prod.fst)
    (hds : (s.map Prod.fst).Nodup)
    (h : ∀ id a b, s.lookup id = some a → s'.lookup id = some b → P b = true → Q a = true) :
    (s'.filter fun entry => P entry.2).length ≤ (s.filter fun entry => Q entry.2).length := by
  induction s generalizing s' with
  | nil =>
    rw [map_nil, map_eq_nil_iff] at hnm
    rw [hnm]
    simp
  | cons entry rest ih =>
    obtain ⟨k, a⟩ := entry
    cases s' with
    | nil => simp
    | cons entry' rest' =>
      obtain ⟨k', b⟩ := entry'
      simp only [map_cons, List.cons.injEq] at hnm
      obtain ⟨rfl, hnm⟩ := hnm
      simp only [map_cons, nodup_cons] at hds
      have hrs : (rest'.filter fun entry => P entry.2).length ≤
          (rest.filter fun entry => Q entry.2).length := by
        refine ih hnm hds.2 fun id a' b' ha' hb' => ?_
        have hne : (id == k') = false := by
          rw [beq_eq_false_iff_ne]
          rintro rfl
          exact hds.1 (mem_map.2 ⟨_, mem_of_lookup ha', rfl⟩)
        refine h id a' b' ?_ ?_ <;> simpa [List.lookup_cons, hne]
      have hha : P b = true → Q a = true := h k' a b (by simp) (by simp)
      simp only [filter_cons]
      split <;> split <;> simp_all
      omega

def Session.sweep (a : Session) (now : Instant) : Session :=
  if a.isDue now then { a with status := a.status.expire now } else a

def SessionStatus.isOpen (status : SessionStatus) (now : Instant) : Bool :=
  !status.state.isTerminal && decide (now < status.expiresAt)

theorem Session.isOpen_of_not_due (h : a.isDue now = false) : a.status.isOpen now = a.isActive := by
  unfold Session.isDue at h
  unfold SessionStatus.isOpen Session.isActive
  cases hlv : a.status.state.isTerminal with
  | true => rfl
  | false =>
    rw [hlv] at h
    simpa using h

theorem Session.isActive_sweep (a : Session) (now : Instant) :
    (a.sweep now).isActive = a.status.isOpen now := by
  unfold Session.sweep
  cases hdue : a.isDue now with
  | true =>
    obtain ⟨-, hdue⟩ := Session.isDue_iff.1 hdue
    simp [Session.isActive, SessionStatus.isOpen, SessionStatus.expire, SessionState.isTerminal, hdue]
  | false => exact (Session.isOpen_of_not_due hdue).symm

theorem Session.machineUuid_sweep (a : Session) (now : Instant) :
    (a.sweep now).status.machineUuid = a.status.machineUuid := by
  unfold Session.sweep
  split <;> rfl

theorem sweep_completes {unsynced : Text → Bool} {statuses : List SessionStatus} (hs : s.Valid)
    (hsw : Sweeps now s s')
    (hls : ∀ status ∈ statuses, ∃ id a, s.lookup id = some a ∧ a.status = status) :
    Holds (forEach (SessionService.expireIfNeeded unsynced now) statuses) s' fun r swept =>
      ∀ flags, r = .ok flags → ((statuses.zip flags).filter fun p => !p.2).map Prod.fst =
          statuses.filter (fun status => status.isOpen now) ∧
        ∀ id a, s.lookup id = some a → a.status ∈ statuses ∨ s'.lookup id = some (a.sweep now) →
          swept.lookup id = some (a.sweep now) := by
  induction statuses generalizing s' with
  | nil =>
    rintro flags ⟨⟩
    refine ⟨rfl, fun id a ha h => ?_⟩
    rcases h with h | h
    · cases h
    · exact h
  | cons status rest ih =>
    obtain ⟨id₀, a₀, ha₀, rfl⟩ := hls status mem_cons_self
    rw [Op.forEach, holds_bind]
    refine ((expireIfNeeded_spec hs hsw ha₀).and
      (expireIfNeeded_sweeps hs hsw ha₀)).mono ?_
    rintro r s₁ ⟨hsp, hsw₁⟩
    cases r with
    | error e => simp
    | ok flag =>
      -- the round answers for its session and leaves the others as they were
      have hru : flag = !(a₀.status.isOpen now) ∧ s₁.lookup id₀ = some (a₀.sweep now) ∧
          ∀ id, id ≠ id₀ → s₁.lookup id = s'.lookup id := by
        rcases hsp with ⟨rfl, hkp⟩ | ⟨rfl, hdue, hfl⟩
        · obtain ⟨hnot, rfl⟩ := hkp flag rfl
          refine ⟨?_, ?_, fun id _ => rfl⟩
          · rw [Session.isOpen_of_not_due hnot, Session.isActive, Bool.not_not]
          · rw [Session.sweep, hnot]
            rcases hsw.sessions id₀ a₀ ha₀ with h | ⟨hlv, hdue, -⟩
            · exact h
            · rw [Session.isDue_iff.2 ⟨hlv, hdue⟩] at hnot
              cases hnot
        · obtain ⟨b, hb⟩ : ∃ b, s'.lookup id₀ = some b := by
            rcases hsw.sessions id₀ a₀ ha₀ with h | ⟨-, -, h⟩ <;> exact ⟨_, h⟩
          cases hfl flag rfl
          refine ⟨?_, ?_, fun id hid => lookup_put_of_ne hid⟩
          · simp [SessionStatus.isOpen, (Session.isDue_iff.1 hdue).2]
          · rw [Session.sweep, hdue]
            exact lookup_put_self hb
      obtain ⟨rfl, hher, hot⟩ := hru
      refine (holds_bind _ _ _ _).2 ?_
      refine (ih hsw₁ fun status hst =>
        hls status (mem_cons_of_mem _ hst)).mono ?_
      intro r swept hrs
      cases r with
      | error e => simp
      | ok flags =>
        rintro _ ⟨⟩
        obtain ⟨hop, hra⟩ := hrs flags rfl
        refine ⟨?_, fun id a ha h => hra id a ha ?_⟩
        · cases hop₀ : a₀.status.isOpen now <;> simp [hop₀, hop]
        · by_cases hid : id = id₀
          · subst hid
            cases ha₀.symm.trans ha
            exact .inr hher
          · rw [hot id hid]
            refine h.imp_left fun hmem => ?_
            rcases mem_cons.1 hmem with heq | hmem
            · refine absurd ?_ hid
              rw [← (hs.named id a ha).1, ← (hs.named id₀ a₀ ha₀).1, heq]
            · exact hmem

def nonceMismatch : Exc :=
  controlError "install_session_create_nonce_mismatch"
    "Install session create nonce is bound to another inventory"

structure Session.CreatedFor (a : Session) (env : Env) (nonce : Text)
    (inventory : InstallInventory) : Prop where
  nonce : a.createNonceSha256 = nonce
  inventory : a.status.inventorySha256 = inventorySha256 env.crypto.sha256 inventory

inductive Creation (env : Env) (now : Instant) (request : CreateRequest) (s : Store) :
    Except Exc CreatedInstallSession → Store → Prop
  | refuse {e : Exc} {s' : Store} (hsweep : Sweeps now s s') :
      Creation env now request s (.error e) s'
  | replay {id nonce : Text} {inventory : InstallInventory} {a : Session}
      (hadmission : admission env request = .ok (nonce, inventory)) (ha : s.lookup id = some a)
      (hfor : a.CreatedFor env nonce inventory) :
      Creation env now request s (.ok ⟨id, a.status.state, 3⟩) s
  | create {nonce : Text} {inventory : InstallInventory} {swept : Store} {b : Session}
      (hadmission : admission env request = .ok (nonce, inventory))
      (hnew : ∀ id a, s.lookup id = some a → a.createNonceSha256 ≠ nonce)
      (hsweep : Sweeps now s swept) (htotal : swept.active.length < maxActiveSessions)
      (hmachine : (swept.activeFor inventory.machine.dmiUuid).length < maxSessionsPerDmiUuid)
      (hfresh : swept.lookup request.sessionId = none)
      (hfor : b.CreatedFor env nonce inventory)
      (huuid : b.status.machineUuid = inventory.machine.dmiUuid) :
      Creation env now request s (.ok ⟨request.sessionId, .awaitingApproval, 3⟩)
        (swept ++ [(request.sessionId, b)])

theorem checkQuota_eq_ok {active : List SessionStatus} (h : checkQuota inventory active = .ok ()) :
    active.length < maxActiveSessions ∧
      (active.filter fun status => status.machineUuid == inventory.machine.dmiUuid).length <
        maxSessionsPerDmiUuid := by
  simp only [checkQuota, bind_eq_ok, raiseWhen_eq_ok, not_le] at h
  obtain ⟨_, htot, hmac⟩ := h
  exact ⟨htot, hmac⟩

/-- The quotas are checked on the sessions that the sweep leaves in use. -/
theorem active_swept {swept : Store} (hs : s.Valid) (hsw : Sweeps now s swept)
    (hra : ∀ id a, s.lookup id = some a → swept.lookup id = some (a.sweep now))
    (statuses : List SessionStatus) (hst : statuses.Perm (s.map fun entry => entry.2.status)) :
    swept.active.length ≤ (statuses.filter fun status => status.isOpen now).length ∧
      ∀ uuid, (swept.activeFor uuid).length ≤ ((statuses.filter fun status => status.isOpen now).filter
          fun status => status.machineUuid == uuid).length := by
  have hcnt (P : SessionStatus → Bool) : (statuses.filter P).length =
      (s.filter fun entry => P entry.2.status).length := by
    rw [(hst.filter P).length_eq, filter_map, length_map]
    rfl
  have hse {id : Text} {a b : Session} (ha : s.lookup id = some a)
      (hb : swept.lookup id = some b) : b = a.sweep now :=
    Option.some.inj (hb.symm.trans (hra id a ha))
  constructor
  · rw [hcnt]
    refine length_filter_le_of_names (P := Session.isActive)
      (Q := fun a => a.status.isOpen now) hsw.names hs.distinct fun id a b ha hb hact => ?_
    rwa [hse ha hb, Session.isActive_sweep] at hact
  · intro uuid
    rw [Store.activeFor, Store.active, filter_filter, filter_filter, hcnt]
    refine length_filter_le_of_names
      (P := fun a => a.status.machineUuid == uuid && a.isActive)
      (Q := fun a => a.status.machineUuid == uuid && a.status.isOpen now)
      hsw.names hs.distinct fun id a b ha hb hact => ?_
    rwa [hse ha hb, Session.isActive_sweep, Session.machineUuid_sweep] at hact

variable {env : Env} {ok : Bool}

theorem createFresh_creation (hs : s.Valid) (had : admission env request = .ok (nonce, inventory))
    (hnew : ∀ id a, s.lookup id = some a → a.createNonceSha256 ≠ nonce) :
    Holds (createFresh env now request nonce inventory) s (Creation env now request s) := by
  refine holds_inspect_bind (fun _ _ => .refuse (.refl now s)) fun statuses hstatu => ?_
  rw [Except.ok.injEq] at hstatu
  have hpr : statuses.Perm (s.map fun entry => entry.2.status) := by
    rw [← hstatu]
    exact (perm_insertionSort _ s).map _
  have hls : ∀ status ∈ statuses, ∃ id a, s.lookup id = some a ∧ a.status = status := by
    intro status hst
    obtain ⟨⟨id, a⟩, hen, rfl⟩ := mem_map.1 (hpr.mem_iff.1 hst)
    exact ⟨id, a, lookup_of_mem hs.distinct hen, rfl⟩
  refine (holds_bind _ _ _ _).2 (((sweep_completes hs (.refl now s) hls).and
    (sweep_sweeps hs hls)).mono ?_)
  rintro r swept ⟨hcpl, hsw⟩
  cases r with
  | error e => exact .refuse hsw
  | ok flags =>
    obtain ⟨hop, hra⟩ := hcpl flags rfl
    have hra' : ∀ id a, s.lookup id = some a → swept.lookup id = some (a.sweep now) :=
      fun id a ha => hra id a ha
        (.inl (hpr.mem_iff.2 (mem_map.2 ⟨_, mem_of_lookup ha, rfl⟩)))
    obtain ⟨htot, hmac⟩ := active_swept hs hsw hra' statuses hpr
    refine holds_lift_bind (fun _ _ => .refuse hsw) fun _ hquo => ?_
    rw [hop] at hquo
    obtain ⟨hquo, hquo'⟩ := checkQuota_eq_ok hquo
    refine holds_lift_bind (fun _ _ => .refuse hsw) fun expiresAt _ => ?_
    refine holds_lift_bind (fun _ _ => .refuse hsw) fun credential _ => ?_
    refine (holds_bind _ _ _ _).2 ?_
    refine holds_inspect_bind (fun _ _ => .refuse hsw) fun id hid => ?_
    simp only [bind_eq_ok, raiseWhen_eq_ok] at hid
    obtain ⟨id', -, _, -, _, -, _, -, _, hst, _, hfr, heq⟩ := hid
    cases heq
    have hrq : request.sessionId = id := not_not.1 hst
    subst hrq
    exact .create had hnew hsw (htot.trans_lt hquo)
      ((hmac _).trans_lt hquo') (Option.not_isSome_iff_eq_none.1 hfr) ⟨rfl, rfl⟩ rfl

theorem holds_findStatusByCreateNonce_bind {α : Type} {f : Option SessionStatus → Op Store Exc α}
    {Q : Except Exc α → Store → Prop} (hs : s.Valid)
    (hnn : (∀ id a, s.lookup id = some a → a.createNonceSha256 ≠ nonce) → Holds (f none) s Q)
    (hsm : ∀ id a, s.lookup id = some a → a.createNonceSha256 = nonce → Holds (f (some a.status)) s Q) :
    Holds (findStatusByCreateNonce nonce >>= f) s Q := by
  refine holds_inspect_bind (fun _ h => (by cases h)) fun found hfd => ?_
  rw [Except.ok.injEq] at hfd
  subst hfd
  cases hfn : (s.insertionSort fun a b => Text.le a.1 b.1 = true).find?
      fun entry => entry.2.createNonceSha256 == nonce with
  | none =>
    refine hnn fun id a ha => ?_
    have hot := find?_eq_none.1 hfn (id, a)
      ((mem_insertionSort _).2 (mem_of_lookup ha))
    simpa using hot
  | some entry =>
    obtain ⟨id, a⟩ := entry
    refine hsm id a (lookup_of_mem hs.distinct
      ((mem_insertionSort _).1 (mem_of_find?_eq_some hfn))) ?_
    simpa using find?_some hfn

theorem create_creation (hs : s.Valid) (env : Env) (now : Instant) (request : CreateRequest) :
    Holds (SessionService.create env now request) s (Creation env now request s) := by
  refine holds_lift_bind (fun _ _ => .refuse (.refl now s)) ?_
  rintro ⟨nonce, inventory⟩ had
  refine holds_findStatusByCreateNonce_bind hs (fun hnew => ?_) fun id a ha hnn => ?_
  · exact createFresh_creation hs had hnew
  · simp only
    split
    next hinv =>
      rw [(hs.named id a ha).1]
      exact .replay had ha ⟨hnn, hinv⟩
    next => exact .refuse (.refl now s)

structure Store.Bounded (s : Store) : Prop where
  nonces : ∀ id a id' a', s.lookup id = some a → s.lookup id' = some a' →
    a.createNonceSha256 = a'.createNonceSha256 → id = id'
  total : s.active.length ≤ maxActiveSessions
  machine : ∀ uuid, (s.activeFor uuid).length ≤ maxSessionsPerDmiUuid

/-- Every session of the second store was there before, with its nonce and its
machine, and was in use if it is now. -/
structure Store.Thins (s s' : Store) : Prop where
  names : s'.map Prod.fst = s.map Prod.fst
  sessions : ∀ id a b, s.lookup id = some a → s'.lookup id = some b →
    b.createNonceSha256 = a.createNonceSha256 ∧ b.status.origin = a.status.origin ∧
      (b.isActive = true → a.isActive = true)

theorem Move.createNonce_eq (h : Move step id ok a b) : b.createNonceSha256 = a.createNonceSha256 := by
  cases h <;> rfl

theorem Move.active_of_active (h : Move step id ok a b) (hb : b.isActive = true) :
    a.isActive = true := by
  cases h with
  | expire => cases hb
  | cancel => cases hb
  | publish _ hwi => rw [Session.isActive, hwi]; rfl
  | _ => exact hb

theorem Effect.thins (hef : Effect step s ok s')
    (hop : ∀ request, step.operation ≠ .create request) : s.Thins s' where
  names := hef.names hop
  sessions := by
    intro id a b ha hb
    obtain ⟨b', hb', hmv⟩ := hef.moves id a ha
    cases hb'.symm.trans hb
    exact ⟨hmv.createNonce_eq, hmv.origin_eq, hmv.active_of_active⟩

theorem Sweeps.thins (hsw : Sweeps now s s') : s.Thins s' where
  names := hsw.names
  sessions := by
    intro id a b ha hb
    rcases hsw.sessions id a ha with hb' | ⟨hlv, -, hb'⟩
    · cases hb'.symm.trans hb
      exact ⟨rfl, rfl, fun h => h⟩
    · cases hb'.symm.trans hb
      exact ⟨rfl, rfl, fun h => (by cases h)⟩

theorem Store.Thins.found (h : s.Thins s') (hb : s'.lookup id = some b) :
    ∃ a, s.lookup id = some a := by
  cases ha : s.lookup id with
  | some a => exact ⟨a, rfl⟩
  | none =>
    rw [lookup_eq_none_of_names h.names ha] at hb
    cases hb

theorem Store.Thins.bounded (h : s.Thins s') (hs : s.Valid) (hbd : s.Bounded) : s'.Bounded where
  nonces := by
    intro id b id' b' hb hb' hnn
    obtain ⟨a, ha⟩ := h.found hb
    obtain ⟨a', ha'⟩ := h.found hb'
    refine hbd.nonces id a id' a' ha ha' ?_
    rw [← (h.sessions id a b ha hb).1, ← (h.sessions id' a' b' ha' hb').1, hnn]
  total := by
    refine le_trans ?_ hbd.total
    exact length_filter_le_of_names (P := Session.isActive) (Q := Session.isActive) h.names
      hs.distinct fun id a b ha hb => (h.sessions id a b ha hb).2.2
  machine := by
    intro uuid
    refine le_trans ?_ (hbd.machine uuid)
    simp only [Store.activeFor, Store.active, filter_filter]
    refine length_filter_le_of_names
      (P := fun a => a.status.machineUuid == uuid && a.isActive)
      (Q := fun a => a.status.machineUuid == uuid && a.isActive) h.names hs.distinct
      fun id a b ha hb hact => ?_
    obtain ⟨-, hor, hlv⟩ := h.sessions id a b ha hb
    have huui : b.status.machineUuid = a.status.machineUuid :=
      congrArg (fun origin => origin.2.2) hor
    rw [Bool.and_eq_true] at hact ⊢
    exact ⟨huui ▸ hact.1, hlv hact.2⟩

theorem Creation.bounded {r : Except Exc CreatedInstallSession} (hs : s.Valid)
    (hbd : s.Bounded) (h : Creation env now request s r s') : s'.Bounded := by
  cases h with
  | refuse hsw => exact hsw.thins.bounded hs hbd
  | replay => exact hbd
  | @create nonce inventory swept b had hnew hsw htot hmac hfr hfor huui =>
    have hse := hsw.thins.bounded hs hbd
    -- no swept session carries the nonce of the new one
    have hot : ∀ id a, swept.lookup id = some a → a.createNonceSha256 ≠ nonce := by
      intro id a ha
      obtain ⟨a', ha'⟩ := hsw.thins.found ha
      rw [(hsw.thins.sessions id a' a ha' ha).1]
      exact hnew id a' ha'
    have hlo {id : Text} {a : Session}
        (ha : (swept ++ [(request.sessionId, b)]).lookup id = some a) :
        swept.lookup id = some a ∨ (id = request.sessionId ∧ a = b) := by
      rw [lookup_append] at ha
      cases hold : swept.lookup id with
      | some a' => rw [hold] at ha; exact .inl ha
      | none =>
        rw [hold, Option.none_or, lookup_cons] at ha
        split at ha
        next hid => exact .inr ⟨beq_iff_eq.1 hid, (Option.some.inj ha).symm⟩
        next => simp at ha
    refine ⟨fun id a id' a' ha ha' hnn => ?_, ?_, fun uuid => ?_⟩
    · rcases hlo ha with hold | ⟨hid, hb⟩ <;>
        rcases hlo ha' with hold' | ⟨hid', hb'⟩
      · exact hse.nonces id a id' a' hold hold' hnn
      · rw [hb', hfor.nonce] at hnn
        exact absurd hnn (hot id a hold)
      · rw [hb, hfor.nonce] at hnn
        exact absurd hnn.symm (hot id' a' hold')
      · rw [hid, hid']
    · rw [Store.active, filter_append, length_append]
      have hone := length_filter_le (fun entry : Text × Session => entry.2.isActive)
        [(request.sessionId, b)]
      have hold : (swept.filter fun entry => entry.2.isActive).length < maxActiveSessions :=
        htot
      simp only [length_singleton] at hone
      omega
    · rw [Store.activeFor, Store.active, filter_append, filter_append, length_append]
      by_cases huui' : uuid = inventory.machine.dmiUuid
      · subst huui'
        have hone := (length_filter_le (fun entry : Text × Session =>
          entry.2.status.machineUuid == inventory.machine.dmiUuid) _).trans
            (length_filter_le (fun entry : Text × Session => entry.2.isActive)
              [(request.sessionId, b)])
        have hold : ((swept.filter fun entry => entry.2.isActive).filter fun entry =>
            entry.2.status.machineUuid == inventory.machine.dmiUuid).length <
              maxSessionsPerDmiUuid := hmac
        simp only [length_singleton] at hone
        omega
      · have hnone : (([(request.sessionId, b)].filter fun entry => entry.2.isActive).filter
            fun entry => entry.2.status.machineUuid == uuid) = [] := by
          refine filter_eq_nil_iff.2 fun entry hen => ?_
          have hb := mem_singleton.1 (mem_of_mem_filter hen)
          rw [hb, huui]
          simpa using fun heq => huui' heq.symm
        rw [hnone, length_nil, Nat.add_zero]
        exact hse.machine uuid

theorem Store.after_bounded (hs : s.Valid) (hbd : s.Bounded) (step : Step) :
    (s.after step).Bounded := by
  by_cases hcr : ∃ request, step.operation = .create request
  · obtain ⟨request, hop⟩ := hcr
    have hcreat := (create_creation hs step.env (step.clock 0) request).mono
      fun _ _ h => h.bounded hs hbd
    have hact : Holds step.act s fun _ s' => s'.Bounded := by
      unfold Step.act
      rw [hop]
      exact holds_discard hcreat
    exact hact
  · obtain ⟨_, -, hef⟩ := step.perform_effect hs
    exact (hef.thins fun request hop => hcr ⟨request, hop⟩).bounded hs hbd

theorem sessionsAfter_bounded (steps : List Step) : (sessionsAfter steps).Bounded := by
  suffices h : (sessionsAfter steps).Valid ∧ (sessionsAfter steps).Bounded from h.2
  refine run_keeps (P := fun s : Store => s.Valid ∧ s.Bounded)
    ⟨⟨by simp, by simp⟩, ⟨by simp, by simp [Store.active], ?_⟩⟩ ?_
  · intro uuid
    simp [Store.activeFor, Store.active]
  · rintro s step ⟨hs, hbd⟩
    exact ⟨Store.after_valid hs step, Store.after_bounded hs hbd step⟩

theorem create_again (now : Instant) (hs : s.Valid) (hbd : s.Bounded)
    (ha : s.lookup id = some a) (had : admission env request = .ok (nonce, inventory))
    (hnn : a.createNonceSha256 = nonce) : exec (SessionService.create env now request) s =
      if a.status.inventorySha256 = inventorySha256 env.crypto.sha256 inventory then
        (.ok ⟨id, a.status.state, 3⟩, s) else (.error nonceMismatch, s) := by
  suffices h : Holds (SessionService.create env now request) s fun r s' => (r, s') =
      if a.status.inventorySha256 = inventorySha256 env.crypto.sha256 inventory then
        (.ok ⟨id, a.status.state, 3⟩, s)
      else (.error nonceMismatch, s) from h
  refine holds_lift_bind (fun e he => ?_) ?_
  · rw [had] at he
    cases he
  rintro ⟨nonce', inventory'⟩ had'
  cases had.symm.trans had'
  refine holds_findStatusByCreateNonce_bind hs (fun hnew => ?_) fun id' a' ha' hnn' => ?_
  · exact absurd hnn (hnew id a ha)
  · cases hbd.nonces id' a' id a ha' ha (hnn'.trans hnn.symm)
    cases ha.symm.trans ha'
    simp only
    split
    · rw [(hs.named id a ha).1]
      rfl
    · rfl

theorem Session.CreatedFor.move (h : a.CreatedFor env nonce inventory)
    (hmv : Move step id ok a b) : b.CreatedFor env nonce inventory where
  nonce := hmv.createNonce_eq.trans h.nonce
  inventory := (congrArg (fun origin => origin.2.1) hmv.origin_eq).trans h.inventory

theorem createdFor_run (hs : s.Valid) (ha : s.lookup id = some a)
    (hfor : a.CreatedFor env nonce inventory) (steps : List Step) :
    ∃ b, (run Store.after s steps).lookup id = some b ∧ b.CreatedFor env nonce inventory := by
  suffices h : (run Store.after s steps).Valid ∧ ∃ b,
      (run Store.after s steps).lookup id = some b ∧ b.CreatedFor env nonce inventory from h.2
  refine run_keeps (P := fun s : Store => s.Valid ∧ ∃ b, s.lookup id = some b ∧
    b.CreatedFor env nonce inventory) ⟨hs, a, ha, hfor⟩ ?_
  rintro s step ⟨hs, b, hb, hfor⟩
  obtain ⟨c, hc, _, -, hmv⟩ := Store.after_move hs step hb
  exact ⟨Store.after_valid hs step, c, hc, hfor.move hmv⟩

theorem Creation.stored {created : CreatedInstallSession}
    (h : Creation env now request s (.ok created) s')
    (had : admission env request = .ok (nonce, inventory)) :
    ∃ a, s'.lookup created.sessionId = some a ∧ a.CreatedFor env nonce inventory := by
  cases h with
  | replay had' ha hfor =>
    cases had.symm.trans had'
    exact ⟨_, ha, hfor⟩
  | create had' _ _ _ _ hfr hfor =>
    cases had.symm.trans had'
    refine ⟨_, ?_, hfor⟩
    rw [lookup_append, hfr]
    simp

theorem createNonceSha256_of_admission (h : admission env request = .ok (nonce, inventory)) :
    SessionAuth.createNonceSha256 env.crypto.sha256 request.createNonce = .ok nonce := by
  simp only [admission, bind_eq_ok] at h
  obtain ⟨_, -, digest, hdg, _, -, _, -, _, -, hpi⟩ := h
  cases hpi
  cases hnn : SessionAuth.createNonceSha256 env.crypto.sha256 request.createNonce with
  | error e => rw [hnn] at hdg; cases hdg
  | ok digest' => rw [hnn] at hdg; exact hdg

/-- Any later request with the nonce is answered with the session `id` when it
carries the same inventory, and refused when it carries another one; neither
changes the stored sessions. -/
def AnswersRepeats (c : Crypto) (s : Store) (id : Text) (nonce : JVal)
    (inventory : InstallInventory) : Prop :=
  ∀ (env : Env) (now : Instant) (request : CreateRequest) (digest : Text)
    (inventory' : InstallInventory), env.crypto = c → request.createNonce = nonce →
    admission env request = .ok (digest, inventory') →
    (canonicalInventoryBytes inventory' = canonicalInventoryBytes inventory →
      ∃ a, s.lookup id = some a ∧ exec (SessionService.create env now request) s =
        (.ok ⟨id, a.status.state, 3⟩, s)) ∧
    (canonicalInventoryBytes inventory' ≠ canonicalInventoryBytes inventory →
      -- the two inventories are not a collision of SHA-256
      (c.sha256 (canonicalInventoryBytes inventory') = c.sha256 (canonicalInventoryBytes inventory) →
        canonicalInventoryBytes inventory' = canonicalInventoryBytes inventory) →
      exec (SessionService.create env now request) s = (.error nonceMismatch, s))

theorem answersRepeats_of_createdFor (hs : s.Valid) (hbd : s.Bounded)
    (ha : s.lookup id = some a) (hfor : a.CreatedFor env nonce inventory)
    (had : admission env request = .ok (nonce, inventory)) :
    AnswersRepeats env.crypto s id request.createNonce inventory := by
  intro env' now request' digest inventory' hcry hnn had'
  have hdg : nonce = digest := by
    have hths := createNonceSha256_of_admission had
    have hlt := createNonceSha256_of_admission had'
    rw [hcry, hnn, hths] at hlt
    exact Except.ok.inj hlt
  have haga := create_again now hs hbd ha had' (hfor.nonce.trans hdg)
  rw [hfor.inventory, hcry] at haga
  constructor
  · intro hsm
    refine ⟨a, ha, ?_⟩
    rw [haga, if_pos]
    simp only [inventorySha256, hsm]
  · intro hot hcl
    rw [haga, if_neg]
    intro heq
    exact hot (hcl (Subtype.ext heq.symm))

/-- Sessions are created once for each nonce and within the quotas, in every
run and whatever its clocks show. -/
theorem creation_idempotent_bounded (c : Crypto) (steps : List Step)
    (hcry : ∀ step ∈ steps, step.env.crypto = c) :
    (∀ id a id' a', (sessionsAfter steps).lookup id = some a →
      (sessionsAfter steps).lookup id' = some a' →
      a.createNonceSha256 = a'.createNonceSha256 → id = id') ∧
    (∀ first step second request nonce inventory created,
      steps = first ++ step :: second → step.operation = .create request →
      admission step.env request = .ok (nonce, inventory) →
      (exec (SessionService.create step.env (step.clock 0) request) (sessionsAfter first)).1 =
        .ok created →
      AnswersRepeats c (sessionsAfter steps) created.sessionId request.createNonce inventory) ∧
    (sessionsAfter steps).active.length ≤ maxActiveSessions ∧
    ∀ uuid, ((sessionsAfter steps).activeFor uuid).length ≤ maxSessionsPerDmiUuid := by
  have hbd := sessionsAfter_bounded steps
  refine ⟨hbd.nonces, ?_, hbd.total, hbd.machine⟩
  rintro first step second request nonce inventory created rfl hop had hcr
  have hvl := sessionsAfter_valid first
  have hcrea := create_creation hvl step.env (step.clock 0) request
  rw [Holds, hcr] at hcrea
  obtain ⟨a, ha, hfor⟩ := hcrea.stored had
  have haf : (sessionsAfter first).after step =
      (exec (SessionService.create step.env (step.clock 0) request) (sessionsAfter first)).2 := by
    have hact : Holds step.act (sessionsAfter first) fun _ s' => s' = (exec
        (SessionService.create step.env (step.clock 0) request) (sessionsAfter first)).2 := by
      unfold Step.act
      rw [hop]
      exact holds_discard (Q := fun _ s' => s' = (exec (SessionService.create step.env
        (step.clock 0) request) (sessionsAfter first)).2) rfl
    exact hact
  rw [← haf] at ha
  obtain ⟨b, hb, hfor⟩ := createdFor_run (Store.after_valid hvl step) ha hfor second
  have hrun : sessionsAfter (first ++ step :: second) =
      run Store.after ((sessionsAfter first).after step) second := by
    rw [sessionsAfter_append]
    rfl
  rw [← hrun] at hb
  rw [← hcry step (by simp)]
  exact answersRepeats_of_createdFor (sessionsAfter_valid _) hbd hb hfor had

def Sample.createRequest : CreateRequest :=
  ⟨Sample.inventory, "127.0.0.1", .str Sample.nonce, Sample.sessionId⟩

theorem Sample.createRequest_accepted : (admission Sample.env Sample.createRequest).isOk = true ∧
    ((exec (SessionService.create Sample.env (Sample.minute 0) Sample.createRequest) []).1.toOption.map
      fun created => created.sessionId) = some Sample.sessionId := by
  decide +kernel

/-- The sample request, repeated a minute later, is answered with its session. -/
theorem creation_idempotent_bounded_repeated : ∃ a,
    (sessionsAfter [Sample.create]).lookup Sample.sessionId = some a ∧
      exec (SessionService.create Sample.env (Sample.minute 1) Sample.createRequest)
          (sessionsAfter [Sample.create]) =
        (.ok ⟨Sample.sessionId, a.status.state, 3⟩, sessionsAfter [Sample.create]) := by
  obtain ⟨hadmi, hcr⟩ := Sample.createRequest_accepted
  obtain ⟨created, hopt, hid⟩ := Option.map_eq_some_iff.1 hcr
  have hcr : (exec (SessionService.create Sample.env (Sample.minute 0)
      Sample.createRequest) []).1 = .ok created := by
    cases hr : (exec (SessionService.create Sample.env (Sample.minute 0)
        Sample.createRequest) []).1 with
    | error e => rw [hr] at hopt; cases hopt
    | ok created' => rw [hr] at hopt; exact congrArg Except.ok (Option.some.inj hopt)
  cases had : admission Sample.env Sample.createRequest with
  | error e =>
    rw [had] at hadmi
    cases hadmi
  | ok admitted =>
    have han := (creation_idempotent_bounded Sample.crypto [Sample.create] (by
      intro step hst
      rw [mem_singleton.1 hst]
      rfl)).2.1 [] Sample.create [] Sample.createRequest admitted.1 admitted.2 created rfl rfl
        had hcr
    rw [hid] at han
    exact (han Sample.env (Sample.minute 1) Sample.createRequest admitted.1 admitted.2
      rfl rfl had).1 rfl

end WebOvpn
