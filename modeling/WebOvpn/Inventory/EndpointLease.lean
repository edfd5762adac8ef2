/-
The lease of the Endpoint synchronisation: one owner at a time, nothing is
published or changed without the lease, and a failure leaves what the last
successful pass published.
-/
import WebOvpn.Inventory.EndpointSync

namespace WebOvpn.Inventory

open List

namespace EndpointSync

open Text

variable {Identity Snapshot Cards : Type}

abbrev Workers (Identity Snapshot : Type) := Crew Nat Database (Phase Identity Snapshot)

/-- A sequence of steps, each by one of the workers. -/
abbrev Moves (Identity Snapshot Cards : Type) := List (Nat × Event Identity Snapshot Cards)

inductive Owned (owner : Nat) (db : Database) : Database → Prop where
  | renews (expires wall : Instant) :
      Owned owner db { db with control :=
        { db.control with leaseExpiresAt := some expires, updatedAt := wall } }
  | releases (wall : Instant) : Owned owner db (release owner wall db)
  | fails (now wall : Instant) (code : Text) : Owned owner db (failure owner now wall code db)

structure Applies (computation : Computation Identity Snapshot Cards) (db : Database)
    (phase : Phase Identity Snapshot)
    (event : Event Identity Snapshot Cards) (owner : Nat) (prepared : Prepared Identity Snapshot)
      (cards : Cards)
    (clock : Nat → Instant) (projectedAt wall : Instant) (published : Published) : Prop where
  phase : ∃ now, phase = .applying now owner prepared
  event : event = .apply cards clock projectedAt wall
  owner : db.control.leaseOwner = some owner
  published : computation.publishes prepared clock projectedAt cards db.published = some published

/-- A step leaves the database, acquires the lease, or is one of its owner; the
last argument is the lease that the worker believes to own after it. -/
inductive Change (computation : Computation Identity Snapshot Cards) (who : Nat) (db : Database)
    (phase : Phase Identity Snapshot) (event : Event Identity Snapshot Cards) : Database →
      Option Nat → Prop where
  | stays : Change computation who db phase event db phase.owner?
  | leaves : Change computation who db phase event db none
  | acquires {now expires wall : Instant} {db' : Database} (hphase : phase.owner? = none)
      (h : acquire who now expires wall db = some db') :
      Change computation who db phase event db' (some db.issued.length)
  | owned {owner : Nat} {owner? : Option Nat} {db' : Database} (hphase : phase.owner? = some owner)
      (h : db.control.leaseOwner = some owner) (hstep : Owned owner db db')
      (howner : owner? = some owner ∨ owner? = none) : Change computation who db phase event db' owner?
  | applies {owner : Nat} {prepared : Prepared Identity Snapshot} {cards : Cards} {clock : Nat → Instant}
      {projectedAt wall : Instant} {published : Published}
      (h : Applies computation db phase event owner prepared cards clock projectedAt wall published) :
      Change computation who db phase event
        (publish prepared.fullPass (clock 0) projectedAt wall published db) (some owner)

variable {computation : Computation Identity Snapshot Cards} {db db' : Database}
    {phase : Phase Identity Snapshot}
  {event : Event Identity Snapshot Cards} {who : Nat}

variable {owner : Nat} {wall now : Instant} {owner? : Option Nat}

theorem renew_eq_some {expires : Instant} (h : renew owner expires wall db = some db') :
    db.control.leaseOwner = some owner ∧ Owned owner db db' := by
  unfold renew at h
  split at h
  · cases h
    exact ⟨‹_›, .renews expires wall⟩
  · cases h

theorem nextDevice_owner? (now : Instant) (owner : Nat) (prepared : Prepared Identity Snapshot)
    (devices : List Text) : (nextDevice now owner prepared devices).owner? = some owner := by
  cases devices <;> rfl

theorem raised_owner? (code : FailureCode) (phase : Phase Identity Snapshot) :
    (phase.raised code).owner? = phase.owner? ∨ (phase.raised code).owner? = none := by
  cases phase <;> first | exact .inl rfl | exact .inr rfl

theorem Change.of_owner?_eq (h : owner? = phase.owner?) :
    Change computation who db phase event db owner? :=
  h ▸ .stays

theorem renewed_change {expires : Option Instant} {next : Phase Identity Snapshot}
    (hph : phase.owner? = some owner) (hnx : next.owner? = some owner) :
    Change computation who db phase event (renewed now owner expires wall next db).1
      (renewed now owner expires wall next db).2.owner? := by
  unfold renewed
  split
  · exact .of_owner?_eq hph.symm
  · split
    · exact .of_owner?_eq hph.symm
    · rename_i hren
      obtain ⟨hown, hst⟩ := renew_eq_some hren
      exact .owned hph hown hst (.inl hnx)

theorem acquireStep_change {expires : Option Instant} (hph : phase.owner? = none)
    {step : Database × Phase Identity Snapshot} (hst : acquireStep who now expires wall db = step) :
    Change computation who db phase event step.1 step.2.owner? := by
  subst hst
  unfold acquireStep
  split
  · exact .leaves
  · split
    · exact .leaves
    · exact .acquires hph ‹_›

theorem selectStep_owner? (now : Instant) (owner : Nat) (identities : List Identity) (cards : Cards)
    (db : Database) : (selectStep computation now owner identities cards db).owner? = some owner := by
  unfold selectStep
  split
  · rfl
  · split
    · rfl
    · exact nextDevice_owner? _ _ _ _

theorem applyStep_change {projectedAt : Instant} {prepared : Prepared Identity Snapshot}
    {cards : Cards} {clock : Nat → Instant} (hph : phase = .applying now owner prepared)
    (hev : event = .apply cards clock projectedAt wall) : Change computation who db phase event
      (applyStep computation now owner prepared cards clock projectedAt wall db).1
      (applyStep computation now owner prepared cards clock projectedAt wall db).2.owner? := by
  unfold applyStep
  split
  · split
    · exact .of_owner?_eq (by rw [hph]; rfl)
    · exact .applies ⟨⟨now, hph⟩, hev, ‹_›, ‹_›⟩
  · exact .leaves

theorem release_change (hph : phase.owner? = some owner) :
    Change computation who db phase event (release owner wall db) none := by
  by_cases h : db.control.leaseOwner = some owner
  · exact .owned hph h (.releases wall) (.inr rfl)
  · unfold release
    rw [if_neg h]
    exact .leaves

theorem failure_change {code : Text} (hph : phase.owner? = some owner) :
    Change computation who db phase event (failure owner now wall code db) none := by
  by_cases h : db.control.leaseOwner = some owner
  · exact .owned hph h (.fails now wall code) (.inr rfl)
  · unfold failure
    rw [if_neg h]
    exact .leaves

theorem act_change : Change computation who db phase event (act computation who event db phase).1
    (act computation who event db phase).2.owner? := by
  unfold act
  split
  · exact .stays
  · exact .stays
  · exact acquireStep_change rfl rfl
  · split <;> exact .stays
  · exact renewed_change rfl rfl
  · exact .of_owner?_eq (selectStep_owner? _ _ _ _ _)
  · exact .stays
  · exact renewed_change rfl (nextDevice_owner? _ _ _ _)
  · exact applyStep_change rfl rfl
  · exact .stays
  · exact release_change rfl
  · exact failure_change rfl
  · rename_i code
    rcases raised_owner? code phase with h | h
    · exact .of_owner?_eq h
    · rw [h]
      exact .leaves
  · exact .stays

def Issued (db : Database) : Prop := ∀ owner, db.control.leaseOwner = some owner →
    owner < db.issued.length

/-- The lease that a worker believes to own was given to it. -/
def Given (db : Database) (who : Nat) (phase : Phase Identity Snapshot) : Prop :=
  ∀ owner, phase.owner? = some owner → db.issued[owner]? = some who

theorem Owned.issued_eq (h : Owned owner db db') : db'.issued = db.issued := by
  cases h with
  | renews expires wall => rfl
  | releases wall =>
    unfold release
    split <;> rfl
  | fails now wall code =>
    unfold failure
    split <;> rfl

theorem Owned.leaseOwner (h : Owned owner db db') :
    db'.control.leaseOwner = db.control.leaseOwner ∨ db'.control.leaseOwner = none := by
  cases h with
  | renews expires wall => exact .inl rfl
  | releases wall =>
    unfold release
    split
    · exact .inr rfl
    · exact .inl rfl
  | fails now wall code =>
    unfold failure
    split
    · exact .inr rfl
    · exact .inl rfl

theorem acquire_eq_some {expires : Instant} (h : acquire who now expires wall db = some db') :
    db'.issued = db.issued ++ [who] ∧ db'.control.leaseOwner = some db.issued.length ∧
      db'.published = db.published ∧ db'.refresh = db.refresh ∧
      db'.control.lastPresenceSyncAt = db.control.lastPresenceSyncAt ∧
      db'.control.lastFullSyncAt = db.control.lastFullSyncAt := by
  unfold acquire at h
  split at h
  · cases h
    exact ⟨rfl, rfl, rfl, rfl, rfl, rfl⟩
  · cases h

/-- The leases given so far are remembered. -/
theorem Change.issued_isPrefix (h : Change computation who db phase event db' owner?) :
    db.issued <+: db'.issued := by
  cases h with
  | acquires hph h =>
    rw [(acquire_eq_some h).1]
    exact prefix_append _ _
  | owned hph h hst hown =>
    rw [hst.issued_eq]
  | _ => exact prefix_rfl

theorem Given.of_isPrefix (h : Given db who phase) (hgr : db.issued <+: db'.issued) :
    Given db' who phase := by
  intro owner hown
  obtain ⟨more, hmr⟩ := hgr
  rw [← hmr]
  have hgiv := h owner hown
  rw [getElem?_append_left (List.getElem?_eq_some_iff.1 hgiv).1]
  exact hgiv

theorem Change.issued (h : Change computation who db phase event db' owner?)
    (his : Issued db) : Issued db' := by
  cases h with
  | acquires hph h =>
    obtain ⟨hgiv, hown, -⟩ := acquire_eq_some h
    intro owner hla
    cases hown.symm.trans hla
    rw [hgiv, length_append]
    exact Nat.lt_succ_self _
  | owned hph h hst hown =>
    intro owner hla
    rw [hst.issued_eq]
    rcases hst.leaseOwner with hsm | hnn
    · exact his owner (hsm ▸ hla)
    · rw [hnn] at hla
      cases hla
  | _ => exact his

theorem Change.given (h : Change computation who db phase event db' owner?)
    (hgiv : Given db who phase) : ∀ owner, owner? = some owner → db'.issued[owner]? = some who := by
  have hkp : Given db' who phase := hgiv.of_isPrefix h.issued_isPrefix
  cases h with
  | stays => exact hkp
  | leaves => nofun
  | acquires hph h =>
    rintro owner ⟨⟩
    rw [(acquire_eq_some h).1, getElem?_append_right (Nat.le_refl _), Nat.sub_self]
    rfl
  | owned hph h hst hown =>
    intro owner hsm
    rcases hown with hsa | hnn
    · cases hsa.symm.trans hsm
      exact hkp _ hph
    · rw [hnn] at hsm
      cases hsm
  | applies h =>
    rintro owner ⟨⟩
    obtain ⟨now, hph⟩ := h.phase
    exact hkp _ (by rw [hph]; rfl)

theorem keeps_given : Crew.Keeps (act computation) Issued Given where
  own := by
    intro who event db phase his hgiv
    have hch : Change computation who db phase event (act computation who event db phase).1
        (act computation who event db phase).2.owner? := act_change
    exact ⟨hch.issued his, hch.given hgiv⟩
  others := by
    intro who event db phase other phase' hoh his hgiv hgiv'
    exact hgiv'.of_isPrefix act_change.issued_isPrefix

theorem Change.stays_lost
    (h : Change computation who db phase event db' owner?) (hlt : owner < db.issued.length)
    (hlos : db.control.leaseOwner ≠ some owner) :
    owner < db'.issued.length ∧ db'.control.leaseOwner ≠ some owner := by
  refine ⟨Nat.lt_of_lt_of_le hlt h.issued_isPrefix.length_le, ?_⟩
  cases h with
  | acquires hph h =>
    rw [(acquire_eq_some h).2.1]
    rintro ⟨⟩
    exact Nat.lt_irrefl _ hlt
  | owned hph h hst hown =>
    rcases hst.leaseOwner with hsm | hnn
    · rw [hsm]
      exact hlos
    · rw [hnn]
      nofun
  | _ => exact hlos

def StateRow.lastSuccessful (row : StateRow) : StateRow :=
  { row with lastCheckedAt := none, unavailableSince := none, updatedAt := row.createdAt }

structure KeepsLastSuccess (db db' : Database) : Prop where
  bindings : db'.published.bindings = db.published.bindings
  states : db'.published.states.map StateRow.lastSuccessful = db.published.states.map StateRow.lastSuccessful
  observations : db'.published.observations = db.published.observations
  links : db'.published.links = db.published.links
  presence : db'.control.lastPresenceSyncAt = db.control.lastPresenceSyncAt
  full : db'.control.lastFullSyncAt = db.control.lastFullSyncAt
  refreshed : db'.refresh.lastSuccessAt = db.refresh.lastSuccessAt

theorem KeepsLastSuccess.refl (db : Database) : KeepsLastSuccess db db :=
  ⟨rfl, rfl, rfl, rfl, rfl, rfl, rfl⟩

theorem failedStates_lastSuccessful (now wall : Instant) (published : Published) :
    (failedStates now wall published).map StateRow.lastSuccessful =
      published.states.map StateRow.lastSuccessful := by
  unfold failedStates
  rw [map_map]
  apply map_congr_left
  intro row _
  change StateRow.lastSuccessful (if _ then _ else _) = _
  split
  · unfold StateRow.touched
    split <;> rfl
  · rfl

theorem Owned.keepsLastSuccess (h : Owned owner db db') : KeepsLastSuccess db db' := by
  cases h with
  | renews expires wall => exact ⟨rfl, rfl, rfl, rfl, rfl, rfl, rfl⟩
  | releases wall =>
    unfold release
    split
    · exact ⟨rfl, rfl, rfl, rfl, rfl, rfl, rfl⟩
    · exact .refl _
  | fails now wall code =>
    unfold failure
    split
    · exact ⟨rfl, failedStates_lastSuccessful _ _ _, rfl, rfl, rfl, rfl, rfl⟩
    · exact .refl _

theorem Change.keepsLastSuccess (h : Change computation who db phase event db' owner?) :
    KeepsLastSuccess db db' ∨ ∃ owner prepared cards clock projectedAt wall published,
      Applies computation db phase event owner prepared cards clock projectedAt wall published ∧
        db' = publish prepared.fullPass (clock 0) projectedAt wall published db := by
  cases h with
  | acquires hph h =>
    obtain ⟨-, -, hpb, href, hpr, hful⟩ := acquire_eq_some h
    left
    refine ⟨?_, ?_, ?_, ?_, hpr, hful, ?_⟩
    · rw [hpb]
    · rw [hpb]
    · rw [hpb]
    · rw [hpb]
    · rw [href]
  | owned hph h hst hown => exact .inl hst.keepsLastSuccess
  | applies h => exact .inr ⟨_, _, _, _, _, _, _, h, rfl⟩
  | _ => exact .inl (.refl _)

def Owns (c : Workers Identity Snapshot) (who : Nat) : Prop :=
  ∃ owner, (c.workers who).owner? = some owner ∧ c.shared.control.leaseOwner = some owner

def Lost (c : Workers Identity Snapshot) (who : Nat) : Prop :=
  ∃ owner, (c.workers who).owner? = some owner ∧ c.shared.control.leaseOwner ≠ some owner

/-- All workers are idle; the lease on the control row, if there is one, was
left by a worker that is no more. -/
structure Fresh (c : Workers Identity Snapshot) : Prop where
  idle : ∀ who, c.workers who = .idle
  issued : Issued c.shared

/-- What holds in every state that workers reach. -/
structure LeaseLaw (computation : Computation Identity Snapshot Cards)
    (c : Workers Identity Snapshot) : Prop where
  /-- There is one owner at most. -/
  exclusive : ∀ who other, Owns c who → Owns c other → who = other
  /-- A worker that lost the lease changes nothing at all. -/
  lost : ∀ who event, Lost c who → (c.step (act computation) (who, event)).shared = c.shared
  /-- It never owns that lease again. -/
  staysLost : ∀ who owner (moves : Moves Identity Snapshot Cards), (c.workers who).owner? = some owner →
    c.shared.control.leaseOwner ≠ some owner →
      (run (Crew.step (act computation)) c moves).shared.control.leaseOwner ≠ some owner
  /-- Every step but one of the owner that applies its pass leaves the last
  successful state. -/
  applied : ∀ who event, KeepsLastSuccess c.shared (c.step (act computation) (who, event)).shared ∨
    Owns c who ∧ ∃ owner prepared cards clock projectedAt wall published,
      Applies computation c.shared (c.workers who) event owner prepared cards clock projectedAt wall published ∧
        (c.step (act computation) (who, event)).shared =
          publish prepared.fullPass (clock 0) projectedAt wall published c.shared

theorem Change.eq_of_lost
    (h : Change computation who db phase event db' owner?) (hph : phase.owner? = some owner)
    (hlos : db.control.leaseOwner ≠ some owner) : db' = db := by
  cases h with
  | acquires hnn h =>
    rw [hph] at hnn
    cases hnn
  | owned hown h hst howner =>
    cases hph.symm.trans hown
    exact absurd h hlos
  | applies h =>
    obtain ⟨now, heq⟩ := h.phase
    rw [heq] at hph
    cases hph
    exact absurd h.owner hlos
  | _ => rfl

theorem leaseLaw {c : Workers Identity Snapshot} (h : c.Holds Issued Given) :
    LeaseLaw computation c where
  exclusive := by
    rintro who other ⟨owner, hwho, hla⟩ ⟨owner', hoh, hla'⟩
    cases hla.symm.trans hla'
    exact Option.some.inj ((h.worker who owner hwho).symm.trans (h.worker other owner hoh))
  lost := by
    rintro who event ⟨owner, hph, hlos⟩
    exact act_change.eq_of_lost hph hlos
  staysLost := by
    intro who owner moves hph hlos
    have hlt : owner < c.shared.issued.length := (List.getElem?_eq_some_iff.1 (h.worker who owner hph)).1
    have hkp : owner < (run (Crew.step (act computation)) c moves).shared.issued.length ∧
        (run (Crew.step (act computation)) c moves).shared.control.leaseOwner ≠ some owner :=
      run_keeps (P := fun c : Workers Identity Snapshot => owner < c.shared.issued.length ∧
        c.shared.control.leaseOwner ≠ some owner) ⟨hlt, hlos⟩
        fun c move hc => act_change.stays_lost hc.1 hc.2
    exact hkp.2
  applied := by
    intro who event
    have hch : Change computation who c.shared (c.workers who) event
      (act computation who event c.shared (c.workers who)).1
        (act computation who event c.shared (c.workers who)).2.owner? := act_change
    rcases hch.keepsLastSuccess with hkp | ⟨owner, prepared, cards, clock, projectedAt, wall, published, h, heq⟩
    · exact .inl hkp
    · obtain ⟨now, hph⟩ := h.phase
      refine .inr ⟨⟨owner, ?_, h.owner⟩, owner, prepared, cards, clock, projectedAt, wall, published, h, heq⟩
      rw [hph]
      rfl

/-- The law of the lease holds after every sequence of steps of any number of
workers. -/
theorem endpoint_state_published_by_owner (computation : Computation Identity Snapshot Cards)
    (c : Workers Identity Snapshot) (hfr : Fresh c) (moves : Moves Identity Snapshot Cards) :
    LeaseLaw computation (run (Crew.step (act computation)) c moves) := by
  apply leaseLaw
  have hst : c.Holds Issued Given := by
    refine ⟨hfr.issued, fun who => ?_⟩
    rw [hfr.idle who]
    nofun
  exact hst.run keeps_given

def sampleTime (minutes : Fin 60) : Instant :=
  ⟨63876418200000000 + minutes * microsPerMinute, minute_lt minutes⟩

def sampleRow : StateRow where
  bindingId := "b"
  asset := "a"
  device := "d"
  online := some true
  lastSeenAt := none
  agentVersion := none
  snapshotIds := []
  semanticHashes := []
  lastCheckedAt := some (sampleTime 0)
  refreshedAt := none
  lastSuccessAt := some (sampleTime 0)
  unavailableSince := none
  safeContext := []
  createdAt := sampleTime 0
  updatedAt := sampleTime 0

def sampleDatabase : Database where
  control := ⟨none, none, some (sampleTime 0), some (sampleTime 0), none, sampleTime 0⟩
  published := ⟨[⟨"b", "a", "endpoint_platform", "d", .confirmed, none⟩], [sampleRow], [], []⟩
  refresh := ⟨some (sampleTime 0), none, []⟩
  issued := []

def sampleWorkers : Workers Unit Unit := ⟨sampleDatabase, fun _ => .idle⟩

def samplePass : Computation Unit Unit Unit := ⟨fun _ _ _ _ => none, fun _ _ _ _ _ => none⟩

/-- The first worker acquires the lease and cannot read the identities. -/
def sampleMoves : Moves Unit Unit Unit :=
  [(0, .start (sampleTime 5)), (0, .acquire (sampleTime 5)), (0, .raise .unavailable)]

theorem sampleWorkers_fresh : Fresh sampleWorkers := ⟨fun _ => rfl, nofun⟩

/-- A second worker takes over the lease of the first one once it has passed. -/
def overtaking : Moves Unit Unit Unit :=
  [(0, .start (sampleTime 5)), (0, .acquire (sampleTime 5)), (1, .start (sampleTime 25)),
    (1, .acquire (sampleTime 25))]

/-- The first worker is overtaken and loses its lease, the second one publishes. -/
theorem sampleWorkers_law :
    Lost (run (Crew.step (act samplePass)) sampleWorkers overtaking) 0 ∧
      Owns (run (Crew.step (act samplePass)) sampleWorkers overtaking) 1 ∧
      LeaseLaw samplePass (run (Crew.step (act samplePass)) sampleWorkers overtaking) :=
  ⟨⟨0, by decide, by decide⟩, ⟨1, by decide, by decide⟩,
    endpoint_state_published_by_owner samplePass sampleWorkers sampleWorkers_fresh overtaking⟩

/-- Only `last_checked_at` and `unavailable_since` of the endpoint state differ. -/
def KeepsAllButTimes (db db' : Database) : Prop :=
  db'.published.states.map (fun row => { row with lastCheckedAt := none, unavailableSince := none }) =
    db.published.states.map fun row => { row with lastCheckedAt := none, unavailableSince := none }

instance (db db' : Database) : Decidable (KeepsAllButTimes db db') :=
  inferInstanceAs (Decidable (_ = _))

/-- The failure of the pass also writes `updated_at` of the row. -/
theorem failed_pass_touches_rows : ¬ ∀ (moves : Moves Unit Unit Unit) (wall : Instant),
      KeepsAllButTimes (run (Crew.step (act samplePass)) sampleWorkers moves).shared
        ((run (Crew.step (act samplePass)) sampleWorkers moves).step (act samplePass)
          (0, .fail wall)).shared := by
  intro h
  have hkp := h sampleMoves (sampleTime 6)
  revert hkp
  decide

end EndpointSync

end WebOvpn.Inventory
