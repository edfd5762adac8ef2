/-
Synchronisation with Netctl: one published snapshot is reconciled in a transaction of
its own, and every call leaves a run in the ledger.  Snapshots are applied whole, once and in the
order of their times: a successful
call applies its snapshot, every other call leaves the identifiers alone.
-/
import Mathlib.Data.List.MinMax
import WebOvpn.Inventory.Tables
import WebOvpn.Inventory.Snapshots
import WebOvpn.Lib.Run

namespace WebOvpn

open List

namespace Inventory

inductive RunStatus where
  | success
  | skipped
  | failed
  deriving DecidableEq

/-- Why a run did not apply a snapshot. -/
inductive RunFailure where
  | read (reason : ReadFailure)
  | repeated
  | notNewer
  | conflict
  | database
  deriving DecidableEq

def RunFailure.message : RunFailure → Text
  | .read .unavailable => "netctl snapshot unavailable"
  | .read .malformed => "malformed netctl snapshot"
  | .read .changed => "netctl snapshot changed during pagination"
  | .read .stale => "stale netctl snapshot"
  | .repeated => "snapshot already synchronized"
  | .notNewer => "snapshot is not newer than successful run"
  | .conflict => "database synchronization conflict"
  | .database => "database synchronization failed"

structure SyncRun where
  snapshotId : Option Nat
  generatedAt : Option Instant
  status : RunStatus
  counts : SyncCounts
  failure : Option Text

structure SyncStore where
  cards : List IdentifierCard
  identifiers : List Identifier
  relations : List Relation
  runs : List SyncRun

def SyncRun.isSuccess (r : SyncRun) : Bool := r.status = .success

/-- An exception inside the transaction. -/
inductive SyncFault where
  | integrity
  | other
  deriving DecidableEq

/-- `_add_run`, with the unique index on the snapshot of a successful run. -/
def addRun (s : SyncStore) (r : SyncRun) : Except SyncFault SyncStore :=
  if r.isSuccess = true ∧ (s.runs.any fun r' => r'.isSuccess && r'.snapshotId = r.snapshotId) = true then
    .error .integrity
  else .ok { s with runs := s.runs ++ [r] }

def SyncStore.latestSuccess (s : SyncStore) : Option Instant :=
  ((s.runs.filter SyncRun.isSuccess).filterMap SyncRun.generatedAt).max?

/-- What Python makes of a host beside its texts: `str` of other values, and the
order of two observations. -/
structure HostRuntime where
  repr : JVal → Text
  rank : Observation → Observation → Bool

def HostRuntime.strOr (rt : HostRuntime) : JVal → Text
  | .str s => s
  | .null => []
  | .bool false => []
  | .int 0 => []
  | .arr [] => []
  | .obj [] => []
  | v => rt.repr v

def textField (host : Members) (field : String) : Option Text :=
  match host.field field with
  | .str s => some (s.take 512)
  | _ => none

def HostRuntime.observation (rt : HostRuntime) (host : Members) : Observation :=
  ⟨rt.strOr (host.field "device_key"), rt.strOr (host.field "mac"), textField host "ip",
    textField host "hostname", textField host "display_name", textField host "status",
    textField host "last_seen_at"⟩

def SyncStore.asRelations (s : SyncStore) : Relations :=
  ⟨s.cards.map fun card => ⟨card.id, card.deleted,
    (s.identifiers.filter fun i => i.asset = card.id && i.kind = .mac && i.isCurrent).map Identifier.value⟩,
    s.relations⟩

/-- `refresh_candidates` in the transaction. -/
def refreshStore (rt : HostRuntime) (s : SyncStore) (snapshot : NetctlSnapshot) :
    Except SyncFault SyncStore :=
  match refreshCandidates s.asRelations ⟨rt.rank, snapshot.hosts.map rt.observation, snapshot.snapshotId,
    snapshot.generatedAt, []⟩ with
  | .ok relations => .ok { s with relations := relations.rows }
  | .error _ => .error .integrity

structure SyncSummary where
  status : RunStatus
  snapshotId : Option Nat
  counts : SyncCounts
  failure : Option Text

def SyncSummary.run (summary : SyncSummary) (generatedAt : Option Instant) : SyncRun :=
  ⟨summary.snapshotId, generatedAt, summary.status, summary.counts, summary.failure⟩

/-- What happens around a call: the answers of netctl, an exception of the
database somewhere in the transaction, and whether the ledger takes the run
that is recorded afterwards. -/
structure SyncCall where
  responder : Responder
  fault : Option SyncFault
  recorded : Bool

variable (rt : HostRuntime)

/-- `existing`. -/
def SyncStore.hasApplied (s : SyncStore) (snapshotId : Nat) : Bool :=
  s.runs.any fun r => r.isSuccess && r.snapshotId = some snapshotId

def skipSummary (snapshot : NetctlSnapshot) (failure : RunFailure) : SyncSummary :=
  ⟨.skipped, some snapshot.snapshotId, ⟨0, 0, 0⟩, some failure.message⟩

/-- A snapshot that was applied before: the candidates of the latest one are
looked at again. -/
def repeatSnapshot (s : SyncStore) (snapshot : NetctlSnapshot) : Except SyncFault SyncStore := do
  let s' ← addRun s ((skipSummary snapshot .repeated).run (some snapshot.generatedAt))
  if s.latestSuccess.all (fun t => t ≤ snapshot.generatedAt) = true then refreshStore rt s' snapshot else .ok s'

def successSummary (s : SyncStore) (snapshot : NetctlSnapshot) : SyncSummary :=
  ⟨.success, some snapshot.snapshotId,
    (reconcileNetctlIdentifiers s.cards s.identifiers snapshot.hosts snapshot.generatedAt).2, none⟩

def advanceSnapshot (s : SyncStore) (snapshot : NetctlSnapshot) : Except SyncFault SyncStore := do
  let identifiers := (reconcileNetctlIdentifiers s.cards s.identifiers snapshot.hosts snapshot.generatedAt).1
  let s' ← refreshStore rt { s with identifiers := identifiers } snapshot
  addRun s' ((successSummary s snapshot).run (some snapshot.generatedAt))

/-- The body of the transaction. -/
def applySnapshot (s : SyncStore) (snapshot : NetctlSnapshot) :
    SyncSummary × Except SyncFault SyncStore :=
  if s.hasApplied snapshot.snapshotId = true then (skipSummary snapshot .repeated, repeatSnapshot rt s snapshot)
  else if s.latestSuccess.any (fun t => snapshot.generatedAt ≤ t) = true then
    (skipSummary snapshot .notNewer,
      addRun s ((skipSummary snapshot .notNewer).run (some snapshot.generatedAt)))
  else (successSummary s snapshot, advanceSnapshot rt s snapshot)

def terminalSummary (status : RunStatus) (snapshotId : Option Nat) (failure : RunFailure) :
    SyncSummary :=
  ⟨status, snapshotId, ⟨0, 0, 0⟩, some failure.message⟩

def recordTerminalRun (s : SyncStore) (recorded : Bool) (status : RunStatus) (snapshotId : Option Nat)
    (generatedAt : Option Instant) (failure : RunFailure) : SyncStore × Option SyncSummary :=
  match recorded, addRun s ((terminalSummary status snapshotId failure).run generatedAt) with
  | true, .ok s' => (s', some (terminalSummary status snapshotId failure))
  | _, _ => (s, some (terminalSummary status snapshotId failure))

def SyncFault.failure : SyncFault → RunFailure
  | .integrity => .conflict
  | .other => .database

/-- `synchronize_current_snapshot`; without a summary its exception escapes. -/
def synchronize (s : SyncStore) (c : SyncCall) : SyncStore × Option SyncSummary :=
  match readCurrentSnapshot c.responder with
  | .error .overflow => (s, none)
  | .error (.read reason snapshotId generatedAt) =>
    recordTerminalRun s c.recorded (if reason = .stale then .skipped else .failed) snapshotId generatedAt
      (.read reason)
  | .ok snapshot =>
    match c.fault, (applySnapshot rt s snapshot).2 with
    | none, .ok s' => (s', some (applySnapshot rt s snapshot).1)
    | none, .error fault | some fault, _ =>
      recordTerminalRun s c.recorded .failed (some snapshot.snapshotId) (some snapshot.generatedAt)
        fault.failure

def sync (s : SyncStore) (c : SyncCall) : SyncStore := (synchronize rt s c).1

variable {rt : HostRuntime} {s s' : SyncStore} {c : SyncCall} {snapshot : NetctlSnapshot}
    {summary : SyncSummary}

def SyncStore.successes (s : SyncStore) : List SyncRun := s.runs.filter SyncRun.isSuccess

/-- A step that changes no identifier and records no success. -/
structure SyncStore.Idle (s s' : SyncStore) : Prop where
  cards : s'.cards = s.cards
  identifiers : s'.identifiers = s.identifiers
  successes : s'.successes = s.successes

theorem SyncStore.idle_refl (s : SyncStore) : s.Idle s := ⟨rfl, rfl, rfl⟩

theorem addRun_eq_ok {r : SyncRun} (h : addRun s r = .ok s') : s' = { s with runs := s.runs ++ [r] } ∧
      (r.isSuccess = true → ∀ r' ∈ s.successes, r'.snapshotId ≠ r.snapshotId) := by
  unfold addRun at h
  split at h
  · cases h
  · next hfr =>
      refine ⟨(Except.ok.inj h).symm, ?_⟩
      intro hsc r' hr' hsm
      obtain ⟨hmem, hsc'⟩ := mem_filter.1 hr'
      apply hfr
      refine ⟨hsc, ?_⟩
      rw [any_eq_true]
      refine ⟨r', hmem, ?_⟩
      rw [Bool.and_eq_true, decide_eq_true_iff]
      exact ⟨hsc', hsm⟩

theorem addRun_idle {r : SyncRun} (h : addRun s r = .ok s') (hr : r.isSuccess = false) : s.Idle s' := by
  obtain ⟨rfl, -⟩ := addRun_eq_ok h
  refine ⟨rfl, rfl, ?_⟩
  unfold SyncStore.successes
  rw [filter_append, filter_cons_of_neg (by rw [hr]; exact Bool.false_ne_true), filter_nil,
    append_nil]

theorem refreshStore_eq_ok (h : refreshStore rt s snapshot = .ok s') :
    s'.cards = s.cards ∧ s'.identifiers = s.identifiers ∧ s'.runs = s.runs := by
  unfold refreshStore at h
  split at h
  · cases h
    exact ⟨rfl, rfl, rfl⟩
  · cases h

variable {generatedAt : Option Instant} {snapshotId : Option Nat} {failure : RunFailure}
    {status : RunStatus}

theorem recordTerminalRun_idle {recorded : Bool}
    (hst : status ≠ .success) :
    s.Idle (recordTerminalRun s recorded status snapshotId generatedAt failure).1 := by
  unfold recordTerminalRun
  split
  · next s' hadd => exact addRun_idle hadd (decide_eq_false hst)
  · exact s.idle_refl

theorem recordTerminalRun_summary {recorded : Bool}
    :
    (recordTerminalRun s recorded status snapshotId generatedAt failure).2 =
      some (terminalSummary status snapshotId failure) := by
  unfold recordTerminalRun
  split <;> rfl

/-- The snapshot becomes the latest success: it is new, it is later than the
others, and its hosts are reconciled. -/
structure SyncStore.Advances (s : SyncStore) (snapshot : NetctlSnapshot) (s' : SyncStore) : Prop where
  cards : s'.cards = s.cards
  identifiers : s'.identifiers =
    (reconcileNetctlIdentifiers s.cards s.identifiers snapshot.hosts snapshot.generatedAt).1
  successes : ∃ counts, s'.successes = s.successes ++
    [⟨some snapshot.snapshotId, some snapshot.generatedAt, .success, counts, none⟩]
  unseen : ∀ r ∈ s.successes, r.snapshotId ≠ some snapshot.snapshotId
  later : ∀ r ∈ s.successes, ∀ t, r.generatedAt = some t → t < snapshot.generatedAt

theorem lt_of_latestSuccess {t : Instant} (h : s.latestSuccess.any (fun latest => t ≤ latest) = false) :
    ∀ r ∈ s.successes, ∀ t', r.generatedAt = some t' → t' < t := by
  intro r hr t' ht'
  have hmem : t' ∈ s.successes.filterMap SyncRun.generatedAt := mem_filterMap.2 ⟨r, hr, ht'⟩
  unfold SyncStore.latestSuccess at h
  cases hlt : (s.successes.filterMap SyncRun.generatedAt).max? with
  | none =>
    rw [max?_eq_none_iff] at hlt
    rw [hlt] at hmem
    cases hmem
  | some latest =>
    have hle := (List.max?_eq_some_iff.1 hlt).2 t' hmem
    rw [show ((s.runs.filter SyncRun.isSuccess).filterMap SyncRun.generatedAt).max? = some latest from hlt,
      Option.any_some, decide_eq_false_iff_not, not_le] at h
    exact hle.trans_lt h

theorem repeatSnapshot_idle (h : repeatSnapshot rt s snapshot = .ok s') : s.Idle s' := by
  unfold repeatSnapshot at h
  obtain ⟨t, hadd, h⟩ := bind_eq_ok.1 h
  have hidle := addRun_idle hadd rfl
  split at h
  · obtain ⟨hcr, hide, hrs⟩ := refreshStore_eq_ok h
    refine ⟨hcr.trans hidle.cards, hide.trans hidle.identifiers, ?_⟩
    unfold SyncStore.successes
    rw [hrs]
    exact hidle.successes
  · cases h
    exact hidle

theorem advanceSnapshot_advances (hlt : s.latestSuccess.any (fun t => snapshot.generatedAt ≤ t) = false)
    (h : advanceSnapshot rt s snapshot = .ok s') : s.Advances snapshot s' := by
  unfold advanceSnapshot at h
  obtain ⟨t, href, h⟩ := bind_eq_ok.1 h
  obtain ⟨hcr, hide, hrs⟩ := refreshStore_eq_ok href
  obtain ⟨rfl, hun⟩ := addRun_eq_ok h
  have hsc : t.successes = s.successes := by
    unfold SyncStore.successes
    rw [hrs]
  refine ⟨hcr, hide, ⟨(successSummary s snapshot).counts, ?_⟩, ?_, lt_of_latestSuccess hlt⟩
  · rw [← hsc]
    unfold SyncStore.successes
    rw [filter_append]
    rfl
  · rw [← hsc]
    exact hun rfl

theorem applySnapshot_cases (h : (applySnapshot rt s snapshot).2 = .ok s') :
    (applySnapshot rt s snapshot).1.status = .skipped ∧ s.Idle s' ∨
      (applySnapshot rt s snapshot).1.status = .success ∧ s.Advances snapshot s' := by
  unfold applySnapshot at h ⊢
  split at h
  · next hex =>
      rw [if_pos hex]
      exact .inl ⟨rfl, repeatSnapshot_idle h⟩
  · next hex =>
      rw [if_neg hex]
      split at h
      · next hlt =>
          rw [if_pos hlt]
          exact .inl ⟨rfl,
            addRun_idle (r :=
            (skipSummary snapshot .notNewer).run (some snapshot.generatedAt)) h rfl⟩
      · next hlt =>
          rw [if_neg hlt]
          exact .inr ⟨rfl, advanceSnapshot_advances (Bool.eq_false_iff.2 hlt) h⟩

/-- A call makes its snapshot the latest success, or it changes no identifier,
records no success and does not report one. -/
theorem synchronize_cases (rt : HostRuntime) (s : SyncStore) (c : SyncCall) :
    (∀ summary, (synchronize rt s c).2 = some summary → summary.status ≠ .success) ∧
      s.Idle (sync rt s c) ∨
      ∃ snapshot summary, readCurrentSnapshot c.responder = .ok snapshot ∧
        (synchronize rt s c).2 = some summary ∧ summary.status = .success ∧
          s.Advances snapshot (sync rt s c) := by
  have htr : ∀ {recorded : Bool} {status : RunStatus} {snapshotId : Option Nat} {generatedAt : Option Instant}
      {failure : RunFailure}, status ≠ .success → ∀ summary,
      (recordTerminalRun s recorded status snapshotId generatedAt failure).2 = some summary →
        summary.status ≠ .success := by
    intro recorded status snapshotId generatedAt failure hst summary hsum
    rw [recordTerminalRun_summary] at hsum
    cases hsum
    exact hst
  unfold sync synchronize
  cases hra : readCurrentSnapshot c.responder with
  | error e =>
    cases e with
    | overflow => exact .inl ⟨nofun, s.idle_refl⟩
    | read reason snapshotId generatedAt =>
      have hst : (if reason = .stale then RunStatus.skipped else .failed) ≠ .success := by
        split_ifs <;> decide
      exact .inl ⟨htr hst, recordTerminalRun_idle hst⟩
  | ok snapshot =>
    cases hfau : c.fault with
    | some fault => exact .inl ⟨htr (by decide), recordTerminalRun_idle (by decide)⟩
    | none =>
      cases hap : (applySnapshot rt s snapshot).2 with
      | error fault =>
        simp only [hap]
        exact .inl ⟨htr (by decide), recordTerminalRun_idle (by decide)⟩
      | ok s' =>
        simp only [hap]
        rcases applySnapshot_cases hap with ⟨hst, hidle⟩ | ⟨hst, had⟩
        · refine .inl ⟨?_, hidle⟩
          intro summary hsum
          cases hsum
          rw [hst]
          decide
        · exact .inr ⟨snapshot, _, rfl, rfl, hst, had⟩

def applied (rt : HostRuntime) (s : SyncStore) (c : SyncCall) : Option NetctlSnapshot :=
  match (synchronize rt s c).2, readCurrentSnapshot c.responder with
  | some summary, .ok snapshot => if summary.status = .success then some snapshot else none
  | _, _ => none

theorem applied_eq_none
    (h : ∀ summary, (synchronize rt s c).2 = some summary → summary.status ≠ .success) :
    applied rt s c = none := by
  unfold applied
  split
  · next summary snapshot hsum _ => exact if_neg (h summary hsum)
  · rfl

theorem applied_eq_some (hra : readCurrentSnapshot c.responder = .ok snapshot)
    (hsum : (synchronize rt s c).2 = some summary) (hst : summary.status = .success) :
    applied rt s c = some snapshot := by
  unfold applied
  rw [hra, hsum]
  exact if_pos hst

def appliedIn (rt : HostRuntime) : SyncStore → List SyncCall → List NetctlSnapshot
  | _, [] => []
  | s, c :: rest => (applied rt s c).toList ++ appliedIn rt (sync rt s c) rest

theorem appliedIn_cons (rt : HostRuntime) (s : SyncStore) (c : SyncCall) (rest : List SyncCall) :
    appliedIn rt s (c :: rest) = (applied rt s c).toList ++ appliedIn rt (sync rt s c) rest := rfl

def replay (cards : List IdentifierCard) (identifiers : List Identifier)
    (snapshots : List NetctlSnapshot) :
    List Identifier :=
  snapshots.foldl (fun identifiers snapshot =>
    (reconcileNetctlIdentifiers cards identifiers snapshot.hosts snapshot.generatedAt).1) identifiers

def SyncStore.record (s : SyncStore) : List (Option Nat × Option Instant) :=
  s.successes.map fun r => (r.snapshotId, r.generatedAt)

theorem SyncStore.Advances.record_eq (h : s.Advances snapshot s') :
    s'.record = s.record ++ [(some snapshot.snapshotId, some snapshot.generatedAt)] := by
  obtain ⟨counts, hsc⟩ := h.successes
  unfold SyncStore.record
  rw [hsc, map_append]
  rfl

theorem SyncStore.Idle.record_eq (h : s.Idle s') : s'.record = s.record := by
  unfold SyncStore.record
  rw [h.successes]

theorem run_replays (rt : HostRuntime) (calls : List SyncCall) (s : SyncStore) :
    (run (sync rt) s calls).cards = s.cards ∧
      (run (sync rt) s calls).identifiers = replay s.cards s.identifiers (appliedIn rt s calls) ∧
      (run (sync rt) s calls).record = s.record ++
        (appliedIn rt s calls).map fun snapshot =>
          (some snapshot.snapshotId, some snapshot.generatedAt) := by
  induction calls generalizing s with
  | nil => exact ⟨rfl, rfl, (append_nil _).symm⟩
  | cons c rest ih =>
    obtain ⟨hcr, hide, hrc⟩ := ih (sync rt s c)
    change (run (sync rt) (sync rt s c) rest).cards = _ ∧ (run (sync rt) (sync rt s c) rest).identifiers = _ ∧
      (run (sync rt) (sync rt s c) rest).record = _
    rw [hcr, hide, hrc, appliedIn_cons]
    rcases synchronize_cases rt s c with ⟨hfi, hidle⟩ | ⟨snapshot, summary, hra, hsum, hst, had⟩
    · rw [applied_eq_none hfi, hidle.cards, hidle.identifiers, hidle.record_eq]
      exact ⟨rfl, rfl, rfl⟩
    · rw [applied_eq_some hra hsum hst, had.cards, had.identifiers, had.record_eq]
      refine ⟨rfl, rfl, ?_⟩
      rw [append_assoc]
      rfl

theorem appliedIn_after (rt : HostRuntime) (calls : List SyncCall) (s : SyncStore) :
    (∀ snapshot ∈ appliedIn rt s calls, ∀ r ∈ s.record, r.1 ≠ some snapshot.snapshotId ∧
      ∀ t, r.2 = some t → t < snapshot.generatedAt) ∧ (appliedIn rt s calls).Pairwise fun first second =>
      first.snapshotId ≠ second.snapshotId ∧ first.generatedAt < second.generatedAt := by
  induction calls generalizing s with
  | nil => exact ⟨nofun, .nil⟩
  | cons c rest ih =>
    obtain ⟨haf, hpi⟩ := ih (sync rt s c)
    rw [appliedIn_cons]
    rcases synchronize_cases rt s c with ⟨hfi, hidle⟩ | ⟨snapshot, summary, hra, hsum, hst, had⟩
    · rw [applied_eq_none hfi]
      rw [hidle.record_eq] at haf
      exact ⟨haf, hpi⟩
    · rw [applied_eq_some hra hsum hst]
      rw [had.record_eq] at haf
      constructor
      · intro later hlt r hr
        rcases mem_cons.1 hlt with rfl | hmem
        · obtain ⟨run, hrun, rfl⟩ := mem_map.1 hr
          exact ⟨had.unseen run hrun, had.later run hrun⟩
        · exact haf later hmem r (mem_append_left _ hr)
      · refine pairwise_cons.2 ⟨?_, hpi⟩
        intro later hlt
        obtain ⟨hid, htm⟩ := haf later hlt _ (mem_append_right _ (mem_singleton.2 rfl))
        exact ⟨fun h => hid (congrArg some h), htm _ rfl⟩

/-- A snapshot is read whole or not at all.  In every run the identifiers are
those that the successful snapshots leave, which the ledger records and whose
times increase; a call without success changes no identifier. -/
theorem snapshots_applied_in_order (rt : HostRuntime) (s : SyncStore) (calls : List SyncCall) :
    (∀ (responder : Responder) (snapshot : NetctlSnapshot),
      readCurrentSnapshot responder = .ok snapshot →
      snapshot.Whole responder) ∧
    (run (sync rt) s calls).identifiers = replay s.cards s.identifiers (appliedIn rt s calls) ∧
    (run (sync rt) s calls).record = s.record ++
      (appliedIn rt s calls).map
        (fun snapshot => (some snapshot.snapshotId, some snapshot.generatedAt)) ∧
    (appliedIn rt s calls).Pairwise (fun first second =>
      first.snapshotId ≠ second.snapshotId ∧ first.generatedAt < second.generatedAt) ∧
    ∀ c : SyncCall, (∀ summary, (synchronize rt (run (sync rt) s calls) c).2 = some summary →
        summary.status ≠ .success) →
      (run (sync rt) s (calls ++ [c])).identifiers = (run (sync rt) s calls).identifiers := by
  obtain ⟨-, hide, hrc⟩ := run_replays rt calls s
  refine ⟨fun _ _ => readCurrentSnapshot_whole, hide, hrc, (appliedIn_after rt calls s).2, ?_⟩
  intro c hfi
  rw [run_append]
  rcases synchronize_cases rt (run (sync rt) s calls) c with ⟨-, hidle⟩ | ⟨_, summary, -, hsum, hst, -⟩
  · exact hidle.identifiers
  · exact absurd hst (hfi summary hsum)

end Inventory

end WebOvpn
