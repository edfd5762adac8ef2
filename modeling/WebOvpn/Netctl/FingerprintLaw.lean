/-
Fingerprints of assets: a call reuses a fresh run, joins one that goes on, or claims a
run of its own.  One scan of an asset runs at a time, the results are those of the run's
own scan, and there is no scan while a fresh one is there.
-/
import Mathlib.Data.List.MinMax
import WebOvpn.Lib.Rows
import WebOvpn.Lib.Run
import WebOvpn.Lib.Text

namespace WebOvpn.Fingerprints

structure NmapPort where
  protocol : Text
  port : Int
  state : Text
  serviceName : Text
  product : Text
  version : Text
  extraInfo : Text
  tunnel : Text
  method : Text
  confidence : Option Int
  cpes : List Text

structure NmapOSClass where
  type : Text
  vendor : Text
  osfamily : Text
  osgen : Text
  accuracy : Option Int
  cpes : List Text

structure NmapOSMatch where
  name : Text
  accuracy : Option Int
  classes : List NmapOSClass

structure NmapFingerprint where
  nmapVersion : Text
  ports : List NmapPort
  osMatches : List NmapOSMatch

/-- The keys of `_RUNNER_MESSAGES`. -/
inductive RunnerClass where
  | timeout
  | helperUnavailable
  | helperPermissionDenied
  | helperError
  | scanFailed
  | invalidOutput
  deriving DecidableEq

inductive ErrorClass where
  | runner (errorClass : RunnerClass)
  | internalError
  | staleRunning
  deriving DecidableEq

/-- A whole second. The texts of `utc_now` have one format, so that they are
ordered as the seconds are. -/
abbrev Time := Nat

def age (now before : Time) : Nat := now - before

structure FingerprintProfile where
  ttlSeconds : Nat
  staleRunningSeconds : Nat
  hasTtl : 0 < ttlSeconds
  hasStale : 30 < staleRunningSeconds

inductive Status where
  | running
  | success (finishedAt : Time) (nmapVersion : Text)
  | failed (finishedAt : Time) (errorClass : ErrorClass)
  deriving DecidableEq

/-- A row of `nmap_fingerprint_runs`, whose id is its place. The last two columns
are not in the table: the worker that claimed the run, and what its scan of which
address returned. -/
structure Run (κ : Type) where
  assetId : Nat
  targetIp : Text
  status : Status
  startedAt : Time
  claimant : κ
  scanned : Option (Text × Except ErrorClass NmapFingerprint)

structure PortRow where
  runId : Nat
  port : NmapPort

structure OsMatchRow where
  runId : Nat
  position : Nat
  osMatch : NmapOSMatch

structure Store (κ : Type) where
  runs : List (Run κ)
  ports : List PortRow
  osMatches : List OsMatchRow

namespace Status

def isRunning : Status → Bool
  | .running => true
  | _ => false

def succeededAt : Status → Option Time
  | .success finishedAt _ => some finishedAt
  | _ => none

end Status

/-- A call of `ensure_fingerprint` up to the end of `_claim`: what `resolve_asset_target`
says at that time, the clock, the profile, and whether the transaction fails. -/
structure Claim where
  target : Option (Nat × Text)
  now : Time
  profile : FingerprintProfile
  fails : Bool

inductive Phase where
  | idle
  /-- The executor was called with the address of the claimed run. -/
  | scanning (run : Nat) (targetIp : Text)
  | finishing (run : Nat) (result : Except ErrorClass NmapFingerprint)
  /-- The call returned what is stored of a run, or it raised. -/
  | returned (run : Option Nat)

inductive Event where
  | claim (claim : Claim)
  /-- The executor returns or raises. -/
  | scan (result : Except ErrorClass NmapFingerprint)
  | finish (now : Time) (fails : Bool)
  /-- The process ends. -/
  | crash

section

variable {κ : Type}

def successes (runs : List (Run κ)) (assetId : Nat) (targetIp : Text) : List (Run κ × Nat) :=
  runs.zipIdx.filter fun entry =>
    entry.1.assetId = assetId && entry.1.targetIp = targetIp && entry.1.status.succeededAt.isSome

def runnings (runs : List (Run κ)) (assetId : Nat) : List (Run κ × Nat) :=
  runs.zipIdx.filter fun entry => entry.1.assetId = assetId && entry.1.status.isRunning

/-- The last one by `finished_at`, and by id. -/
def latestSuccess (runs : List (Run κ)) (assetId : Nat) (targetIp : Text) : Option (Run κ × Nat) :=
  (successes runs assetId targetIp).reverse.argmax fun entry => entry.1.status.succeededAt.getD 0

/-- The last one by `started_at`, and by id. -/
def latestRunning (runs : List (Run κ)) (assetId : Nat) : Option (Run κ × Nat) :=
  (runnings runs assetId).reverse.argmax fun entry => entry.1.startedAt

def Run.reclaim (now : Time) (run : Run κ) : Run κ :=
  if run.status.isRunning then { run with status := .failed now .staleRunning } else run

def insertRun (who : κ) (store : Store κ) (assetId : Nat) (targetIp : Text) (now : Time) :
    Option (Store κ) :=
  if (runnings store.runs assetId).isEmpty then
    some { store with runs := store.runs ++ [⟨assetId, targetIp, .running, now, who, none⟩] }
  else none

def startRun (who : κ) (before store : Store κ) (assetId : Nat) (targetIp : Text) (now : Time) :
    Store κ × Phase :=
  match insertRun who store assetId targetIp now with
  | some after => (after, .scanning store.runs.length targetIp)
  | none => (before, .returned none)

/-- `_claim` with no fresh run. -/
def claimStale (who : κ) (store : Store κ) (assetId : Nat) (targetIp : Text) (claim : Claim) :
    Store κ × Phase :=
  match latestRunning store.runs assetId with
  | none => startRun who store store assetId targetIp claim.now
  | some (running, id) =>
    if claim.profile.staleRunningSeconds ≤ age claim.now running.startedAt then
      startRun who store { store with runs := store.runs.modify id (Run.reclaim claim.now) } assetId
        targetIp claim.now
    else (store, .returned (some id))

def claimRun (who : κ) (store : Store κ) (claim : Claim) : Store κ × Phase :=
  match claim.target with
  | none => (store, .returned none)
  | some (assetId, targetIp) =>
    if claim.fails then (store, .returned none)
    else
      match latestSuccess store.runs assetId targetIp with
      | none => claimStale who store assetId targetIp claim
      | some (fresh, id) =>
        if age claim.now (fresh.status.succeededAt.getD 0) <
          claim.profile.ttlSeconds then (store, .returned (some id))
        else claimStale who store assetId targetIp claim

def Run.scan (targetIp : Text) (result : Except ErrorClass NmapFingerprint) (run : Run κ) : Run κ :=
  { run with scanned := some (targetIp, result) }

def finishFailed (store : Store κ) (id : Nat) (now : Time) (errorClass : ErrorClass) : Store κ :=
  { store with
    runs := store.runs.modify id fun run =>
      if run.status.isRunning then { run with status := .failed now errorClass } else run }

def Store.isRunning (store : Store κ) (id : Nat) : Bool :=
  store.runs[id]?.any fun run => run.status.isRunning

def finishSuccess (store : Store κ) (id : Nat) (fingerprint : NmapFingerprint) (now : Time) : Store κ :=
  if store.isRunning id then
    { runs := store.runs.modify id fun run => { run with status := .success now fingerprint.nmapVersion }
      ports := store.ports ++ fingerprint.ports.map fun port => ⟨id, port⟩
      osMatches := store.osMatches ++ fingerprint.osMatches.zipIdx.map fun entry => ⟨id, entry.2, entry.1⟩ }
  else store

/-- `ensure_fingerprint`, one transaction or one scan at a time. -/
def act (who : κ) (event : Event) (store : Store κ) (phase : Phase) : Store κ × Phase :=
  match event, phase with
  | .crash, _ => (store, .idle)
  | .claim claim, .idle => claimRun who store claim
  | .claim claim, .returned _ => claimRun who store claim
  | .scan result, .scanning id targetIp =>
    ({ store with runs := store.runs.modify id (Run.scan targetIp result) }, .finishing id result)
  | .finish now fails, .finishing id result =>
    if fails then (store, .returned none)
    else
      match result with
      | .ok fingerprint => (finishSuccess store id fingerprint now, .returned (some id))
      | .error errorClass => (finishFailed store id now errorClass, .returned (some id))
  | _, _ => (store, phase)

end

open List

variable {κ : Type} {who other : κ} {store store' : Store κ} {phase phase' : Phase} {event : Event}
    {claim : Claim}
  {id assetId : Nat} {targetIp : Text} {now : Time} {row : Run κ} {result : Except ErrorClass NmapFingerprint}
  {fingerprint : NmapFingerprint} {errorClass : ErrorClass}

namespace Store

def portsOf (store : Store κ) (id : Nat) : List NmapPort :=
  (store.ports.filter fun row => row.runId = id).map PortRow.port

def osMatchesOf (store : Store κ) (id : Nat) : List (NmapOSMatch × Nat) :=
  (store.osMatches.filter fun row => row.runId = id).map fun row => (row.osMatch, row.position)

/-- What is stored of a run that may have succeeded: what its own scan of its own
target returned, or nothing. -/
structure Backed (store : Store κ) (id : Nat) : Prop where
  success : ∀ run finishedAt version, store.runs[id]? = some run → run.status = .success finishedAt version →
    ∃ fingerprint, run.scanned = some (run.targetIp, .ok fingerprint) ∧ version = fingerprint.nmapVersion ∧
      store.portsOf id = fingerprint.ports ∧ store.osMatchesOf id = fingerprint.osMatches.zipIdx
  other : (∀ run, store.runs[id]? = some run → run.status.succeededAt = none) →
    store.portsOf id = [] ∧ store.osMatchesOf id = []

end Store

/-- What holds of the tables in every state. -/
structure Sound (store : Store κ) : Prop where
  single : ∀ (i j : Nat) (run run' : Run κ), store.runs[i]? = some run → store.runs[j]? = some run' →
    run.status.isRunning = true → run'.status.isRunning = true → run.assetId = run'.assetId → i = j
  backed : ∀ id, store.Backed id

/-- What holds of a worker: the run it works on is its own, and has the address that it
scans, and the result that it has. -/
def Working (store : Store κ) (who : κ) : Phase → Prop
  | .idle | .returned _ => True
  | .scanning id targetIp =>
    ∃ run, store.runs[id]? = some run ∧ run.claimant = who ∧ run.targetIp = targetIp ∧ run.scanned = none
  | .finishing id result =>
    ∃ run, store.runs[id]? = some run ∧ run.claimant = who ∧ run.scanned = some (run.targetIp, result)

/-- A run goes on as it may for any other worker than its own: it may be reclaimed, and no more. -/
def Goes (run run' : Run κ) : Prop :=
  run'.claimant = run.claimant ∧ run'.targetIp = run.targetIp ∧ run'.scanned = run.scanned

variable {entry : Run κ × Nat} {runs : List (Run κ)} {run run' : Run κ} {i : Nat}

theorem mem_successes : entry ∈ successes runs assetId targetIp ↔
    runs[entry.2]? = some entry.1 ∧ entry.1.assetId = assetId ∧ entry.1.targetIp = targetIp ∧
      entry.1.status.succeededAt.isSome = true := by
  unfold successes
  rw [mem_filter, mem_zipIdx_iff_getElem?]
  simp [and_assoc]

theorem mem_runnings : entry ∈ runnings runs assetId ↔
    runs[entry.2]? = some entry.1 ∧ entry.1.assetId = assetId ∧ entry.1.status.isRunning = true := by
  unfold runnings
  rw [mem_filter, mem_zipIdx_iff_getElem?]
  simp

theorem latestSuccess_eq_none (h : latestSuccess runs assetId targetIp = none) :
    ∀ entry, entry ∉ successes runs assetId targetIp := by
  unfold latestSuccess at h
  rw [argmax_eq_none, reverse_eq_nil_iff] at h
  rw [h]
  nofun

theorem latestRunning_eq_none (h : latestRunning runs assetId = none) :
    ∀ entry, entry ∉ runnings runs assetId := by
  unfold latestRunning at h
  rw [argmax_eq_none, reverse_eq_nil_iff] at h
  rw [h]
  nofun

/-- The worker has no run. -/
def Phase.isDone : Phase → Bool
  | .idle | .returned _ => true
  | _ => false

inductive Closes : Run κ → Run κ → Prop
  | same (run : Run κ) : Closes run run
  | failed (run : Run κ) (now : Time) (errorClass : ErrorClass) (hrunning : run.status.isRunning = true) :
      Closes run { run with status := .failed now errorClass }

structure ClosesSome (runs runs' : List (Run κ)) : Prop where
  length : runs'.length = runs.length
  closes : Grows Closes runs runs'

/-- What a step makes of the tables. -/
inductive Change (who : κ) (store : Store κ) (phase : Phase) : Store κ → Phase → Prop
  | kept {phase' : Phase} (h : phase'.isDone = true ∨ phase' = phase) : Change who store phase store phase'
  | claimed {assetId : Nat} {targetIp : Text} {now : Time} {runs : List (Run κ)}
    (hcl : ClosesSome store.runs runs)
      (hnn : ∀ entry, entry ∉ runnings runs assetId) :
      Change who store phase { store with runs := runs ++ [⟨assetId, targetIp, .running, now, who, none⟩] }
        (.scanning runs.length targetIp)
  | scanned {id : Nat} {targetIp : Text} (result : Except ErrorClass NmapFingerprint)
      (hph : phase = .scanning id targetIp) :
      Change who store phase { store with runs := store.runs.modify id (Run.scan targetIp result) }
        (.finishing id result)
  | failed {phase' : Phase} {runs : List (Run κ)} (hph' : phase'.isDone = true)
    (hcl : ClosesSome store.runs runs) :
      Change who store phase { store with runs := runs } phase'
  | succeeded {phase' : Phase} {id : Nat} {run : Run κ} (fingerprint : NmapFingerprint) (now : Time)
      (hph : phase = .finishing id (.ok fingerprint)) (hph' : phase'.isDone = true)
      (hrun : store.runs[id]? = some run) (hrunn : run.status.isRunning = true) :
      Change who store phase
        { runs := store.runs.modify id fun run => { run with status := .success now fingerprint.nmapVersion }
          ports := store.ports ++ fingerprint.ports.map fun port => ⟨id, port⟩
          osMatches := store.osMatches ++ fingerprint.osMatches.zipIdx.map fun entry =>
            ⟨id, entry.2, entry.1⟩ } phase'

theorem closesSome_modify {finish : Run κ → Run κ} (h : ∀ run, Closes run (finish run))
    (runs : List (Run κ)) (id : Nat) :
    ClosesSome runs (runs.modify id finish) :=
  ⟨length_modify .., grows_modify .same fun run _ => h run⟩

theorem closes_if (now : Time) (errorClass : ErrorClass) (run : Run κ) :
    Closes run (if run.status.isRunning then { run with status := .failed now errorClass }
      else run) := by
  by_cases hrun : run.status.isRunning = true
  · rw [if_pos hrun]
    exact .failed run now errorClass hrun
  · rw [if_neg hrun]
    exact .same run

theorem startRun_change (hcl : ClosesSome store.runs runs) :
    Change who store phase (startRun who store { store with runs := runs } assetId targetIp now).1
      (startRun who store { store with runs := runs } assetId targetIp now).2 := by
  unfold startRun insertRun
  by_cases hem : (runnings runs assetId).isEmpty = true
  · rw [if_pos hem]
    apply Change.claimed hcl
    rw [List.isEmpty_iff] at hem
    rw [hem]
    nofun
  · rw [if_neg hem]
    exact .kept (.inl rfl)

theorem claimStale_change : Change who store phase (claimStale who store assetId targetIp claim).1
    (claimStale who store assetId targetIp claim).2 := by
  unfold claimStale
  split
  · exact startRun_change ⟨rfl, grows_refl .same store.runs⟩
  · split_ifs
    · exact startRun_change (closesSome_modify (closes_if claim.now .staleRunning) store.runs _)
    · exact .kept (.inl rfl)

theorem claimRun_change :
    Change who store phase (claimRun who store claim).1 (claimRun who store claim).2 := by
  unfold claimRun
  split
  · exact .kept (.inl rfl)
  · split_ifs
    · exact .kept (.inl rfl)
    · split
      · exact claimStale_change
      · split_ifs
        · exact .kept (.inl rfl)
        · exact claimStale_change

theorem finishSuccess_change (hph : phase = .finishing id (.ok fingerprint))
    (hph' : phase'.isDone = true) :
    Change who store phase (finishSuccess store id fingerprint now) phase' := by
  unfold finishSuccess
  split_ifs with hrunn
  · unfold Store.isRunning at hrunn
    obtain ⟨run, hrun, hrunn⟩ := (Option.any_eq_true ..).1 hrunn
    exact .succeeded fingerprint now hph hph' hrun hrunn
  · exact .kept (.inl hph')

/-- A step of a worker is one of the changes. -/
theorem act_change (who : κ) (event : Event) (store : Store κ) (phase : Phase) :
    Change who store phase (act who event store phase).1 (act who event store phase).2 := by
  cases event with
  | crash => exact .kept (.inl rfl)
  | claim claim =>
    cases phase with
    | idle => exact claimRun_change
    | returned run => exact claimRun_change
    | _ => exact .kept (.inr rfl)
  | scan result =>
    cases phase with
    | scanning id targetIp => exact .scanned result rfl
    | _ => exact .kept (.inr rfl)
  | finish now fails =>
    cases phase with
    | finishing id result =>
      cases fails with
      | true => exact .kept (.inl rfl)
      | false =>
        cases result with
        | ok fingerprint => exact finishSuccess_change rfl rfl
        | error errorClass => exact .failed rfl (closesSome_modify (closes_if now errorClass) store.runs id)
    | _ => exact .kept (.inr rfl)

theorem Closes.running (h : Closes run run') (hrun : run'.status.isRunning = true) : run' = run := by
  cases h with
  | same => rfl
  | failed => cases hrun

theorem Closes.succeeded (h : Closes run run')
    (hsc : run.status.succeededAt ≠ none ∨ run'.status.succeededAt ≠ none) : run' = run := by
  cases h with
  | same => rfl
  | failed now errorClass hrun =>
    rcases hsc with hsc | hsc
    · cases hst : run.status with
      | running =>
        rw [hst] at hsc
        exact absurd rfl hsc
      | _ =>
        rw [hst] at hrun
        cases hrun
    · exact absurd rfl hsc

theorem Closes.goes (h : Closes run run') : Goes run run' := by
  cases h <;> exact ⟨rfl, rfl, rfl⟩

theorem ClosesSome.old {runs' : List (Run κ)} (h : ClosesSome runs runs')
    (hrun' : runs'[i]? = some run') : ∃ run, runs[i]? = some run ∧ Closes run run' := by
  have hlt : i < runs.length := by
    rw [← h.length]
    exact (List.getElem?_eq_some_iff.1 hrun').1
  obtain ⟨run'', hrun'', hcl⟩ := h.closes i runs[i] (getElem?_eq_getElem hlt)
  cases hrun''.symm.trans hrun'
  exact ⟨runs[i], getElem?_eq_getElem hlt, hcl⟩

theorem Store.Backed.same (h : store.Backed id) (hports : store'.ports = store.ports)
    (hosMat : store'.osMatches = store.osMatches)
    (hold : ∀ run', store'.runs[id]? = some run' → run'.status.succeededAt ≠ none →
      store.runs[id]? = some run')
    (hnew : ∀ run, store.runs[id]? = some run → run.status.succeededAt ≠ none →
      store'.runs[id]? = some run) :
    store'.Backed id := by
  have hpr : store'.portsOf id = store.portsOf id := by
    unfold Store.portsOf
    rw [hports]
  have hosM : store'.osMatchesOf id = store.osMatchesOf id := by
    unfold Store.osMatchesOf
    rw [hosMat]
  constructor
  · intro run' finishedAt version hrun' hst
    rw [hpr, hosM]
    exact h.success run' finishedAt version (hold run' hrun' (by rw [hst]; exact Option.some_ne_none _)) hst
  · intro hnn
    rw [hpr, hosM]
    apply h.other
    intro run hrun
    by_contra hsc
    exact hsc (hnn run (hnew run hrun hsc))

theorem ClosesSome.backed (h : ClosesSome store.runs runs) (hbc : store.Backed id) :
    ({ store with runs := runs } : Store κ).Backed id := by
  refine Store.Backed.same hbc (by rfl) (by rfl) ?_ ?_
  · intro run' hrun' hsc
    obtain ⟨run, hrun, hcl⟩ := h.old hrun'
    rw [hcl.succeeded (.inr hsc)]
    exact hrun
  · intro run hrun hsc
    obtain ⟨run', hrun', hcl⟩ := h.closes id run hrun
    rw [hcl.succeeded (.inl hsc)] at hrun'
    exact hrun'

theorem ClosesSome.sound (h : ClosesSome store.runs runs) (hsn : Sound store) :
    Sound ({ store with runs := runs } : Store κ) := by
  refine ⟨fun i j run run' hi hj hrun hrun' hass => ?_, fun id => h.backed (hsn.backed id)⟩
  obtain ⟨old, hold, hcl⟩ := h.old hi
  obtain ⟨old', hold', hcl'⟩ := h.old hj
  cases hcl.running hrun
  cases hcl'.running hrun'
  exact hsn.single i j run run' hold hold' hrun hrun' hass

theorem Sound.claimed (hsn : Sound store) (hnn : ∀ entry, entry ∉ runnings store.runs assetId) :
    Sound { store with runs := store.runs ++ [⟨assetId, targetIp, .running, now, who, none⟩] } := by
  have hold : ∀ (i : Nat) (run : Run κ), store.runs[i]? = some run → run.status.isRunning = true →
    run.assetId ≠ assetId := by
    intro i run hrun hrunn hass
    exact hnn (run, i) (mem_runnings.2 ⟨hrun, hass, hrunn⟩)
  constructor
  · intro i j run run' hi hj hrunn hrunn' hass
    rcases getElem?_append_cases hi with ⟨-, hi⟩ | ⟨hlei, hi⟩
    · rcases getElem?_append_cases hj with ⟨-, hj⟩ | ⟨hlej, hj⟩
      · exact hsn.single i j run run' hi hj hrunn hrunn' hass
      · rw [mem_singleton.1 (mem_of_getElem? hj)] at hass
        exact absurd hass (hold i run hi hrunn)
    · rcases getElem?_append_cases hj with ⟨-, hj⟩ | ⟨hlej, hj⟩
      · rw [mem_singleton.1 (mem_of_getElem? hi)] at hass
        exact absurd hass.symm (hold j run' hj hrunn')
      · have hi' := (List.getElem?_eq_some_iff.1 hi).1
        have hj' := (List.getElem?_eq_some_iff.1 hj).1
        rw [length_singleton] at hi' hj'
        omega
  · intro id
    refine Store.Backed.same (hsn.backed id) (by rfl) (by rfl) ?_ ?_
    · intro run' hrun' hsc
      rcases getElem?_append_cases hrun' with ⟨-, hrun⟩ | ⟨-, hrun⟩
      · exact hrun
      · rw [mem_singleton.1 (mem_of_getElem? hrun)] at hsc
        exact absurd rfl hsc
    · intro run hrun _
      exact (getElem?_append_left (List.getElem?_eq_some_iff.1 hrun).1).trans hrun

theorem Sound.scan (hsn : Sound store) (hrow : store.runs[id]? = some row) (hun : row.scanned = none) :
    Sound { store with runs := store.runs.modify id (Run.scan targetIp result) } := by
  have hfi : row.status.succeededAt = none := by
    cases hst : row.status with
    | success finishedAt version =>
      obtain ⟨fingerprint, hsa, -⟩ := (hsn.backed id).success row finishedAt version hrow hst
      rw [hun] at hsa
      cases hsa
    | _ => rfl
  constructor
  · intro i j run run' hi hj hrunn hrunn' hass
    have hold : ∀ (k : Nat) (run : Run κ), (store.runs.modify id (Run.scan targetIp result))[k]? = some run →
        ∃ old, store.runs[k]? = some old ∧ old.status = run.status ∧ old.assetId = run.assetId := by
      intro k run hrun
      rcases getElem?_modify_cases hrun with ⟨-, hrun⟩ | ⟨rfl, old, hold, rfl⟩
      · exact ⟨run, hrun, rfl, rfl⟩
      · exact ⟨old, hold, rfl, rfl⟩
    obtain ⟨old, hold₁, hst, hass₁⟩ := hold i run hi
    obtain ⟨old', hold₂, hst', hass₂⟩ := hold j run' hj
    exact hsn.single i j old old' hold₁ hold₂ (by rw [hst]; exact hrunn) (by rw [hst']; exact hrunn')
      (hass₁.trans (hass.trans hass₂.symm))
  · intro k
    refine Store.Backed.same (hsn.backed k) (by rfl) (by rfl) ?_ ?_
    · intro run' hrun' hsc
      rcases getElem?_modify_cases hrun' with ⟨-, hrun⟩ | ⟨rfl, old, hold, rfl⟩
      · exact hrun
      · cases hrow.symm.trans hold
        exact absurd hfi hsc
    · intro run hrun hsc
      refine (getElem?_modify_ne _ _ fun heq => ?_).trans hrun
      subst heq
      cases hrow.symm.trans hrun
      exact hsc hfi

theorem portsOf_append (ports : List NmapPort) (k : Nat) :
    ((ports.map fun port => (⟨id, port⟩ : PortRow)).filter
    fun row => row.runId = k).map PortRow.port = if id = k then ports else [] := by
  by_cases hk : id = k
  · rw [if_pos hk, filter_eq_self.2, map_map]
    · exact map_id _
    · intro row hrow
      obtain ⟨port, -, rfl⟩ := mem_map.1 hrow
      exact decide_eq_true hk
  · rw [if_neg hk, filter_eq_nil_iff.2]
    · rfl
    · intro row hrow hsm
      obtain ⟨port, -, rfl⟩ := mem_map.1 hrow
      exact hk (of_decide_eq_true hsm)

theorem osMatchesOf_append (matches' : List (NmapOSMatch × Nat)) (k : Nat) :
    ((matches'.map fun entry => (⟨id, entry.2, entry.1⟩ : OsMatchRow)).filter fun row =>
      row.runId = k).map
      (fun row => (row.osMatch, row.position)) = if id = k then matches' else [] := by
  by_cases hk : id = k
  · rw [if_pos hk, filter_eq_self.2, map_map]
    · exact map_id _
    · intro row hrow
      obtain ⟨entry, -, rfl⟩ := mem_map.1 hrow
      exact decide_eq_true hk
  · rw [if_neg hk, filter_eq_nil_iff.2]
    · rfl
    · intro row hrow hsm
      obtain ⟨entry, -, rfl⟩ := mem_map.1 hrow
      exact hk (of_decide_eq_true hsm)

def stored (store : Store κ) (id : Nat) (fingerprint : NmapFingerprint) (now : Time) : Store κ :=
  { runs := store.runs.modify id fun run => { run with status := .success now fingerprint.nmapVersion }
    ports := store.ports ++ fingerprint.ports.map fun port => ⟨id, port⟩
    osMatches := store.osMatches ++ fingerprint.osMatches.zipIdx.map fun entry => ⟨id, entry.2, entry.1⟩ }

theorem portsOf_stored (k : Nat) : (stored store id fingerprint now).portsOf k =
    store.portsOf k ++ if id = k then fingerprint.ports else [] := by
  unfold stored Store.portsOf
  dsimp only
  rw [filter_append, map_append, portsOf_append]

theorem osMatchesOf_stored (k : Nat) : (stored store id fingerprint now).osMatchesOf k =
    store.osMatchesOf k ++ if id = k then fingerprint.osMatches.zipIdx else [] := by
  unfold stored Store.osMatchesOf
  dsimp only
  rw [filter_append, map_append, osMatchesOf_append]

theorem Sound.succeed (hsn : Sound store) (hrow : store.runs[id]? = some row)
    (hrunn : row.status.isRunning = true)
    (hsc : row.scanned = some (row.targetIp, .ok fingerprint)) :
      Sound (stored store id fingerprint now) := by
  have hunf : row.status.succeededAt = none := by
    cases hst : row.status with
    | success =>
      rw [hst] at hrunn
      cases hrunn
    | _ => rfl
  constructor
  · intro i j run run' hi hj hisR hisR' hass
    have hold : ∀ (k : Nat) (run : Run κ), (stored store id fingerprint now).runs[k]? = some run →
      run.status.isRunning = true →
        store.runs[k]? = some run := by
      intro k run hrun hisR
      rcases getElem?_modify_cases hrun with ⟨-, hrun⟩ | ⟨rfl, old, -, rfl⟩
      · exact hrun
      · cases hisR
    exact hsn.single i j run run' (hold i run hi hisR) (hold j run' hj hisR') hisR hisR' hass
  · intro k
    by_cases hk : id = k
    · subst hk
      obtain ⟨hpr, hosM⟩ := (hsn.backed id).other fun run hrun => by
        cases hrow.symm.trans hrun
        exact hunf
      have hnew : (stored store id fingerprint now).runs[id]? =
          some { row with status := .success now fingerprint.nmapVersion } := by
        unfold stored
        dsimp only
        rw [getElem?_modify_eq, hrow]
        rfl
      constructor
      · intro run finishedAt version hrun hst
        cases hnew.symm.trans hrun
        cases hst
        refine ⟨fingerprint, hsc, rfl, ?_, ?_⟩
        · rw [portsOf_stored, if_pos rfl, hpr, nil_append]
        · rw [osMatchesOf_stored, if_pos rfl, hosM, nil_append]
      · intro hnn
        cases hnn _ hnew
    · have hsm : (stored store id fingerprint now).runs[k]? = store.runs[k]? := getElem?_modify_ne _ _ hk
      constructor
      · intro run finishedAt version hrun hst
        rw [portsOf_stored, osMatchesOf_stored, if_neg hk, if_neg hk, append_nil, append_nil]
        exact (hsn.backed k).success run finishedAt version (hsm.symm.trans hrun) hst
      · intro hnn
        rw [portsOf_stored, osMatchesOf_stored, if_neg hk, if_neg hk, append_nil, append_nil]
        exact (hsn.backed k).other fun run hrun => hnn run (hsm.trans hrun)

theorem Change.sound (h : Change who store phase store' phase') (hsn : Sound store)
    (hwr : Working store who phase) :
    Sound store' := by
  cases h with
  | kept => exact hsn
  | claimed hcl hnn => exact (hcl.sound hsn).claimed hnn
  | scanned result hph =>
    subst hph
    obtain ⟨run, hrun, -, -, hun⟩ := hwr
    exact hsn.scan hrun hun
  | failed hph' hcl => exact hcl.sound hsn
  | succeeded fingerprint now hph hph' hrun hrunn =>
    subst hph
    obtain ⟨run, hrun', -, hsc⟩ := hwr
    cases hrun.symm.trans hrun'
    exact hsn.succeed hrun hrunn hsc

theorem working_of_isDone (h : phase.isDone = true) : Working store who phase := by
  cases phase with
  | idle => trivial
  | returned => trivial
  | _ => cases h

theorem Change.working (h : Change who store phase store' phase') (hwr : Working store who phase) :
    Working store' who phase' := by
  cases h with
  | kept h =>
    rcases h with hdn | rfl
    · exact working_of_isDone hdn
    · exact hwr
  | claimed => exact ⟨_, getElem?_concat_length, rfl, rfl, rfl⟩
  | @scanned id targetIp result hph =>
    subst hph
    obtain ⟨run, hrun, hcl, htg, -⟩ := hwr
    refine ⟨Run.scan targetIp result run, ?_, hcl, ?_⟩
    · dsimp only
      rw [getElem?_modify_eq, hrun]
      rfl
    · change some (targetIp, result) = some (run.targetIp, result)
      rw [htg]
  | failed hph' => exact working_of_isDone hph'
  | succeeded fingerprint now hph hph' => exact working_of_isDone hph'

theorem goes_refl (run : Run κ) : Goes run run := ⟨rfl, rfl, rfl⟩

/-- The runs of other workers keep what their workers know of them. -/
theorem Change.goes (h : Change who store phase store' phase') (hwr : Working store who phase)
    (hrun : store.runs[i]? = some run) (hne : run.claimant ≠ who) :
      ∃ run', store'.runs[i]? = some run' ∧ Goes run run' := by
  cases h with
  | kept => exact ⟨run, hrun, goes_refl run⟩
  | claimed hcs =>
    obtain ⟨run', hrun', hcl⟩ := hcs.closes i run hrun
    exact ⟨run', (getElem?_append_left (List.getElem?_eq_some_iff.1 hrun').1).trans hrun', hcl.goes⟩
  | @scanned id targetIp result hph =>
    subst hph
    obtain ⟨own, hown, hcm, -⟩ := hwr
    refine ⟨run, (getElem?_modify_ne _ _ fun heq => ?_).trans hrun, goes_refl run⟩
    subst heq
    cases hown.symm.trans hrun
    exact hne hcm
  | failed hph' hcs =>
    obtain ⟨run', hrun', hcl⟩ := hcs.closes i run hrun
    exact ⟨run', hrun', hcl.goes⟩
  | succeeded =>
    refine grows_modify goes_refl ?_ i run hrun
    exact fun run _ => ⟨rfl, rfl, rfl⟩

theorem Working.goes (hwr : Working store who phase)
    (hgos : ∀ (i : Nat) (run : Run κ), store.runs[i]? = some run → run.claimant = who →
      ∃ run', store'.runs[i]? = some run' ∧ Goes run run') : Working store' who phase := by
  cases phase with
  | scanning id targetIp =>
    obtain ⟨run, hrun, hcl, htg, hun⟩ := hwr
    obtain ⟨run', hrun', hcl', htg', hsc'⟩ := hgos id run hrun hcl
    exact ⟨run', hrun', hcl'.trans hcl, htg'.trans htg, hsc'.trans hun⟩
  | finishing id result =>
    obtain ⟨run, hrun, hcl, hsc⟩ := hwr
    obtain ⟨run', hrun', hcl', htg', hsc'⟩ := hgos id run hrun hcl
    refine ⟨run', hrun', hcl'.trans hcl, ?_⟩
    rw [hsc', htg']
    exact hsc
  | _ => trivial

structure StepLaw (who : κ) (event : Event) (before after : Crew κ (Store κ) Phase) : Prop where
  /-- A run that has left `running` stays as it is, but for what its late scan returned. -/
  settled : ∀ (i : Nat) (run : Run κ), before.shared.runs[i]? = some run → run.status.isRunning = false →
    ∃ run', after.shared.runs[i]? = some run' ∧ run' = { run with scanned := run'.scanned }
  /-- A scan is started by a claim, in whose time no run of the asset at the address is fresh and
  no run of the asset goes on. -/
  starts : ∀ id targetIp, after.workers who = .scanning id targetIp →
    before.workers who ≠ .scanning id targetIp →
    ∃ claim assetId, event = .claim claim ∧ claim.target = some (assetId, targetIp) ∧
      (∀ (i : Nat) (run : Run κ) finishedAt, before.shared.runs[i]? = some run → run.assetId = assetId →
        run.targetIp = targetIp → run.status.succeededAt = some finishedAt →
          claim.profile.ttlSeconds ≤ age claim.now finishedAt) ∧
      ∀ (i : Nat) (run : Run κ), before.shared.runs[i]? = some run → run.assetId = assetId →
        run.status.isRunning = true → claim.profile.staleRunningSeconds ≤ age claim.now run.startedAt

theorem Closes.settled (h : Closes run run') (hset : run.status.isRunning = false) : run' = run := by
  cases h with
  | same => rfl
  | failed now errorClass hrun =>
    rw [hset] at hrun
    cases hrun

theorem Change.settled (h : Change who store phase store' phase') (hrun : store.runs[i]? = some run)
    (hset : run.status.isRunning = false) : ∃ run', store'.runs[i]? = some run' ∧
      run' = { run with scanned := run'.scanned } := by
  cases h with
  | kept => exact ⟨run, hrun, rfl⟩
  | claimed hcs =>
    obtain ⟨run', hrun', hcl⟩ := hcs.closes i run hrun
    rw [hcl.settled hset] at hrun'
    exact ⟨run, (getElem?_append_left (List.getElem?_eq_some_iff.1 hrun').1).trans hrun', rfl⟩
  | @scanned id targetIp result hph =>
    by_cases hid : id = i
    · subst hid
      refine ⟨Run.scan targetIp result run, ?_, rfl⟩
      dsimp only
      rw [getElem?_modify_eq, hrun]
      rfl
    · exact ⟨run, (getElem?_modify_ne _ _ hid).trans hrun, rfl⟩
  | failed hph' hcs =>
    obtain ⟨run', hrun', hcl⟩ := hcs.closes i run hrun
    rw [hcl.settled hset] at hrun'
    exact ⟨run, hrun', rfl⟩
  | succeeded fingerprint now hph hph' hrow hrunn =>
    refine ⟨run, (getElem?_modify_ne _ _ fun heq => ?_).trans hrun, rfl⟩
    subst heq
    cases hrow.symm.trans hrun
    rw [hset] at hrunn
    cases hrunn

theorem claimStale_starts (hsn : Sound store) {scanned : Text}
    (h : (claimStale who store assetId targetIp claim).2 = .scanning id scanned) :
    targetIp = scanned ∧ ∀ (i : Nat) (run : Run κ), store.runs[i]? = some run → run.assetId = assetId →
      run.status.isRunning = true → claim.profile.staleRunningSeconds ≤ age claim.now run.startedAt := by
  have hstart : ∀ (before store : Store κ),
    (startRun who before store assetId targetIp claim.now).2 = .scanning id scanned →
      targetIp = scanned := by
    intro before store hst
    unfold startRun at hst
    split at hst
    · exact (Phase.scanning.inj hst).2
    · cases hst
  unfold claimStale at h
  cases hlt : latestRunning store.runs assetId with
  | none =>
    rw [hlt] at h
    exact ⟨hstart _ _ h, fun i run hrun hass hrunn =>
      absurd (mem_runnings.2 ⟨hrun, hass, hrunn⟩) (latestRunning_eq_none hlt (run, i))⟩
  | some latest =>
    obtain ⟨running, place⟩ := latest
    rw [hlt] at h
    dsimp only at h
    split_ifs at h with hstale
    refine ⟨hstart _ _ h, fun i run hrun hass hrunn => ?_⟩
    obtain ⟨hrun₁, hass₁, hisR₁⟩ := mem_runnings.1 (mem_reverse.1 (argmax_mem hlt))
    cases hsn.single i place run running hrun hrun₁ hrunn hisR₁ (hass.trans hass₁.symm)
    cases hrun.symm.trans hrun₁
    exact hstale

theorem claimRun_starts (hsn : Sound store) (h : (claimRun who store claim).2 = .scanning id targetIp) :
    ∃ assetId, claim.target = some (assetId, targetIp) ∧
      (∀ (i : Nat) (run : Run κ) finishedAt, store.runs[i]? = some run → run.assetId = assetId →
        run.targetIp = targetIp → run.status.succeededAt = some finishedAt →
          claim.profile.ttlSeconds ≤ age claim.now finishedAt) ∧
      ∀ (i : Nat) (run : Run κ), store.runs[i]? = some run → run.assetId = assetId →
        run.status.isRunning = true →
          claim.profile.staleRunningSeconds ≤ age claim.now run.startedAt := by
  unfold claimRun at h
  cases htg : claim.target with
  | none =>
    rw [htg] at h
    cases h
  | some target =>
    obtain ⟨assetId, address⟩ := target
    rw [htg] at h
    dsimp only at h
    split_ifs at h
    cases hlt : latestSuccess store.runs assetId address with
    | none =>
      rw [hlt] at h
      obtain ⟨rfl, hst⟩ := claimStale_starts hsn h
      refine ⟨assetId, rfl, fun i run finishedAt hrun hass hadd hsc => ?_, hst⟩
      apply absurd _ (latestSuccess_eq_none hlt (run, i))
      exact mem_successes.2 ⟨hrun, hass, hadd, by rw [hsc]; rfl⟩
    | some latest =>
      rw [hlt] at h
      dsimp only at h
      split_ifs at h with hfr
      obtain ⟨rfl, hst⟩ := claimStale_starts hsn h
      refine ⟨assetId, rfl, fun i run finishedAt hrun hass hadd hsc => ?_, hst⟩
      have hmem : (run, i) ∈ successes store.runs assetId address :=
        mem_successes.2 ⟨hrun, hass, hadd, by rw [hsc]; rfl⟩
      have hle : finishedAt ≤ latest.1.status.succeededAt.getD 0 := by
        have hle := le_of_mem_argmax (mem_reverse.2 hmem) hlt
        rw [hsc, Option.getD_some] at hle
        exact hle
      have hage : age claim.now (latest.1.status.succeededAt.getD 0) ≤ age claim.now finishedAt :=
        Nat.sub_le_sub_left hle _
      exact Nat.le_trans (Nat.not_lt.1 hfr) hage

theorem act_starts (hsn : Sound store) (h : (act who event store phase).2 = .scanning id targetIp)
    (hne : phase ≠ .scanning id targetIp) :
    ∃ claim assetId, event = .claim claim ∧ claim.target = some (assetId, targetIp) ∧
      (∀ (i : Nat) (run : Run κ) finishedAt, store.runs[i]? = some run → run.assetId = assetId →
        run.targetIp = targetIp → run.status.succeededAt = some finishedAt →
          claim.profile.ttlSeconds ≤ age claim.now finishedAt) ∧
      ∀ (i : Nat) (run : Run κ), store.runs[i]? = some run → run.assetId = assetId →
        run.status.isRunning = true →
          claim.profile.staleRunningSeconds ≤ age claim.now run.startedAt := by
  cases event with
  | crash => cases h
  | claim claim =>
    have hcl : (claimRun who store claim).2 = .scanning id targetIp := by
      cases phase with
      | scanning => exact absurd h hne
      | finishing => cases h
      | _ => exact h
    obtain ⟨assetId, htg, hfr, hst⟩ := claimRun_starts hsn hcl
    exact ⟨claim, assetId, rfl, htg, hfr, hst⟩
  | scan result =>
    cases phase with
    | _ => cases h
  | finish now fails =>
    cases phase with
    | finishing id result =>
      cases fails with
      | true => cases h
      | false => cases result <;> cases h
    | scanning => exact absurd h hne
    | _ => cases h

/-- Before the first call no run is stored. -/
def start : Crew κ (Store κ) Phase := ⟨⟨[], [], []⟩, fun _ => .idle⟩

theorem sound_start : Sound (start (κ := κ)).shared := by
  constructor
  · intro i j run run' hi
    cases hi
  · intro id
    exact ⟨fun run finishedAt version hrun => (nomatch hrun), fun _ => ⟨rfl, rfl⟩⟩

theorem keeps : Crew.Keeps (κ := κ) act Sound fun store who phase => Working store who phase := by
  constructor
  · intro who event store phase hsn hwr
    have hch := act_change who event store phase
    exact ⟨hch.sound hsn hwr, hch.working hwr⟩
  · intro who event store phase other phase' hne _ hwr hot
    have hch := act_change who event store phase
    exact hot.goes fun i run hrun hcl => hch.goes hwr hrun (by rw [hcl]; exact hne)

variable [DecidableEq κ]

theorem holds_run (moves : List (κ × Event)) :
    Crew.Holds Sound (fun store who phase => Working store who phase)
      (WebOvpn.run (Crew.step act) start moves) := by
  have hst : Crew.Holds (κ := κ) Sound (fun store who phase => Working store who phase) start :=
    ⟨sound_start, fun _ => trivial⟩
  exact hst.run keeps

/-- **Scans are single-flight and their results are never mixed**: in every state that
overlapping calls lead to one run of an asset is running at most and every run has the
results of its own scan or none, and every step leaves closed runs as they are and
starts a scan only where no fresh or running one stands against it. -/
theorem scans_single_flight (moves : List (κ × Event)) :
    Sound (WebOvpn.run (Crew.step act) start moves).shared ∧
      ∀ move : κ × Event, StepLaw move.1 move.2 (WebOvpn.run (Crew.step act) start moves)
        (Crew.step act (WebOvpn.run (Crew.step act) start moves) move) := by
  have hhl := holds_run moves
  refine ⟨hhl.shared, ?_⟩
  rintro ⟨who, event⟩
  have hch := act_change who event (WebOvpn.run (Crew.step act) start moves).shared
    ((WebOvpn.run (Crew.step act) start moves).workers who)
  constructor
  · exact fun i run hrun hset => hch.settled hrun hset
  · intro id targetIp haf hbf
    rw [Crew.step_self] at haf
    exact act_starts hhl.shared haf hbf

end WebOvpn.Fingerprints
