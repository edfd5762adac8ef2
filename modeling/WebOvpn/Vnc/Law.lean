/-
The retirement is honest: what holds when it is ready, when it stops, and before
each command that it issues.
-/
import Mathlib.Data.List.ModifyLast
import WebOvpn.Vnc.Observation

namespace WebOvpn.Vnc

open List

open Op (Meets Stable)

variable {rt : Runtime} {request : Request} {start m m' : Machine} {p : Progress} {collected : Collected}
  {α β : Type} {R : β → State → Prop} {E : Exc → State → Prop}

/-- The table is gone, the service is off and the marker names the machine, the
policy and the source. -/
structure Retired (rt : Runtime) (request : Request) (m : Machine) : Prop where
  tableGone : ∃ found, objects rt m.ruleset = .ok found ∧ ∀ object ∈ found, isLegacyObject object = false
  serviceOff : ∃ service, serviceOf false m.serviceShow = .ok service ∧
    ((m.unitFile = .absent ∧ service.loadState = "not-found" ∧ service.activeState = "inactive") ∨
      (service.unitFileState = "disabled" ∧ service.activeState = "inactive"))
  marked : ∃ info members, m.marker = .file info ∧ loads info.data = .ok (.obj members) ∧
    get members "machine_uuid" = request.machineUuid ∧ get members "policy_sha256" = .str (policySha256 rt) ∧
    get members "source_sha256" = request.sourceSha256

theorem absent_of_ownedFile {path : PathState} {expected : Text} {modes : List Nat}
    (h : ownedFile rt path expected modes = .ok false) : path = .absent := by
  unfold ownedFile at h
  cases path with
  | absent => rfl
  | symlink => cases h
  | file info =>
    dsimp only at h
    split at h
    · cases h
    · split at h <;> cases h

theorem inspectLegacy_ok {unitFile helperFile : PathState} {document : JVal} {service : Service}
    {legacy : Legacy}
    (h : inspectLegacy rt unitFile helperFile document service = .ok legacy) :
    ∃ unit found owned, ownedFile rt unitFile unitSha256 [0o644, 0o444] = .ok unit ∧
      serviceIsKnown unit service = true ∧ objects rt document = .ok found ∧
      (found.filter isLegacyObject).mapM normalize = .ok owned ∧ legacy.serviceDisabled =
        (!unit || (service.unitFileState = "disabled" && service.activeState = "inactive")) ∧
      legacy.retirementRequired = (decide (owned ≠ []) || !legacy.serviceDisabled) := by
  have hbd : inspectLegacyBody rt unitFile helperFile document service = .ok legacy := by
    unfold inspectLegacy at h
    split at h
    · cases h
    · exact h
  unfold inspectLegacyBody at hbd
  obtain ⟨unit, hun, hbd⟩ := bind_eq_ok.1 hbd
  obtain ⟨helper, -, hbd⟩ := bind_eq_ok.1 hbd
  split at hbd
  · cases hbd
  · rename_i hser
    obtain ⟨found, hfn, hbd⟩ := bind_eq_ok.1 hbd
    dsimp only at hbd
    split at hbd
    · cases hbd
    · obtain ⟨owned, hown, hbd⟩ := bind_eq_ok.1 hbd
      split at hbd
      · cases hbd
      · obtain ⟨isClear, -, hbd⟩ := bind_eq_ok.1 hbd
        cases hbd
        have hkn : serviceIsKnown unit service = true := by
          cases hcs : serviceIsKnown unit service with
          | true => rfl
          | false => exact absurd (.inr (.inr (.inr hcs))) hser
        exact ⟨unit, found, owned, hun, hkn, hfn, hown, rfl, rfl⟩

theorem targetOf_ok {uuid name source : JVal} {target : Target}
    (h : targetOf uuid name source = .ok target) :
    uuid = .str target.machineUuid ∧ source = .str target.sourceSha256 := by
  unfold targetOf at h
  split at h
  · split at h
    · cases h
      exact ⟨rfl, rfl⟩
    · cases h
  · cases h

theorem readMarker_some {uuid : Text} {marker : Marker} (h : readMarker rt uuid m = .ok (some marker)) :
    ∃ info members, m.marker = .file info ∧ loads info.data = .ok (.obj members) ∧
      get members "machine_uuid" = .str uuid ∧ get members "policy_sha256" = .str (policySha256 rt) ∧
      get members "source_sha256" = marker.sourceSha256 := by
  unfold readMarker at h
  split at h
  · cases h
  · cases h
  · cases h
  · rename_i place backups hdir
    split at h
    · cases h
    · cases h
    · rename_i info
      obtain ⟨data, hdat, h⟩ := bind_eq_ok.1 h
      obtain ⟨found, hfn, h⟩ := bind_eq_ok.1 h
      cases h
      have hin : data = info.data := by
        unfold privateData at hdat
        split at hdat <;> cases hdat
        rfl
      subst hin
      unfold markerOfData at hfn
      split at hfn
      · cases hfn
      · rename_i value hla
        obtain ⟨valid, hvl, hbi⟩ := bind_eq_ok.1 hfn
        clear hfn
        cases valid with
        | false => cases hbi
        | true =>
          simp only [if_true] at hbi
          split at hbi
          · rename_i members
            cases hbi
            unfold markerIsValid at hvl
            dsimp only at hvl
            split at hvl
            · rename_i hfl
              obtain ⟨-, -, -, -, huui, hpl⟩ := hfl
              refine ⟨info, members, ?_, hla, huui, hpl, rfl⟩
              unfold Machine.marker
              rw [hdir]
            · cases hvl
          · cases hbi

theorem retired_of_ready (h : snapshotOf rt request m = .ok collected)
    (hra : collected.safe.ready = true) :
    Retired rt request m := by
  obtain ⟨target, rows, others, marker, hsn⟩ := snapshot_of_ok h
  rw [hsn.ready] at hra
  unfold isReady at hra
  rw [Bool.and_eq_true, Bool.and_eq_true] at hra
  obtain ⟨⟨hrq, -⟩, hmr⟩ := hra
  obtain ⟨unit, found, owned, hun, hkn, hfn, hown, hds, hrt⟩ := inspectLegacy_ok hsn.legacy_eq
  rw [hrt] at hrq
  simp only [Bool.not_eq_true', Bool.or_eq_false_iff, decide_eq_false_iff_not, not_not,
    Bool.not_eq_false'] at hrq
  obtain ⟨hnn, hoff⟩ := hrq
  obtain ⟨huui, hsrc⟩ := targetOf_ok hsn.target_eq
  constructor
  · refine ⟨found, hfn, ?_⟩
    have hlen := (mapM_eq_ok_iff.1 hown).length_eq
    rw [hnn] at hlen
    have hem := length_eq_zero_iff.1 hlen
    intro object hobj
    exact Bool.eq_false_iff.2 (filter_eq_nil_iff.1 hem object hobj)
  · refine ⟨collected.service, hsn.service_eq, ?_⟩
    rw [hoff] at hds
    cases unit with
    | false =>
      unfold serviceIsKnown at hkn
      simp only [Bool.false_eq_true, if_false, Bool.and_eq_true, decide_eq_true_eq] at hkn
      exact .inl ⟨absent_of_ownedFile hun, hkn.1.1.1, hkn.2⟩
    | true =>
      simp only [Bool.not_true, Bool.false_or, eq_comm (a := true), Bool.and_eq_true, decide_eq_true_eq] at hds
      exact .inr hds
  · cases marker with
    | none => cases hmr
    | some marker =>
      obtain ⟨info, members, hfl, hla, hmac, hpl, hsou⟩ := readMarker_some hsn.marker_eq
      simp only [Option.any_some, decide_eq_true_eq] at hmr
      exact ⟨info, members, hfl, hla, hmac.trans huui.symm, hpl,
        hsou.trans (hmr.trans hsrc.symm)⟩

theorem meets_exists {ι : Type} {P : ι → State → Prop} {step : Step β} (h : ∀ i, Meets (P i) step R E) :
    Meets (fun s => ∃ i, P i s) step R E := by
  rintro s ⟨i, hs⟩
  exact h i s hs

theorem setMutated_bind {value : Bool} {k : Unit → Step β}
    (hk : Meets (At { p with mutated := value }) (k ()) R E) :
      Meets (At p) (setMutated value >>= k) R E := by
  have hset : Meets (At p) (setMutated value) (fun _ => At { p with mutated := value }) E := by
    apply Op.meets_assign
    intro s hs
    cases hs
    rfl
  exact hset.bind fun _ => hk

def written (files : List (Text × Bytes)) : Backup := files.map fun file => (file.1, privateFile file.2)

/-- The unit and the helper of an owned predecessor. -/
def LegacyFiles (m : Machine) (safe : Safe) (files : List (Text × Bytes)) : Prop :=
  if safe.legacy.ownedLegacy then ∃ unit helper, readBytes m.unitFile = .ok unit ∧
    readBytes m.helperFile = .ok helper ∧ files = [(text "unit.service", unit), (text "helper.sh", helper)]
  else files = []

/-- The marker that was there before, as the snapshot has it. -/
def MarkerFiles (rt : Runtime) (m : Machine) (safe : Safe) (files : List (Text × Bytes)) : Prop :=
  match safe.markerSha256 with
  | none => files = []
  | some expected => ∃ data, readMarkerData m = .ok data ∧ rt.sha256 data = expected ∧
      files = [(text "marker-before.json", data)]

/-- What was read back from the file has the digest of what was written. -/
def IsReadBack (rt : Runtime) (files : Backup) (file : Text × Bytes) : Prop :=
  ∃ info data, files.lookup file.1 = some info ∧ privateData info 2097152 = .ok data ∧
    rt.sha256 data = rt.sha256 file.2

/-- The directory holds these files and their manifest, which was read back as it is. -/
structure IsVerified (rt : Runtime) (manifest : Bytes) (contents : List (Text × Bytes))
    (files : Backup) : Prop where
  made : files = written (contents ++ [(text "manifest.json", manifest)])
  manifestRead : ∃ info, files.lookup (text "manifest.json") = some info ∧ privateData info 65536 = .ok manifest
  contentsRead : ∀ file ∈ contents, IsReadBack rt files file

/-- The directory holds the snapshot, the rules and the service that were collected, the files of the
predecessor and the old marker, if there are any, and the manifest of them, each read back. -/
def IsBackup (rt : Runtime) (m : Machine) (collected : Collected) (context : JVal)
    (files : Backup) : Prop :=
  ∃ legacyFiles markerFiles, LegacyFiles m collected.safe legacyFiles ∧
    MarkerFiles rt m collected.safe markerFiles ∧
    IsVerified rt (jsonBytes (manifestOf rt collected.safe context
      (baseContents rt collected ++ legacyFiles ++ markerFiles)))
      (baseContents rt collected ++ legacyFiles ++ markerFiles) files

def backing (m : Machine) (marker : PathState) (backups : List Backup) : Progress :=
  ⟨{ m with stateDir := .dir marker backups }, [], false⟩

def BackupStops (m : Machine) (marker : PathState) (_ : Exc) (s : State) : Prop :=
  ∃ backups, At (backing m marker backups) s

theorem createStateDir_ok (h : createStateDir m = .ok m') :
    ∃ backups, m' = { m with stateDir := .dir m.marker backups } := by
  unfold createStateDir at h
  unfold Machine.marker
  split at h
  · rename_i hdir
    cases h
    exact ⟨[], by rw [hdir]⟩
  · cases h
  · cases h
  · rename_i marker backups hdir
    cases h
    refine ⟨backups, ?_⟩
    obtain ⟨⟩ := m
    cases hdir
    rfl

variable {marker : PathState} {backups : List Backup} {files : List (Text × Bytes)}

theorem stops (e : Exc) (s : State) (h : At (backing m marker backups) s) :
    BackupStops m marker e s := ⟨backups, h⟩

theorem writePrivate_meets (file : Text × Bytes) :
    Meets (At (backing m marker (backups ++ [written files]))) (writePrivate file)
      (fun _ => At (backing m marker (backups ++ [written (files ++ [file])])))
        (BackupStops m marker) := by
  unfold writePrivate
  apply write_bind stops
  intro m₁ hop
  unfold openPrivate Machine.changeBackups backing at hop
  dsimp only at hop
  rw [modifyLast_concat] at hop
  cases hop
  have hfl : Meets (At (backing m marker (backups ++ [written files ++ [(file.1, privateFile [])]])))
      (write (fillPrivate file.1 file.2) >>= pure)
      (fun _ => At (backing m marker (backups ++ [written (files ++ [file])]))) (BackupStops m marker) := by
    apply write_bind stops
    intro m₂ hfl
    unfold fillPrivate Machine.changeBackups backing at hfl
    dsimp only at hfl
    rw [modifyLast_concat, dropLast_concat] at hfl
    cases hfl
    apply Op.meets_pure
    intro s hs
    unfold At backing written
    rw [map_append]
    exact hs
  rw [bind_pure] at hfl
  exact hfl

theorem writeFiles_meets (contents : List (Text × Bytes)) :
    Meets (At (backing m marker (backups ++ [[]]))) (Op.forEach writePrivate contents)
      (fun _ => At (backing m marker (backups ++ [written contents]))) (BackupStops m marker) := by
  apply Meets.forEach (I := fun done _ => At (backing m marker (backups ++ [written done])))
  intro done file rest _ _
  exact writePrivate_meets file

theorem readPrivate_eq_ok {made : Backup} {name : Text} {limit : Nat} {data : Bytes}
    (h : readPrivate name limit (backing m marker (backups ++ [made])).machine = .ok data) :
    ∃ info, made.lookup name = some info ∧ privateData info limit = .ok data := by
  unfold readPrivate at h
  have hlast : (backing m marker (backups ++ [made])).machine.backups = backups ++ [made] := rfl
  rw [hlast, getLast?_concat, Option.getD_some] at h
  split at h
  · cases h
  · exact ⟨_, ‹_›, h⟩

theorem verifyFile_meets {made : Backup} (file : Text × Bytes) :
    Meets (At (backing m marker (backups ++ [made]))) (verifyFile rt file)
      (fun _ s => At (backing m marker (backups ++ [made])) s ∧ IsReadBack rt made file)
        (BackupStops m marker) := by
  unfold verifyFile
  apply read_bind stops
  intro data hread
  obtain ⟨info, hin, hdat⟩ := readPrivate_eq_ok hread
  exact Op.meets_raiseIf (fun s hsm hs => ⟨hs, info, data, hin, hdat, not_not.1 hsm⟩) fun s _ hs => stops _ s hs

theorem verifyFiles_meets {made : Backup} (contents : List (Text × Bytes)) :
    Meets (At (backing m marker (backups ++ [made]))) (Op.forEach (verifyFile rt) contents)
      (fun _ s => At (backing m marker (backups ++ [made])) s ∧ ∀ file ∈ contents,
        IsReadBack rt made file)
      (BackupStops m marker) := by
  apply Meets.mono (Meets.forEach (I := fun done _ s => At (backing m marker (backups ++ [made])) s ∧
    ∀ file ∈ done, IsReadBack rt made file) ?_)
    (fun s hs => ⟨hs, forall_mem_nil _⟩) (fun _ _ hs => hs) fun _ _ hs => hs
  intro done file rest _ _
  apply Meets.assuming
  intro hdone
  apply (verifyFile_meets file).post
  rintro _ s ⟨hs, hbc⟩
  exact ⟨hs, forall_mem_append.2 ⟨hdone, forall_mem_singleton.2 hbc⟩⟩

theorem writeBackup_meets (manifest : Bytes) (contents : List (Text × Bytes)) :
    Meets (At (backing m marker (backups ++ [[]]))) (writeBackup rt manifest contents)
      (fun _ s => ∃ made, IsVerified rt manifest contents made ∧
        At (backing m marker (backups ++ [made])) s)
      (BackupStops m marker) := by
  unfold writeBackup
  apply (writeFiles_meets contents).bind
  intro _
  apply (writePrivate_meets _).bind
  intro _
  apply read_bind stops
  intro data hread
  obtain ⟨info, hin, hdat⟩ := readPrivate_eq_ok hread
  apply raiseIf_bind stops
  intro hsm
  rw [not_not.1 hsm] at hdat
  apply (verifyFiles_meets contents).bind
  intro _
  apply Meets.assuming
  intro hall
  apply (pass_meets stops).post
  intro _ s hs
  exact ⟨_, ⟨rfl, ⟨info, hin, hdat⟩, hall⟩, hs⟩

theorem legacyContents_meets (safe : Safe) :
    Meets (At (backing m marker backups)) (legacyContents safe)
      (fun files s => At (backing m marker backups) s ∧ LegacyFiles m safe files)
        (BackupStops m marker) := by
  unfold legacyContents
  split
  · rename_i hown
    apply read_bind stops
    intro unit hunit
    apply read_bind stops
    intro helper hhl
    apply Op.meets_pure
    intro s hs
    refine ⟨hs, ?_⟩
    rw [LegacyFiles, if_pos hown]
    exact ⟨unit, helper, hunit, hhl, rfl⟩
  · rename_i hown
    apply Op.meets_pure
    intro s hs
    refine ⟨hs, ?_⟩
    rw [LegacyFiles, if_neg hown]

theorem markerContents_meets (safe : Safe) :
    Meets (At (backing m m.marker backups)) (markerContents rt safe)
      (fun files s => At (backing m m.marker backups) s ∧ MarkerFiles rt m safe files)
      (BackupStops m m.marker) := by
  unfold markerContents
  split
  · rename_i hnone
    apply Op.meets_pure
    intro s hs
    refine ⟨hs, ?_⟩
    unfold MarkerFiles
    rw [hnone]
  · rename_i expected hsome
    apply read_bind stops
    intro data hread
    apply raiseIf_bind stops
    intro hsm
    apply Op.meets_pure
    intro s hs
    refine ⟨hs, ?_⟩
    unfold MarkerFiles
    rw [hsome]
    exact ⟨data, hread, not_not.1 hsm, rfl⟩

/-- Nothing was issued, and at most the backups are new. -/
def Unharmed (m : Machine) (s : State) : Prop :=
  At ⟨m, [], false⟩ s ∨ ∃ backups, At (backing m m.marker backups) s

theorem backup_meets (collected : Collected) (context : JVal) :
    Meets (At ⟨m, [], false⟩) (backup rt collected context)
      (fun _ s => ∃ backups files, IsBackup rt m collected context files ∧
        At (backing m m.marker (backups ++ [files])) s) (fun _ s => Unharmed m s) := by
  unfold backup
  apply write_bind fun _ _ hs => .inl hs
  intro m₁ hcr
  obtain ⟨backups, rfl⟩ := createStateDir_ok hcr
  have hst (e : Exc) (s : State) (h : BackupStops m m.marker e s) : Unharmed m s := .inr h
  apply write_bind fun _ _ hs => .inr ⟨backups, hs⟩
  intro m₂ hmak
  unfold makeBackupDir Machine.changeBackups at hmak
  cases hmak
  apply Meets.mono _ (fun _ hs => hs) (fun _ _ hs => hs) hst
  change Meets (At (backing m m.marker (backups ++ [[]]))) _ _ _
  apply (legacyContents_meets _).bind
  intro legacyFiles
  apply Meets.assuming
  intro hlg
  apply (markerContents_meets _).bind
  intro markerFiles
  apply Meets.assuming
  intro hmr
  apply (writeBackup_meets _ _).post
  rintro _ s ⟨made, hvr, hs⟩
  exact ⟨backups, made, ⟨legacyFiles, markerFiles, hlg, hmr, hvr⟩, hs⟩

section phases

variable (rt request) (start)

/-- Nothing was issued, and the machine is the one of the start, its lock and its
backups apart. -/
structure Calm (p : Progress) : Prop where
  issued : p.issued = []
  mutated : p.mutated = false
  marker : p.machine.marker = start.marker
  rest : ∃ lock stateDir, p.machine = { start with lock := lock, stateDir := stateDir }

/-- The command was issued with a backup of the snapshot that was approved, and
where somebody listens only with the listener authenticated. -/
structure Secured (i : Issue) : Prop where
  backedUp : ∃ collected, snapshotOf rt request start = .ok collected ∧
    request.expectedSnapshotSha256 = .str (collected.safe.snapshotSha256 rt) ∧
    ∃ files ∈ i.machine.backups, IsBackup rt start collected request.context files
  listener : ∀ rows, listenerRows false i.machine.listeners = .ok rows → rows ≠ [] →
    request.listenerAuthenticated = true

def AllSecured (p : Progress) : Prop := ∀ i ∈ p.issued, Secured rt request start i

/-- How a call stops: it is known whether something may have changed. -/
def Stops (_ : Exc) (s : State) : Prop :=
  (s.now.mutated = true ∨ Calm start s.now) ∧ AllSecured rt request start s.now

structure Between (p : Progress) : Prop where
  stage : p.mutated = true ∨ Calm start p
  secured : AllSecured rt request start p
  locked : takeLock p.machine = .ok p.machine

/-- What holds where a command may be issued. -/
structure Armed (p : Progress) : Prop extends Between rt request start p where
  listeners : p.machine.listeners = start.listeners
  backedUp : ∃ collected, snapshotOf rt request start = .ok collected ∧
    request.expectedSnapshotSha256 = .str (collected.safe.snapshotSha256 rt) ∧
    ∃ files ∈ p.machine.backups, IsBackup rt start collected request.context files

end phases

theorem Between.stops (h : Between rt request start p) (e : Exc) (s : State) (hs : At p s) :
    Stops rt request start e s := by
  cases hs
  exact ⟨h.stage, h.secured⟩

theorem Calm.between (h : Calm start p) (hlc : takeLock p.machine = .ok p.machine) :
    Between rt request start p := by
  refine ⟨.inr h, ?_, hlc⟩
  intro i hi
  rw [h.issued] at hi
  cases hi

theorem takeLock_ok (h : takeLock start = .ok m) :
    m = { start with lock := m.lock } ∧ takeLock m = .ok m := by
  unfold takeLock at h
  split at h
  · cases h
    exact ⟨rfl, rfl⟩
  · cases h
  · rename_i info hlc
    split at h
    · cases h
    · rename_i hin
      cases h
      refine ⟨rfl, ?_⟩
      unfold takeLock
      rw [hlc]
      exact if_neg hin

theorem snapshotOf_takeLock (h : takeLock start = .ok m) :
    snapshotOf rt request m = snapshotOf rt request start := by
  have hra (uuid : Text) : readMarker rt uuid m = readMarker rt uuid start := by
    rw [(takeLock_ok h).1]
    rfl
  unfold snapshotOf
  simp only [hra]
  rw [(takeLock_ok h).1]

theorem takeLock_congr {other : Machine} (h : takeLock m = .ok m) (hlc : other.lock = m.lock) :
    takeLock other = .ok other := by
  unfold takeLock at h ⊢
  rw [hlc]
  split at h
  · rename_i habs
    injection h with h
    rw [← h] at habs
    cases habs
  · cases h
  · rename_i info hin
    split at h
    · cases h
    · rename_i hgo
      exact if_neg hgo

theorem issueMarked_meets {command : Command}
    (hau : ∀ rows, listenerRows false start.listeners = .ok rows →
      rows ≠ [] → request.listenerAuthenticated = true) :
    Meets (fun s => Armed rt request start s.now) (issueMarked command)
      (fun _ s => Armed rt request start s.now)
      (Stops rt request start) := by
  rintro ⟨⟨now, answer⟩, turns⟩ harmed
  suffices h : Meets (At now) (issueMarked command) (fun _ s => Armed rt request start s.now)
    (Stops rt request start) from
    h _ rfl
  dsimp only at harmed
  unfold issueMarked
  apply setMutated_bind
  have hsc : Secured rt request start ⟨command, now.machine⟩ := by
    refine ⟨harmed.backedUp, ?_⟩
    rw [harmed.listeners]
    exact hau
  -- whatever the command did, the backup, the lock and the listeners are as before
  have haf (s : State) (hs : At { now with mutated := true } s) :
      Armed rt request start (afterIssue command s).now ∧ (afterIssue command s).now.mutated = true := by
    unfold afterIssue
    rw [hs]
    refine ⟨⟨⟨.inl rfl, ?_, takeLock_congr harmed.locked rfl⟩, harmed.listeners, harmed.backedUp⟩, rfl⟩
    intro i hi
    rcases mem_append.1 hi with hi | hi
    · exact harmed.secured i hi
    · cases mem_singleton.1 hi
      exact hsc
  have his : Meets (At { now with mutated := true }) (issue command) (fun _ s => Armed rt request start s.now)
      (Stops rt request start) := by
    apply Op.meets_own_cases (stable_at _)
    · intro s hs
      rw [Stops, hs]
      exact ⟨.inl rfl, harmed.secured⟩
    · intro s a s' hs h
      split at h <;> cases h <;> exact (haf s hs).1
    · intro s e s' hs h
      split at h <;> cases h
      obtain ⟨harmed', hmut⟩ := haf s hs
      exact ⟨.inl hmut, harmed'.secured⟩
  apply his.bind
  intro failed
  apply Op.meets_raiseIf
  · intro s _ hs
    exact hs
  · intro s _ hs
    exact ⟨hs.stage, hs.secured⟩

theorem issueIf_meets {condition : Bool} {command : Command}
    (hau : ∀ rows, listenerRows false start.listeners = .ok rows → rows ≠ [] →
      request.listenerAuthenticated = true) :
    Meets (fun s => Armed rt request start s.now) (issueIf condition command)
      (fun _ s => Armed rt request start s.now)
      (Stops rt request start) := by
  unfold issueIf
  split
  · exact issueMarked_meets hau
  · exact Op.meets_pure fun _ hs => hs

theorem retire_meets {safe : Safe}
    (hau : ∀ rows, listenerRows false start.listeners = .ok rows → rows ≠ [] →
      request.listenerAuthenticated = true) (hrq : safe.legacy.retirementRequired = true) :
    Meets (fun s => Armed rt request start s.now) (retire safe) (fun _ s => Armed rt request start s.now)
      (Stops rt request start) := by
  unfold retire
  rw [if_pos hrq]
  apply (issueIf_meets hau).bind
  intro _
  exact issueIf_meets hau

theorem calm_of_unharmed {lock : PathState}
    (hm : m = { start with lock := lock }) {s : State} (hs : Unharmed m s) :
    Calm start s.now ∧ s.now.machine.lock = m.lock := by
  subst hm
  rcases hs with hs | ⟨backups, hs⟩
  · rw [hs]
    exact ⟨⟨rfl, rfl, rfl, lock, start.stateDir, rfl⟩, rfl⟩
  · rw [hs]
    exact ⟨⟨rfl, rfl, rfl, lock, _, rfl⟩, rfl⟩

theorem between_of_unharmed (hlc : takeLock start = .ok m) {s : State} (hs : Unharmed m s) :
    Between rt request start s.now := by
  obtain ⟨hm, hlocked⟩ := takeLock_ok hlc
  obtain ⟨hcl, hsm⟩ := calm_of_unharmed hm hs
  exact hcl.between (takeLock_congr hlocked hsm)

/-- The backup is made, or there was nothing to retire. -/
theorem secure_meets (hlc : takeLock start = .ok m) (hcl : snapshotOf rt request start = .ok collected)
    (hex : request.expectedSnapshotSha256 = .str (collected.safe.snapshotSha256 rt)) :
    Meets (At ⟨m, [], false⟩) (secure rt request collected) (fun _ s => Between rt request start s.now ∧
        (collected.safe.legacy.retirementRequired = true → Armed rt request start s.now))
      (Stops rt request start) := by
  have hst (e : Exc) (s : State) (hs : Unharmed m s) : Stops rt request start e s :=
    (between_of_unharmed hlc hs).stops e s rfl
  unfold secure
  split
  · apply ((backup_meets collected request.context).mono (fun _ hs => hs) (fun _ _ hs => hs) hst).bind
    rintro ⟨⟩
    apply meets_exists
    intro backups
    apply meets_exists
    intro files s hs
    obtain ⟨hbc, hs⟩ := hs
    suffices h : Meets (At (backing m m.marker (backups ++ [files]))) (do
          let again ← collect rt request
          Op.raiseIf (again.safe ≠ collected.safe) (.policy .snapshotChanged))
        (fun _ s => Between rt request start s.now ∧
          (collected.safe.legacy.retirementRequired = true → Armed rt request start s.now))
        (Stops rt request start) from h s hs
    apply collect_bind fun e s hs => hst e s (.inr ⟨_, hs⟩)
    intro again _
    apply Op.meets_raiseIf
    · intro s _ hs
      have hunh : Unharmed m s := .inr ⟨_, hs⟩
      refine ⟨between_of_unharmed hlc hunh, fun _ => ⟨between_of_unharmed hlc hunh, ?_, ?_⟩⟩
      · rw [hs, (takeLock_ok hlc).1]
        rfl
      · rw [(takeLock_ok hlc).1] at hbc
        rw [hs]
        exact ⟨collected, hcl, hex, files, mem_append_right _ mem_cons_self, hbc⟩
    · intro s _ hs
      exact hst _ s (.inr ⟨_, hs⟩)
  · rename_i hnot
    apply Op.meets_pure
    intro s hs
    refine ⟨between_of_unharmed hlc (.inl hs), ?_⟩
    intro hrq
    exact absurd (.inl hrq) hnot

/-- Something may have changed. -/
structure Marked (rt : Runtime) (request : Request) (start : Machine) (p : Progress) : Prop where
  mutated : p.mutated = true
  secured : AllSecured rt request start p
  locked : takeLock p.machine = .ok p.machine

theorem Marked.stops (h : Marked rt request start p) (e : Exc) (s : State) (hs : At p s) :
    Stops rt request start e s := by
  cases hs
  exact ⟨.inl h.mutated, h.secured⟩

theorem Marked.setMachine (h : Marked rt request start p) (hlc : m'.lock = p.machine.lock) :
    Marked rt request start { p with machine := m' } :=
  ⟨h.mutated, h.secured, takeLock_congr h.locked hlc⟩

theorem saveMarker_meets (hp : Marked rt request start p) (before : Safe) :
    Meets (At p) (saveMarker rt before) (fun _ s => Marked rt request start s.now) (Stops rt request start) := by
  unfold saveMarker
  apply read_bind hp.stops
  intro current _
  apply raiseIf_bind hp.stops
  intro _
  apply write_bind hp.stops
  intro m₁ hcrea
  obtain ⟨backups, rfl⟩ := createStateDir_ok hcrea
  have hcr : Marked rt request start
      ⟨{ p.machine with stateDir := .dir p.machine.marker backups }, p.issued, p.mutated⟩ := hp.setMachine rfl
  apply pass_bind hcr.stops
  apply pass_bind hcr.stops
  apply write_bind hcr.stops
  intro m₂ hrp
  unfold replaceMarker at hrp
  cases hrp
  have hrepl : Marked rt request start
      ⟨{ p.machine with stateDir := .dir (.file (privateFile (jsonBytes (markerValue rt before)))) backups }, p.issued,
        p.mutated⟩ := hp.setMachine rfl
  apply (pass_meets hrepl.stops).post
  intro _ s hs
  rw [hs]
  exact hrepl

structure Done (rt : Runtime) (request : Request) (start : Machine) (p : Progress) : Prop where
  approved : ∃ collected final, snapshotOf rt request start = .ok collected ∧
    request.expectedSnapshotSha256 = .str (collected.safe.snapshotSha256 rt) ∧
    snapshotOf rt request p.machine = .ok final ∧ final.safe.ready = true ∧
    final.safe.externalPolicySha256 = collected.safe.externalPolicySha256 ∧
    final.safe.legacy.externalPolicyClear = true
  secured : AllSecured rt request start p
  locked : takeLock p.machine = .ok p.machine

theorem externalClear_of_ready {final : Collected} (h : snapshotOf rt request m = .ok final)
    (hra : final.safe.ready = true) : final.safe.legacy.externalPolicyClear = true := by
  obtain ⟨target, rows, others, marker, hsn⟩ := snapshot_of_ok h
  rw [hsn.ready] at hra
  unfold isReady at hra
  rw [Bool.and_eq_true, Bool.and_eq_true] at hra
  exact hra.1.2

theorem conclude_meets (hcl : snapshotOf rt request start = .ok collected)
    (hex : request.expectedSnapshotSha256 = .str (collected.safe.snapshotSha256 rt)) :
    Meets (fun s => Between rt request start s.now) (conclude rt request collected.safe)
      (fun _ s => Done rt request start s.now) (Stops rt request start) := by
  rintro ⟨⟨now, answer⟩, turns⟩ hbt
  dsimp only at hbt
  suffices h : Meets (At now) (conclude rt request collected.safe) (fun _ s => Done rt request start s.now)
      (Stops rt request start) from h _ rfl
  unfold conclude
  apply collect_bind hbt.stops
  intro after _
  apply raiseIf_bind hbt.stops
  intro _
  apply setMutated_bind
  have hmr : Marked rt request start { now with mutated := true } := ⟨rfl, hbt.secured, hbt.locked⟩
  apply (saveMarker_meets hmr _).bind
  rintro ⟨⟩ ⟨⟨saved, answer'⟩, turns'⟩ hsv
  dsimp only at hsv
  suffices h : Meets (At saved) (do
        let final ← observePolicy rt request
        Op.raiseIf (final.ready = false ∨ final.bootId ≠ collected.safe.bootId ∨
          final.externalPolicySha256 ≠ collected.safe.externalPolicySha256) (.policy .outcomeUnverified)
        return true)
      (fun _ s => Done rt request start s.now) (Stops rt request start) from h _ rfl
  apply observePolicy_bind hsv.stops
  intro final hfn
  apply raiseIf_bind hsv.stops
  intro hch
  apply Op.meets_pure
  intro s hs
  rw [hs]
  simp only [not_or, Bool.not_eq_false, not_not] at hch
  obtain ⟨hra, -, het⟩ := hch
  exact ⟨⟨collected, final, hcl, hex, hfn, hra, het, externalClear_of_ready hfn hra⟩,
    hsv.secured, hsv.locked⟩

theorem proceed_meets (hlc : takeLock start = .ok m) (hcl : snapshotOf rt request start = .ok collected)
    (hex : request.expectedSnapshotSha256 = .str (collected.safe.snapshotSha256 rt)) :
    Meets (At ⟨m, [], false⟩) (proceed rt request collected) (fun _ s => Done rt request start s.now)
      (Stops rt request start) := by
  have hbt (s : State) (hs : At ⟨m, [], false⟩ s) : Between rt request start s.now :=
    between_of_unharmed hlc (.inl hs)
  unfold proceed
  split
  · rename_i hra
    apply Op.meets_pure
    intro s hs
    have hher := hbt s hs
    refine ⟨⟨collected, collected, hcl, hex, ?_, hra, rfl, externalClear_of_ready hcl hra⟩,
      hher.secured, hher.locked⟩
    rw [hs, snapshotOf_takeLock hlc]
    exact hcl
  · apply raiseIf_bind fun e s hs => (hbt s hs).stops e s rfl
    intro hls
    apply (secure_meets hlc hcl hex).bind
    rintro ⟨⟩
    cases hrq : collected.safe.legacy.retirementRequired with
    | false =>
      have hrt : retire collected.safe = pure () := by
        unfold retire
        rw [hrq]
        rfl
      rw [hrt, pure_bind]
      exact (conclude_meets hcl hex).pre fun _ hs => hs.1
    | true =>
      -- nobody listens, or the listener is authenticated
      have hau (rows : List (List Text)) (hrs : listenerRows false start.listeners = .ok rows)
          (hne : rows ≠ []) : request.listenerAuthenticated = true := by
        obtain ⟨target, rows', others, marker, hsn⟩ := snapshot_of_ok hcl
        have hsm : rows' = rows := Except.ok.inj (hsn.rows_eq.symm.trans hrs)
        subst hsm
        have hpr : collected.safe.listenerPresent = true := by
          rw [hsn.listenerPresent]
          exact decide_eq_true hne
        cases hcs : request.listenerAuthenticated with
        | true => rfl
        | false => exact absurd ⟨hrq, hpr, hcs⟩ hls
      apply ((retire_meets hau hrq).pre fun _ hs => hs.2 rfl).bind
      rintro ⟨⟩
      exact (conclude_meets hcl hex).pre fun _ hs => hs.toBetween

/-- The body of a call, whatever its commands and accesses do. -/
theorem applyBody_meets (value : JVal) : Meets (At ⟨start, [], false⟩) (applyBody rt value)
      (fun _ s => ∃ request, requestOf rt value = .ok request ∧ Done rt request start s.now)
      (fun _ s => (s.now.mutated = true ∨ Calm start s.now) ∧
        ∀ i ∈ s.now.issued, ∃ request, requestOf rt value = .ok request ∧
          Secured rt request start i) := by
  have hfr (e : Exc) (s : State) (hs : At ⟨start, [], false⟩ s) :
      (s.now.mutated = true ∨ Calm start s.now) ∧
        ∀ i ∈ s.now.issued, ∃ request, requestOf rt value = .ok request ∧ Secured rt request start i := by
    rw [hs]
    exact ⟨.inr ⟨rfl, rfl, rfl, start.lock, start.stateDir, rfl⟩, fun i hi => absurd hi not_mem_nil⟩
  unfold applyBody
  apply lift_bind hfr
  intro request hrq
  apply write_bind hfr
  intro m hlc
  suffices h : Meets (At ⟨m, [], false⟩) (do
        pass
        let collected ← collect rt request
        checkSnapshot rt request collected.safe
        proceed rt request collected)
      (fun _ s => Done rt request start s.now) (Stops rt request start) by
    apply h.mono (fun _ hs => hs)
    · intro _ s hs
      exact ⟨request, hrq, hs⟩
    · intro e s hs
      exact ⟨hs.1, fun i hi => ⟨request, hrq, hs.2 i hi⟩⟩
  have hbt (e : Exc) (s : State) (hs : At ⟨m, [], false⟩ s) : Stops rt request start e s :=
    (between_of_unharmed hlc (.inl hs)).stops e s rfl
  apply pass_bind hbt
  apply collect_bind hbt
  intro collected hcl
  rw [snapshotOf_takeLock hlc] at hcl
  unfold checkSnapshot
  rw [bind_assoc]
  apply raiseIf_bind hbt
  intro hex
  apply raiseIf_bind hbt
  intro _
  have hap : request.expectedSnapshotSha256 = .str (collected.safe.snapshotSha256 rt) := not_not.1 hex
  exact proceed_meets hlc hcl hap

/-- The codes of a call: another one than the uncertain one says that nothing was
done. -/
theorem applyPolicy_meets {Q : Bool → State → Prop} {E : Exc → State → Prop} (value : JVal)
    (hbd : Meets (At ⟨start, [], false⟩) (applyBody rt value) Q E) :
    Meets (At ⟨start, [], false⟩) (applyPolicy rt value) Q
      (fun e s => ∃ cause code, e = .policy code ∧ code = mapError s.now.mutated cause ∧ E cause s) := by
  unfold applyPolicy
  apply setMutated_bind
  apply hbd.onError
  intro cause
  have hvie : Meets (E cause) (Op.view fun s => .ok s.now.mutated : Step Bool)
      (fun mutated s => E cause s ∧ mutated = s.now.mutated)
      (fun e s => ∃ cause code, e = .policy code ∧ code = mapError s.now.mutated cause ∧ E cause s) :=
    Op.meets_view fun s hs => ⟨hs, rfl⟩
  apply hvie.bind
  intro mutated
  apply Op.meets_raise
  rintro s ⟨hs, rfl⟩
  exact ⟨cause, _, rfl, rfl, hs⟩

theorem snapshotOf_congr {request' : Request} (huui : request'.machineUuid = request.machineUuid)
    (hnm : request'.hostname = request.hostname) (hsrc : request'.sourceSha256 = request.sourceSha256) :
    snapshotOf rt request' m = snapshotOf rt request m := by
  unfold snapshotOf
  rw [huui, hnm, hsrc]

/-- A call for the same machine, policy and source on a machine that is ready. -/
theorem again_meets {request' : Request} {value : JVal} {final : Collected}
    (hrq : requestOf rt value = .ok request')
    (hfn : snapshotOf rt request' m = .ok final) (hra : final.safe.ready = true)
    (hlocked : takeLock m = .ok m) :
    Meets (At ⟨m, [], false⟩) (applyBody rt value)
      (fun changed s => At ⟨m, [], false⟩ s ∧ changed = false)
      (fun _ => At ⟨m, [], false⟩) := by
  have hE (e : Exc) (s : State) (hs : At ⟨m, [], false⟩ s) : At ⟨m, [], false⟩ s := hs
  unfold applyBody
  apply lift_bind hE
  intro request'' hsm
  cases hrq.symm.trans hsm
  apply write_bind hE
  intro m' hlc
  cases hlocked.symm.trans hlc
  apply pass_bind hE
  apply collect_bind hE
  intro collected hcl
  cases hfn.symm.trans hcl
  unfold checkSnapshot
  rw [bind_assoc]
  apply raiseIf_bind hE
  intro _
  apply raiseIf_bind hE
  intro _
  unfold proceed
  rw [if_pos hra]
  exact Op.meets_pure fun s hs => ⟨hs, rfl⟩

theorem call_of_meets {value : JVal} {Q : Bool → State → Prop} {E : Exc → State → Prop}
    (hmee : Meets (At ⟨start, [], false⟩) (applyPolicy rt value) Q E) (answer : Answer)
    (turns : List (Turn Answer)) :
    (∀ changed, (call rt value start answer turns).1 = .ok changed →
      Q changed (call rt value start answer turns).2.state) ∧
    ∀ e, (call rt value start answer turns).1 = .error e →
      E e (call rt value start answer turns).2.state := by
  have h := hmee ⟨⟨⟨start, [], false⟩, answer⟩, turns⟩ rfl
  unfold Op.Holds at h
  unfold call
  constructor
  · intro changed hrs
    rw [hrs] at h
    exact h
  · intro e hrs
    rw [hrs] at h
    exact h

/-- The rules outside the table are those of the snapshot that was approved,
handles and counts apart. -/
def RulesKept (rt : Runtime) (request : Request) (start m : Machine) : Prop :=
  ∃ collected others others', snapshotOf rt request start = .ok collected ∧
    request.expectedSnapshotSha256 = .str (collected.safe.snapshotSha256 rt) ∧
    othersOf rt start.ruleset = .ok others ∧ othersOf rt m.ruleset = .ok others' ∧
    digest rt (.arr others') = digest rt (.arr others) ∧
    (Function.Injective rt.sha256 → jsonBytes (.arr others') = jsonBytes (.arr others))

theorem Done.rulesKept (h : Done rt request start p) : RulesKept rt request start p.machine := by
  obtain ⟨collected, final, hcl, hex, hfn, -, het, -⟩ := h.approved
  obtain ⟨_, _, others, _, hbf⟩ := snapshot_of_ok hcl
  obtain ⟨_, _, others', _, haf⟩ := snapshot_of_ok hfn
  have hdg : digest rt (.arr others') = digest rt (.arr others) := by
    rw [← haf.external, ← hbf.external, het]
  exact ⟨collected, others, others', hcl, hex, hbf.others_eq, haf.others_eq, hdg,
    fun hinj => hinj hdg⟩

/-- The retirement of the restriction is honest and touches nothing else: for
every machine and every outcome of the commands and the accesses,
* a call that is ready leaves the restriction retired and the other rules kept;
* a call that stops with another code than the uncertain one has issued nothing
  and left the marker;
* every command was issued with a backup of the approved snapshot, and where
  somebody listens only with the listener authenticated;
* a later call after one that was ready changes nothing. -/
theorem retirement_is_honest (rt : Runtime) (value : JVal) (start : Machine) (answer : Answer)
    (turns : List (Turn Answer)) :
    (∀ changed, (call rt value start answer turns).1 = .ok changed → ∃ request,
      requestOf rt value = .ok request ∧
      Retired rt request (call rt value start answer turns).2.state.now.machine ∧
      RulesKept rt request start (call rt value start answer turns).2.state.now.machine) ∧
    (∀ e, (call rt value start answer turns).1 = .error e → ∃ code, e = .policy code ∧
      (code ≠ .outcomeUnverified → (call rt value start answer turns).2.state.now.issued = [] ∧
        (call rt value start answer turns).2.state.now.machine.marker = start.marker)) ∧
    (∀ i ∈ (call rt value start answer turns).2.state.now.issued, ∃ request,
      requestOf rt value = .ok request ∧
      Secured rt request start i) ∧
    (∀ changed request, (call rt value start answer turns).1 = .ok changed →
      requestOf rt value = .ok request →
      ∀ value' request' answer' turns', requestOf rt value' = .ok request' →
        request'.machineUuid = request.machineUuid → request'.hostname = request.hostname →
        request'.sourceSha256 = request.sourceSha256 →
        (call rt value' (call rt value start answer turns).2.state.now.machine answer'
          turns').2.state.now.machine =
            (call rt value start answer turns).2.state.now.machine ∧
          (call rt value' (call rt value start answer turns).2.state.now.machine answer'
            turns').2.state.now.issued = [] ∧
          ∀ changed', (call rt value'
            (call rt value start answer turns).2.state.now.machine answer' turns').1 =
            .ok changed' → changed' = false) := by
  have hbd := @applyBody_meets rt start value
  have hcall := call_of_meets (applyPolicy_meets value hbd) answer turns
  generalize call rt value start answer turns = ended at hcall ⊢
  obtain ⟨result, scene⟩ := ended
  cases result with
  | error e =>
    obtain ⟨cause, code, rfl, hcd, hst, hsc⟩ := hcall.2 e rfl
    refine ⟨nofun, ?_, hsc, nofun⟩
    rintro _ ⟨⟩
    refine ⟨code, rfl, fun hne => ?_⟩
    have hcl : Calm start scene.state.now := by
      rcases hst with hmut | hcl
      · rw [hmut] at hcd
        exact absurd (hcd.trans (by cases cause <;> rfl)) hne
      · exact hcl
    exact ⟨hcl.issued, hcl.marker⟩
  | ok changed =>
    obtain ⟨request, hrq, hdn⟩ := hcall.1 changed rfl
    obtain ⟨collected, final, -, -, hfn, hra, -, -⟩ := hdn.approved
    refine ⟨?_, nofun, fun i hi => ⟨request, hrq, hdn.secured i hi⟩, ?_⟩
    · rintro _ ⟨⟩
      exact ⟨request, hrq, retired_of_ready hfn hra, hdn.rulesKept⟩
    · rintro _ request₁ ⟨⟩ hsm value' request' answer' turns' hrq' huui hnm hsrc
      cases hrq.symm.trans hsm
      rw [← snapshotOf_congr huui hnm hsrc] at hfn
      have haga := call_of_meets
        (applyPolicy_meets value' (again_meets hrq' hfn hra hdn.locked)) answer' turns'
      generalize call rt value' scene.state.now.machine answer' turns' = ended at haga ⊢
      obtain ⟨result, scene'⟩ := ended
      cases result with
      | error e =>
        obtain ⟨_, _, -, -, hsm⟩ := haga.2 e rfl
        have hnow : scene'.state.now = ⟨scene.state.now.machine, [], false⟩ := hsm
        exact ⟨(congrArg Progress.machine hnow :), (congrArg Progress.issued hnow :), nofun⟩
      | ok changed' =>
        obtain ⟨hsm, hch⟩ := haga.1 changed' rfl
        have hnow : scene'.state.now = ⟨scene.state.now.machine, [], false⟩ := hsm
        refine ⟨(congrArg Progress.machine hnow :), (congrArg Progress.issued hnow :), ?_⟩
        rintro _ ⟨⟩
        exact hch

end WebOvpn.Vnc
