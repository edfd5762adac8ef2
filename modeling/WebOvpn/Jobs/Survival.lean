/-
What an interruption of `JobRepository.create` or `JobRetentionManager.cleanup`
leaves behind.  The registry is read as a whole, so it survives exactly when
the directory at work is complete or gone.
-/
import WebOvpn.Jobs.Creation

namespace WebOvpn

open Op List Option

namespace Jobs

variable {rt : Runtime}

/-- The registry `d`, left by an operation that started in `before`, still
answers and returns every job of `before` that the operation did not touch. -/
structure Survives (rt : Runtime) (before d : JobsDir) (touched : JobRecord → Prop) : Prop where
  list : ∃ records, Jobs.list rt d = .ok records ∧
    ∀ old, Jobs.list rt before = .ok old → ∀ r ∈ old, ¬ touched r → r ∈ records
  active : ∀ machineUuid, ∃ found, activeForMachine rt d machineUuid = .ok found ∧
    ∀ r, activeForMachine rt before machineUuid = .ok (some r) → found.isSome
  cleanup : ∀ c, validatePolicy c = .ok () → ∃ report, (finish (Jobs.cleanup rt c) d).1 = .ok report ∧
      ∀ old, Jobs.list rt before = .ok old → ∀ r ∈ old, ¬ touched r → r.jobId ∈ report.jobIds

section

variable {jobs : JobsDir} {records : List JobRecord} {r : JobRecord} {machineUuid : Text}

theorem isActiveJob_isOk {ids : List Text} (h : rt.reviewedJobs (setupRecord rt jobs) = .ok ids)
    (r : JobRecord) : ∃ b, isActiveJob rt jobs r = .ok b := by
  unfold isActiveJob
  split_ifs
  · rw [h]
    exact ⟨_, rfl⟩
  · exact ⟨_, rfl⟩
  · exact ⟨_, rfl⟩

theorem firstActive_isOk (machineUuid : Text) {ids : List Text}
    (h : rt.reviewedJobs (setupRecord rt jobs) = .ok ids)
    (records : List JobRecord) : ∃ found, firstActive rt jobs machineUuid records = .ok found := by
  induction records with
  | nil => exact ⟨none, rfl⟩
  | cons r rest ih =>
    unfold firstActive
    obtain ⟨b, hb⟩ := isActiveJob_isOk h r
    split_ifs
    · rw [hb]
      cases b with
      | false => exact ih
      | true => exact ⟨some r, rfl⟩
    · exact ih

theorem firstActive_isSome {found : Option JobRecord}
    (h : firstActive rt jobs machineUuid records = .ok found) (hr : r ∈ records)
    (hmac : rt.lower r.machineUuid = machineUuid)
    (hact : isActiveJob rt jobs r = .ok true) : found.isSome := by
  induction records with
  | nil => cases hr
  | cons first rest ih =>
    unfold firstActive at h
    rcases mem_cons.1 hr with rfl | hr
    · rw [if_pos hmac, hact] at h
      cases h
      rfl
    · split_ifs at h
      · obtain ⟨b, -, h⟩ := bind_eq_ok.1 h
        split_ifs at h
        · cases h
          rfl
        · exact ih h hr
      · exact ih h hr

theorem firstActive_mem (h : firstActive rt jobs machineUuid records = .ok (some r)) :
    r ∈ records ∧ rt.lower r.machineUuid = machineUuid ∧ isActiveJob rt jobs r = .ok true := by
  induction records with
  | nil => cases h
  | cons first rest ih =>
    unfold firstActive at h
    have hrs : firstActive rt jobs machineUuid rest = .ok (some r) → r ∈ first :: rest ∧
        rt.lower r.machineUuid = machineUuid ∧ isActiveJob rt jobs r = .ok true := by
      intro h
      exact ⟨mem_cons_of_mem first (ih h).1, (ih h).2⟩
    split_ifs at h with hmac
    · obtain ⟨b, hb, h⟩ := bind_eq_ok.1 h
      split_ifs at h with hact
      · cases h
        rw [hb, hact]
        exact ⟨mem_cons_self, hmac, rfl⟩
      · exact hrs h
    · exact hrs h

theorem isActiveJob_congr {d : JobsDir} (h : setupRecord rt d = setupRecord rt jobs) :
    isActiveJob rt d r = isActiveJob rt jobs r := by
  unfold isActiveJob
  rw [h]

end

def setupOf (rt : Runtime) (name : Text) (dir : Option JobFiles) : Option (Members × Members) :=
  dir.bind fun files =>
    match loadFromDir rt name files with
    | .ok job =>
      if Members.field job.status "kind" = .str "setup" then
        some (job.request, job.status)
      else none
    | .error _ => none

theorem setupRecord_eq (jobs : JobsDir) (id : Text) : setupRecord rt jobs id =
      if isJobId (Text.strip id) then setupOf rt (Text.strip id) (dirOf jobs (Text.strip id))
        else none := by
  unfold setupRecord get dirOf setupOf
  split_ifs
  · rcases entryOf jobs (Text.strip id) with _ | (files | _) <;> rfl
  · rfl

theorem setupRecord_congr {before d : JobsDir}
    (h : ∀ name, setupOf rt name (dirOf d name) = setupOf rt name (dirOf before name)) :
    setupRecord rt d = setupRecord rt before := by
  funext id
  rw [setupRecord_eq, setupRecord_eq, h]

section

variable {before d : JobsDir} {touched : JobRecord → Prop}

theorem Stored.survives (hs : Stored rt before) (hd : Stored rt d)
    (hset : setupRecord rt d = setupRecord rt before)
    (hkp : ∀ name files r, HasJob before name files → loadFromDir rt name files = .ok r →
      ¬ touched r → ∃ files', HasJob d name files' ∧ loadFromDir rt name files' = .ok r)
    (hact : ∀ r, isActiveJob rt before r = .ok true → ¬ touched r) : Survives rt before d touched := by
  obtain ⟨records, hrs⟩ := list_isOk hd.distinct fun name files hjob =>
    (hd.job name files hjob).imp fun r hr => hr.loads
  have hmem : ∀ old, list rt before = .ok old → ∀ r ∈ old, ¬ touched r → r ∈ records := by
    intro old hold r hr hunt
    obtain ⟨name, files, hjob, hla⟩ := (mem_list hs.distinct hold).1 hr
    obtain ⟨files', hjob', hla'⟩ := hkp name files r hjob hla hunt
    exact (mem_list hd.distinct hrs).2 ⟨name, files', hjob', hla'⟩
  constructor
  · exact ⟨records, hrs, hmem⟩
  · intro machineUuid
    obtain ⟨ids, hids⟩ := hd.reviews
    obtain ⟨found, hfn⟩ := firstActive_isOk (rt.lower (Text.strip machineUuid)) hids records
    refine ⟨found, bind_eq_ok.2 ⟨records, hrs, hfn⟩, ?_⟩
    intro r hr
    obtain ⟨old, hold, hfs⟩ := bind_eq_ok.1 hr
    obtain ⟨hmemO, hmac, hisA⟩ := firstActive_mem hfs
    apply firstActive_isSome hfn (hmem old hold r hmemO (hact r hisA)) hmac
    rw [isActiveJob_congr hset]
    exact hisA
  · intro c hc
    obtain ⟨report, hrp, hnm⟩ := (passes_cleanup hd c).finish hc
    refine ⟨report, hrp, ?_⟩
    intro old hold r hr hunt
    exact hnm records hrs r (hmem old hold r hr hunt)

end

section

variable {c : Cleanup} {r : JobRecord} {name : Text} {files files' : JobFiles}

theorem classify_cases (rt : Runtime) (c : Cleanup) (r : JobRecord) :
    (∃ e, ∀ files, classify rt c r files = .error e) ∨
    (∃ reason, ∀ files, classify rt c r files = .ok (.skip r.jobId r.state reason)) ∨
    (∃ age, ∀ files, classify rt c r files = .ok (.act r.jobId r.state .deleteJob age)) ∨
    ∃ age, ∀ files, classify rt c r files = if (files.lookup (text "ansible.log")).isSome ∧
          (files.lookup (text "ansible.log.gz")).isNone then .ok (.act r.jobId r.state .archiveLog age)
      else .ok (.skip r.jobId r.state "retained") := by
  unfold classify
  split_ifs
  · exact .inr (.inl ⟨_, fun _ => rfl⟩)
  · exact .inr (.inl ⟨_, fun _ => rfl⟩)
  · exact .inr (.inl ⟨_, fun _ => rfl⟩)
  · rcases terminalTimestamp rt r.status retentionFields with e | terminalAt
    · exact .inl ⟨e, fun _ => rfl⟩
    · simp only [bind, Except.bind]
      generalize max 0 (((c.now.val : Int) - terminalAt.val) / microsPerDay) = age
      split_ifs with hdel
      · exact .inr (.inr (.inl ⟨age, fun _ => rfl⟩))
      · by_cases har : c.archiveAfterDays ≤ age
        · refine .inr (.inr (.inr ⟨age, fun files => ?_⟩))
          simp only [har, true_and]
          rfl
        · refine .inr (.inl ⟨"retained", fun files => ?_⟩)
          simp only [har, false_and, if_false]
          rfl

theorem Archives.lookup (h : Archives rt c r files) : (files.lookup (text "ansible.log")).isSome ∧
      (files.lookup (text "ansible.log.gz")).isNone := by
  obtain ⟨jobId, state, age, h⟩ := h
  obtain ⟨_, hcs⟩ | ⟨_, hcs⟩ | ⟨_, hcs⟩ | ⟨_, hcs⟩ := classify_cases rt c r <;>
    rw [hcs] at h
  · cases h
  · cases h
  · cases h
  · split_ifs at h with hfs
    · exact hfs
    · cases h

theorem Manageable.change (h : Manageable rt c r files)
    (hfr : Archives rt c r files' → files'.lookup (archiveTemporary c.pid) = none) :
    Manageable rt c r files' := by
  unfold Manageable at h ⊢
  obtain ⟨_, hcs⟩ | ⟨_, hcs⟩ | ⟨_, hcs⟩ | ⟨_, hcs⟩ := classify_cases rt c r
  · rw [hcs] at h
    exact h.elim
  · rw [hcs]
    trivial
  · rw [hcs] at h ⊢
    exact h
  · have hvr := hcs files'
    split_ifs at hvr
    · rw [hvr]
      exact hfr ⟨_, _, _, hvr⟩
    · rw [hvr]
      trivial

theorem StoredJob.archived (h : StoredJob rt name files r) (hfs : Archived files files') :
    StoredJob rt name files' r where
  distinct := hfs.distinct
  loads := (loadFromDir_congr hfs.request hfs.status).trans h.loads
  manageable c hc := by
    apply (h.manageable c hc).change
    intro har
    have hnn := har.lookup.2
    rw [isNone_iff_eq_none] at hnn
    have hsm := hfs.archive
    rw [hnn] at hsm
    cases hsm

def Blocked (names : List Text) : Prop :=
  text "ansible.log" ∈ names ∧ text "ansible.log.gz" ∉ names ∧ ∃ pid, archiveTemporary pid ∈ names

theorem lookup_isSome_iff_mem (files : JobFiles) (key : Text) :
    (files.lookup key).isSome ↔ key ∈ files.map Prod.fst := by
  constructor
  · intro h
    obtain ⟨file, hfl⟩ := isSome_iff_exists.1 h
    exact List.mem_map.2 ⟨_, mem_of_lookup hfl, rfl⟩
  · intro h
    by_contra hnn
    rw [Bool.not_eq_true, isSome_eq_false_iff, isNone_iff_eq_none,
      List.lookup_eq_none_iff] at hnn
    obtain ⟨entry, hen, rfl⟩ := List.mem_map.1 h
    simpa using hnn entry hen

theorem lookup_append_right {gone left : JobFiles} {key : Text}
    (hds : ((gone ++ left).map Prod.fst).Nodup) (hkey : key ∈ left.map Prod.fst) :
    left.lookup key = (gone ++ left).lookup key := by
  obtain ⟨entry, hen, rfl⟩ := List.mem_map.1 hkey
  rw [lookup_of_mem hds (mem_append_right gone hen)]
  rw [map_append, nodup_append] at hds
  exact lookup_of_mem hds.2.1 hen

/-- A job that is being deleted stays complete as long as its records are there. -/
theorem StoredJob.left {gone left : JobFiles} (h : StoredJob rt name (gone ++ left) r)
    (hrq : text "request.json" ∈ left.map Prod.fst)
    (hst : text "status.json" ∈ left.map Prod.fst) (hfr : ¬ Blocked (left.map Prod.fst)) :
    StoredJob rt name left r where
  distinct := by
    have hds := h.distinct
    rw [map_append, nodup_append] at hds
    exact hds.2.1
  loads := by
    rw [← h.loads]
    exact loadFromDir_congr (lookup_append_right h.distinct hrq)
      (lookup_append_right h.distinct hst)
  manageable c hc := by
    apply (h.manageable c hc).change
    intro harch
    obtain ⟨hlog, har⟩ := harch.lookup
    by_contra hsm
    apply hfr
    refine ⟨(lookup_isSome_iff_mem _ _).1 hlog, ?_, c.pid, ?_⟩
    · rw [← lookup_isSome_iff_mem, isNone_iff_eq_none.1 har]
      exact Bool.false_ne_true
    · rw [← lookup_isSome_iff_mem, isSome_iff_ne_none]
      exact hsm

end

def SafeCleanup : JobPoint → Prop
  | .archiveReplaced _ => True
  | .logRemoved _ => True
  | .fileRemoved _ left =>
    text "request.json" ∈ left ∧ text "status.json" ∈ left ∧ ¬ Blocked left
  | .jobRemoved _ => True
  | _ => False

def Deleted (rt : Runtime) (c : Cleanup) (before : JobsDir) (r : JobRecord) : Prop :=
  Deletes rt c r (filesOf before r.directory)

def Fine (rt : Runtime) (c : Cleanup) (name : Text) (r : JobRecord) (files : JobFiles)
    (dir : Option JobFiles) : Prop :=
  (∃ files', dir = some files' ∧ StoredJob rt name files' r) ∨ dir = none ∧ Deletes rt c r files

section

variable {c : Cleanup} {r : JobRecord} {name : Text} {files files' : JobFiles}
  {dir : Option JobFiles} {before d : JobsDir} {point : JobPoint}

theorem Deletes.ended (h : Deletes rt c r files) : Members.field r.status "kind" ≠ .str "setup" ∧
      ¬ (r.state = "queued" ∨ r.state = "running") ∧
      ¬ (r.state ≠ "successful" ∧ r.state ≠ "failed") ∧
      ∃ terminalAt, terminalTimestamp rt r.status retentionFields = .ok terminalAt ∧
        c.retentionDays ≤ max 0 (((c.now.val : Int) - terminalAt.val) / microsPerDay) := by
  obtain ⟨jobId, state, age, h⟩ := h
  unfold classify at h
  split_ifs at h with hset hact hend
  · cases h
  · cases h
  · cases h
  · obtain ⟨terminalAt, htr, h⟩ := bind_eq_ok.1 h
    dsimp only at h
    split_ifs at h with hage
    · exact ⟨hset, hact, hend, terminalAt, htr, hage⟩
    · cases h
    · cases h

theorem Deletes.not_active (h : Deletes rt c r files) (jobs : JobsDir) :
    isActiveJob rt jobs r ≠ .ok true := by
  obtain ⟨hset, hact, -, -⟩ := h.ended
  unfold isActiveJob
  rw [if_neg hset]
  intro heq
  apply hact
  simpa using Except.ok.inj heq

theorem setupOf_loads (h : loadFromDir rt name files = .ok r) : setupOf rt name (some files) =
      if Members.field r.status "kind" = .str "setup" then some (r.request, r.status) else none := by
  unfold setupOf
  rw [bind_some, h]

theorem Done.fine (h : Done rt c r files dir) (hst : StoredJob rt name files r) :
    Fine rt c name r files dir := by
  cases h with
  | retained => exact .inl ⟨files, rfl, hst⟩
  | archived hfs => exact .inl ⟨_, rfl, hst.archived hfs⟩
  | deleted hds => exact .inr ⟨rfl, hds⟩

theorem cleanup_survives (hs : Stored rt before) (hd : Distinct d)
    (hfn : ∀ name, dirOf d name = dirOf before name ∨ ∃ r files, HasJob before name files ∧
      StoredJob rt name files r ∧ Fine rt c name r files (dirOf d name)) :
    Survives rt before d (Deleted rt c before) := by
  have hset : setupRecord rt d = setupRecord rt before := by
    apply setupRecord_congr
    intro name
    obtain heq | ⟨r, files, hjob, hst, ⟨files', hfs', hst'⟩ | ⟨hgn, hds⟩⟩ :=
      hfn name
    · rw [heq]
    · rw [hfs', hjob.2, setupOf_loads hst.loads, setupOf_loads hst'.loads]
    · rw [hgn, hjob.2, setupOf_loads hst.loads, if_neg hds.ended.1]
      rfl
  have hst : Stored rt d := by
    constructor
    · exact hd
    · rintro name files' ⟨hnm, hfs'⟩
      obtain heq | ⟨r, files, hjob, hst, ⟨files'', hfs'', hst'⟩ | ⟨hgn, -⟩⟩ :=
        hfn name
      · exact hs.job name files' ⟨hnm, heq.symm.trans hfs'⟩
      · cases hfs''.symm.trans hfs'
        exact ⟨r, hst'⟩
      · cases hgn.symm.trans hfs'
    · rw [hset]
      exact hs.reviews
  apply hs.survives hst hset
  · intro name files r hjob hla hunt
    obtain heq | ⟨r', files', hjob', hst', ⟨files'', hfs'', hst''⟩ | ⟨-, hds⟩⟩ :=
      hfn name
    · exact ⟨files, ⟨hjob.1, heq.trans hjob.2⟩, hla⟩
    · cases hjob.2.symm.trans hjob'.2
      cases hla.symm.trans hst'.loads
      exact ⟨files'', ⟨hjob.1, hfs''⟩, hst''.loads⟩
    · cases hjob.2.symm.trans hjob'.2
      cases hla.symm.trans hst'.loads
      apply absurd _ hunt
      unfold Deleted
      rw [loadFromDir_directory hla, filesOf_eq hjob.2]
      exact hds
  · intro r hact hdel
    exact Deletes.not_active hdel before hact

/-- Another cleanup of the same process stops at the archive left open. -/
theorem clogged_not_survives {touched : JobRecord → Prop} (hd : Distinct d)
    (hc : validatePolicy c = .ok ()) (hnm : isJobName name = true)
    (hst : StoredJob rt name files r) (har : Archives rt c r files)
    (hfs' : dirOf d name = some files') (hcl : Clogged c.pid files files') :
    ¬ Survives rt before d touched := by
  intro hsur
  have hsm : ∀ name : String, (text name).head? ≠ some (CodePoint.ofChar '.') →
      files'.lookup (text name) = files.lookup (text name) := by
    intro name hha
    exact hcl.2 _ (archiveTemporary_ne name c.pid hha)
  have hla : loadFromDir rt name files' = .ok r :=
    (loadFromDir_congr (hsm "request.json" (by decide)) (hsm "status.json" (by decide))).trans
      hst.loads
  obtain ⟨records, hrs, -⟩ := hsur.list
  obtain ⟨report, hrp, -⟩ := hsur.cleanup { c with apply := true } hc
  have hmn := manageable_of_cleanup hd hrp rfl hrs r
    ((mem_list hd hrs).2 ⟨name, files', ⟨hnm, hfs'⟩, hla⟩)
  rw [loadFromDir_directory hla, filesOf_eq hfs'] at hmn
  obtain ⟨jobId, state, age, hvr⟩ := har
  have hvr' : classify rt { c with apply := true } r files' =
      .ok (.act jobId state .archiveLog age) := by
    rw [← hvr]
    unfold classify
    rw [hsm "ansible.log" (by decide), hsm "ansible.log.gz" (by decide)]
  unfold Manageable at hmn
  rw [hvr'] at hmn
  have hso := hcl.1
  rw [hmn] at hso
  cases hso

theorem validatePolicy_eq_ok : validatePolicy c = .ok () ↔
    1 ≤ c.retentionDays ∧ 1 ≤ c.archiveAfterDays ∧ c.archiveAfterDays < c.retentionDays := by
  simp only [validatePolicy, bind_eq_ok, raiseWhen_eq_ok, exists_const]
  omega

/-- The policy under which a cleanup archives what `c` would delete. -/
def keepLonger (c : Cleanup) (age : Int) (pid : Text) : Cleanup :=
  { apply := true, now := c.now, retentionDays := age + 1, archiveAfterDays := 1, pid }

/-- Another cleanup, with a longer retention, stops at a temporary archive that
was left behind earlier. -/
theorem blocked_not_survives {touched : JobRecord → Prop} {left : JobFiles} (hd : Distinct d)
    (hc : validatePolicy c = .ok ()) (hnm : isJobName name = true)
    (hla : loadFromDir rt name left = .ok r) (hds : Deletes rt c r files)
    (hlf : dirOf d name = some left) (hblo : Blocked (left.map Prod.fst)) :
    ¬ Survives rt before d touched := by
  intro hsur
  obtain ⟨hlog, har, pid, hpid⟩ := hblo
  obtain ⟨hset, hact, hend, terminalAt, htr, hage⟩ := hds.ended
  rw [validatePolicy_eq_ok] at hc
  generalize hageD : max 0 (((c.now.val : Int) - terminalAt.val) / microsPerDay) = age at hage
  have hvl : validatePolicy (keepLonger c age pid) = .ok () := by
    rw [validatePolicy_eq_ok]
    change 1 ≤ age + 1 ∧ (1 : Int) ≤ 1 ∧ 1 < age + 1
    omega
  have hvr : classify rt (keepLonger c age pid) r left = .ok (.act r.jobId r.state .archiveLog age) := by
    unfold classify
    rw [if_neg hset, if_neg hact, if_neg hend, htr]
    simp only [bind, Except.bind, keepLonger, hageD]
    rw [if_neg (by omega), if_pos]
    · rfl
    · refine ⟨by omega, (lookup_isSome_iff_mem _ _).2 hlog, ?_⟩
      rw [← not_isSome, Bool.not_eq_true', Bool.eq_false_iff]
      exact fun h => har ((lookup_isSome_iff_mem _ _).1 h)
  obtain ⟨records, hrs, -⟩ := hsur.list
  obtain ⟨report, hrp, -⟩ := hsur.cleanup _ hvl
  have hmn := manageable_of_cleanup hd hrp rfl hrs r
    ((mem_list hd hrs).2 ⟨name, left, ⟨hnm, hlf⟩, hla⟩)
  rw [loadFromDir_directory hla, filesOf_eq hlf] at hmn
  unfold Manageable at hmn
  rw [hvr] at hmn
  have hsm := (lookup_isSome_iff_mem _ _).2 hpid
  change left.lookup (archiveTemporary pid) = none at hmn
  rw [hmn] at hsm
  cases hsm

theorem missing_not_survives {touched : JobRecord → Prop} {left : JobFiles} (hd : Distinct d)
    (hnm : isJobName name = true) (hlf : dirOf d name = some left)
    (hms : left.lookup (text "request.json") = none ∨ left.lookup (text "status.json") = none) :
    ¬ Survives rt before d touched := by
  intro hsur
  obtain ⟨records, hrs, -⟩ := hsur.list
  obtain ⟨e, he⟩ : ∃ e, loadFromDir rt name left = .error e := loadFromDir_missing hms
  exact list_error hd ⟨hnm, hlf⟩ he records hrs

theorem CleanupPoint.survives_iff (h : CleanupPoint rt c before point d) (hs : Stored rt before) :
    Survives rt before d (Deleted rt c before) ↔ SafeCleanup point := by
  obtain ⟨hd, hc, r, files, hjob, hst, hsg, hot⟩ := h
  have hfn : Fine rt c r.directory r files (dirOf d r.directory) →
      Survives rt before d (Deleted rt c before) := by
    intro hfn
    apply cleanup_survives hs hd
    intro name
    by_cases hnm : name = r.directory
    · rw [hnm]
      exact .inr ⟨r, files, hjob, hst, hfn⟩
    · cases hot name hnm with
      | same h => exact .inl h
      | done hjob hst hdn => exact .inr ⟨_, _, hjob, hst, hdn.fine hst⟩
  generalize hdir : dirOf d r.directory = dir at hsg hfn
  cases hsg with
  | archiveOpened har hfs =>
    exact iff_of_false (clogged_not_survives hd hc hjob.1 hst har hdir hfs) id
  | archiveWritten har hfs =>
    exact iff_of_false (clogged_not_survives hd hc hjob.1 hst har hdir hfs) id
  | archiveReplaced hfs =>
    exact iff_of_true (hfn (.inl ⟨_, rfl, hst.archived hfs⟩)) trivial
  | logRemoved hfs =>
    exact iff_of_true (hfn (.inl ⟨_, rfl, hst.archived hfs⟩)) trivial
  | jobRemoved hds => exact iff_of_true (hfn (.inr ⟨rfl, hds⟩)) trivial
  | @fileRemoved gone left hds hfs =>
    subst hfs
    constructor
    · intro hsur
      have hpr : ∀ key, left.lookup key ≠ none → key ∈ left.map Prod.fst := by
        intro key hkey
        rw [← lookup_isSome_iff_mem, isSome_iff_ne_none]
        exact hkey
      have hrq : text "request.json" ∈ left.map Prod.fst := by
        apply hpr
        intro hnn
        exact missing_not_survives hd hjob.1 hdir (.inl hnn) hsur
      have hsa : text "status.json" ∈ left.map Prod.fst := by
        apply hpr
        intro hnn
        exact missing_not_survives hd hjob.1 hdir (.inr hnn) hsur
      have hla : loadFromDir rt r.directory left = .ok r :=
        (loadFromDir_congr (lookup_append_right hst.distinct hrq)
          (lookup_append_right hst.distinct hsa)).trans hst.loads
      refine ⟨hrq, hsa, ?_⟩
      intro hblo
      exact blocked_not_survives hd hc hjob.1 hla hds hdir hblo hsur
    · rintro ⟨hrq, hsa, hfr⟩
      exact hfn (.inl ⟨left, rfl, hst.left hrq hsa hfr⟩)

end

def FitsNew (rt : Runtime) (new : NewJob) (id : Text) : Prop :=
  ∃ record machineUuid, jobRequest rt new = .ok (record, machineUuid) ∧ Fits record ∧
    Fits (jobStatus id machineUuid new.now)

def SafeCreate (rt : Runtime) (new : NewJob) : JobPoint → Prop
  | .jobsDirMade => True
  | .statusReplaced id => FitsNew rt new id
  | .logMade id => FitsNew rt new id
  | _ => False

theorem isPrefixOf_of_fullmatch {tag s : Text} {pattern : List (CodePoint → Bool)}
    (h : Text.fullmatch ((tag.map fun c d => d == c) ++ pattern) s = true) :
      tag.isPrefixOf s = true := by
  induction tag generalizing s with
  | nil => rfl
  | cons c rest ih =>
    cases s with
    | nil => cases h
    | cons d s =>
      rw [map_cons, cons_append, Text.fullmatch, Bool.and_eq_true] at h
      rw [List.isPrefixOf, Bool.and_eq_true]
      refine ⟨?_, ih h.2⟩
      rw [beq_iff_eq, eq_comm]
      exact beq_iff_eq.1 h.1

theorem isJobName_of_isJobId {id : Text} (h : isJobId id = true) : isJobName id = true := by
  unfold isJobId Text.literal at h
  rw [append_assoc, append_assoc, append_assoc, append_assoc] at h
  exact isPrefixOf_of_fullmatch h

section

variable {new : NewJob} {before d : JobsDir} {point : JobPoint} {id : Text} {files : JobFiles}

theorem create_survives {r : JobRecord} (hs : Stored rt before) (hd : Distinct d)
    (hnew : dirOf before id = none) (hfs : dirOf d id = some files)
    (hot : ∀ name, name ≠ id → dirOf d name = dirOf before name) (hst : StoredJob rt id files r)
    (hkn : Members.field r.status "kind" ≠ .str "setup") : Survives rt before d fun _ => False := by
  have hset : setupRecord rt d = setupRecord rt before := by
    apply setupRecord_congr
    intro name
    by_cases hnm : name = id
    · rw [hnm, hfs, hnew, setupOf_loads hst.loads, if_neg hkn]
      rfl
    · rw [hot name hnm]
  have hst' : Stored rt d := by
    constructor
    · exact hd
    · rintro name files' ⟨hjob, hfs'⟩
      by_cases hnm : name = id
      · subst hnm
        cases hfs.symm.trans hfs'
        exact ⟨r, hst⟩
      · exact hs.job name files' ⟨hjob, (hot name hnm).symm.trans hfs'⟩
    · rw [hset]
      exact hs.reviews
  apply hs.survives hst' hset
  · intro name files' r' hjob hla _
    have hnm : name ≠ id := by
      rintro rfl
      cases hnew.symm.trans hjob.2
    exact ⟨files', ⟨hjob.1, (hot name hnm).trans hjob.2⟩, hla⟩
  · intro _ _ h
    exact h

theorem same_survives (hs : Stored rt before) (hd : Distinct d)
    (hsm : ∀ name, dirOf d name = dirOf before name) : Survives rt before d fun _ => False := by
  have hset : setupRecord rt d = setupRecord rt before := by
    apply setupRecord_congr
    intro name
    rw [hsm name]
  have hst : Stored rt d := by
    constructor
    · exact hd
    · rintro name files ⟨hjob, hfs⟩
      exact hs.job name files ⟨hjob, (hsm name).symm.trans hfs⟩
    · rw [hset]
      exact hs.reviews
  apply hs.survives hst hset
  · intro name files r hjob hla _
    exact ⟨files, ⟨hjob.1, (hsm name).trans hjob.2⟩, hla⟩
  · intro _ _ h
    exact h

theorem CreatePoint.survives_iff (h : CreatePoint rt new before point d) (hs : Stored rt before) :
    Survives rt before d (fun _ => False) ↔ SafeCreate rt new point := by
  obtain ⟨rfl, rfl, rfl⟩ | ⟨id, files, hd, hid, hnew, hfs, hot, hst⟩ := h
  · refine iff_of_true (same_survives hs ?_ fun _ => rfl) trivial
    intro entries hen
    cases hen
    exact nodup_nil
  · have hnm := isJobName_of_isJobId hid
    cases hst with
    | incomplete hpi hms =>
      refine iff_of_false (missing_not_survives hd hnm hfs (.inr hms)) ?_
      simp only [mem_cons, not_mem_nil, or_false] at hpi
      rcases hpi with rfl | rfl | rfl | rfl | rfl <;> exact fun h => h
    | complete hpi hcpl =>
      obtain ⟨record, machineUuid, -, -, hrq, -⟩ := hcpl.records
      have hfi : Survives rt before d (fun _ => False) ↔ FitsNew rt new id := by
        constructor
        · intro hsur
          obtain ⟨records, hrs, -⟩ := hsur.list
          refine ⟨record, machineUuid, hrq, (hcpl.loads_iff hrq).1 ?_⟩
          cases hla : loadFromDir rt id files with
          | ok r => exact ⟨r, rfl⟩
          | error e => exact (list_error hd ⟨hnm, hfs⟩ hla records hrs).elim
        · rintro ⟨record', machineUuid', hrq', hfi⟩
          obtain ⟨r, hla⟩ := (hcpl.loads_iff hrq').2 hfi
          apply create_survives hs hd hnew hfs hot (hcpl.stored hla)
          rw [(hcpl.status hla).1]
          exact JVal.noConfusion
      rw [hfi]
      simp only [mem_cons, not_mem_nil, or_false] at hpi
      rcases hpi with rfl | rfl <;> rfl

end

/-- Wherever a creation or a cleanup is interrupted, the registry survives
exactly when the point passed last is a safe one. -/
theorem interrupted_jobs_survive_iff {before : JobsDir} (hs : Stored rt before) :
    (∀ new point d, (point, d) ∈ interruptions (create rt new) before →
      (Survives rt before d (fun _ => False) ↔ ∀ p, point = some p → SafeCreate rt new p)) ∧
    ∀ c point d, (point, d) ∈ interruptions (cleanup rt c) before →
      (Survives rt before d (Deleted rt c before) ↔ ∀ p, point = some p → SafeCleanup p) := by
  constructor
  · intro new point d hmem
    obtain ⟨rfl, rfl⟩ | ⟨p, rfl, hp⟩ := (passes_create hs.distinct rt new).interruptions hmem
    · apply iff_of_true (same_survives hs hs.distinct fun _ => rfl)
      intro p hp
      cases hp
    · rw [hp.survives_iff hs]
      simp
  · intro c point d hmem
    obtain ⟨rfl, rfl⟩ | ⟨p, rfl, hp⟩ := (passes_cleanup hs c).interruptions hmem
    · apply iff_of_true (cleanup_survives hs hs.distinct fun _ => .inl rfl)
      intro p hp
      cases hp
    · rw [hp.survives_iff hs]
      simp

def sampleRuntime : Runtime where
  repr _ := []
  lower := Text.lower
  floatEquals _ _ := false
  validateSetupRecord _ _ _ := .ok ()
  reviewedJobs _ := .ok []

def sampleNow : Instant := ⟨63876418200000000, second_lt⟩

def sampleJob (id : Text) (hid : isJobId id = true) : NewJob :=
  { request := [("machine_uuid", .str "4c4c4544-0051-3510-8052-b9c04f4a3232")]
    ids := [⟨id, hid⟩], now := sampleNow, pid := "4711" }

def queuedJob : NewJob := sampleJob "job-20250301T093000Z-0a1b2c3d" isJobId_sample

def queuedStatus : Members :=
  jobStatus "job-20250301T093000Z-0a1b2c3d" "4c4c4544-0051-3510-8052-b9c04f4a3232"
    sampleNow

def queuedFiles : JobFiles :=
  [("request.json", .document queuedJob.request ((documentSize queuedJob.request).getD 0)),
    ("status.json", .document queuedStatus ((documentSize queuedStatus).getD 0)),
    ("ansible.log", .data)]

def sampleRegistry : JobsDir := some [("job-20250301T093000Z-0a1b2c3d", .directory queuedFiles)]

theorem queuedRequest_size :
    documentSize queuedJob.request = some ((documentSize queuedJob.request).getD 0) := by
  have hsm : (documentSize queuedJob.request).isSome = true := by decide +kernel
  rw [← get_eq_getD _ (h := hsm), some_get]

theorem queuedStatus_size : documentSize queuedStatus = some ((documentSize queuedStatus).getD 0) := by
  have hsm : (documentSize queuedStatus).isSome = true := by decide +kernel
  rw [← get_eq_getD _ (h := hsm), some_get]

theorem queuedFiles_complete :
    Complete sampleRuntime queuedJob "job-20250301T093000Z-0a1b2c3d" queuedFiles := by
  constructor
  · decide
  · exact ⟨queuedJob.request, "4c4c4544-0051-3510-8052-b9c04f4a3232", _, _, rfl,
      queuedRequest_size, queuedStatus_size, rfl, rfl⟩

theorem sampleRegistry_stored : Stored sampleRuntime sampleRegistry := by
  constructor
  · intro entries hen
    cases hen
    exact nodup_singleton _
  · rintro name files ⟨-, hfs⟩
    have hnm : name = "job-20250301T093000Z-0a1b2c3d" := by
      by_contra hne
      rw [sampleRegistry, dirOf_some, lookup_cons_of_ne hne] at hfs
      cases hfs
    subst hnm
    cases hfs
    obtain ⟨r, hla⟩ := (queuedFiles_complete.loads_iff rfl).2
      ⟨⟨_, queuedRequest_size, by decide +kernel⟩, ⟨_, queuedStatus_size, by decide +kernel⟩⟩
    exact ⟨r, queuedFiles_complete.stored hla⟩
  · exact ⟨[], rfl⟩

def failedId : Text := "job-20250201T080000Z-6c7d8e9f"

/-- The status of a job that failed before it was launched. -/
def failedStatus : Members :=
  (jobStatus failedId (text "4c4c4544-0051-3510-8052-b9c04f4a3232") sampleNow).map fun member =>
    if member.1 = text "state" then (member.1, .str (text "failed")) else member

def failedFiles : JobFiles :=
  [(text "request.json", .document queuedJob.request ((documentSize queuedJob.request).getD 0)),
    ("status.json", .document failedStatus ((documentSize failedStatus).getD 0))]

theorem failedFiles_loaded : (loadFromDir sampleRuntime failedId failedFiles).toOption.any (fun r =>
    r.jobId = failedId && r.directory = failedId && r.state = text "failed" &&
      Members.field r.status "kind" = .null &&
      (terminalTimestamp sampleRuntime r.status retentionFields).toOption.isSome) = true := by
  decide +kernel

theorem failedFiles_stored : ∃ r, StoredJob sampleRuntime failedId failedFiles r := by
  have hload := failedFiles_loaded
  cases hrs : loadFromDir sampleRuntime failedId failedFiles with
  | error e =>
    rw [hrs] at hload
    cases hload
  | ok r =>
    rw [hrs] at hload
    simp only [Except.toOption, Option.any_some, Bool.and_eq_true, decide_eq_true_eq] at hload
    obtain ⟨⟨⟨⟨hid, hdir⟩, hstate⟩, hkind⟩, htime⟩ := hload
    refine ⟨r, by decide, hrs, ?_⟩
    intro c _
    have hfree : failedFiles.lookup (archiveTemporary c.pid) = none := by
      unfold failedFiles
      rw [lookup_cons_of_ne (archiveTemporary_ne "request.json" c.pid (by decide)).symm,
        lookup_cons_of_ne (archiveTemporary_ne "status.json" c.pid (by decide)).symm]
      rfl
    cases hterm : terminalTimestamp sampleRuntime r.status retentionFields with
    | error e =>
      rw [hterm] at htime
      cases htime
    | ok terminalAt =>
      unfold Manageable classify
      rw [hkind, if_neg (by simp), hstate, if_neg (by decide), if_neg (by decide), hterm]
      dsimp only [bind, Except.bind]
      split_ifs with hdel har
      · exact ⟨hid ▸ by decide, hdir.trans hid.symm⟩
      · exact hfree
      · trivial

/-- A queued job and one that a cleanup may archive or delete. -/
def finishedRegistry : JobsDir :=
  some [(text "job-20250301T093000Z-0a1b2c3d", .directory queuedFiles), (failedId, .directory failedFiles)]

theorem finishedRegistry_stored : Stored sampleRuntime finishedRegistry := by
  constructor
  · intro entries hen
    cases hen
    decide
  · rintro name files ⟨hnm, hfs⟩
    by_cases hqueued : name = "job-20250301T093000Z-0a1b2c3d"
    · subst hqueued
      exact sampleRegistry_stored.job _ files ⟨hnm, hfs⟩
    · rw [finishedRegistry, dirOf_some, lookup_cons_of_ne hqueued] at hfs
      by_cases hfail : name = failedId
      · subst hfail
        cases hfs
        exact failedFiles_stored
      · rw [lookup_cons_of_ne hfail] at hfs
        cases hfs
  · exact ⟨[], rfl⟩

/-- Both parts at a registry with a queued job and one that has expired. -/
theorem interrupted_jobs_survive_queued : Stored sampleRuntime finishedRegistry ∧
    (∀ new point d, (point, d) ∈ interruptions (create sampleRuntime new) finishedRegistry →
      (Survives sampleRuntime finishedRegistry d (fun _ => False) ↔
        ∀ p, point = some p → SafeCreate sampleRuntime new p)) ∧
    ∀ c point d, (point, d) ∈ interruptions (cleanup sampleRuntime c) finishedRegistry →
      (Survives sampleRuntime finishedRegistry d (Deleted sampleRuntime c finishedRegistry) ↔
        ∀ p, point = some p → SafeCleanup p) :=
  ⟨finishedRegistry_stored, interrupted_jobs_survive_iff finishedRegistry_stored⟩

def secondJob : NewJob := sampleJob "job-20250301T093001Z-4e5f6071" (by decide)

def interruptedRegistry : JobsDir := addDir "job-20250301T093001Z-4e5f6071" sampleRegistry

set_option maxRecDepth 8000 in
/-- After the interruption the queued job is not returned any more. -/
theorem interrupted_jobs_lost : Stored sampleRuntime sampleRegistry ∧
    (some (.jobDirMade "job-20250301T093001Z-4e5f6071"), interruptedRegistry) ∈
      interruptions (create sampleRuntime secondJob) sampleRegistry ∧
    ¬ Survives sampleRuntime sampleRegistry interruptedRegistry fun _ => False := by
  refine ⟨sampleRegistry_stored, List.mem_cons_of_mem _ ?_, ?_⟩
  · exact List.Mem.head _
  · have hnew : entryOf sampleRegistry "job-20250301T093001Z-4e5f6071" = none := rfl
    have hdir : dirOf interruptedRegistry (text "job-20250301T093001Z-4e5f6071") = some [] := by
      rw [interruptedRegistry, sampleRegistry, dirOf_addDir hnew, if_pos rfl]
    exact missing_not_survives (distinct_addDir hnew sampleRegistry_stored.distinct)
      (isJobName_of_isJobId (by decide)) hdir (.inl rfl)

end Jobs

end WebOvpn
