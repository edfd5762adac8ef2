/-
`JobRetentionManager.cleanup` over a whole registry: the directory it works in
at each point, the jobs it has dealt with before, and when it fails.
-/
import WebOvpn.Jobs.Directories

namespace WebOvpn

open Op List

namespace Jobs

variable {rt : Runtime}

def Manageable (rt : Runtime) (c : Cleanup) (r : JobRecord) (files : JobFiles) : Prop :=
  match classify rt c r files with
  | .error _ => False
  | .ok (.act _ _ .archiveLog _) => files.lookup (archiveTemporary c.pid) = none
  | .ok (.act _ _ .deleteJob _) => isJobId r.jobId = true ∧ r.directory = r.jobId
  | .ok (.skip _ _ _) => True

/-- A complete job, which every cleanup can deal with. -/
structure StoredJob (rt : Runtime) (name : Text) (files : JobFiles) (r : JobRecord) : Prop where
  distinct : (files.map Prod.fst).Nodup
  loads : loadFromDir rt name files = .ok r
  manageable : ∀ c, validatePolicy c = .ok () → Manageable rt c r files

structure Stored (rt : Runtime) (jobs : JobsDir) : Prop where
  distinct : Distinct jobs
  job : ∀ name files, HasJob jobs name files → ∃ r, StoredJob rt name files r
  reviews : ∃ ids, rt.reviewedJobs (setupRecord rt jobs) = .ok ids

def Archives (rt : Runtime) (c : Cleanup) (r : JobRecord) (files : JobFiles) : Prop :=
  ∃ jobId state age, classify rt c r files = .ok (.act jobId state .archiveLog age)

def Deletes (rt : Runtime) (c : Cleanup) (r : JobRecord) (files : JobFiles) : Prop :=
  ∃ jobId state age, classify rt c r files = .ok (.act jobId state .deleteJob age)

def Clogged (pid : Text) (files files' : JobFiles) : Prop :=
  (files'.lookup (archiveTemporary pid)).isSome ∧
    ∀ key, key ≠ archiveTemporary pid → files'.lookup key = files.lookup key

structure Archived (files files' : JobFiles) : Prop where
  distinct : (files'.map Prod.fst).Nodup
  request : files'.lookup (text "request.json") = files.lookup (text "request.json")
  status : files'.lookup (text "status.json") = files.lookup (text "status.json")
  archive : (files'.lookup (text "ansible.log.gz")).isSome

inductive Stage (rt : Runtime) (c : Cleanup) (r : JobRecord) (files : JobFiles) :
    JobPoint → Option JobFiles → Prop
  | archiveOpened {files' : JobFiles} (harchives : Archives rt c r files)
      (hfiles : Clogged c.pid files files') : Stage rt c r files (.archiveOpened r.directory) files'
  | archiveWritten {files' : JobFiles} (harchives : Archives rt c r files)
      (hfiles : Clogged c.pid files files') :
      Stage rt c r files (.archiveWritten r.directory) files'
  | archiveReplaced {files' : JobFiles} (hfiles : Archived files files') :
      Stage rt c r files (.archiveReplaced r.directory) files'
  | logRemoved {files' : JobFiles} (hfiles : Archived files files') :
      Stage rt c r files (.logRemoved r.directory) files'
  | fileRemoved {gone left : JobFiles} (hdeletes : Deletes rt c r files)
      (hfiles : files = gone ++ left) :
      Stage rt c r files (.fileRemoved r.directory (left.map Prod.fst)) left
  | jobRemoved (hdeletes : Deletes rt c r files) :
      Stage rt c r files (.jobRemoved r.directory) none

inductive Done (rt : Runtime) (c : Cleanup) (r : JobRecord) (files : JobFiles) :
    Option JobFiles → Prop
  | retained : Done rt c r files files
  | archived {files' : JobFiles} (hfiles : Archived files files') : Done rt c r files files'
  | deleted (hdeletes : Deletes rt c r files) : Done rt c r files none

theorem archiveTemporary_ne (name : String) (pid : Text)
    (h : (text name).head? ≠ some (CodePoint.ofChar '.')) : text name ≠ archiveTemporary pid := by
  intro heq
  rw [heq] at h
  exact h rfl

section

variable {c : Cleanup} {r : JobRecord} {files : JobFiles} {s : JobsDir}

theorem passes_archiveLog (hfs : dirOf s r.directory = some files)
    (hds : (files.map Prod.fst).Nodup) (harchi : Archives rt c r files)
    (hfr : files.lookup (archiveTemporary c.pid) = none) : Passes (archiveLog r.directory c.pid) s
      (fun point d => Frame r.directory s d ∧ Stage rt c r files point (dirOf d r.directory))
      fun out d => out = .ok () ∧ Frame r.directory s d ∧ Done rt c r files (dirOf d r.directory) := by
  have hrq := archiveTemporary_ne "request.json" c.pid (by decide)
  have hst := archiveTemporary_ne "status.json" c.pid (by decide)
  unfold archiveLog
  refine passes_look_ok rfl ?_
  rw [filesOf_eq hfs, hfr]
  have hopened := Frame.change r.directory (put (archiveTemporary c.pid) .torn) s
  have hop := dirOf_change_self (f := put (archiveTemporary c.pid) .torn) hfs
  have hwr := hopened.trans (Frame.change r.directory (put (archiveTemporary c.pid) .data) _)
  have hwrit := dirOf_change_self (f := put (archiveTemporary c.pid) .data) hop
  have hrp := hwr.trans (Frame.change r.directory
    (replace (archiveTemporary c.pid) (text "ansible.log.gz") .data) _)
  have hrepl := dirOf_change_self
    (f := replace (archiveTemporary c.pid) (text "ansible.log.gz") .data) hwrit
  have hrem := hrp.trans (Frame.change r.directory (unlink (text "ansible.log")) _)
  have hremo := dirOf_change_self (f := unlink (text "ansible.log")) hrepl
  apply passes_step_bind
  · refine ⟨hopened, ?_⟩
    rw [hop]
    apply Stage.archiveOpened harchi
    refine ⟨by rw [lookup_put, if_pos rfl]; rfl, ?_⟩
    intro key hkey
    rw [lookup_put, if_neg hkey]
  apply passes_step_bind
  · refine ⟨hwr, ?_⟩
    rw [hwrit]
    apply Stage.archiveWritten harchi
    refine ⟨by rw [lookup_put, if_pos rfl]; rfl, ?_⟩
    intro key hkey
    rw [lookup_put, if_neg hkey, lookup_put, if_neg hkey]
  have har : Archived files (replace (archiveTemporary c.pid) (text "ansible.log.gz") .data
      (put (archiveTemporary c.pid) .data (put (archiveTemporary c.pid) .torn files))) := by
    constructor
    · exact nodup_put (nodup_unlink (nodup_put (nodup_put hds _ _) _ _) _) _ _
    · rw [lookup_replace, if_neg (by decide), if_neg hrq, lookup_put, if_neg hrq,
        lookup_put, if_neg hrq]
    · rw [lookup_replace, if_neg (by decide), if_neg hst, lookup_put, if_neg hst,
        lookup_put, if_neg hst]
    · rw [lookup_replace, if_pos rfl]
      rfl
  apply passes_step_bind
  · refine ⟨hrp, ?_⟩
    rw [hrepl]
    exact Stage.archiveReplaced har
  have hgn : Archived files (unlink (text "ansible.log")
      (replace (archiveTemporary c.pid) (text "ansible.log.gz") .data
        (put (archiveTemporary c.pid) .data (put (archiveTemporary c.pid) .torn files)))) := by
    constructor
    · exact nodup_unlink har.distinct _
    · rw [lookup_unlink, if_neg (by decide), har.request]
    · rw [lookup_unlink, if_neg (by decide), har.status]
    · rw [lookup_unlink, if_neg (by decide)]
      exact har.archive
  apply passes_step
  · refine ⟨hrem, ?_⟩
    rw [hremo]
    exact Stage.logRemoved hgn
  · refine ⟨rfl, hrem, ?_⟩
    rw [hremo]
    exact Done.archived hgn

theorem unlink_head {name : Text} {file : JobFile} {left : JobFiles}
    (h : (((name, file) :: left).map Prod.fst).Nodup) : unlink name ((name, file) :: left) = left := by
  unfold unlink
  rw [filter_cons_of_neg (by simp), filter_eq_self]
  intro entry hen
  rw [decide_eq_true_iff]
  rintro rfl
  exact (nodup_cons.1 h).1 (mem_map.2 ⟨entry, hen, rfl⟩)

theorem passes_removeFiles {gone left : JobFiles} {d : JobsDir} (hde : Deletes rt c r files)
    (hfr : Frame r.directory s d) (hfs : files = gone ++ left)
    (hds : (left.map Prod.fst).Nodup) (hlf : dirOf d r.directory = some left) :
    Passes (removeFiles r.directory left) d
      (fun point d => Frame r.directory s d ∧ Stage rt c r files point (dirOf d r.directory))
      fun out d => out = .ok () ∧ Frame r.directory s d := by
  induction left generalizing gone d with
  | nil => exact passes_pure ⟨rfl, hfr⟩
  | cons entry left ih =>
    obtain ⟨name, file⟩ := entry
    have hfr' := hfr.trans (Frame.change r.directory (unlink name) d)
    have hlf' := dirOf_change_self (f := unlink name) hlf
    rw [unlink_head hds] at hlf'
    have hfs' : files = (gone ++ [(name, file)]) ++ left := by
      rw [hfs, append_assoc]
      rfl
    apply passes_step_bind
    · refine ⟨hfr', ?_⟩
      rw [hlf']
      exact Stage.fileRemoved hde hfs'
    · exact ih hfr' hfs' (nodup_cons.1 hds).2 hlf'

theorem passes_deleteJob (hfs : dirOf s r.directory = some files)
    (hdi : (files.map Prod.fst).Nodup) (hds : Deletes rt c r files)
    (hid : isJobId r.jobId = true ∧ r.directory = r.jobId) : Passes (deleteJob r) s
      (fun point d => Frame r.directory s d ∧ Stage rt c r files point (dirOf d r.directory))
      fun out d => out = .ok () ∧ Frame r.directory s d ∧ Done rt c r files (dirOf d r.directory) := by
  unfold deleteJob
  apply passes_lift_bind
  · intro e he
    rw [if_neg] at he
    · cases he
    · rintro (h | h)
      · rw [hid.1] at h
        cases h
      · exact h hid.2
  intro _ _
  apply passes_look_bind
  · intro e he
    cases he
  intro files' hfs'
  cases hfs'
  rw [filesOf_eq hfs]
  apply (passes_removeFiles hds (Frame.refl _ s) (nil_append files).symm hdi
    hfs).bind
  · rintro e d ⟨h, -⟩
    cases h
  rintro _ d ⟨-, hfr⟩
  have hfr' := hfr.trans (Frame.drop r.directory d)
  have hgn : dirOf (drop r.directory d) r.directory = none := by rw [dirOf_drop, if_pos rfl]
  apply passes_step
  · refine ⟨hfr', ?_⟩
    change Stage rt c r files _ (dirOf (drop r.directory d) r.directory)
    rw [hgn]
    exact Stage.jobRemoved hds
  · refine ⟨rfl, hfr', ?_⟩
    change Done rt c r files (dirOf (drop r.directory d) r.directory)
    rw [hgn]
    exact Done.deleted hds

theorem classify_jobId {verdict : Verdict} (h : classify rt c r files = .ok verdict) :
    verdict.jobId = r.jobId := by
  unfold classify at h
  split_ifs at h
  · cases h
    rfl
  · cases h
    rfl
  · cases h
    rfl
  · obtain ⟨terminalAt, -, h⟩ := bind_eq_ok.1 h
    dsimp only at h
    split_ifs at h <;> cases h <;> rfl

theorem passes_cleanupJob (hfs : dirOf s r.directory = some files)
    (hds : (files.map Prod.fst).Nodup) (hmn : Manageable rt c r files) :
    Passes (cleanupJob rt c r) s
      (fun point d => Frame r.directory s d ∧ Stage rt c r files point (dirOf d r.directory))
      fun out d => (∃ verdict, out = .ok verdict ∧ verdict.jobId = r.jobId) ∧
        Frame r.directory s d ∧ Done rt c r files (dirOf d r.directory) := by
  have hrt : Frame r.directory s s ∧ Done rt c r files (dirOf s r.directory) := by
    rw [hfs]
    exact ⟨Frame.refl _ s, Done.retained⟩
  unfold cleanupJob
  apply passes_look_bind
  · intro e he
    rw [filesOf_eq hfs] at he
    rw [Manageable, he] at hmn
    exact hmn.elim
  intro verdict hvr
  rw [filesOf_eq hfs] at hvr
  apply Passes.bind (Q := fun out d => out = .ok () ∧ Frame r.directory s d ∧
    Done rt c r files (dirOf d r.directory))
  · unfold carryOut
    rw [Manageable, hvr] at hmn
    split
    · split_ifs
      · exact passes_archiveLog hfs hds ⟨_, _, _, hvr⟩ hmn
      · exact passes_pure ⟨rfl, hrt⟩
    · split_ifs
      · exact passes_deleteJob hfs hds ⟨_, _, _, hvr⟩ hmn
      · exact passes_pure ⟨rfl, hrt⟩
    · exact passes_pure ⟨rfl, hrt⟩
  · rintro e d ⟨h, -⟩
    cases h
  · rintro _ d ⟨-, hdn⟩
    exact passes_pure ⟨⟨verdict, rfl, classify_jobId hvr⟩, hdn⟩

end

/-- The directory `name` is as it was, or the cleanup has dealt with its job. -/
inductive Settled (rt : Runtime) (c : Cleanup) (before d : JobsDir) (name : Text) : Prop
  | same (h : dirOf d name = dirOf before name)
  | done {r : JobRecord} {files : JobFiles} (hjob : HasJob before name files)
      (hst : StoredJob rt name files r) (hdn : Done rt c r files (dirOf d name))

def CleanupPoint (rt : Runtime) (c : Cleanup) (before : JobsDir) (point : JobPoint)
    (d : JobsDir) : Prop :=
  Distinct d ∧ validatePolicy c = .ok () ∧ ∃ r files, HasJob before r.directory files ∧
    StoredJob rt r.directory files r ∧ Stage rt c r files point (dirOf d r.directory) ∧
    ∀ name, name ≠ r.directory → Settled rt c before d name

structure Between (rt : Runtime) (c : Cleanup) (before : JobsDir) (records left : List JobRecord)
    (verdicts : List Verdict) (d : JobsDir) : Prop where
  distinct : Distinct d
  nodup : (left.map JobRecord.directory).Nodup
  jobs : ∀ r ∈ left, ∃ files, HasJob before r.directory files ∧
    StoredJob rt r.directory files r ∧ dirOf d r.directory = some files
  settled : ∀ name, Settled rt c before d name
  named : verdicts.map Verdict.jobId ++ left.map JobRecord.jobId = records.map JobRecord.jobId

section

variable {c : Cleanup} {before d d' : JobsDir} {records left : List JobRecord} {r : JobRecord}
  {verdicts : List Verdict}

theorem Settled.frame {id name : Text} (h : Settled rt c before d name) (hfr : Frame id d d')
    (hnm : name ≠ id) : Settled rt c before d' name := by
  have heq := hfr.others name hnm
  cases h with
  | same h => exact .same (heq.trans h)
  | done hjob hst hdn =>
    rw [← heq] at hdn
    exact .done hjob hst hdn

theorem Between.step {verdict : Verdict} {files : JobFiles}
    (h : Between rt c before records (r :: left) verdicts d)
    (hjob : HasJob before r.directory files) (hst : StoredJob rt r.directory files r)
    (hvr : verdict.jobId = r.jobId) (hfr : Frame r.directory d d')
    (hdn : Done rt c r files (dirOf d' r.directory)) :
    Between rt c before records left (verdicts ++ [verdict]) d' := by
  have hnd := nodup_cons.1 h.nodup
  constructor
  · exact hfr.distinct h.distinct
  · exact hnd.2
  · intro r' hr'
    obtain ⟨files', hjob', hst', hfs'⟩ := h.jobs r' (mem_cons_of_mem r hr')
    have hne : r'.directory ≠ r.directory := by
      intro heq
      apply hnd.1
      rw [← heq]
      exact mem_map.2 ⟨r', hr', rfl⟩
    exact ⟨files', hjob', hst', (hfr.others _ hne).trans hfs'⟩
  · intro name
    by_cases hnm : name = r.directory
    · rw [hnm]
      exact .done hjob hst hdn
    · exact (h.settled name).frame hfr hnm
  · rw [← h.named, map_append, append_assoc, map_singleton, hvr]
    rfl

theorem between_start (hs : Stored rt before) (hls : list rt before = .ok records) :
    Between rt c before records records [] before := by
  constructor
  · exact hs.distinct
  · exact list_nodup hs.distinct hls
  · intro r hr
    obtain ⟨name, files, hjob, hla⟩ := (mem_list hs.distinct hls).1 hr
    obtain ⟨r', hst⟩ := hs.job name files hjob
    have hr' : r' = r := Except.ok.inj (hst.loads.symm.trans hla)
    subst hr'
    rw [loadFromDir_directory hla]
    exact ⟨files, hjob, hst, hjob.2⟩
  · intro name
    exact .same rfl
  · rfl

theorem mem_jobIds {entries : List Verdict} {dryRun apply : Bool} {days days' : Int}
    {checked : Nat} {verdict : Verdict} (h : verdict ∈ verdicts) : verdict.jobId ∈ Report.jobIds
      { dryRun, retentionDays := days, archiveAfterDays := days', checked
        actions := (verdicts.filter (·.isAction)).map fun v => (v, apply)
        skipped := entries ++ verdicts.filter (!·.isAction) } := by
  unfold Report.jobIds
  rw [map_map, map_append, mem_append, mem_append]
  cases hact : verdict.isAction with
  | true =>
    left
    exact mem_map.2 ⟨verdict, mem_filter.2 ⟨h, hact⟩, rfl⟩
  | false =>
    right
    right
    exact mem_map.2 ⟨verdict, mem_filter.2 ⟨h, by rw [hact]; rfl⟩, rfl⟩

theorem passes_cleanup (hs : Stored rt before) (c : Cleanup) :
    Passes (cleanup rt c) before (CleanupPoint rt c before) fun out _ =>
      validatePolicy c = .ok () → ∃ report, out = .ok report ∧
        ∀ records, list rt before = .ok records → ∀ r ∈ records, r.jobId ∈ report.jobIds := by
  unfold cleanup
  apply passes_lift_bind
  · intro e he hc
    rw [hc] at he
    cases he
  intro _ hc
  refine passes_look_ok rfl ?_
  apply passes_look_bind
  · intro e he
    obtain ⟨records, hrs⟩ := list_isOk hs.distinct fun name files hjob =>
      (hs.job name files hjob).imp fun r hr => hr.loads
    rw [hrs] at he
    cases he
  intro records hls
  apply Passes.bind
  · refine Passes.forEach (I := fun left verdicts d =>
      Between rt c before records left verdicts d) (E := fun _ _ => False) ?_ []
      (between_start hs hls)
    intro r left verdicts d h
    obtain ⟨files, hjob, hst, hfs⟩ := h.jobs r mem_cons_self
    apply (passes_cleanupJob hfs hst.distinct (hst.manageable c hc)).mono
    · rintro point d' ⟨hfr, hsg⟩
      refine ⟨hfr.distinct h.distinct, hc, r, files, hjob, hst, hsg, ?_⟩
      intro name hname
      exact (h.settled name).frame hfr hname
    · rintro out d' ⟨⟨verdict, rfl, hvr⟩, hfr, hdn⟩
      exact h.step hjob hst hvr hfr hdn
  · intro e d he
    exact he.elim
  · intro verdicts d h
    apply passes_pure
    intro _
    refine ⟨_, rfl, ?_⟩
    intro records' hrs' r hr
    cases hls.symm.trans hrs'
    have hnd : r.jobId ∈ verdicts.map Verdict.jobId := by
      have hnm := h.named
      rw [map_nil, append_nil, nil_append] at hnm
      rw [hnm]
      exact mem_map.2 ⟨r, hr, rfl⟩
    obtain ⟨verdict, hvr, heq⟩ := mem_map.1 hnd
    rw [← heq]
    exact mem_jobIds hvr

end

section

variable {c : Cleanup} {r : JobRecord} {files : JobFiles} {s : JobsDir}

theorem passes_archiveLog_frame (id pid : Text) (s : JobsDir) :
    Passes (archiveLog id pid) s (fun _ _ => True) fun out d => Frame id s d ∧
      (out = .ok () → (filesOf s id).lookup (archiveTemporary pid) = none) := by
  unfold archiveLog
  refine passes_look_ok rfl ?_
  have hfr := Frame.change id (unlink (archiveTemporary pid)) s
  cases hlo : (filesOf s id).lookup (archiveTemporary pid) with
  | some file =>
    apply passes_step_bind trivial
    apply passes_raise
    refine ⟨hfr, ?_⟩
    intro h
    cases h
  | none =>
    apply passes_step_bind trivial
    apply passes_step_bind trivial
    apply passes_step_bind trivial
    apply passes_step trivial
    refine ⟨?_, fun _ => rfl⟩
    exact (((Frame.change id _ s).trans (Frame.change id _ _)).trans
      (Frame.change id _ _)).trans (Frame.change id _ _)

theorem passes_removeFiles_frame {id : Text} {s d : JobsDir} (hfr : Frame id s d) (files : JobFiles) :
    Passes (removeFiles id files) d (fun _ _ => True) fun _ d' => Frame id s d' := by
  induction files generalizing d with
  | nil => exact passes_pure hfr
  | cons entry files ih =>
    apply passes_step_bind trivial
    exact ih (hfr.trans (Frame.change id _ d))

theorem passes_deleteJob_frame (r : JobRecord) (s : JobsDir) :
    Passes (deleteJob r) s (fun _ _ => True) fun out d => Frame r.directory s d ∧
      (out = .ok () → isJobId r.jobId = true ∧ r.directory = r.jobId) := by
  unfold deleteJob
  apply passes_lift_bind
  · intro e _
    refine ⟨Frame.refl _ s, ?_⟩
    intro h
    cases h
  intro _ hid
  have hid' : isJobId r.jobId = true ∧ r.directory = r.jobId := by
    split_ifs at hid with hun
    rw [not_or, Bool.not_eq_false, not_not] at hun
    exact hun
  refine passes_look_ok rfl ?_
  apply (passes_removeFiles_frame (Frame.refl _ s) _).bind
  · intro e d hfr
    refine ⟨hfr, ?_⟩
    intro h
    cases h
  · intro _ d hfr
    exact passes_step trivial ⟨hfr.trans (Frame.drop r.directory d), fun _ => hid'⟩

/-- A round that succeeds met a job it could deal with, and it changes no other. -/
theorem passes_cleanupJob_frame (c : Cleanup) (r : JobRecord) (s : JobsDir) :
    Passes (cleanupJob rt c r) s (fun _ _ => True) fun out d => Frame r.directory s d ∧
      ∀ verdict, out = .ok verdict → c.apply = true → Manageable rt c r (filesOf s r.directory) := by
  unfold cleanupJob
  apply passes_look_bind
  · intro e _
    refine ⟨Frame.refl _ s, ?_⟩
    intro verdict h
    cases h
  intro verdict hvr
  apply Passes.bind (Q := fun out d => Frame r.directory s d ∧ (out = .ok () → c.apply = true →
    Manageable rt c r (filesOf s r.directory)))
  · unfold Manageable carryOut
    rw [hvr]
    split
    · split_ifs with hap
      · apply (passes_archiveLog_frame r.directory c.pid s).mono (fun _ _ h => h)
        rintro out d ⟨hfr, hfe⟩
        exact ⟨hfr, fun hot _ => hfe hot⟩
      · exact passes_pure ⟨Frame.refl _ s, fun _ h => absurd h hap⟩
    · split_ifs with hap
      · apply (passes_deleteJob_frame r s).mono (fun _ _ h => h)
        rintro out d ⟨hfr, hid⟩
        exact ⟨hfr, fun hot _ => hid hot⟩
      · exact passes_pure ⟨Frame.refl _ s, fun _ h => absurd h hap⟩
    · exact passes_pure ⟨Frame.refl _ s, fun _ _ => trivial⟩
  · rintro e d ⟨hfr, -⟩
    refine ⟨hfr, ?_⟩
    intro verdict h
    cases h
  · rintro _ d ⟨hfr, hmn⟩
    exact passes_pure ⟨hfr, fun _ _ => hmn rfl⟩

theorem manageable_of_cleanup {report : Report} {records : List JobRecord} (hd : Distinct s)
    (h : (finish (cleanup rt c) s).1 = .ok report) (hap : c.apply = true)
    (hls : list rt s = .ok records) : ∀ r ∈ records, Manageable rt c r (filesOf s r.directory) := by
  have hps : Passes (cleanup rt c) s (fun _ _ => True) fun out _ => ∀ report, out = .ok report →
      ∀ r ∈ records, Manageable rt c r (filesOf s r.directory) := by
    unfold cleanup
    apply passes_lift_bind
    · intro e _ report h
      cases h
    intro _ _
    refine passes_look_ok rfl ?_
    apply passes_look_bind
    · intro e _ report h
      cases h
    intro records' hrs'
    cases hls.symm.trans hrs'
    apply Passes.bind
    · refine Passes.forEach (I := fun left _ d => (left.map JobRecord.directory).Nodup ∧
        (∀ r ∈ left, filesOf d r.directory = filesOf s r.directory) ∧
        ∀ r ∈ records, r ∈ left ∨ Manageable rt c r (filesOf s r.directory))
        (E := fun _ _ => True) ?_ [] ⟨list_nodup hd hls, fun _ _ => rfl, fun _ hr => .inl hr⟩
      rintro r left verdicts d ⟨hnd, hfs, hrs⟩
      have hnd := nodup_cons.1 hnd
      apply (passes_cleanupJob_frame c r d).mono (fun _ _ h => h)
      rintro out d' ⟨hfr, hmn⟩
      cases out with
      | error e => trivial
      | ok verdict =>
        refine ⟨hnd.2, ?_, ?_⟩
        · intro r' hr'
          have hne : r'.directory ≠ r.directory := by
            intro heq
            apply hnd.1
            rw [← heq]
            exact mem_map.2 ⟨r', hr', rfl⟩
          rw [filesOf_eq_getD, hfr.others _ hne, ← filesOf_eq_getD]
          exact hfs r' (mem_cons_of_mem r hr')
        · intro r' hr'
          rcases hrs r' hr' with hmem | hdn
          · rcases mem_cons.1 hmem with rfl | hmem
            · right
              rw [← hfs r' mem_cons_self]
              exact hmn verdict rfl hap
            · exact .inl hmem
          · exact .inr hdn
    · intro e d _ report h
      cases h
    · rintro verdicts d ⟨-, -, hrs⟩
      apply passes_pure
      intro report _ r hr
      rcases hrs r hr with hmem | hdn
      · cases hmem
      · exact hdn
  exact hps.finish report h

end

end Jobs

end WebOvpn
