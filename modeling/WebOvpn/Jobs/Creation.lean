/-
`JobRepository.create` step by step: the new directory has its two records
only when the second one is in place.
-/
import WebOvpn.Jobs.Retention

namespace WebOvpn

open Op List

namespace Jobs

variable {rt : Runtime}

def addDir (id : Text) (jobs : JobsDir) : JobsDir :=
  jobs.map fun entries => entries ++ [(id, .directory [])]

section

variable {id : Text} {entries : List (Text × JobEntry)}

section

variable (h : entryOf (some entries) id = none)
include h

theorem not_mem_of_entryOf : id ∉ entries.map Prod.fst := by
  intro hmem
  obtain ⟨entry, hen, rfl⟩ := mem_map.1 hmem
  have hnn := List.lookup_eq_none_iff.1 (show entries.lookup entry.1 = none from h) entry hen
  simp at hnn

theorem dirOf_addDir (name : Text) :
    dirOf (addDir id (some entries)) name = if name = id then some []
      else dirOf (some entries) name := by
  unfold addDir
  rw [Option.map_some, dirOf_some, dirOf_some, lookup_append]
  split_ifs with hnm
  · subst hnm
    rw [show entries.lookup name = none from h]
    simp
  · rw [lookup_cons_of_ne hnm]
    simp

theorem distinct_addDir (hd : Distinct (some entries)) :
    Distinct (addDir id (some entries)) := by
  intro entries' hen'
  cases hen'
  rw [map_append, nodup_append]
  refine ⟨hd entries rfl, nodup_singleton _, ?_⟩
  intro key hkey key' hkey'
  rw [map_singleton, mem_singleton] at hkey'
  subst hkey'
  rintro rfl
  exact not_mem_of_entryOf h hkey

end

theorem dirOf_of_entryOf {jobs : JobsDir} (h : entryOf jobs id = none) : dirOf jobs id = none := by
  unfold dirOf
  rw [h]

end

theorem temporaryName_ne (name file : String) (pid : Text)
    (h : (text name).head? ≠ some (CodePoint.ofChar '.')) : text name ≠ temporaryName file pid := by
  intro heq
  rw [heq] at h
  exact h rfl

/-- `files'` has the record `members` under `file` and is `files` otherwise. -/
structure Wrote (file : String) (pid : Text) (members : Members) (files files' : JobFiles) :
    Prop where
  distinct : (files'.map Prod.fst).Nodup
  record : ∃ size, documentSize members = some size ∧
    files'.lookup (text file) = some (.document members size)
  others : ∀ key, key ≠ text file → key ≠ temporaryName file pid → files'.lookup key = files.lookup key

/-- Where `P` may hold while a record is written: of files that differ in the
temporary file only, and of files with the record in place. -/
structure Writable (P : JobPoint → JobFiles → Prop) (id : Text) (file : String) (pid : Text)
    (members : Members) (replaced : JobPoint) (files : JobFiles) : Prop where
  beside : ∀ point ∈ [JobPoint.temporaryOpened id, .temporaryWritten id, .temporaryDropped id],
    ∀ files', (∀ key, key ≠ temporaryName file pid → files'.lookup key = files.lookup key) → P point files'
  wrote : ∀ files', Wrote file pid members files files' → P replaced files'

theorem passes_atomicWriteJson {P : JobPoint → JobFiles → Prop} {id pid : Text} {file : String}
    {members : Members} {replaced : JobPoint} {files : JobFiles} {s : JobsDir}
    (hfs : dirOf s id = some files) (hds : (files.map Prod.fst).Nodup)
    (hP : Writable P id file pid members replaced files) :
    Passes (atomicWriteJson id file pid members replaced) s
      (fun point d => Frame id s d ∧ ∃ files', dirOf d id = some files' ∧ P point files')
      fun out d => out = .ok () → Frame id s d ∧ ∃ files', dirOf d id = some files' ∧
        Wrote file pid members files files' := by
  unfold atomicWriteJson
  have hopened := Frame.change id (put (temporaryName file pid) .torn) s
  have hop := dirOf_change_self (f := put (temporaryName file pid) .torn) hfs
  apply passes_step_bind
  · refine ⟨hopened, _, hop, hP.beside _ (by simp) _ ?_⟩
    intro key hkey
    rw [lookup_put, if_neg hkey]
  cases hsz : documentSize members with
  | none =>
    apply passes_step_bind
    · refine ⟨hopened.trans (Frame.change id _ _), _, dirOf_change_self hop,
        hP.beside _ (by simp) _ ?_⟩
      intro key hkey
      rw [lookup_unlink, if_neg hkey, lookup_put, if_neg hkey]
    · apply passes_raise
      intro h
      cases h
  | some size =>
    have hwr := hopened.trans
      (Frame.change id (put (temporaryName file pid) (.document members size)) _)
    have hwrit := dirOf_change_self
      (f := put (temporaryName file pid) (.document members size)) hop
    apply passes_step_bind
    · refine ⟨hwr, _, hwrit, hP.beside _ (by simp) _ ?_⟩
      intro key hkey
      rw [lookup_put, if_neg hkey, lookup_put, if_neg hkey]
    have hrp := hwr.trans (Frame.change id
      (replace (temporaryName file pid) (text file) (.document members size)) _)
    have hrepl := dirOf_change_self
      (f := replace (temporaryName file pid) (text file) (.document members size)) hwrit
    have hwro : Wrote file pid members files
        (replace (temporaryName file pid) (text file) (.document members size)
          (put (temporaryName file pid) (.document members size)
            (put (temporaryName file pid) .torn files))) := by
      constructor
      · exact nodup_put (nodup_unlink (nodup_put (nodup_put hds _ _) _ _) _) _ _
      · refine ⟨size, hsz, ?_⟩
        rw [lookup_replace, if_pos rfl]
      · intro key hfl htm
        rw [lookup_replace, if_neg hfl, if_neg htm, lookup_put, if_neg htm,
          lookup_put, if_neg htm]
    apply passes_step
    · exact ⟨hrp, _, hrepl, hP.wrote _ hwro⟩
    · intro _
      exact ⟨hrp, _, hrepl, hwro⟩

structure Complete (rt : Runtime) (new : NewJob) (id : Text) (files : JobFiles) : Prop where
  distinct : (files.map Prod.fst).Nodup
  records : ∃ record machineUuid size size', jobRequest rt new = .ok (record, machineUuid) ∧
    documentSize record = some size ∧
    documentSize (jobStatus id machineUuid new.now) = some size' ∧
    files.lookup (text "request.json") = some (.document record size) ∧
    files.lookup (text "status.json") = some (.document (jobStatus id machineUuid new.now) size')

inductive CreateStage (rt : Runtime) (new : NewJob) (id : Text) : JobPoint → JobFiles → Prop
  | incomplete {point : JobPoint} {files : JobFiles}
      (hpoint : point ∈ [JobPoint.jobDirMade id, .temporaryOpened id, .temporaryWritten id,
        .temporaryDropped id, .requestReplaced id])
      (hfiles : files.lookup (text "status.json") = none) : CreateStage rt new id point files
  | complete {point : JobPoint} {files : JobFiles}
      (hpoint : point ∈ [JobPoint.statusReplaced id, .logMade id])
      (hfiles : Complete rt new id files) : CreateStage rt new id point files

def CreatePoint (rt : Runtime) (new : NewJob) (before : JobsDir) (point : JobPoint)
    (d : JobsDir) : Prop :=
  point = .jobsDirMade ∧ before = none ∧ d = some [] ∨
    ∃ id files, Distinct d ∧ isJobId id = true ∧ dirOf before id = none ∧
      dirOf d id = some files ∧ (∀ name, name ≠ id → dirOf d name = dirOf before name) ∧
      CreateStage rt new id point files

section

variable {new : NewJob} {before s : JobsDir} {id : Text}

theorem Frame.createPoint {d : JobsDir} {point : JobPoint} {files : JobFiles}
    (hfr : Frame id s d) (hs : Distinct s) (hid : isJobId id = true)
    (hnew : dirOf before id = none) (hot : ∀ name, name ≠ id → dirOf s name = dirOf before name)
    (hfs : dirOf d id = some files) (hst : CreateStage rt new id point files) :
    CreatePoint rt new before point d := by
  refine .inr ⟨id, files, hfr.distinct hs, hid, hnew, hfs, ?_, hst⟩
  intro name hnm
  exact (hfr.others name hnm).trans (hot name hnm)

theorem passes_records {record : Members} {machineUuid : Text}
    (hrq : jobRequest rt new = .ok (record, machineUuid)) (hs : Distinct s)
    (hid : isJobId id = true) (hnew : dirOf before id = none) (hem : dirOf s id = some [])
    (hot : ∀ name, name ≠ id → dirOf s name = dirOf before name) : Passes (do
        atomicWriteJson id "request.json" new.pid record (.requestReplaced id)
        atomicWriteJson id "status.json" new.pid (jobStatus id machineUuid new.now) (.statusReplaced id)
        step (.logMade id) (change id (put (text "ansible.log") .data))
        look fun jobs => get rt jobs id) s (CreatePoint rt new before) fun _ _ => True := by
  have hpi : ∀ {t d : JobsDir} {point : JobPoint}, Frame id s t →
      (Frame id t d ∧ ∃ files, dirOf d id = some files ∧ CreateStage rt new id point files) →
        CreatePoint rt new before point d := by
    rintro t d point hfr ⟨hfr', files, hfs, hsg⟩
    exact (hfr.trans hfr').createPoint hs hid hnew hot hfs hsg
  have hst := fun file => temporaryName_ne "status.json" file new.pid (by decide)
  apply Passes.bind ((passes_atomicWriteJson (P := CreateStage rt new id) hem nodup_nil
    ?_).mono (fun _ _ => hpi (Frame.refl id s)) fun _ _ h => h)
  · intro _ _ _
    trivial
  swap
  · constructor
    · intro point hmem files' hfs'
      apply CreateStage.incomplete
      · simp only [mem_cons] at hmem ⊢
        tauto
      · exact hfs' _ (hst _)
    · intro files' hwro
      apply CreateStage.incomplete
      · simp
      · exact hwro.others _ (by decide) (hst _)
  intro _ t ht
  obtain ⟨hfr, files, hfs, hwro⟩ := ht rfl
  have hnn : files.lookup (text "status.json") = none :=
    hwro.others _ (by decide) (hst _)
  have hcpl : ∀ files', Wrote "status.json" new.pid (jobStatus id machineUuid new.now) files
      files' → Complete rt new id files' := by
    intro files' hwro'
    obtain ⟨size, hsz, hlo⟩ := hwro.record
    obtain ⟨size', hsz', hlo'⟩ := hwro'.record
    refine ⟨hwro'.distinct, record, machineUuid, size, size', hrq, hsz, hsz', ?_, hlo'⟩
    rw [hwro'.others _ (by decide) (temporaryName_ne "request.json" _ _ (by decide))]
    exact hlo
  apply Passes.bind ((passes_atomicWriteJson (P := CreateStage rt new id) hfs hwro.distinct
    ?_).mono (fun _ _ => hpi hfr) fun _ _ h => h)
  · intro _ _ _
    trivial
  swap
  · constructor
    · intro point hmem files' hfs'
      apply CreateStage.incomplete
      · simp only [mem_cons] at hmem ⊢
        tauto
      · rw [hfs' _ (hst _)]
        exact hnn
    · intro files' hwro'
      exact CreateStage.complete (by simp) (hcpl files' hwro')
  intro _ u hu
  obtain ⟨hfr', files', hfs', hwro'⟩ := hu rfl
  have hdn := hcpl files' hwro'
  apply passes_step_bind
  · apply hpi (hfr.trans hfr')
    refine ⟨Frame.change id _ u, _, dirOf_change_self hfs', ?_⟩
    apply CreateStage.complete (by simp)
    obtain ⟨record', machineUuid', size, size', hrq', hsz, hsz', hlo, hlo'⟩ :=
      hdn.records
    refine ⟨nodup_put hdn.distinct _ _, record', machineUuid', size, size', hrq', hsz,
      hsz', ?_, ?_⟩
    · rw [lookup_put, if_neg (by decide), hlo]
    · rw [lookup_put, if_neg (by decide), hlo']
  · intro points
    exact ⟨[], (append_nil points).symm, by simp, trivial⟩

theorem passes_makeJobDir {s : JobsDir} (ids : List JobId) {entries : List (Text × JobEntry)}
    (hs : s = some entries) (hd : Distinct s) (hsm : ∀ name, dirOf s name = dirOf before name) :
    Passes (makeJobDir ids) s (CreatePoint rt new before) fun out d => ∀ id, out = .ok id →
      isJobId id = true ∧ Distinct d ∧ dirOf before id = none ∧ dirOf d id = some [] ∧
        ∀ name, name ≠ id → dirOf d name = dirOf before name := by
  induction ids with
  | nil =>
    apply passes_raise
    intro id h
    cases h
  | cons id rest ih =>
    refine passes_look_ok rfl ?_
    subst hs
    cases hen : entryOf (some entries) id.val with
    | some entry => exact ih
    | none =>
      have hdir := dirOf_addDir hen
      have hnew : dirOf before id.val = none := by
        rw [← hsm]
        exact dirOf_of_entryOf hen
      have hem : dirOf (addDir id.val (some entries)) id.val = some [] := by
        rw [hdir, if_pos rfl]
      have hot : ∀ name, name ≠ id.val →
          dirOf (addDir id.val (some entries)) name = dirOf before name := by
        intro name hnm
        rw [hdir, if_neg hnm, hsm]
      have hds := distinct_addDir hen hd
      apply passes_step_bind
      · exact .inr ⟨id.val, [], hds, id.property, hnew, hem, hot, .incomplete (by simp) rfl⟩
      · apply passes_pure
        intro id' hid'
        cases hid'
        exact ⟨id.property, hds, hnew, hem, hot⟩

theorem passes_create (hd : Distinct before) (rt : Runtime) (new : NewJob) :
    Passes (create rt new) before (CreatePoint rt new before) fun _ _ => True := by
  unfold create
  apply passes_lift_bind
  · intro _ _
    trivial
  rintro ⟨record, machineUuid⟩ hrq
  have hrs : ∀ s entries, s = some entries → Distinct s → (∀ name, dirOf s name = dirOf before name) →
      Passes (do
        let id ← makeJobDir (new.ids.take 20)
        atomicWriteJson id "request.json" new.pid record (.requestReplaced id)
        atomicWriteJson id "status.json" new.pid (jobStatus id machineUuid new.now)
          (.statusReplaced id)
        step (.logMade id) (change id (put "ansible.log" .data))
        look fun jobs => get rt jobs id) s (CreatePoint rt new before) fun _ _ => True := by
    intro s entries hs hds hsm
    apply (passes_makeJobDir (new.ids.take 20) hs hds hsm).bind
    · intro _ _ _
      trivial
    · intro id d h
      obtain ⟨hid, hds', hnew, hem, hot⟩ := h id rfl
      exact passes_records hrq hds' hid hnew hem hot
  refine passes_look_ok rfl ?_
  cases before with
  | some entries => exact hrs _ entries rfl hd fun _ => rfl
  | none =>
    apply passes_step_bind
    · exact .inl ⟨rfl, rfl, rfl⟩
    · apply hrs _ [] rfl
      · intro entries hen
        cases hen
        exact nodup_nil
      · intro name
        rfl

end

/-- The record can be written and is not too large to be read again. -/
def Fits (members : Members) : Prop :=
  ∃ size, documentSize members = some size ∧ size ≤ maxStateBytes

theorem lookup_dictInsert_of_ne {key key' : Text} (h : key ≠ key') (members : Members)
    (value : JVal) : (dictInsert members key' value).lookup key = members.lookup key := by
  induction members with
  | nil => exact lookup_cons_of_ne h
  | cons entry rest ih =>
    obtain ⟨k, v⟩ := entry
    unfold dictInsert
    by_cases hk : k = key'
    · subst hk
      rw [if_pos rfl, lookup_cons_of_ne h, lookup_cons_of_ne h]
    · rw [if_neg hk]
      by_cases hkey : key = k
      · subst hkey
        rw [lookup_cons_self, lookup_cons_self]
      · rw [lookup_cons_of_ne hkey, lookup_cons_of_ne hkey, ih]

section

variable {new : NewJob} {record : Members} {machineUuid id : Text} {files : JobFiles}

theorem isSetupPayload_request (h : jobRequest rt new = .ok (record, machineUuid)) :
    isSetupPayload rt record = false := by
  unfold jobRequest at h
  simp only [bind_eq_ok, raiseWhen_eq_ok, exists_const] at h
  obtain ⟨hset, -, -, h⟩ := h
  cases h
  rw [not_or, Bool.not_eq_true] at hset
  unfold isSetupPayload Members.field memberOf
  rw [lookup_dictInsert_of_ne (by decide), lookup_dictInsert_of_ne (by decide), Bool.or_eq_false_iff,
    beq_eq_false_iff_ne]
  exact ⟨hset.2, hset.1⟩

theorem strOr_str (s : Text) : rt.strOr (.str s) = s := by
  cases s <;> rfl

theorem parseTimestamp_isoformat (t : Instant) : parseTimestamp rt (.str t.isoformat) = .ok t := by
  unfold parseTimestamp
  rw [strOr_str, strip_isoformat, fromisoformat_isoformat]
  exact Datetime.astimezone_utc t

theorem validateJobStageStatus_jobStatus (id machineUuid : Text) (now : Instant) :
    validateJobStageStatus rt (jobStatus id machineUuid now) = .ok () := by
  have hst : Text.strip (rt.strOr ((jobStatus id machineUuid now).field "state")) =
      "queued" := rfl
  have hsg : JobStage.parse (Text.strip (rt.strOr
      ((jobStatus id machineUuid now).field "stage"))) = some .created := rfl
  have hhis : checkHistory rt none JobStage.canonical
      [.obj [("stage", .str "created"), ("entered_at", .str now.isoformat)]] = .ok () := by
    unfold checkHistory
    simp only [JobStage.canonical, bind_eq_ok, raiseWhen_eq_ok, exists_const]
    refine ⟨?_, not_not.2 rfl, now, parseTimestamp_isoformat now, by simp, rfl⟩
    rintro (h | h | h)
    · exact h rfl
    · cases h
    · cases h
  have hfie : (jobStatus id machineUuid now).field "stage_history" = .arr
      [.obj [("stage", .str "created"), ("entered_at", .str now.isoformat)]] :=
    rfl
  unfold validateJobStageStatus
  simp only [hst, hsg, hfie, bind_eq_ok, raiseWhen_eq_ok, exists_const]
  exact ⟨by simp, (), hhis, not_not.2 rfl, by decide, by decide, by decide, by decide, by decide⟩

theorem readState_document {name : String} {members : Members} {size : Nat}
    (h : files.lookup (text name) = some (.document members size)) :
    readState files name = if maxStateBytes < size then .error jobInvalid else .ok members := by
  unfold readState
  rw [h]

theorem Complete.loads_iff (h : Complete rt new id files)
    (hrq : jobRequest rt new = .ok (record, machineUuid)) : (∃ r, loadFromDir rt id files = .ok r) ↔
      Fits record ∧ Fits (jobStatus id machineUuid new.now) := by
  obtain ⟨record', machineUuid', size, size', hrq', hsz, hsz', hlo, hlo'⟩ :=
    h.records
  cases hrq.symm.trans hrq'
  have hfs : ∀ {members : Members} {n : Nat}, documentSize members = some n →
      (Fits members ↔ ¬ maxStateBytes < n) := by
    intro members n hn
    unfold Fits
    rw [hn]
    simp
  rw [hfs hsz, hfs hsz']
  unfold loadFromDir
  rw [readState_document hlo, readState_document hlo']
  by_cases hlar : maxStateBytes < size
  · rw [if_pos hlar]
    exact iff_of_false (fun ⟨_, h⟩ => nomatch h) fun h => h.1 hlar
  · rw [if_neg hlar]
    by_cases hlar' : maxStateBytes < size'
    · rw [if_pos hlar']
      exact iff_of_false (fun ⟨_, h⟩ => nomatch h) fun h => h.2 hlar'
    · rw [if_neg hlar']
      refine iff_of_true ?_ ⟨hlar, hlar'⟩
      simp only [bind, Except.bind, isSetupPayload_request hrq, validateJobStageStatus_jobStatus]
      exact ⟨_, rfl⟩

theorem Complete.status {r : JobRecord} (h : Complete rt new id files)
    (hla : loadFromDir rt id files = .ok r) :
    Members.field r.status "kind" = .null ∧ r.state = text "queued" := by
  obtain ⟨record, machineUuid, -, size', -, -, -, -, hlo'⟩ := h.records
  obtain ⟨-, hsa, hst⟩ := loadFromDir_eq_ok hla
  rw [readState_document hlo'] at hsa
  split_ifs at hsa
  have hsm := Except.ok.inj hsa
  rw [← hsm] at hst ⊢
  exact ⟨rfl, hst⟩

theorem Complete.stored {r : JobRecord} (h : Complete rt new id files)
    (hla : loadFromDir rt id files = .ok r) : StoredJob rt id files r where
  distinct := h.distinct
  loads := hla
  manageable c _ := by
    obtain ⟨hkn, hst⟩ := h.status hla
    unfold Manageable classify
    rw [hkn, if_neg (by simp), if_pos (.inl hst)]
    trivial

end

end Jobs

end WebOvpn
