/-
The job directories as functions of their names, what the operations on one
directory do to them, and the listing read directory by directory.
-/
import WebOvpn.Jobs.Storage
import WebOvpn.Lib.Listing

namespace WebOvpn

open Op List

namespace Jobs

variable {rt : Runtime}

def dirOf (jobs : JobsDir) (name : Text) : Option JobFiles :=
  match entryOf jobs name with
  | some (.directory files) => some files
  | _ => none

theorem filesOf_eq_getD (jobs : JobsDir) (name : Text) :
    filesOf jobs name = (dirOf jobs name).getD [] := by
  unfold filesOf dirOf
  rcases entryOf jobs name with _ | (files | _) <;> rfl

theorem filesOf_eq {jobs : JobsDir} {name : Text} {files : JobFiles}
    (h : dirOf jobs name = some files) : filesOf jobs name = files := by
  rw [filesOf_eq_getD, h, Option.getD_some]

theorem dirOf_some (entries : List (Text × JobEntry)) (name : Text) : dirOf (some entries) name =
      match entries.lookup name with
      | some (.directory files) => some files
      | _ => none := rfl

theorem dirOf_change (id : Text) (f : JobFiles → JobFiles) (jobs : JobsDir) (name : Text) :
    dirOf (change id f jobs) name = if name = id then (dirOf jobs name).map f else dirOf jobs name := by
  cases jobs with
  | none => simp [change, dirOf, entryOf]
  | some entries =>
    unfold change
    rw [Option.map_some, dirOf_some, dirOf_some]
    induction entries with
    | nil => simp
    | cons entry rest ih =>
      obtain ⟨key, entry⟩ := entry
      by_cases hkey : name = key
      · subst hkey
        cases entry with
        | other => simp
        | directory files => by_cases hid : name = id <;> simp [hid]
      · rw [map_cons]
        cases entry with
        | other => simp only [lookup_cons_of_ne hkey, ih]
        | directory files =>
          by_cases hid : key = id
          · simp only [if_pos hid, lookup_cons_of_ne hkey, ih]
          · simp only [if_neg hid, lookup_cons_of_ne hkey, ih]

theorem dirOf_change_self {id : Text} {f : JobFiles → JobFiles} {jobs : JobsDir}
    {files : JobFiles} (h : dirOf jobs id = some files) :
      dirOf (change id f jobs) id = some (f files) := by
  rw [dirOf_change, if_pos rfl, h, Option.map_some]

theorem dirOf_change_of_ne {id name : Text} {f : JobFiles → JobFiles} {jobs : JobsDir}
    (h : name ≠ id) : dirOf (change id f jobs) name = dirOf jobs name := by
  rw [dirOf_change, if_neg h]

/-- Remove a directory. -/
def drop (id : Text) (jobs : JobsDir) : JobsDir :=
  jobs.map fun entries => entries.filter fun entry => entry.1 ≠ id

theorem dirOf_drop (id : Text) (jobs : JobsDir) (name : Text) :
    dirOf (drop id jobs) name = if name = id then none else dirOf jobs name := by
  cases jobs with
  | none => simp [drop, dirOf, entryOf]
  | some entries =>
    unfold drop
    rw [Option.map_some, dirOf_some, dirOf_some, lookup_filter_ne]
    split_ifs <;> rfl

theorem lookup_unlink (name key : Text) (files : JobFiles) :
    (unlink name files).lookup key = if key = name then none else files.lookup key :=
  lookup_filter_ne files name key

theorem lookup_put (name key : Text) (file : JobFile) (files : JobFiles) :
    (put name file files).lookup key = if key = name then some file else files.lookup key := by
  unfold put
  rw [lookup_append, lookup_filter_ne]
  split_ifs with h
  · subst h
    simp
  · simp [lookup_cons, beq_eq_false_iff_ne.2 h]

theorem lookup_replace (source target key : Text) (file : JobFile) (files : JobFiles) :
    (replace source target file files).lookup key =
      if key = target then some file else if key = source then none else files.lookup key := by
  unfold replace
  rw [lookup_put, lookup_unlink]

theorem nodup_unlink {files : JobFiles} (h : (files.map Prod.fst).Nodup) (name : Text) :
    ((unlink name files).map Prod.fst).Nodup :=
  h.sublist (List.filter_sublist.map Prod.fst)

theorem nodup_put {files : JobFiles} (h : (files.map Prod.fst).Nodup) (name : Text)
    (file : JobFile) : ((put name file files).map Prod.fst).Nodup := by
  unfold put
  rw [map_append, nodup_append]
  refine ⟨nodup_unlink h name, nodup_singleton _, ?_⟩
  intro key hkey key' hkey'
  obtain ⟨entry, hen, rfl⟩ := mem_map.1 hkey
  rw [map_singleton, mem_singleton] at hkey'
  rw [hkey']
  simpa using (mem_filter.1 hen).2

/-- A directory has one entry of each name. -/
def Distinct (jobs : JobsDir) : Prop :=
  ∀ entries, jobs = some entries → (entries.map Prod.fst).Nodup

/-- Only the directory `id` differs. -/
structure Frame (id : Text) (s d : JobsDir) : Prop where
  others : ∀ name, name ≠ id → dirOf d name = dirOf s name
  distinct : Distinct s → Distinct d

namespace Frame

variable {id : Text} {s d t : JobsDir}

theorem refl (id : Text) (s : JobsDir) : Frame id s s := ⟨fun _ _ => rfl, fun h => h⟩

theorem trans (h : Frame id s d) (h' : Frame id d t) : Frame id s t where
  others name hnm := (h'.others name hnm).trans (h.others name hnm)
  distinct hs := h'.distinct (h.distinct hs)

theorem change (id : Text) (f : JobFiles → JobFiles) (s : JobsDir) :
    Frame id s (Jobs.change id f s) where
  others name hnm := dirOf_change_of_ne hnm
  distinct hs := by
    intro entries' hen'
    cases s with
    | none => cases hen'
    | some entries =>
      cases hen'
      rw [map_map]
      convert hs entries rfl using 2
      funext ⟨name, entry⟩
      cases entry with
      | other => rfl
      | directory files =>
        dsimp only [Function.comp]
        split_ifs <;> rfl

theorem drop (id : Text) (s : JobsDir) : Frame id s (Jobs.drop id s) where
  others name hnm := by rw [dirOf_drop, if_neg hnm]
  distinct hs := by
    intro entries' hen'
    cases s with
    | none => cases hen'
    | some entries =>
      cases hen'
      exact (hs entries rfl).sublist (List.filter_sublist.map Prod.fst)

end Frame

theorem loadFromDir_congr {name : Text} {files files' : JobFiles}
    (hrq : files'.lookup (text "request.json") = files.lookup (text "request.json"))
    (hst : files'.lookup (text "status.json") = files.lookup (text "status.json")) :
    loadFromDir rt name files' = loadFromDir rt name files := by
  unfold loadFromDir readState
  rw [hrq, hst]

theorem readState_missing {files : JobFiles} {name : String}
    (h : files.lookup (text name) = none) : readState files name = .error jobInvalid := by
  unfold readState
  rw [h]

theorem loadFromDir_missing {name : Text} {files : JobFiles}
    (h : files.lookup (text "request.json") = none ∨ files.lookup (text "status.json") = none) :
    ∃ e, loadFromDir rt name files = .error e := by
  unfold loadFromDir
  rcases hrq : readState files "request.json" with e | request
  · exact ⟨e, rfl⟩
  · have hst : files.lookup (text "status.json") = none := by
      rcases h with h | h
      · rw [readState_missing h] at hrq
        cases hrq
      · exact h
    refine ⟨jobInvalid, ?_⟩
    change (readState files "status.json" >>= _) = _
    rw [readState_missing hst]
    rfl

theorem loadFromDir_eq_ok {name : Text} {files : JobFiles} {r : JobRecord}
    (h : loadFromDir rt name files = .ok r) : r.directory = name ∧
      readState files "status.json" = .ok r.status ∧
        r.state = rt.strOr (Members.field r.status "state") := by
  unfold loadFromDir at h
  obtain ⟨request, -, h⟩ := bind_eq_ok.1 h
  obtain ⟨status, hst, h⟩ := bind_eq_ok.1 h
  dsimp only at h
  split at h <;> obtain ⟨_, -, h⟩ := bind_eq_ok.1 h <;> cases h <;>
    exact ⟨rfl, hst, rfl⟩

theorem loadFromDir_directory {name : Text} {files : JobFiles} {r : JobRecord}
    (h : loadFromDir rt name files = .ok r) : r.directory = name :=
  (loadFromDir_eq_ok h).1

def HasJob (jobs : JobsDir) (name : Text) (files : JobFiles) : Prop :=
  isJobName name = true ∧ dirOf jobs name = some files

variable {entries : List (Text × JobEntry)}

theorem mem_candidates
    (hnm : (entries.map Prod.fst).Nodup) {name : Text} {files : JobFiles} :
    (name, files) ∈ candidates entries ↔ HasJob (some entries) name files := by
  unfold candidates HasJob
  rw [mem_filterMap, dirOf_some]
  constructor
  · rintro ⟨⟨key, entry⟩, hmem, heq⟩
    cases entry with
    | other => cases heq
    | directory files' =>
      dsimp only at heq
      split_ifs at heq with hname
      cases heq
      rw [lookup_of_mem hnm hmem]
      exact ⟨hname, rfl⟩
  · rintro ⟨hname, hdir⟩
    split at hdir
    · rename_i files' hlo
      cases hdir
      refine ⟨(name, .directory files), mem_of_lookup hlo, ?_⟩
      dsimp only
      rw [if_pos hname]
    · cases hdir

theorem candidates_nodup
    (hnm : (entries.map Prod.fst).Nodup) : ((candidates entries).map Prod.fst).Nodup := by
  apply Nodup.sublist _ hnm
  unfold candidates
  induction entries with
  | nil => exact Sublist.refl _
  | cons entry rest ih =>
    have hrs := ih (nodup_cons.1 hnm).2
    obtain ⟨key, entry⟩ := entry
    rw [filterMap_cons]
    cases entry with
    | other => exact hrs.cons key
    | directory files =>
      by_cases hname : isJobName key
      · simp only [hname, if_true]
        exact hrs.cons_cons key
      · simp only [hname]
        exact hrs.cons key

section

variable {jobs : JobsDir} {records : List JobRecord} {r : JobRecord} {name : Text}
  {files : JobFiles}

theorem list_eq_ok (h : list rt jobs = .ok records) : jobs = none ∧ records = [] ∨
    ∃ entries loaded, jobs = some entries ∧ records.Perm loaded ∧
      ((candidates entries).insertionSort fun a b => Text.le a.1 b.1 = true).mapM
        (fun entry => loadFromDir rt entry.1 entry.2) = .ok loaded := by
  cases jobs with
  | none =>
    cases h
    exact .inl ⟨rfl, rfl⟩
  | some entries =>
    obtain ⟨loaded, hla, h⟩ := bind_eq_ok.1 h
    cases h
    exact .inr ⟨entries, loaded, rfl, perm_insertionSort _ _, hla⟩

theorem hasJob_none : ¬ HasJob none name files := by
  rintro ⟨-, h⟩
  cases h

theorem mem_list (hd : Distinct jobs) (h : list rt jobs = .ok records) :
    r ∈ records ↔ ∃ name files, HasJob jobs name files ∧ loadFromDir rt name files = .ok r := by
  obtain ⟨rfl, rfl⟩ | ⟨entries, loaded, rfl, hpr, hla⟩ := list_eq_ok h
  · simp [hasJob_none]
  · rw [hpr.mem_iff, mem_of_mapM hla]
    constructor
    · rintro ⟨⟨name, files⟩, hmem, hr⟩
      rw [mem_insertionSort, mem_candidates (hd _ rfl)] at hmem
      exact ⟨name, files, hmem, hr⟩
    · rintro ⟨name, files, hjob, hr⟩
      refine ⟨(name, files), ?_, hr⟩
      rw [mem_insertionSort, mem_candidates (hd _ rfl)]
      exact hjob

theorem list_isOk (hd : Distinct jobs)
    (h : ∀ name files, HasJob jobs name files → ∃ r, loadFromDir rt name files = .ok r) :
    ∃ records, list rt jobs = .ok records := by
  cases jobs with
  | none => exact ⟨[], rfl⟩
  | some entries =>
    have hla : ∀ entry ∈ (candidates entries).insertionSort
        fun a b => Text.le a.1 b.1 = true, ∃ r, loadFromDir rt entry.1 entry.2 = .ok r := by
      intro entry hen
      apply h
      rw [← mem_candidates (hd _ rfl)]
      exact (mem_insertionSort _).1 hen
    obtain ⟨loaded, hloaded⟩ := mapM_isOk hla
    exact ⟨_, bind_eq_ok.2 ⟨loaded, hloaded, rfl⟩⟩

theorem list_error (hd : Distinct jobs) (hjob : HasJob jobs name files) {e : Exc}
    (he : loadFromDir rt name files = .error e) : ∀ records, list rt jobs ≠ .ok records := by
  intro records h
  obtain ⟨rfl, -⟩ | ⟨entries, loaded, rfl, -, hla⟩ := list_eq_ok h
  · exact hasJob_none hjob
  · have hmem : (name, files) ∈ (candidates entries).insertionSort
        fun a b => Text.le a.1 b.1 = true := by
      rw [mem_insertionSort, mem_candidates (hd _ rfl)]
      exact hjob
    obtain ⟨e', he'⟩ := mapM_eq_error (f := fun entry : Text × JobFiles =>
      loadFromDir rt entry.1 entry.2) hmem he
    rw [he'] at hla
    cases hla

theorem list_nodup (hd : Distinct jobs) (h : list rt jobs = .ok records) :
    (records.map JobRecord.directory).Nodup := by
  obtain ⟨-, rfl⟩ | ⟨entries, loaded, rfl, hpr, hla⟩ := list_eq_ok h
  · exact nodup_nil
  · rw [(hpr.map _).nodup_iff]
    have hnm : ∀ (items : List (Text × JobFiles)) loaded,
        Forall₂ (fun entry r => loadFromDir rt entry.1 entry.2 = .ok r) items loaded →
          loaded.map JobRecord.directory = items.map Prod.fst := by
      intro items loaded hall
      induction hall with
      | nil => rfl
      | cons hr _ ih => rw [map_cons, map_cons, ih, loadFromDir_directory hr]
    rw [hnm _ _ (mapM_eq_ok_iff.1 hla),
      ((perm_insertionSort _ (candidates entries)).map Prod.fst).nodup_iff]
    exact candidates_nodup (hd _ rfl)

end

end Jobs

end WebOvpn
