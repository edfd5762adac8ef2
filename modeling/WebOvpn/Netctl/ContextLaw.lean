/-
The law of the imports: what is active is what was imported last, a call that
fails changes nothing, the rows of a revision stay, and the origin of a row is
the first revision that had it.
-/
import Mathlib.Data.List.Find
import WebOvpn.Lib.Rows
import WebOvpn.Netctl.Snapshot

namespace WebOvpn.Netctl

open Text List Option

abbrev Imports := Crew Nat Database Phase

/-- A sequence of steps, each of one of the calls. -/
abbrev Moves := List (Nat × Event)

variable {reader : Reader} {db db' : Database} {phase phase' : Phase} {event : Event} {who other : Nat}
  {revision run : Nat} {candidates : Kind → CandidateRows} {call : Call} {status : RunStatus}
  {errors : List ContextError} {c : Imports} {moves : Moves}

theorem hasSnapshot_iff : db.hasSnapshot revision = true ↔ ∃ (i : Nat) (row : ImportRun),
    db.runs[i]? = some row ∧ row.revision = some revision ∧ row.status.isSuccess = true := by
  unfold Database.hasSnapshot
  rw [List.any_eq_true]
  constructor
  · rintro ⟨row, hmem, hrow⟩
    obtain ⟨i, hi⟩ := mem_iff_getElem?.1 hmem
    simp only [Bool.and_eq_true, decide_eq_true_eq] at hrow
    exact ⟨i, row, hi, hrow⟩
  · rintro ⟨i, row, hi, hrow⟩
    refine ⟨row, mem_of_getElem? hi, ?_⟩
    simp only [Bool.and_eq_true, decide_eq_true_eq]
    exact hrow

variable {row : ImportRun} {sha256 : Digest}

theorem hasSnapshot_append (hrow : row.status.isSuccess = false)
    (hrs : db'.runs = db.runs ++ [row]) : db'.hasSnapshot revision = db.hasSnapshot revision := by
  unfold Database.hasSnapshot
  rw [hrs, any_append]
  simp [hrow]

theorem finishRun_ok (h : db.finishRun run status errors = .ok db') : ∃ row, db.runs[run]? = some row ∧
    row.status = .running ∧
    db' = { db with runs :=
      db.runs.modify run fun row => { row with status := status, errors := errors } } := by
  unfold Database.finishRun at h
  split at h
  · rename_i hrun
    obtain ⟨row, hrow, hst⟩ := (Option.any_eq_true _ _).1 hrun
    cases h
    exact ⟨row, hrow, of_decide_eq_true hst, rfl⟩
  · cases h

structure RunsChange (db db' : Database) : Prop where
  kept : ∀ (i : Nat) (row : ImportRun), db.runs[i]? = some row →
    ∃ row', db'.runs[i]? = some row' ∧ row'.revision = row.revision ∧
      (row.status.isSuccess = true → row'.status.isSuccess = true)

theorem runsChange_append (hrs : db'.runs = db.runs ++ [row]) : RunsChange db db' := by
  constructor
  intro i old hold
  refine ⟨old, ?_, rfl, fun h => h⟩
  rw [hrs, getElem?_append_left (List.getElem?_eq_some_iff.1 hold).1]
  exact hold

theorem runsChange_modify (hrow : db.runs[run]? = some row) (hrun : row.status = .running)
    (hrs : db'.runs = db.runs.modify run fun row => { row with status := status, errors := errors }) :
    RunsChange db db' := by
  constructor
  intro i old hold
  rw [hrs, getElem?_modify, hold]
  split
  · rename_i heq
    subst heq
    cases hrow.symm.trans hold
    refine ⟨_, rfl, rfl, fun hsc => ?_⟩
    rw [hrun] at hsc
    cases hsc
  · exact ⟨old, rfl, rfl, fun h => h⟩

theorem RunsChange.hasSnapshot (h : RunsChange db db') (hold : db.hasSnapshot revision = true) :
    db'.hasSnapshot revision = true := by
  obtain ⟨i, row, hrow, hrv, hsc⟩ := hasSnapshot_iff.1 hold
  obtain ⟨row', hrow', hrv', hsc'⟩ := h.kept i row hrow
  exact hasSnapshot_iff.2 ⟨i, row', hrow', hrv'.trans hrv, hsc' hsc⟩

theorem hasSnapshot_of_modify (hrow : db.runs[run]? = some row)
    (hrs : db'.runs = db.runs.modify run fun row => { row with status := status, errors := errors })
    (h : db'.hasSnapshot revision = true) :
    db.hasSnapshot revision = true ∨ row.revision = some revision ∧ status.isSuccess = true := by
  obtain ⟨i, row', hrow', hrv, hsc⟩ := hasSnapshot_iff.1 h
  rw [hrs] at hrow'
  rcases getElem?_modify_cases hrow' with ⟨-, hold⟩ | ⟨-, old, hold, rfl⟩
  · exact .inl (hasSnapshot_iff.2 ⟨i, row', hold, hrv, hsc⟩)
  · cases hrow.symm.trans hold
    exact .inr ⟨hrv, hsc⟩

def Stores (reader : Reader) (db : Database) (revision : Nat) : Prop :=
  ∀ row raw, db.revisions[revision]? = some row → reader.sha256 raw = row.sha256 →
    ∃ candidates, prepareCandidateRows reader.sha256 (reader.load raw) = some candidates ∧
      ∀ kind, ((db.rowsOf kind revision).filter fun row => row.lifecycle = .active).map IntentRow.candidate =
        (sortByName (candidates kind)).map Prod.snd

structure Sound (reader : Reader) (db : Database) : Prop where
  unique : Unclashed (fun row row' : Revision => row.contextId = row'.contextId && row.sha256 = row'.sha256)
    db.revisions
  heads : ∀ contextId head, db.heads contextId = some head →
    db.contextOf head.revision = some contextId ∧ db.hasSnapshot head.revision = true
  hashed : ∀ row ∈ db.intents, Hashed reader.sha256 row.candidate
  origins : Origins db
  placed : ∀ row ∈ db.intents, db.hasSnapshot row.revision = true
  bounded : ∀ run ∈ db.runs, ∀ revision, run.revision = some revision → revision < db.revisions.length
  stores : ∀ revision, db.hasSnapshot revision = true → Stores reader db revision

def IsRevision (reader : Reader) (db : Database) (call : Call) (revision : Nat) : Prop :=
  ∃ row, db.revisions[revision]? = some row ∧ row.contextId = call.contextId reader ∧
    row.sha256 = reader.sha256 call.rawBytes

def Holding (reader : Reader) (db : Database) (_who : Nat) : Phase → Prop
  | .recording call _ candidates =>
    prepareCandidateRows reader.sha256 (call.document reader) = some candidates
  | .activating call revision run candidates =>
    prepareCandidateRows reader.sha256 (call.document reader) = some candidates ∧
      IsRevision reader db call revision ∧ ∃ row, db.runs[run]? = some row ∧ row.revision = some revision
  | _ => True

theorem Sound.lt_of_hasSnapshot (h : Sound reader db) (hsn : db.hasSnapshot revision = true) :
    revision < db.revisions.length := by
  obtain ⟨i, row, hrow, hrv, -⟩ := hasSnapshot_iff.1 hsn
  exact h.bounded row (mem_of_getElem? hrow) revision hrv

theorem contextOf_of_isPrefix (hgr : db.revisions <+: db'.revisions)
    (hlt : revision < db.revisions.length) :
    db'.contextOf revision = db.contextOf revision := by
  obtain ⟨more, hmr⟩ := hgr
  unfold Database.contextOf
  rw [← hmr, getElem?_append_left hlt]

theorem Origins.of_isPrefix (h : Origins db) (hint : db'.intents = db.intents)
    (hct : ∀ row ∈ db.intents, db'.contextOf row.revision = db.contextOf row.revision) :
      Origins db' := by
  intro row hrow
  rw [hint] at hrow ⊢
  rw [hct row hrow, ← h row hrow]
  congr 1
  apply find?_congr
  intro first hfs
  unfold Database.isSameEntity
  rw [hct first hfs]

structure Frames (db db' : Database) : Prop where
  revisions : db.revisions <+: db'.revisions
  heads : db'.heads = db.heads
  intents : db'.intents = db.intents
  runs : RunsChange db db'
  snapshots : ∀ revision, db'.hasSnapshot revision = true → db.hasSnapshot revision = true

theorem Frames.refl (db : Database) : Frames db db :=
  ⟨prefix_rfl, rfl, rfl, ⟨fun _ row hrow => ⟨row, hrow, rfl, fun h => h⟩⟩, fun _ h => h⟩

section

variable (h : Sound reader db)
include h

theorem Sound.of_frames (hfr : Frames db db')
    (hun : Unclashed (fun row row' : Revision => row.contextId = row'.contextId &&
      row.sha256 = row'.sha256)
      db'.revisions)
    (hbd : ∀ run ∈ db'.runs, ∀ revision, run.revision = some revision →
      revision < db'.revisions.length) :
    Sound reader db' where
  unique := hun
  heads contextId head hha := by
    rw [hfr.heads] at hha
    obtain ⟨hct, hsn⟩ := h.heads contextId head hha
    rw [contextOf_of_isPrefix hfr.revisions (h.lt_of_hasSnapshot hsn)]
    exact ⟨hct, hfr.runs.hasSnapshot hsn⟩
  hashed := by
    rw [hfr.intents]
    exact h.hashed
  origins := by
    apply h.origins.of_isPrefix hfr.intents
    intro row hrow
    exact contextOf_of_isPrefix hfr.revisions (h.lt_of_hasSnapshot (h.placed row hrow))
  placed row hrow := by
    rw [hfr.intents] at hrow
    exact hfr.runs.hasSnapshot (h.placed row hrow)
  bounded := hbd
  stores revision hsn row raw hrow hraw := by
    have hold := hfr.snapshots revision hsn
    obtain ⟨more, hmr⟩ := hfr.revisions
    rw [← hmr, getElem?_append_left (h.lt_of_hasSnapshot hold)] at hrow
    obtain ⟨candidates, hpre, hrs⟩ := h.stores revision hold row raw hrow hraw
    refine ⟨candidates, hpre, fun kind => ?_⟩
    rw [← hrs kind]
    unfold Database.rowsOf
    rw [hfr.intents]

theorem sound_refuse (base : Option Nat) : Frames db (refuseStep reader call base errors db).1 ∧
    Sound reader (refuseStep reader call base errors db).1 := by
  unfold refuseStep
  split
  · have hfr : Frames db { db with runs := db.runs ++
        [{ call.run reader none base with status := .validationError, errors := errors }] } := by
      refine ⟨prefix_rfl, rfl, rfl, runsChange_append rfl, fun revision hsn => ?_⟩
      rw [hasSnapshot_append rfl rfl] at hsn
      exact hsn
    refine ⟨hfr, h.of_frames hfr h.unique fun run hrun revision hrv => ?_⟩
    rcases mem_append.1 hrun with hold | hnew
    · exact h.bounded run hold revision hrv
    · cases mem_singleton.1 hnew
      cases hrv
  · exact ⟨.refl db, h⟩

theorem sound_fail (message : Text) : Frames db (failStep call run message db).1 ∧
    Sound reader (failStep call run message db).1 := by
  unfold failStep
  split
  · exact ⟨.refl db, h⟩
  · rename_i finished hfn
    obtain ⟨row, hrow, hrun, rfl⟩ := finishRun_ok hfn
    have hfr : Frames db { db with runs := db.runs.modify run fun row =>
        { row with status := .dbError, errors := [⟨"database", message⟩] } } := by
      refine ⟨prefix_rfl, rfl, rfl, runsChange_modify hrow hrun rfl, fun revision hsn => ?_⟩
      rcases hasSnapshot_of_modify hrow rfl hsn with hold | ⟨-, hsc⟩
      · exact hold
      · cases hsc
    refine ⟨hfr, h.of_frames hfr h.unique fun other hot revision hrv => ?_⟩
    rcases mem_modify_cases hot with hold | ⟨old, hold, rfl⟩
    · exact h.bounded other hold revision hrv
    · exact h.bounded old (mem_of_getElem? hold) revision hrv

/-- The row that the query finds, or a new one that clashes with none. -/
theorem recordRevision_spec : IsRevision reader (recordRevision reader call db).1 call
      (recordRevision reader call db).2 ∧ db.revisions <+: (recordRevision reader call db).1.revisions ∧
    Unclashed (fun row row' : Revision => row.contextId = row'.contextId && row.sha256 = row'.sha256)
      (recordRevision reader call db).1.revisions ∧ (recordRevision reader call db).1.runs = db.runs ∧
    (recordRevision reader call db).1.heads = db.heads ∧
      (recordRevision reader call db).1.intents = db.intents := by
  unfold recordRevision
  split
  · rename_i revision hfn
    obtain ⟨hlt, hsm, -⟩ := findIdx?_eq_some_iff_getElem.1 hfn
    simp only [Bool.and_eq_true, decide_eq_true_eq] at hsm
    exact ⟨⟨_, getElem?_eq_getElem hlt, hsm⟩, prefix_rfl, h.unique, rfl, rfl, rfl⟩
  · rename_i hfn
    refine ⟨⟨call.revision reader, getElem?_concat_length .., rfl, rfl⟩, prefix_append .., ?_, rfl, rfl, rfl⟩
    apply h.unique.append
    · intro row row'
      simp only [eq_comm]
    · rw [← pairwise_iff_unclashed]
      · exact pairwise_singleton ..
      · intro row row'
        simp only [eq_comm]
    · intro row hrow row' hrow'
      cases mem_singleton.1 hrow
      have hnn := findIdx?_eq_none_iff.1 hfn row' hrow'
      simp only [eq_comm] at hnn ⊢
      exact hnn

theorem sound_record (base : Option Nat)
    (hpre : prepareCandidateRows reader.sha256 (call.document reader) = some candidates) :
    Frames db (recordStep reader call base candidates db).1 ∧
      Sound reader (recordStep reader call base candidates db).1 ∧
      Holding reader (recordStep reader call base candidates db).1 who
        (recordStep reader call base candidates db).2 := by
  unfold recordStep
  split
  · obtain ⟨hrv, hgr, hun, hrs, hha, hint⟩ := recordRevision_spec h
    have hfr : Frames db { (recordRevision reader call db).1 with
        runs := db.runs ++ [call.run reader (some (recordRevision reader call db).2) base] } := by
      refine ⟨hgr, hha, hint, runsChange_append rfl, fun revision hsn => ?_⟩
      rw [hasSnapshot_append rfl rfl] at hsn
      exact hsn
    refine ⟨hfr, h.of_frames hfr hun fun run hrun revision hof => ?_, hpre, hrv, ?_⟩
    · rcases mem_append.1 hrun with hold | hnew
      · exact Nat.lt_of_lt_of_le (h.bounded run hold revision hof) hgr.length_le
      · cases mem_singleton.1 hnew
        cases hof
        obtain ⟨row, hrow, -⟩ := hrv
        exact (List.getElem?_eq_some_iff.1 hrow).1
    · exact ⟨_, getElem?_concat_length .., rfl⟩
  · exact ⟨.refl db, h, trivial⟩

end

/-- What a transaction does that selects a revision: the head of the context,
the end of its run, and the rows of the revision unless they are stored. -/
structure Activates (reader : Reader) (call : Call) (revision run : Nat)
    (candidates : Kind → CandidateRows)
    (db db' : Database) : Prop where
  revisions : db'.revisions = db.revisions
  runs : ∃ row status, db.runs[run]? = some row ∧ row.status = .running ∧ status.isSuccess = true ∧
    db'.runs = db.runs.modify run fun row => { row with status := status, errors := [] }
  head : ∃ head, db'.heads (call.contextId reader) = some head ∧ head.revision = revision
  otherHeads : ∀ contextId, contextId ≠ call.contextId reader → db'.heads contextId = db.heads contextId
  rows : db.hasSnapshot revision = true ∧ db'.intents = db.intents ∨
    db.hasSnapshot revision = false ∧ ∃ news, db'.intents = db.intents ++ news ∧ Origins (db.adding news) ∧
      GainsAll reader.sha256 revision candidates Kind.all news

theorem prepareCandidate_spec {kind : Kind} {entry : Text × YMembers} {candidate : Text × Candidate}
    (h : prepareCandidate sha256 kind entry = some candidate) :
    candidate.1 = entry.1 ∧ candidate.2.stableId = entry.1 ∧ Hashed sha256 candidate.2 ∧
      canonicalEntityJson entry.2 = some candidate.2.canonicalJson := by
  unfold prepareCandidate at h
  obtain ⟨canonicalJson, hjso, h⟩ := bind_eq_some_iff.1 h
  obtain ⟨bytes, hby, h⟩ := bind_eq_some_iff.1 h
  split at h
  · obtain ⟨columns, -, h⟩ := bind_eq_some_iff.1 h
    cases h
    exact ⟨rfl, rfl, ⟨bytes, hby, rfl⟩, hjso⟩
  · cases h
    exact ⟨rfl, rfl, ⟨bytes, hby, rfl⟩, hjso⟩

theorem prepareCandidateRows_spec {document : YMembers}
    (h : prepareCandidateRows sha256 document = some candidates) (kind : Kind) :
    (normaliseImportEntities document kind).mapM (prepareCandidate sha256 kind) =
      some (candidates kind) := by
  unfold prepareCandidateRows at h
  obtain ⟨sites, hsit, h⟩ := bind_eq_some_iff.1 h
  obtain ⟨locations, hlc, h⟩ := bind_eq_some_iff.1 h
  obtain ⟨segments, hseg, h⟩ := bind_eq_some_iff.1 h
  obtain ⟨assets, hass, h⟩ := bind_eq_some_iff.1 h
  obtain ⟨services, hser, h⟩ := bind_eq_some_iff.1 h
  obtain ⟨links, hln, h⟩ := bind_eq_some_iff.1 h
  cases h
  cases kind with
  | site => exact hsit
  | location => exact hlc
  | segment => exact hseg
  | asset => exact hass
  | service => exact hser
  | link => exact hln

theorem mapM_some_forall₂ {α β : Type} {f : α → Option β} {items : List α} {results : List β}
    (h : items.mapM f = some results) : List.Forall₂ (fun a b => f a = some b) items results := by
  induction items generalizing results with
  | nil =>
    cases h
    exact .nil
  | cons a rest ih =>
    rw [mapM_cons] at h
    obtain ⟨b, hb, h⟩ := bind_eq_some_iff.1 h
    obtain ⟨bs, hbs, h⟩ := bind_eq_some_iff.1 h
    cases h
    exact .cons hb (ih hbs)

theorem hashed_of_prepare {document : YMembers}
    (h : prepareCandidateRows sha256 document = some candidates) (kind : Kind) :
    ∀ entry ∈ candidates kind, Hashed sha256 entry.2 := by
  have hall := mapM_some_forall₂ (prepareCandidateRows_spec h kind)
  intro entry hen
  obtain ⟨i, hi, rfl⟩ := mem_iff_getElem.1 hen
  have hlen := hall.length_eq
  exact (prepareCandidate_spec (hall.get (by omega) hi)).2.2.1

theorem ready (h : Sound reader db) (hrv : IsRevision reader db call revision)
    (hpre : prepareCandidateRows reader.sha256 (call.document reader) = some candidates) :
    Ready reader.sha256 revision (call.base reader db) candidates db where
  origins := h.origins
  hashed := h.hashed
  candidates := hashed_of_prepare hpre
  context p hp := by
    obtain ⟨head, hha, rfl⟩ := map_eq_some_iff.1 hp
    obtain ⟨row, hrow, hct, -⟩ := hrv
    rw [(h.heads _ head hha).1]
    unfold Database.contextOf
    rw [hrow, ← hct]
    rfl

theorem activate_spec {activated : Database} (h : Sound reader db)
    (hrv : IsRevision reader db call revision)
    (hpre : prepareCandidateRows reader.sha256 (call.document reader) = some candidates)
    (hact : activate reader call revision run candidates db = .ok (activated, status)) :
    status.isSuccess = true ∧ activated.revisions = db.revisions ∧ activated.runs = db.runs ∧
      (∃ head, activated.heads (call.contextId reader) = some head ∧ head.revision = revision) ∧
      (∀ contextId, contextId ≠ call.contextId reader → activated.heads contextId = db.heads contextId) ∧
      (db.hasSnapshot revision = true ∧ activated.intents = db.intents ∨
        db.hasSnapshot revision = false ∧ ∃ news, activated.intents = db.intents ++ news ∧
          Origins (db.adding news) ∧
          GainsAll reader.sha256 revision candidates Kind.all news) := by
  unfold activate at hact
  split at hact
  · rename_i hsl
    obtain ⟨head, hha, hsm⟩ := (Option.any_eq_true _ _).1 hsl
    cases of_decide_eq_true hsm
    cases hact
    exact ⟨rfl, rfl, rfl, ⟨head, hha, rfl⟩, fun _ _ => rfl, .inl ⟨(h.heads _ head hha).2, rfl⟩⟩
  · split at hact
    · rename_i hsn
      cases hact
      refine ⟨rfl, rfl, rfl, ⟨_, Function.update_self .., rfl⟩, fun contextId hne => ?_, .inl ⟨hsn, rfl⟩⟩
      exact Function.update_of_ne hne ..
    · rename_i hsn
      split at hact
      · rename_i stored hst
        cases hact
        obtain ⟨news, rfl, hor, hgai⟩ := materialiseTables_spec (by decide) hst (ready h hrv hpre)
        refine ⟨rfl, rfl, rfl, ⟨_, Function.update_self .., rfl⟩, fun contextId hne => ?_,
          .inr ⟨Bool.eq_false_iff.2 hsn, news, rfl, hor, hgai⟩⟩
        exact Function.update_of_ne hne ..
      · cases hact

theorem activateStep_cases (h : Sound reader db) (hrv : IsRevision reader db call revision)
    (hpre : prepareCandidateRows reader.sha256 (call.document reader) = some candidates) :
    (∃ message, activateStep reader call revision run candidates db = (db, .failing call run message)) ∨
      ∃ db' status, activateStep reader call revision run candidates db = (db', .returned call status) ∧
        status.isSuccess = true ∧ Activates reader call revision run candidates db db' := by
  unfold activateStep
  cases hact : activate reader call revision run candidates db with
  | error e => exact .inl ⟨e.message, rfl⟩
  | ok result =>
    obtain ⟨activated, status⟩ := result
    obtain ⟨hsc, hrevi, hrs, hha, hot, hro⟩ := activate_spec h hrv hpre hact
    dsimp only
    cases hfn : activated.finishRun run status [] with
    | error e => exact .inl ⟨e.message, rfl⟩
    | ok finished =>
      obtain ⟨row, hrow, hrun, rfl⟩ := finishRun_ok hfn
      rw [hrs] at hrow
      refine .inr ⟨_, status, rfl, hsc, hrevi, ⟨row, status, hrow, hrun, hsc, ?_⟩, hha,
        hot, hro⟩
      dsimp only
      rw [hrs]

section

variable (h : Activates reader call revision run candidates db db')
include h

theorem Activates.runsChange : RunsChange db db' := by
  obtain ⟨row, status, hrow, hrun, -, hrs⟩ := h.runs
  exact runsChange_modify hrow hrun hrs

theorem Activates.hasSnapshot_iff
    (hrun : ∃ row, db.runs[run]? = some row ∧ row.revision = some revision) (other : Nat) :
    db'.hasSnapshot other = true ↔ db.hasSnapshot other = true ∨ other = revision := by
  obtain ⟨row, status, hrow, hrunn, hsc, hrs⟩ := h.runs
  obtain ⟨own, hown, hrv⟩ := hrun
  cases hrow.symm.trans hown
  constructor
  · intro hsn
    rcases hasSnapshot_of_modify hrow hrs hsn with hold | ⟨hof, -⟩
    · exact .inl hold
    · exact .inr (Option.some.inj (hof.symm.trans hrv))
  · rintro (hold | rfl)
    · exact h.runsChange.hasSnapshot hold
    · refine Netctl.hasSnapshot_iff.2 ⟨run, { row with status := status, errors := [] }, ?_, hrv, hsc⟩
      rw [hrs, getElem?_modify, hrow]
      simp

theorem Activates.contextOf (other : Nat) :
    db'.contextOf other = db.contextOf other := by
  unfold Database.contextOf
  rw [h.revisions]

theorem Activates.rowsOf_eq {other : Nat}
    (hot : db.hasSnapshot other = true) (kind : Kind) :
      db'.rowsOf kind other = db.rowsOf kind other := by
  unfold Database.rowsOf
  rcases h.rows with ⟨-, hint⟩ | ⟨hnn, news, hint, -, hgai⟩
  · rw [hint]
  · rw [hint, filter_append]
    have hns : news.filter (fun row => row.kind = kind && row.revision = other) = [] := by
      apply filter_eq_nil_iff.2
      intro row hrow hof
      simp only [Bool.and_eq_true, decide_eq_true_eq] at hof
      have hrv := (hgai.placed row hrow).2
      rw [← hof.2, hrv, hnn] at hot
      cases hot
    rw [hns, append_nil]

end

theorem Activates.sound (hsha : Function.Injective reader.sha256)
    (h : Activates reader call revision run candidates db db') (hs : Sound reader db)
    (hrv : IsRevision reader db call revision)
    (hpre : prepareCandidateRows reader.sha256 (call.document reader) = some candidates)
    (hrun : ∃ row, db.runs[run]? = some row ∧ row.revision = some revision) : Sound reader db' where
  unique := by
    rw [h.revisions]
    exact hs.unique
  heads contextId head hha := by
    rw [h.contextOf, h.hasSnapshot_iff hrun]
    by_cases hct : contextId = call.contextId reader
    · subst hct
      obtain ⟨head', hha', hsl⟩ := h.head
      cases hha.symm.trans hha'
      obtain ⟨row, hrow, hrowC, -⟩ := hrv
      refine ⟨?_, .inr hsl⟩
      unfold Database.contextOf
      rw [hsl, hrow, ← hrowC]
      rfl
    · rw [h.otherHeads contextId hct] at hha
      exact (hs.heads contextId head hha).imp_right .inl
  hashed row hrow := by
    rcases h.rows with ⟨-, hint⟩ | ⟨-, news, hint, -, hgai⟩
    · rw [hint] at hrow
      exact hs.hashed row hrow
    · rw [hint] at hrow
      exact (mem_append.1 hrow).elim (hs.hashed row) (hgai.hashed row)
  origins := by
    rcases h.rows with ⟨-, hint⟩ | ⟨-, news, hint, hor, -⟩
    · exact hs.origins.of_isPrefix hint fun row _ => h.contextOf row.revision
    · apply hor.of_isPrefix hint
      exact fun row _ => h.contextOf row.revision
  placed row hrow := by
    rw [h.hasSnapshot_iff hrun]
    rcases h.rows with ⟨-, hint⟩ | ⟨-, news, hint, -, hgai⟩
    · rw [hint] at hrow
      exact .inl (hs.placed row hrow)
    · rw [hint] at hrow
      rcases mem_append.1 hrow with hold | hnew
      · exact .inl (hs.placed row hold)
      · exact .inr (hgai.placed row hnew).2
  bounded := by
    obtain ⟨row, status, -, -, -, hrs⟩ := h.runs
    rw [hrs, h.revisions]
    intro other hot
    rcases mem_modify_cases hot with hold | ⟨old, hold, rfl⟩
    · exact hs.bounded other hold
    · exact hs.bounded old (mem_of_getElem? hold)
  stores other hsn row raw hrow hraw := by
    rw [h.revisions] at hrow
    by_cases hold : db.hasSnapshot other = true
    · obtain ⟨candidates, hpre, hro⟩ := hs.stores other hold row raw hrow hraw
      refine ⟨candidates, hpre, fun kind => ?_⟩
      rw [h.rowsOf_eq hold]
      exact hro kind
    · cases ((h.hasSnapshot_iff hrun other).1 hsn).resolve_left hold
      obtain ⟨own, hown, -, hdg⟩ := hrv
      cases hrow.symm.trans hown
      cases hsha (hraw.trans hdg)
      refine ⟨candidates, hpre, fun kind => ?_⟩
      obtain ⟨-, news, hint, -, hgai⟩ := h.rows.resolve_left fun hst => hold hst.1
      rw [← hgai.active kind (mem_all kind)]
      congr 1
      unfold Database.rowsOf
      rw [hint, filter_append, filter_append, List.filter_filter, List.filter_filter]
      have hnn : db.intents.filter (fun row => row.lifecycle = .active &&
          (row.kind = kind && row.revision = revision)) = [] := by
        apply filter_eq_nil_iff.2
        intro old hmem hof
        simp only [Bool.and_eq_true, decide_eq_true_eq] at hof
        exact hold (hof.2.2 ▸ hs.placed old hmem)
      rw [hnn, nil_append]
      apply filter_congr
      intro new hnew
      rw [(hgai.placed new hnew).2]
      simp [Bool.and_comm]

/-- What a step does to the tables. -/
inductive Change (reader : Reader) (db : Database) (phase : Phase) (db' : Database)
    (phase' : Phase) : Prop where
  | frames (h : Frames db db')
  | activates (call : Call) (revision run : Nat) (candidates : Kind → CandidateRows) (status : RunStatus)
      (hph : phase = .activating call revision run candidates) (hph' : phase' = .returned call status)
      (hsc : status.isSuccess = true) (h : Activates reader call revision run candidates db db')

theorem startStep_holding (call : Call) (db : Database) :
    Holding reader db who (startStep reader call db) := by
  unfold startStep
  split
  · split
    · rename_i hpre
      exact hpre
    · trivial
  · trivial

theorem act_own (hsha : Function.Injective reader.sha256) (hs : Sound reader db)
    (h : Holding reader db who phase) :
    Change reader db phase (act reader who event db phase).1 (act reader who event db phase).2 ∧
      Sound reader (act reader who event db phase).1 ∧
      Holding reader (act reader who event db phase).1 who (act reader who event db phase).2 := by
  unfold act
  split
  · exact ⟨.frames (.refl db), hs, trivial⟩
  · exact ⟨.frames (.refl db), hs, startStep_holding _ _⟩
  · exact ⟨.frames (.refl db), hs, trivial⟩
  · obtain ⟨hfr, hsn⟩ := sound_refuse hs _
    refine ⟨.frames hfr, hsn, ?_⟩
    unfold refuseStep
    split <;> trivial
  · exact ⟨.frames (.refl db), hs, trivial⟩
  · obtain ⟨hfr, hsn, hhl⟩ := sound_record hs _ h
    exact ⟨.frames hfr, hsn, hhl⟩
  · exact ⟨.frames (.refl db), hs, trivial⟩
  · rename_i call revision run candidates
    obtain ⟨hpre, hrv, hrun⟩ := h
    rcases activateStep_cases hs hrv hpre with
      ⟨message, hst⟩ | ⟨db', status, hst, hsc, hact⟩
    · rw [hst]
      exact ⟨.frames (.refl db), hs, trivial⟩
    · rw [hst]
      exact ⟨.activates call revision run candidates status rfl rfl hsc hact,
        hact.sound hsha hs hrv hpre hrun, trivial⟩
  · exact ⟨.frames (.refl db), hs, trivial⟩
  · obtain ⟨hfr, hsn⟩ := sound_fail hs _
    refine ⟨.frames hfr, hsn, ?_⟩
    unfold failStep
    split <;> trivial
  · exact ⟨.frames (.refl db), hs, trivial⟩
  · exact ⟨.frames (.refl db), hs, h⟩

theorem Change.isPrefix (h : Change reader db phase db' phase') : db.revisions <+: db'.revisions := by
  cases h with
  | frames h => exact h.revisions
  | activates _ _ _ _ _ _ _ _ h => exact h.revisions ▸ prefix_rfl

theorem Change.runs (h : Change reader db phase db' phase') : RunsChange db db' := by
  cases h with
  | frames h => exact h.runs
  | activates _ _ _ _ _ _ _ _ h => exact h.runsChange

theorem getElem?_of_isPrefix {α : Type} {l l' : List α} {i : Nat} {a : α} (hgr : l <+: l')
    (h : l[i]? = some a) :
    l'[i]? = some a := by
  obtain ⟨more, rfl⟩ := hgr
  rw [getElem?_append_left (List.getElem?_eq_some_iff.1 h).1]
  exact h

theorem IsRevision.of_isPrefix (h : IsRevision reader db call revision)
    (hgr : db.revisions <+: db'.revisions) :
    IsRevision reader db' call revision := by
  obtain ⟨row, hrow, hct, hdg⟩ := h
  exact ⟨row, getElem?_of_isPrefix hgr hrow, hct, hdg⟩

theorem Holding.others {phase'' : Phase} (h : Holding reader db other phase'')
    (hch : Change reader db phase db' phase') : Holding reader db' other phase'' := by
  cases phase'' with
  | recording call base candidates => exact h
  | activating call revision run candidates =>
    obtain ⟨hpre, hrv, row, hrow, hof⟩ := h
    obtain ⟨row', hrow', hof', -⟩ := hch.runs.kept run row hrow
    exact ⟨hpre, hrv.of_isPrefix hch.isPrefix, row', hrow', hof'.trans hof⟩
  | _ => trivial

theorem keeps_holding (hsha : Function.Injective reader.sha256) :
    Crew.Keeps (act reader) (Sound reader) (Holding reader) where
  own _ _ _ _ hs h := (act_own hsha hs h).2
  others _ _ _ _ _ _ _ hs h h' := h'.others (act_own hsha hs h).1

end WebOvpn.Netctl
