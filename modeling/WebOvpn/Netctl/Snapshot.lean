/-
What a transaction makes of the tables: the rows of a snapshot, and the origin
of every row.
-/
import WebOvpn.Netctl.ContextImport

namespace WebOvpn.Netctl

open Text List

variable {sha256 : Digest} {db db' : Database} {kind : Kind} {revision run : Nat} {prior : Option Nat}
  {candidates : Kind → CandidateRows} {row old : IntentRow}

def Database.adding (db : Database) (news : List IntentRow) : Database :=
  { db with intents := db.intents ++ news }

@[simp]
theorem adding_nil (db : Database) : db.adding [] = db := by
  unfold Database.adding
  rw [append_nil]

@[simp]
theorem adding_adding (db : Database) (news more : List IntentRow) :
    (db.adding news).adding more = db.adding (news ++ more) := by
  unfold Database.adding
  rw [append_assoc]

theorem insertRow_ok (h : db.insertRow row = .ok db') : db' = db.adding [row] := by
  unfold Database.insertRow at h
  split at h
  · cases h
  · cases h
    rfl

theorem foldlM_adding {α : Type} {step : Database → α → Except DatabaseError Database}
    {P : α → List IntentRow → Prop}
    (hst : ∀ db a db', step db a = .ok db' → ∃ news, db' = db.adding news ∧ P a news) {items : List α}
    (h : items.foldlM step db = .ok db') :
    ∃ newss, db' = db.adding newss.flatten ∧ List.Forall₂ P items newss := by
  induction items generalizing db with
  | nil =>
    cases h
    exact ⟨[], (adding_nil _).symm, .nil⟩
  | cons a rest ih =>
    rw [foldlM_cons] at h
    obtain ⟨next, hfs, hrs⟩ := bind_eq_ok.1 h
    obtain ⟨news, rfl, hns⟩ := hst db a next hfs
    obtain ⟨newss, rfl, hall⟩ := ih hrs
    exact ⟨news :: newss, adding_adding .., .cons hns hall⟩

def Origins (db : Database) : Prop :=
  ∀ row ∈ db.intents, (db.intents.find? (db.isSameEntity row.kind (db.contextOf row.revision) row.candidate)).map
    IntentRow.revision = some row.origin

theorem isSameEntity_self (db : Database) (row : IntentRow) :
    db.isSameEntity row.kind (db.contextOf row.revision) row.candidate row = true := by
  unfold Database.isSameEntity
  simp

theorem isSameEntity_congr {contextId : Option Text} {candidate : Candidate}
    (h : db.isSameEntity kind contextId candidate row = true) :
    db.isSameEntity row.kind (db.contextOf row.revision) row.candidate =
      db.isSameEntity kind contextId candidate := by
  unfold Database.isSameEntity at h
  simp only [Bool.and_eq_true, decide_eq_true_eq] at h
  obtain ⟨⟨⟨⟨hkn, hct⟩, hid⟩, hhs⟩, hjso⟩ := h
  unfold Database.isSameEntity
  rw [hkn, hct, hid, hhs, hjso]

theorem Origins.adding (h : Origins db) (hrow : ((db.intents.find? (db.isSameEntity row.kind
    (db.contextOf row.revision) row.candidate)).map IntentRow.revision).getD row.revision = row.origin) :
    Origins (db.adding [row]) := by
  intro old hold
  change ((db.intents ++ [row]).find? (db.isSameEntity old.kind (db.contextOf old.revision) old.candidate)).map
    IntentRow.revision = some old.origin
  rw [find?_append]
  rcases mem_append.1 hold with hmem | hnew
  · obtain ⟨first, hfs, hrv⟩ := Option.map_eq_some_iff.1 (h old hmem)
    rw [hfs]
    exact congrArg some hrv
  · cases mem_singleton.1 hnew
    cases hfn : db.intents.find? (db.isSameEntity row.kind (db.contextOf row.revision) row.candidate) with
    | some first =>
      rw [hfn] at hrow
      exact congrArg some hrow
    | none =>
      rw [hfn] at hrow
      rw [Option.none_or, find?_singleton, if_pos (isSameEntity_self db row)]
      exact congrArg some hrow

theorem Origins.insertActive (h : Origins db) {entry : Text × Candidate}
    (hins : Database.insertActive kind revision db entry = .ok db') : Origins db' := by
  cases insertRow_ok hins
  apply h.adding
  dsimp only
  unfold Database.findEntityOrigin
  cases hfn : db.intents.find? (db.isSameEntity kind (db.contextOf revision) entry.2) with
  | none => rfl
  | some first =>
    have hsm := find?_some hfn
    have hor := h first (mem_of_find?_eq_some hfn)
    rw [isSameEntity_congr hsm, hfn] at hor
    exact Option.some.inj hor

variable {rows : CandidateRows}

theorem Origins.insertRetired (h : Origins db) {prior : Text × IntentRow}
    (hpr : prior.2 ∈ db.intents) (hkn : prior.2.kind = kind)
    (hct : db.contextOf prior.2.revision = db.contextOf revision)
    (hins : Database.insertRetired kind revision rows db prior = .ok db') : Origins db' := by
  unfold Database.insertRetired at hins
  split at hins
  · cases hins
    exact h
  · cases insertRow_ok hins
    apply h.adding
    dsimp only
    have hor := h prior.2 hpr
    rw [hkn, hct] at hor
    rw [hor]
    rfl

def IntentRow.content (row : IntentRow) : Kind × Nat × Lifecycle × Candidate :=
  (row.kind, row.revision, row.lifecycle, row.candidate)

theorem insertRetired_adding {prior : Text × IntentRow}
    (h : Database.insertRetired kind revision rows db prior = .ok db') :
    ∃ news, db' = db.adding news ∧ ∀ row ∈ news,
      row.content = (kind, revision, .retired, prior.2.candidate) := by
  unfold Database.insertRetired at h
  split at h
  · cases h
    exact ⟨[], (adding_nil _).symm, nofun⟩
  · refine ⟨_, insertRow_ok h, fun row hrow => ?_⟩
    cases mem_singleton.1 hrow
    rfl

theorem loadRevisionRows_spec {entry : Text × IntentRow} (h : entry ∈ db.loadRevisionRows kind prior) :
    entry.2 ∈ db.intents ∧ entry.2.kind = kind ∧ prior = some entry.2.revision := by
  unfold Database.loadRevisionRows at h
  cases prior with
  | none => cases h
  | some p =>
    obtain ⟨row, hrow, rfl⟩ := mem_map.1 (mem_sortByName.1 h)
    unfold Database.rowsOf at hrow
    obtain ⟨hmem, hrow⟩ := mem_filter.1 hrow
    simp only [Bool.and_eq_true, decide_eq_true_eq] at hrow
    exact ⟨hmem, hrow.1, congrArg some hrow.2.symm⟩

def Hashed (sha256 : Digest) (candidate : Candidate) : Prop :=
  ∃ bytes, utf8Bytes candidate.canonicalJson = some bytes ∧ candidate.canonicalHash = sha256 bytes

/-- What a table gains: its active rows are the candidates, and no row is of
another table or revision. -/
structure Gains (sha256 : Digest) (revision : Nat) (candidates : Kind → CandidateRows) (kind : Kind)
    (news : List IntentRow) : Prop where
  placed : ∀ row ∈ news, row.kind = kind ∧ row.revision = revision
  hashed : ∀ row ∈ news, Hashed sha256 row.candidate
  active : (news.filter fun row => row.lifecycle = .active).map IntentRow.candidate =
    (sortByName (candidates kind)).map Prod.snd

structure Ready (sha256 : Digest) (revision : Nat) (prior : Option Nat)
    (candidates : Kind → CandidateRows)
    (db : Database) : Prop where
  origins : Origins db
  hashed : ∀ row ∈ db.intents, Hashed sha256 row.candidate
  candidates : ∀ kind, ∀ entry ∈ candidates kind, Hashed sha256 entry.2
  context : ∀ p, prior = some p → db.contextOf p = db.contextOf revision

theorem insertActives_spec {entries : CandidateRows}
    (h : entries.foldlM (Database.insertActive kind revision) db = .ok db') (hor : Origins db) :
    ∃ news, db' = db.adding news ∧ Origins db' ∧
      news.map IntentRow.content = entries.map fun entry => (kind, revision, .active, entry.2) := by
  have hst : ∀ db entry db', Database.insertActive kind revision db entry = .ok db' → ∃ news,
      db' = db.adding news ∧ news.map IntentRow.content = [(kind, revision, .active, entry.2)] :=
    fun _ _ _ h => ⟨_, insertRow_ok h, rfl⟩
  obtain ⟨newss, rfl, hall⟩ := foldlM_adding hst h
  refine ⟨newss.flatten, rfl, ?_, ?_⟩
  · apply foldlM_keeps (Q := Origins) h hor
    exact fun _ _ _ _ ho hins => ho.insertActive hins
  · clear h
    induction hall with
    | nil => rfl
    | cons hns _ ih =>
      rw [flatten_cons, map_append, hns, ih]
      rfl

theorem insertRetireds_spec {priors : List (Text × IntentRow)}
    (h : priors.foldlM (Database.insertRetired kind revision rows) db = .ok db') (hor : Origins db)
    (hpr : ∀ entry ∈ priors, entry.2 ∈ db.intents ∧ entry.2.kind = kind ∧
      db.contextOf entry.2.revision = db.contextOf revision) :
        ∃ news, db' = db.adding news ∧ Origins db' ∧
      ∀ row ∈ news, ∃ entry ∈ priors, row.content = (kind, revision, .retired, entry.2.candidate) := by
  have hst : ∀ db prior db', Database.insertRetired kind revision rows db prior = .ok db' → ∃ news,
      db' = db.adding news ∧ ∀ row ∈ news, row.content = (kind, revision, .retired, prior.2.candidate) :=
    fun _ _ _ => insertRetired_adding
  obtain ⟨newss, rfl, hall⟩ := foldlM_adding hst h
  refine ⟨newss.flatten, rfl, ?_, ?_⟩
  · have hke : Origins (db.adding newss.flatten) ∧ ∃ news, db.adding newss.flatten = db.adding news := by
      apply foldlM_keeps (Q := fun next => Origins next ∧ ∃ news, next = db.adding news) h
        ⟨hor, [], (adding_nil db).symm⟩
      rintro next entry next' hen ⟨ho, news, rfl⟩ hins
      obtain ⟨hmem, hkn, hct⟩ := hpr entry hen
      obtain ⟨more, rfl, -⟩ := insertRetired_adding hins
      exact ⟨ho.insertRetired (mem_append_left _ hmem) hkn hct hins, news ++ more, adding_adding ..⟩
    exact hke.1
  · intro row hrow
    obtain ⟨news, hns, hmem⟩ := mem_flatten.1 hrow
    obtain ⟨i, hi, rfl⟩ := mem_iff_getElem.1 hns
    have hlen := hall.length_eq
    exact ⟨priors[i], getElem_mem _, hall.get (by omega) hi row hmem⟩

theorem materialiseTable_spec (h : db.materialiseTable revision prior candidates kind = .ok db')
    (hra : Ready sha256 revision prior candidates db) :
    ∃ news, db' = db.adding news ∧ Origins db' ∧ Gains sha256 revision candidates kind news := by
  unfold Database.materialiseTable at h
  obtain ⟨inserted, hact, hretir⟩ := bind_eq_ok.1 h
  obtain ⟨actives, rfl, hor, hcn⟩ := insertActives_spec hact hra.origins
  have hpr : ∀ entry ∈ db.loadRevisionRows kind prior, entry.2 ∈ db.intents ∧ entry.2.kind = kind ∧
      db.contextOf entry.2.revision = db.contextOf revision := by
    intro entry hen
    obtain ⟨hmem, hkn, hprior⟩ := loadRevisionRows_spec hen
    exact ⟨hmem, hkn, hra.context _ hprior⟩
  have hgr : ∀ entry ∈ db.loadRevisionRows kind prior, entry.2 ∈ (db.adding actives).intents ∧
      entry.2.kind = kind ∧
        (db.adding actives).contextOf entry.2.revision =
        (db.adding actives).contextOf revision := by
    intro entry hen
    obtain ⟨hmem, hkn, hct⟩ := hpr entry hen
    exact ⟨mem_append_left _ hmem, hkn, hct⟩
  obtain ⟨retireds, rfl, hor', hrt⟩ := insertRetireds_spec hretir hor hgr
  have hacti : ∀ row ∈ actives, ∃ entry ∈ candidates kind, row.content = (kind, revision, .active, entry.2) := by
    intro row hrow
    have hmem := mem_map_of_mem (f := IntentRow.content) hrow
    rw [hcn] at hmem
    obtain ⟨entry, hen, heq⟩ := mem_map.1 hmem
    exact ⟨entry, mem_sortByName.1 hen, heq.symm⟩
  refine ⟨actives ++ retireds, adding_adding .., hor', ⟨?_, ?_, ?_⟩⟩
  · intro row hrow
    rcases mem_append.1 hrow with hrow | hrow
    · obtain ⟨entry, -, heq⟩ := hacti row hrow
      cases row
      cases heq
      exact ⟨rfl, rfl⟩
    · obtain ⟨entry, -, heq⟩ := hrt row hrow
      cases row
      cases heq
      exact ⟨rfl, rfl⟩
  · intro row hrow
    rcases mem_append.1 hrow with hrow | hrow
    · obtain ⟨entry, hen, heq⟩ := hacti row hrow
      have hhs := hra.candidates kind entry hen
      cases row
      cases heq
      exact hhs
    · obtain ⟨entry, hen, heq⟩ := hrt row hrow
      have hhs := hra.hashed entry.2 (hpr entry hen).1
      cases row
      cases heq
      exact hhs
  · have hke : actives.filter (fun row => row.lifecycle = .active) = actives := by
      apply filter_eq_self.2
      intro row hrow
      obtain ⟨entry, -, heq⟩ := hacti row hrow
      cases row
      cases heq
      rfl
    have hdr : retireds.filter (fun row => row.lifecycle = .active) = [] := by
      apply filter_eq_nil_iff.2
      intro row hrow
      obtain ⟨entry, -, heq⟩ := hrt row hrow
      cases row
      cases heq
      nofun
    rw [filter_append, hke, hdr, append_nil]
    have hca := congrArg (List.map fun content => content.2.2.2) hcn
    rw [map_map, map_map] at hca
    exact hca

theorem Ready.adding {news : List IntentRow} (h : Ready sha256 revision prior candidates db)
    (hor : Origins (db.adding news)) (hgai : Gains sha256 revision candidates kind news) :
    Ready sha256 revision prior candidates (db.adding news) where
  origins := hor
  hashed row hrow := (mem_append.1 hrow).elim (h.hashed row) (hgai.hashed row)
  candidates := h.candidates
  context := h.context

structure GainsAll (sha256 : Digest) (revision : Nat) (candidates : Kind → CandidateRows)
    (kinds : List Kind)
    (news : List IntentRow) : Prop where
  placed : ∀ row ∈ news, row.kind ∈ kinds ∧ row.revision = revision
  hashed : ∀ row ∈ news, Hashed sha256 row.candidate
  active : ∀ kind ∈ kinds, (news.filter fun row => row.kind = kind && row.lifecycle = .active).map
    IntentRow.candidate = (sortByName (candidates kind)).map Prod.snd

theorem Gains.cons {kinds : List Kind} {news more : List IntentRow}
    (h : Gains sha256 revision candidates kind news)
    (hmr : GainsAll sha256 revision candidates kinds more) (hkn : kind ∉ kinds) :
    GainsAll sha256 revision candidates (kind :: kinds) (news ++ more) where
  placed row hrow := by
    rcases mem_append.1 hrow with hrow | hrow
    · exact ⟨mem_cons.2 (.inl (h.placed row hrow).1), (h.placed row hrow).2⟩
    · exact ⟨mem_cons_of_mem _ (hmr.placed row hrow).1, (hmr.placed row hrow).2⟩
  hashed row hrow := (mem_append.1 hrow).elim (h.hashed row) (hmr.hashed row)
  active kind' hkn' := by
    rw [filter_append, map_append]
    by_cases heq : kind' = kind
    · subst heq
      have hns : news.filter (fun row => row.kind = kind' && row.lifecycle = .active) =
          news.filter fun row => row.lifecycle = .active := by
        apply filter_congr
        intro row hrow
        rw [(h.placed row hrow).1]
        simp
      have hnn : more.filter (fun row => row.kind = kind' && row.lifecycle = .active) = [] := by
        apply filter_eq_nil_iff.2
        intro row hrow hof
        simp only [Bool.and_eq_true, decide_eq_true_eq] at hof
        exact hkn (hof.1 ▸ (hmr.placed row hrow).1)
      rw [hns, hnn, h.active, map_nil, append_nil]
    · have hnn : news.filter (fun row => row.kind = kind' && row.lifecycle = .active) = [] := by
        apply filter_eq_nil_iff.2
        intro row hrow hof
        simp only [Bool.and_eq_true, decide_eq_true_eq] at hof
        exact heq (hof.1.symm.trans (h.placed row hrow).1)
      rw [hnn, map_nil, nil_append]
      exact hmr.active kind' ((mem_cons.1 hkn').resolve_left heq)

theorem materialiseTables_spec {kinds : List Kind} (hkn : kinds.Nodup)
    (h : kinds.foldlM (Database.materialiseTable revision prior candidates) db = .ok db')
    (hra : Ready sha256 revision prior candidates db) :
    ∃ news, db' = db.adding news ∧ Origins db' ∧ GainsAll sha256 revision candidates kinds news := by
  induction kinds generalizing db with
  | nil =>
    cases h
    exact ⟨[], (adding_nil _).symm, hra.origins, nofun, nofun, nofun⟩
  | cons kind rest ih =>
    rw [foldlM_cons] at h
    obtain ⟨next, hfs, hrs⟩ := bind_eq_ok.1 h
    obtain ⟨news, rfl, hor, hgai⟩ := materialiseTable_spec hfs hra
    obtain ⟨hkind, hkn'⟩ := nodup_cons.1 hkn
    obtain ⟨more, rfl, hor', hall⟩ := ih hkn' hrs (hra.adding hor hgai)
    exact ⟨news ++ more, adding_adding .., hor', hgai.cons hall hkind⟩

theorem mem_all (kind : Kind) : kind ∈ Kind.all := by
  cases kind <;> decide

end WebOvpn.Netctl
