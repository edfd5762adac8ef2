/-
Runs of imports: what is active is what was imported last, a call that fails
leaves heads and rows, the rows of a revision stay, and the origin of a row is
the first revision that had its entity.
-/
import WebOvpn.Lib.Sha256
import WebOvpn.Netctl.ContextLaw

namespace WebOvpn.Netctl

open Text List

variable {reader : Reader} {db db' : Database} {phase phase' : Phase} {event : Event} {who other : Nat}
  {revision run : Nat} {candidates : Kind → CandidateRows} {call call' : Call} {status : RunStatus}
  {c : Imports} {moves before after : Moves} {contextId : Text}

/-- `json.loads(canonical_entity_json(entity))` for the entities of a kind, in
the order of their identifiers; `none` when one has no canonical JSON. -/
def entitiesNormalForm (document : YMembers) (kind : Kind) :
    Option (List (Text × Except LoadsError JVal)) :=
  (normaliseImportEntities document kind).mapM fun entry =>
    (canonicalEntityJson entry.2).map fun canonicalJson => (entry.1, loadsText canonicalJson)

/-- The JSON normal form of `normalise_import_entities`. -/
def normalForm (document : YMembers) : Option (List (Kind × List (Text × Except LoadsError JVal))) :=
  Kind.all.mapM fun kind => (entitiesNormalForm document kind).map fun entities => (kind, entities)

def committed (reader : Reader) (c : Imports) (move : Nat × Event) : Option Call :=
  match c.workers move.1, (c.step (act reader) move).workers move.1 with
  | .activating call _ _ _, .returned _ _ => some call
  | _, _ => none

def Phase.hasFailed : Phase → Bool
  | .returned _ status => !status.isSuccess
  | .raised _ => true
  | _ => false

/-- No import has been made, and no call has begun. -/
structure Fresh (c : Imports) : Prop where
  shared : c.shared = ⟨[], [], fun _ => none, []⟩
  idle : ∀ who, c.workers who = .idle

abbrev ran (reader : Reader) (c : Imports) (moves : Moves) : Imports :=
  WebOvpn.run (Crew.step (act reader)) c moves

theorem ran_append (c : Imports) (before after : Moves) :
    ran reader c (before ++ after) = ran reader (ran reader c before) after :=
  run_append ..

theorem insertEntry_sorted {α : Type} {dict : List (Text × α)} {entry : Text × α}
    (h : dict.Pairwise fun a b => Text.le a.1 b.1 = true)
    (hls : ∀ old ∈ dict, Text.le old.1 entry.1 = true) :
    (insertEntry dict entry).Pairwise fun a b => Text.le a.1 b.1 = true := by
  unfold insertEntry
  split
  · have hkey : ∀ old : Text × α, (if old.1 = entry.1 then entry else old).1 = old.1 := by
      intro old
      split
      · rename_i heq
        exact heq.symm
      · rfl
    apply pairwise_map.2
    simp only [hkey]
    exact h
  · apply pairwise_append.2
    refine ⟨h, pairwise_singleton .., ?_⟩
    intro old hold new hnew
    cases mem_singleton.1 hnew
    exact hls old hold

theorem mem_insertEntry {α : Type} {dict : List (Text × α)} {entry old : Text × α}
    (h : old ∈ insertEntry dict entry) :
    old ∈ dict ∨ old = entry := by
  unfold insertEntry at h
  split at h
  · obtain ⟨first, hfs, rfl⟩ := mem_map.1 h
    split
    · exact .inr rfl
    · exact .inl hfs
  · exact (mem_append.1 h).imp_right mem_singleton.1

theorem dictFrom_sorted {α : Type} {entries : List (Text × α)}
    (h : entries.Pairwise fun a b => Text.le a.1 b.1 = true) :
    (dictFrom entries).Pairwise fun a b => Text.le a.1 b.1 = true := by
  unfold dictFrom
  suffices hfl : ∀ dict : List (Text × α), dict.Pairwise (fun a b => Text.le a.1 b.1 = true) →
      (∀ old ∈ dict, ∀ entry ∈ entries, Text.le old.1 entry.1 = true) →
      (entries.foldl insertEntry dict).Pairwise fun a b =>
        Text.le a.1 b.1 = true from hfl [] List.Pairwise.nil nofun
  induction entries with
  | nil => exact fun _ hdc _ => hdc
  | cons entry rest ih =>
    intro dict hdc hbf
    obtain ⟨hfs, hrs⟩ := pairwise_cons.1 h
    apply ih hrs
    · exact insertEntry_sorted hdc fun old hold => hbf old hold entry mem_cons_self
    · intro old hold later hlt
      rcases mem_insertEntry hold with hmem | rfl
      · exact hbf old hmem later (mem_cons_of_mem _ hlt)
      · exact hfs later hlt

theorem forall₂_map_eq {α β γ : Type} {R : α → β → Prop} {f : α → γ} {g : β → γ} {items : List α}
    {results : List β}
    (h : List.Forall₂ R items results) (hR : ∀ a b, R a b → f a = g b) :
      items.map f = results.map g := by
  induction h with
  | nil => rfl
  | cons hfs _ ih => rw [map_cons, map_cons, hR _ _ hfs, ih]

theorem mapM_eq_some_of_forall₂ {α β γ : Type} {R : α → β → Prop} {f : α → Option γ} {g : β → γ}
    {items : List α}
    {results : List β} (h : List.Forall₂ R items results) (hR : ∀ a b, R a b → f a = some (g b)) :
    items.mapM f = some (results.map g) := by
  induction h with
  | nil => rfl
  | cons hfs _ ih =>
    rw [mapM_cons, hR _ _ hfs, ih]
    rfl

theorem candidates_sorted {sha256 : Digest} {document : YMembers}
    (h : prepareCandidateRows sha256 document = some candidates) (kind : Kind) :
    sortByName (candidates kind) = candidates kind := by
  have hall := mapM_some_forall₂ (prepareCandidateRows_spec h kind)
  have hnm : (normaliseImportEntities document kind).map Prod.fst = (candidates kind).map Prod.fst :=
    forall₂_map_eq hall fun entry candidate hpre => (prepareCandidate_spec hpre).1.symm
  have hsr : ((normaliseImportEntities document kind).map Prod.fst).Pairwise fun a b => Text.le a b = true :=
    pairwise_map.2 (dictFrom_sorted (sortByName_sorted _))
  rw [hnm] at hsr
  exact sortByName_of_sorted (pairwise_map.1 hsr)

theorem entitiesNormalForm_of_prepare {sha256 : Digest} {document : YMembers}
    (h : prepareCandidateRows sha256 document = some candidates) (kind : Kind) :
    entitiesNormalForm document kind =
      some ((candidates kind).map fun entry => (entry.1, loadsText entry.2.canonicalJson)) := by
  apply mapM_eq_some_of_forall₂ (mapM_some_forall₂ (prepareCandidateRows_spec h kind))
  intro entry candidate hpre
  obtain ⟨hnm, -, -, hjso⟩ := prepareCandidate_spec hpre
  rw [hjso, hnm]
  rfl

theorem loadActiveSnapshot_of_head (hs : Sound reader db) {head : Head} {row : Revision}
    (hha : db.heads contextId = some head) (hrow : db.revisions[head.revision]? = some row)
    (hdg : row.sha256 = reader.sha256 call.rawBytes) :
    ∃ snapshot, normalForm (call.document reader) = some snapshot ∧
      db.loadActiveSnapshot contextId = some snapshot := by
  obtain ⟨candidates, hpre, hrs⟩ :=
    hs.stores head.revision (hs.heads contextId head hha).2 row call.rawBytes hrow hdg.symm
  change prepareCandidateRows reader.sha256 (call.document reader) = some candidates at hpre
  refine ⟨Kind.all.map fun kind =>
    (kind, (candidates kind).map fun entry => (entry.1, loadsText entry.2.canonicalJson)), ?_, ?_⟩
  · unfold normalForm
    apply mapM_eq_some_of_forall₂ (R := fun kind kind' => kind = kind') (forall₂_same.2 fun _ _ => rfl)
    rintro kind _ rfl
    rw [entitiesNormalForm_of_prepare hpre]
    rfl
  · unfold Database.loadActiveSnapshot
    rw [hha]
    apply congrArg some
    apply map_congr_left
    intro kind _
    have hes : ((db.rowsOf kind head.revision).filter fun row => row.lifecycle = .active).map
        (fun row => (row.candidate.stableId, row.candidate)) = candidates kind := by
      have hids : ∀ entry ∈ candidates kind, entry.2.stableId = entry.1 := by
        have hall := mapM_some_forall₂ (prepareCandidateRows_spec hpre kind)
        intro entry hen
        obtain ⟨i, hi, rfl⟩ := mem_iff_getElem.1 hen
        have hlen := hall.length_eq
        obtain ⟨hnm, hid, -⟩ := prepareCandidate_spec (hall.get (by omega) hi)
        exact hid.trans hnm.symm
      calc ((db.rowsOf kind head.revision).filter fun row => row.lifecycle = .active).map
              (fun row => (row.candidate.stableId, row.candidate))
          = (((db.rowsOf kind head.revision).filter fun row => row.lifecycle = .active).map
              IntentRow.candidate).map fun candidate => (candidate.stableId, candidate) := by
            rw [map_map]
            rfl
        _ = (candidates kind).map fun entry => (entry.2.stableId, entry.2) := by
            rw [hrs, candidates_sorted hpre, map_map]
            rfl
        _ = candidates kind := by
            apply (map_congr_left fun entry hen => ?_).trans (map_id _)
            rw [hids entry hen]
            rfl
    rw [hes, candidates_sorted hpre]

theorem committed_spec (hc : Crew.Holds (Sound reader) (Holding reader) c)
    (h : committed reader c (who, event) = some call) : ∃ revision run candidates status,
      (c.step (act reader) (who, event)).workers who = .returned call status ∧ status.isSuccess = true ∧
        IsRevision reader c.shared call revision ∧
        Activates reader call revision run candidates c.shared
          (c.step (act reader) (who, event)).shared := by
  unfold committed at h
  rw [Crew.step_self] at h
  rw [Crew.step_self, Crew.step_shared]
  have hhl := hc.worker who
  split at h
  · rename_i call' revision run candidates call'' status hph hnx
    cases h
    change c.workers who = _ at hph
    rw [hph] at hnx hhl ⊢
    obtain ⟨hpre, hrv, -⟩ := hhl
    cases event with
    | commit =>
      change (activateStep reader call revision run candidates c.shared).2 = _ at hnx
      rcases activateStep_cases hc.shared hrv hpre with
        ⟨message, hst⟩ | ⟨db', status', hst, hsc, hact⟩
      · rw [hst] at hnx
        cases hnx
      · change ∃ revision' run' candidates' status',
          (activateStep reader call revision run candidates c.shared).2 =
          .returned call status' ∧ status'.isSuccess = true ∧ IsRevision reader c.shared call revision' ∧
            Activates reader call revision' run' candidates' c.shared
              (activateStep reader call revision run candidates c.shared).1
        rw [hst]
        exact ⟨revision, run, candidates, status', rfl, hsc, hrv, hact⟩
    | _ => cases hnx
  · cases h

section

variable (hsha : Function.Injective reader.sha256) (hc : Crew.Holds (Sound reader) (Holding reader) c)
include hsha hc

theorem change_of_holds :
    Change reader c.shared (c.workers who) (c.step (act reader) (who, event)).shared
      ((c.step (act reader) (who, event)).workers who) := by
  rw [Crew.step_self, Crew.step_shared]
  exact (act_own hsha hc.shared (hc.worker who)).1

theorem kept_of_not_committed (h : committed reader c (who, event) = none) :
    (c.step (act reader) (who, event)).shared.heads = c.shared.heads ∧
      (c.step (act reader) (who, event)).shared.intents = c.shared.intents := by
  cases change_of_holds hsha hc with
  | frames h => exact ⟨h.heads, h.intents⟩
  | activates call revision run candidates status hph hph' =>
    unfold committed at h
    rw [hph, hph'] at h
    cases h

theorem head_kept
    (h : ∀ call, committed reader c (who, event) = some call → call.contextId reader ≠ contextId) :
    (c.step (act reader) (who, event)).shared.heads contextId = c.shared.heads contextId := by
  cases hcm : committed reader c (who, event) with
  | none => rw [(kept_of_not_committed hsha hc hcm).1]
  | some call =>
    obtain ⟨_, _, _, _, -, -, -, hact⟩ := committed_spec hc hcm
    exact hact.otherHeads contextId (h call hcm).symm

theorem rowsOf_kept (hrv : c.shared.hasSnapshot revision = true) :
    (c.step (act reader) (who, event)).shared.hasSnapshot revision = true ∧
      ∀ kind, (c.step (act reader) (who, event)).shared.rowsOf kind revision =
        c.shared.rowsOf kind revision := by
  have hch : Change reader c.shared (c.workers who) (c.step (act reader) (who, event)).shared _ :=
    change_of_holds hsha hc
  refine ⟨hch.runs.hasSnapshot hrv, fun kind => ?_⟩
  cases hch with
  | frames h =>
    unfold Database.rowsOf
    rw [h.intents]
  | activates _ _ _ _ _ _ _ _ h => exact h.rowsOf_eq hrv kind

end

theorem fresh_holds (h : Fresh c) : Crew.Holds (Sound reader) (Holding reader) c where
  shared := by
    rw [h.shared]
    refine ⟨?_, nofun, nofun, nofun, nofun, nofun, fun revision hsn => ?_⟩
    · intro i j a b hi
      cases hi
    · cases hsn
  worker who := by
    rw [h.idle who]
    trivial

theorem step_ended
    (h : (∃ call status, c.workers who = .returned call status) ∨
    ∃ call, c.workers who = .raised call)
    (move : Nat × Event) : (c.step (act reader) move).workers who = c.workers who := by
  obtain ⟨other, event⟩ := move
  by_cases hot : who = other
  · subst hot
    rw [Crew.step_self]
    rcases h with ⟨call, status, h⟩ | ⟨call, h⟩
    · rw [h]
      rfl
    · rw [h]
      rfl
  · exact Crew.step_other hot

theorem run_ended
    (h : (∃ call status, c.workers who = .returned call status) ∨
    ∃ call, c.workers who = .raised call) :
    (ran reader c moves).workers who = c.workers who := by
  apply run_keeps (P := fun next : Imports => next.workers who = c.workers who) rfl
  intro next move hnx
  rw [step_ended (hnx ▸ h), hnx]

theorem act_returned (hst : status.isSuccess = true)
    (h : (act reader who event db phase).2 = .returned call status) :
    phase = .returned call status ∨ ∃ revision run candidates,
      phase = .activating call revision run candidates := by
  unfold act at h
  split at h
  · cases h
  · unfold startStep at h
    split at h
    · split at h <;> cases h
    · cases h
  · cases h
  · unfold refuseStep at h
    split at h <;> cases h
    cases hst
  · cases h
  · unfold recordStep at h
    split at h <;> cases h
  · cases h
  · rename_i call' revision run candidates
    refine .inr ⟨revision, run, candidates, ?_⟩
    unfold activateStep at h
    split at h
    · cases h
    · split at h
      · cases h
      · cases h
        rfl
  · cases h
  · unfold failStep at h
    split at h <;> cases h
    cases hst
  · cases h
  · exact .inl h

theorem committed_of_returned {move : Nat × Event} (hst : status.isSuccess = true)
    (h : (c.step (act reader) move).workers who = .returned call status) :
    c.workers who = .returned call status ∨ move.1 = who ∧ committed reader c move = some call := by
  obtain ⟨other, event⟩ := move
  by_cases hot : who = other
  · subst hot
    have hact := h
    rw [Crew.step_self] at hact
    rcases act_returned hst hact with hph | ⟨revision, run, candidates, hph⟩
    · exact .inl hph
    · refine .inr ⟨rfl, ?_⟩
      unfold committed
      rw [hph, h]
  · rw [Crew.step_other hot] at h
    exact .inl h

theorem exists_committed (hidle : c.workers who = .idle) (hst : status.isSuccess = true)
    (h : (ran reader c moves).workers who = .returned call status) :
    ∃ before event after, moves = before ++ (who, event) :: after ∧
      committed reader (ran reader c before) (who, event) = some call := by
  induction moves using List.reverseRecOn with
  | nil =>
    rw [show ran reader c [] = c from rfl, hidle] at h
    cases h
  | append_singleton moves move ih =>
    rw [ran_append] at h
    rcases committed_of_returned hst h with hear | ⟨rfl, hcm⟩
    · obtain ⟨before, event, after, rfl, hcm⟩ := ih hear
      exact ⟨before, event, after ++ [move], by simp, hcm⟩
    · exact ⟨moves, move.2, [], rfl, hcm⟩

def IsLast (reader : Reader) (contextId : Text) : Imports → Moves → Prop :=
  Along (Crew.step (act reader)) fun c move =>
    ∀ call, committed reader c move = some call → call.contextId reader ≠ contextId

theorem active_of_isLast (hsha : Function.Injective reader.sha256)
    (hc : Crew.Holds (Sound reader) (Holding reader) c)
    (hcm : committed reader c (who, event) = some call)
    (hls : IsLast reader (call.contextId reader) (c.step (act reader) (who, event)) after) :
    ∃ snapshot, normalForm (call.document reader) = some snapshot ∧
      (ran reader c ((who, event) :: after)).shared.loadActiveSnapshot
        (call.contextId reader) = some snapshot := by
  obtain ⟨revision, run, candidates, status, -, -, ⟨row, hrow, -, hdg⟩, hact⟩ :=
    committed_spec hc hcm
  obtain ⟨head, hha, rfl⟩ := hact.head
  rw [← hact.revisions] at hrow
  have hst := hc.step (keeps_holding hsha) (who, event)
  have hrun : Crew.Holds (Sound reader) (Holding reader)
        (ran reader (c.step (act reader) (who, event)) after) ∧
      (ran reader (c.step (act reader) (who, event)) after).shared.heads
        (call.contextId reader) = some head ∧
      (ran reader (c.step (act reader) (who, event)) after).shared.revisions[head.revision]? = some row := by
    apply run_keeps_along (P := fun c : Imports => Crew.Holds (Sound reader) (Holding reader) c ∧
      c.shared.heads (call.contextId reader) = some head ∧ c.shared.revisions[head.revision]? = some row)
      ⟨hst, hha, hrow⟩ hls
    rintro c ⟨other, event⟩ ⟨hc, hha, hrow⟩ hot
    refine ⟨hc.step (keeps_holding hsha) _, ?_, ?_⟩
    · rw [head_kept hsha hc hot]
      exact hha
    · exact getElem?_of_isPrefix (change_of_holds hsha hc).isPrefix hrow
  exact loadActiveSnapshot_of_head hrun.1.shared hrun.2.1 hrun.2.2 hdg

def Database.isSamePayload (db : Database) (row first : IntentRow) : Bool :=
  first.kind = row.kind && db.contextOf first.revision = db.contextOf row.revision &&
    first.candidate.stableId = row.candidate.stableId &&
      first.candidate.canonicalJson = row.candidate.canonicalJson

theorem isSamePayload_eq (hs : Sound reader db) {row first : IntentRow} (hrow : row ∈ db.intents)
    (hfs : first ∈ db.intents) :
    db.isSamePayload row first =
      db.isSameEntity row.kind (db.contextOf row.revision) row.candidate first := by
  unfold Database.isSamePayload Database.isSameEntity
  by_cases hjso : first.candidate.canonicalJson = row.candidate.canonicalJson
  · obtain ⟨bytes, hby, hhs⟩ := hs.hashed row hrow
    obtain ⟨bytes', hby', hhs'⟩ := hs.hashed first hfs
    rw [hjso, hby] at hby'
    cases hby'
    simp [hjso, hhs, hhs']
  · simp [hjso]

theorem origin_is_first (hs : Sound reader db) {row : IntentRow} (hrow : row ∈ db.intents) :
    (db.intents.find? (db.isSamePayload row)).map IntentRow.revision = some row.origin := by
  rw [← hs.origins row hrow]
  congr 1
  apply find?_congr
  intro first hfs
  exact isSamePayload_eq hs hrow hfs

structure Exact (reader : Reader) (c : Imports) (moves : Moves) : Prop where
  active : ∀ who call status, (ran reader c moves).workers who = .returned call status →
    status.isSuccess = true → ∃ before event after, moves = before ++ (who, event) :: after ∧
      committed reader (ran reader c before) (who, event) = some call ∧
      (IsLast reader (call.contextId reader)
          (ran reader c (before ++ [(who, event)])) after →
        ∃ snapshot, normalForm (call.document reader) = some snapshot ∧
          (ran reader c moves).shared.loadActiveSnapshot (call.contextId reader) = some snapshot)
  unchanged : ∀ who before event after, moves = before ++ (who, event) :: after →
    ((ran reader c moves).workers who).hasFailed = true →
      (ran reader c (before ++ [(who, event)])).shared.heads = (ran reader c before).shared.heads ∧
        (ran reader c (before ++ [(who, event)])).shared.intents = (ran reader c before).shared.intents
  kept : ∀ before after revision, moves = before ++ after →
    ((ran reader c before).shared.hasSnapshot revision = true ∨
      ∃ row ∈ (ran reader c before).shared.intents, row.revision = revision) →
      ∀ kind, (ran reader c moves).shared.rowsOf kind revision =
        (ran reader c before).shared.rowsOf kind revision
  origin : ∀ row ∈ (ran reader c moves).shared.intents, row.lifecycle = .active →
    ((ran reader c moves).shared.intents.find?
      ((ran reader c moves).shared.isSamePayload row)).map IntentRow.revision = some row.origin

/-- **An imported context is exactly what is active.** -/
theorem imports_exact (hsha : Function.Injective reader.sha256) (hc : Fresh c) :
    Exact reader c moves := by
  have hhl : ∀ moves : Moves, Crew.Holds (Sound reader) (Holding reader)
      (ran reader c moves) := fun _ => (fresh_holds hc).run (keeps_holding hsha)
  refine ⟨?_, ?_, ?_, ?_⟩
  · intro who call status hrt hst
    obtain ⟨before, event, after, rfl, hcm⟩ := exists_committed (hc.idle who) hst hrt
    refine ⟨before, event, after, rfl, hcm, fun hls => ?_⟩
    rw [ran_append] at hls ⊢
    exact active_of_isLast hsha (hhl before) hcm hls
  · rintro who before event after rfl hfi
    rw [ran_append]
    apply kept_of_not_committed hsha (hhl before)
    cases hcm : committed reader (ran reader c before) (who, event) with
    | none => rfl
    | some call =>
      obtain ⟨_, _, _, status, hrt, hsc, -⟩ := committed_spec (hhl before) hcm
      have hend : ∀ c' : Imports, c'.workers who = .returned call status →
          (ran reader c' after).workers who = .returned call status :=
        fun c' h => (run_ended (.inl ⟨call, status, h⟩)).trans h
      rw [ran_append] at hfi
      change ((ran reader ((ran reader c before).step
        (act reader) (who, event)) after).workers who).hasFailed = true at hfi
      rw [hend _ hrt] at hfi
      change (!status.isSuccess) = true at hfi
      rw [hsc] at hfi
      cases hfi
  · rintro before after revision rfl hrv kind
    have hsn : (ran reader c before).shared.hasSnapshot revision = true := by
      rcases hrv with h | ⟨row, hrow, rfl⟩
      · exact h
      · exact (hhl before).shared.placed row hrow
    rw [ran_append]
    have hkp : Crew.Holds (Sound reader) (Holding reader)
          (ran reader (ran reader c before) after) ∧
        (ran reader (ran reader c before) after).shared.hasSnapshot
          revision = true ∧
        (ran reader (ran reader c before) after).shared.rowsOf
          kind revision = (ran reader c before).shared.rowsOf kind revision := by
      apply run_keeps (P := fun next : Imports => Crew.Holds (Sound reader) (Holding reader) next ∧
        next.shared.hasSnapshot revision = true ∧ next.shared.rowsOf kind revision =
          (ran reader c before).shared.rowsOf kind revision)
        ⟨hhl before, hsn, rfl⟩
      rintro next ⟨other, event⟩ ⟨hnx, hsn, hrs⟩
      obtain ⟨hsn', hrs'⟩ := rowsOf_kept hsha hnx hsn
      exact ⟨hnx.step (keeps_holding hsha) _, hsn', (hrs' kind).trans hrs⟩
    exact hkp.2.2
  · exact fun row hrow _ => origin_is_first (hhl moves).shared hrow

def sampleBytes : Bytes := asciiBytes "metadata: {context_id: office}\nsites: [{id: hq}]\n".toList

def siteBytes : Bytes := asciiBytes "\x7b\"id\":\"hq\"\x7d".toList

/-- The SHA-256 of the two inputs. -/
def knownDigests : List (Bytes × Text) :=
  [(sampleBytes, "fd877c4b1ef1ca33c6b8722765dd5b1c778cb264c429215732c5c266109dccf2"),
    (siteBytes, "e4eb7f8f067ccfee9cc169efe1e4b7bd3029883602176359fac891978a014227")]

def sampleReader : Reader where
  load bytes :=
    if bytes = sampleBytes then
      [(.str "metadata", .obj [(.str "context_id", .str "office")]),
        (.str "sites", .arr [.obj [(.str "id", .str "hq")]])]
    else []
  sha256 := digestFrom knownDigests
  python := ⟨fun _ => [], fun _ => [], fun _ => []⟩

def sampleImports : Imports := ⟨⟨[], [], fun _ => none, []⟩, fun _ => .idle⟩

/-- Two calls that import the document, and overlap. -/
def sampleMoves : Moves :=
  [(0, .call ⟨sampleBytes, [], "1a"⟩), (1, .call ⟨sampleBytes, [], "1b"⟩), (0, .read), (1, .read),
    (0, .commit), (1, .commit), (1, .commit), (0, .commit)]

/-- The law at two imports of one document that overlap. -/
theorem imports_exact_sample : Exact sampleReader sampleImports sampleMoves :=
  imports_exact (digestFrom_injective (by decide) (by decide)) ⟨rfl, fun _ => rfl⟩

example : ((ran sampleReader sampleImports sampleMoves).shared.runs.map ImportRun.status) =
    [.successNoopSameContent, .successImported] := by decide

end WebOvpn.Netctl
