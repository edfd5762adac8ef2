/-
Where the interfaces of assets are attached, and the log of attachments: what is confirmed is
what the log says, as long as no interface is confirmed that was seen at no port before.
-/
import WebOvpn.Lib.Rows
import WebOvpn.Lib.Run
import WebOvpn.Lib.Sorted

namespace WebOvpn.Attachments

inductive CandidateClass where
  | direct
  | uplink
  | unknown
  deriving DecidableEq

instance neZero_scores : NeZero 101 := ⟨by decide⟩

structure Candidate where
  assetId : Nat
  assetInterfaceId : Nat
  switchSourceId : Nat
  portKey : Text
  vlanKey : Text
  vlanId : Option Nat
  candidateClass : CandidateClass
  topologyDepth : Option Nat
  score : Fin 101
  observedAt : Text
  evidence : Text
  portRole : Text
  deriving DecidableEq

/-- `_candidate_order`, as the candidates that come no later. -/
def Candidate.isBefore (a b : Candidate) : Bool :=
  let depth (c : Candidate) : Int := c.topologyDepth.elim (-1) fun depth => depth
  let isOther (c : Candidate) : Nat := if c.candidateClass = .direct then 0 else 1
  if a.score ≠ b.score then b.score < a.score
  else if isOther a ≠ isOther b then isOther a < isOther b
  else if depth a ≠ depth b then depth b < depth a
  else if a.switchSourceId ≠ b.switchSourceId then a.switchSourceId < b.switchSourceId
  else if a.portKey ≠ b.portKey then Text.le a.portKey b.portKey
  else Text.le a.vlanKey b.vlanKey

inductive Status where
  | confirmed
  | ambiguous
  | uplinkOnly
  | unresolved
  deriving DecidableEq

structure Resolution where
  status : Status
  selected : Option Candidate
  confidence : Nat
  alternatives : List Candidate

def resolveAttachment (candidates : List Candidate) : Resolution :=
  let ordered := candidates.mergeSort Candidate.isBefore
  match ordered with
  | [] => ⟨.unresolved, none, 0, []⟩
  | first :: _ =>
    if ordered.all fun candidate => candidate.candidateClass = .uplink then
      ⟨.uplinkOnly, none, min 60 first.score, ordered⟩
    else
      match ordered.find? fun candidate => candidate.candidateClass = .direct with
      | some highest =>
        let nextScore : Int :=
          ((ordered.filter fun candidate => candidate ≠ highest).map fun candidate =>
            (candidate.score : Int)).foldl max (-100)
        if 75 ≤ highest.score.val ∧ 15 ≤ (highest.score : Int) - nextScore then
          ⟨.confirmed, some highest, highest.score, ordered⟩
        else ⟨.ambiguous, none, min 60 first.score, ordered⟩
      | none => ⟨.ambiguous, none, min 60 first.score, ordered⟩

/-- `_resolution_public` of a row, which is also what `after` is. -/
structure Public where
  assetInterfaceId : Nat
  assetId : Nat
  status : Status
  selectedSourceId : Option Nat
  selectedPortKey : Text
  selectedVlanKey : Text
  selectedVlanId : Option Nat
  confidence : Nat
  deriving DecidableEq

/-- A row of `asset_attachment_resolutions`. -/
structure Row where
  shown : Public
  firstSeenAt : Text
  lastSeenAt : Text
  correlationRunId : Nat
  evidence : List Candidate

inductive EventType where
  | attached
  | moved
  | detached
  | becameAmbiguous
  | resolvedAmbiguity
  deriving DecidableEq

/-- A row of `asset_attachment_events`. -/
structure Event where
  assetInterfaceId : Nat
  assetId : Nat
  eventType : EventType
  before : Option Public
  after : Public
  observedAt : Text
  correlationRunId : Nat

def eventType (before : Option Public) (after : Resolution) : Option EventType :=
  match before with
  | none => if after.status = .confirmed then some .attached else none
  | some before =>
    if before.status = .ambiguous ∧ after.status = .confirmed then some .resolvedAmbiguity
    else if after.status = .ambiguous ∧ before.status ≠ .ambiguous then some .becameAmbiguous
    else if before.status = .confirmed ∧ after.status ≠ .confirmed then some .detached
    else
      match after.selected with
      | some selected =>
        if before.status = .confirmed ∧ after.status = .confirmed ∧
            (before.selectedSourceId, before.selectedPortKey, before.selectedVlanKey) ≠
              (some selected.switchSourceId, selected.portKey, selected.vlanKey) then some .moved
        else none
      | none => none

structure Database where
  resolutions : List Row
  events : List Event

def Database.row? (db : Database) (interface : Nat) : Option Row :=
  db.resolutions.find? fun row => row.shown.assetInterfaceId = interface

/-- What a reconciliation finds, in the order in which it finds it. The
reconciliation raises when one of its other steps fails. -/
structure Evidence where
  candidates : List Candidate
  eligible : List (Nat × Nat)
  observedAt : Text
  runId : Nat
  fails : Bool

/-- The keys of `by_interface`. -/
def Evidence.interfaces (evidence : Evidence) : List Nat :=
  (evidence.eligible.map Prod.fst ++ evidence.candidates.map Candidate.assetInterfaceId).reverse.dedup.reverse

def Evidence.resolution (evidence : Evidence) (interface : Nat) : Resolution :=
  resolveAttachment (evidence.candidates.filter fun candidate => candidate.assetInterfaceId = interface)

def Evidence.assetId (evidence : Evidence) (interface : Nat) : Nat :=
  (((evidence.eligible ++ evidence.candidates.map fun candidate =>
    (candidate.assetInterfaceId, candidate.assetId)).reverse.lookup
    interface).getD 0)

def Evidence.after (evidence : Evidence) (interface : Nat) : Public :=
  let resolution := evidence.resolution interface
  { assetInterfaceId := interface
    assetId := evidence.assetId interface
    status := resolution.status
    selectedSourceId := resolution.selected.map Candidate.switchSourceId
    selectedPortKey := (resolution.selected.map Candidate.portKey).getD []
    selectedVlanKey := (resolution.selected.map Candidate.vlanKey).getD []
    selectedVlanId := (resolution.selected.map Candidate.vlanId).join
    confidence := resolution.confidence }

/-- The row that is inserted, or put in the place of the one before. -/
def Evidence.rowAfter (evidence : Evidence) (old : Option Row) (interface : Nat) : Row where
  shown := evidence.after interface
  firstSeenAt := (old.map Row.firstSeenAt).getD evidence.observedAt
  lastSeenAt := evidence.observedAt
  correlationRunId := evidence.runId
  evidence := (evidence.resolution interface).alternatives

def Evidence.event? (evidence : Evidence) (old : Option Row) (interface : Nat) : Option Event :=
  (eventType (old.map Row.shown) (evidence.resolution interface)).map fun kind =>
    { assetInterfaceId := interface
      assetId := evidence.assetId interface
      eventType := kind
      before := old.map Row.shown
      after := evidence.after interface
      observedAt := evidence.observedAt
      correlationRunId := evidence.runId }

/-- `INSERT … ON CONFLICT(asset_interface_id) DO UPDATE`. -/
def upsert (rows : List Row) (row : Row) : List Row :=
  if rows.any fun old => old.shown.assetInterfaceId = row.shown.assetInterfaceId then
    rows.map fun old => if old.shown.assetInterfaceId = row.shown.assetInterfaceId then row else old
  else rows ++ [row]

/-- The statements for one interface; `old` is what the tables held before the first one. -/
def write (evidence : Evidence) (old : Database) (db : Database) (interface : Nat) : Database where
  resolutions := upsert db.resolutions (evidence.rowAfter (old.row? interface) interface)
  events := db.events ++ (evidence.event? (old.row? interface) interface).toList

def reconcileAttachments (db : Database) (evidence : Evidence) : Database :=
  if evidence.fails then db else evidence.interfaces.foldl (write evidence db) db

open List Option

variable {db : Database} {evidence : Evidence} {old : Database} {rows : List Row} {row : Row} {i j : Nat}
  {interfaces : List Nat}

theorem find?_replace (hi : i ≠ row.shown.assetInterfaceId) :
    (rows.map fun old => if old.shown.assetInterfaceId = row.shown.assetInterfaceId then row
      else old).find?
      (fun row => row.shown.assetInterfaceId = i) = rows.find? fun row =>
        row.shown.assetInterfaceId = i := by
  induction rows with
  | nil => rfl
  | cons first rest ih =>
    rw [map_cons, find?_cons, find?_cons, ih]
    by_cases hfs : first.shown.assetInterfaceId = row.shown.assetInterfaceId
    · rw [if_pos hfs, hfs, decide_eq_false (Ne.symm hi)]
    · rw [if_neg hfs]

theorem find?_replace_self
    (hany : rows.any (fun old => old.shown.assetInterfaceId = row.shown.assetInterfaceId) = true) :
    (rows.map fun old => if old.shown.assetInterfaceId = row.shown.assetInterfaceId then row
      else old).find?
      (fun old => old.shown.assetInterfaceId = row.shown.assetInterfaceId) = some row := by
  induction rows with
  | nil => cases hany
  | cons first rest ih =>
    rw [map_cons, find?_cons]
    by_cases hfs : first.shown.assetInterfaceId = row.shown.assetInterfaceId
    · rw [if_pos hfs, decide_eq_true rfl]
    · rw [any_cons, decide_eq_false hfs, Bool.false_or] at hany
      rw [if_neg hfs, decide_eq_false hfs]
      exact ih hany

theorem find?_upsert : (upsert rows row).find? (fun row => row.shown.assetInterfaceId = i) =
    if i = row.shown.assetInterfaceId then some row
      else rows.find? fun row => row.shown.assetInterfaceId = i := by
  unfold upsert
  by_cases hi : i = row.shown.assetInterfaceId
  · subst hi
    rw [if_pos rfl]
    split
    · rename_i hany
      exact find?_replace_self hany
    · rename_i hany
      have hnn : rows.find? (fun old => old.shown.assetInterfaceId = row.shown.assetInterfaceId) = none := by
        rw [find?_eq_none]
        exact fun old hold heq => hany (List.any_eq_true.2 ⟨old, hold, heq⟩)
      rw [find?_append, hnn]
      simp
  · rw [if_neg hi]
    split
    · exact find?_replace hi
    · rw [find?_append]
      simp [Ne.symm hi]

theorem row?_write : (write evidence old db i).row? j =
    if j = i then some (evidence.rowAfter (old.row? i) i) else db.row? j :=
  find?_upsert

theorem row?_writes (hnd : interfaces.Nodup) : (interfaces.foldl (write evidence old) db).row? i =
    if i ∈ interfaces then some (evidence.rowAfter (old.row? i) i) else db.row? i := by
  induction interfaces generalizing db with
  | nil => rfl
  | cons first rest ih =>
    obtain ⟨hfs, hrs⟩ := nodup_cons.1 hnd
    rw [foldl_cons, ih hrs, row?_write]
    by_cases hi : i = first
    · subst hi
      simp [hfs]
    · simp [hi]

theorem events_writes : (interfaces.foldl (write evidence old) db).events =
    db.events ++ interfaces.filterMap fun i => evidence.event? (old.row? i) i := by
  induction interfaces generalizing db with
  | nil => exact (append_nil _).symm
  | cons first rest ih =>
    rw [foldl_cons, ih, filterMap_cons]
    unfold write
    dsimp only
    cases evidence.event? (old.row? first) first with
    | none => rw [toList_none, append_nil]
    | some event => rw [toList_some, append_assoc, singleton_append]

theorem interfaces_nodup : evidence.interfaces.Nodup :=
  nodup_reverse.2 (nodup_dedup _)

/-- A switch and a port. -/
abbrev Location := Nat × Text

def Public.location (shown : Public) : Option Location :=
  if shown.status = .confirmed then shown.selectedSourceId.map fun source =>
    (source, shown.selectedPortKey) else none

def Event.apply (event : Event) (_ : Option Location) : Option Location :=
  match event.eventType with
  | .attached | .moved | .resolvedAmbiguity =>
    event.after.selectedSourceId.map fun source => (source, event.after.selectedPortKey)
  | .detached | .becameAmbiguous => none

/-- The confirmed attachment of an interface. -/
def Database.attachedAt (db : Database) (i : Nat) : Option Location :=
  (db.row? i).bind fun row => row.shown.location

def Faithful (db : Database) : Prop :=
  replay Event.assetInterfaceId Event.apply db.events (fun _ => none) = db.attachedAt

def newEvents (db : Database) (evidence : Evidence) : List Event :=
  (reconcileAttachments db evidence).events.drop db.events.length

def Logged (db : Database) (evidence : Evidence) : Prop :=
  ∀ i, db.attachedAt i ≠ (reconcileAttachments db evidence).attachedAt i →
    (newEvents db evidence).countP (fun event => event.assetInterfaceId = i) = 1

def Announced (db : Database) (evidence : Evidence) : Prop :=
  evidence.fails = false → ∀ i ∈ evidence.interfaces, ∀ row, db.row? i = some row →
    row.shown.status = .uplinkOnly ∨ row.shown.status = .unresolved → (evidence.resolution i).status ≠ .confirmed

def Sound (db : Database) : Prop :=
  ∀ i row, db.row? i = some row → row.shown.status = .confirmed → row.shown.selectedSourceId.isSome = true

theorem confirmed_iff (candidates : List Candidate) :
    (resolveAttachment candidates).status = .confirmed ↔
      (resolveAttachment candidates).selected.isSome = true := by
  unfold resolveAttachment
  dsimp only
  split
  · simp
  · split
    · simp
    · split
      · split <;> simp
      · simp

theorem location_after : (evidence.after i).location =
    (evidence.resolution i).selected.map fun candidate =>
      (candidate.switchSourceId, candidate.portKey) := by
  have hcn : (evidence.resolution i).status = .confirmed ↔ (evidence.resolution i).selected.isSome = true :=
    confirmed_iff _
  unfold Public.location Evidence.after
  dsimp only
  cases hsl : (evidence.resolution i).selected with
  | none =>
    rw [hsl] at hcn
    rw [if_neg fun h => by simpa using hcn.1 h]
    rfl
  | some candidate =>
    rw [hsl] at hcn
    rw [if_pos (hcn.2 rfl)]
    rfl

theorem selected_after :
    (evidence.after i).selectedSourceId.map
    (fun source => (source, (evidence.after i).selectedPortKey)) =
    (evidence.after i).location := by
  rw [location_after]
  unfold Evidence.after
  dsimp only
  cases (evidence.resolution i).selected <;> rfl

theorem location_of_ne (h : (evidence.resolution i).status ≠ .confirmed) :
    (evidence.after i).location = none :=
  if_neg h

theorem event?_tells {before : Option Row} (hsn : ∀ row ∈ before, row.shown.status = .confirmed →
      row.shown.selectedSourceId.isSome = true)
    (hann : ∀ row ∈ before, row.shown.status = .uplinkOnly ∨ row.shown.status = .unresolved →
      (evidence.resolution i).status ≠ .confirmed) : match evidence.event? before i with
    | none => (before.bind fun row => row.shown.location) = (evidence.after i).location
    | some event => ∀ known, event.apply known = (evidence.after i).location := by
  have hcn : (evidence.resolution i).status = .confirmed ↔ (evidence.resolution i).selected.isSome = true :=
    confirmed_iff _
  unfold Evidence.event?
  cases before with
  | none =>
    unfold eventType
    by_cases hst : (evidence.resolution i).status = .confirmed
    · simp only [map_none, hst, if_true, map_some]
      exact fun _ => selected_after
    · simp only [map_none, hst, if_false]
      exact (location_of_ne hst).symm
  | some row =>
    have hsm := hsn row rfl
    have hnev := hann row rfl
    have hlc : ((some row).bind fun row => row.shown.location) = row.shown.location := rfl
    rw [hlc, map_some]
    unfold eventType
    dsimp only
    by_cases hrs : row.shown.status = .ambiguous ∧ (evidence.resolution i).status = .confirmed
    · rw [if_pos hrs]
      exact fun _ => selected_after
    rw [if_neg hrs]
    by_cases hamb : (evidence.resolution i).status = .ambiguous ∧ row.shown.status ≠ .ambiguous
    · have hne : (evidence.resolution i).status ≠ .confirmed := by simp [hamb.1]
      rw [if_pos hamb]
      exact fun _ => (location_of_ne hne).symm
    rw [if_neg hamb]
    by_cases hdt : row.shown.status = .confirmed ∧ (evidence.resolution i).status ≠ .confirmed
    · rw [if_pos hdt]
      exact fun _ => (location_of_ne hdt.2).symm
    rw [if_neg hdt]
    cases hsl : (evidence.resolution i).selected with
    | none =>
      have hne : (evidence.resolution i).status ≠ .confirmed := by
        rw [Ne, hcn, hsl]
        exact Bool.false_ne_true
      have hbf : row.shown.status ≠ .confirmed := fun h => hdt ⟨h, hne⟩
      exact (if_neg hbf).trans (location_of_ne hne).symm
    | some selected =>
      have hst : (evidence.resolution i).status = .confirmed := hcn.2 (by rw [hsl]; rfl)
      have hbf : row.shown.status = .confirmed := by
        cases hkn : row.shown.status with
        | confirmed => rfl
        | ambiguous => exact absurd ⟨hkn, hst⟩ hrs
        | uplinkOnly => exact absurd hst (hnev (.inl hkn))
        | unresolved => exact absurd hst (hnev (.inr hkn))
      dsimp only
      by_cases hmv : row.shown.status = .confirmed ∧ (evidence.resolution i).status = .confirmed ∧
          (row.shown.selectedSourceId, row.shown.selectedPortKey, row.shown.selectedVlanKey) ≠
            (some selected.switchSourceId, selected.portKey, selected.vlanKey)
      · rw [if_pos hmv]
        exact fun _ => selected_after
      have hequ : (row.shown.selectedSourceId, row.shown.selectedPortKey, row.shown.selectedVlanKey) =
          (some selected.switchSourceId, selected.portKey, selected.vlanKey) := by
        by_contra hne
        exact hmv ⟨hbf, hst, hne⟩
      obtain ⟨hsrc, hpr⟩ := Prod.mk.inj hequ
      rw [if_neg hmv, map_none]
      dsimp only
      rw [location_after, hsl]
      unfold Public.location
      rw [if_pos hbf, hsrc, (Prod.mk.inj hpr).1]
      rfl

theorem key_of_event? {before : Option Row} {event : Event} (h : evidence.event? before i = some event) :
    event.assetInterfaceId = i := by
  unfold Evidence.event? at h
  obtain ⟨kind, -, rfl⟩ := map_eq_some_iff.1 h
  rfl

/-- The events that a reconciliation which does not fail writes. -/
def written (db : Database) (evidence : Evidence) : List Event :=
  evidence.interfaces.filterMap fun i => evidence.event? (db.row? i) i

theorem written_nodup : ((written db evidence).map Event.assetInterfaceId).Nodup := by
  unfold written
  rw [map_filterMap]
  apply Nodup.filterMap _ interfaces_nodup
  intro i j k hi hj
  obtain ⟨event, hev, rfl⟩ := map_eq_some_iff.1 hi
  obtain ⟨other, hot, hsm⟩ := map_eq_some_iff.1 hj
  exact (key_of_event? hev).symm.trans (hsm.symm.trans (key_of_event? hot))

theorem reconcile_of_fails (h : evidence.fails = true) : reconcileAttachments db evidence = db :=
  if_pos h

section

variable (h : evidence.fails = false)
include h

theorem events_reconcile :
    (reconcileAttachments db evidence).events = db.events ++ written db evidence := by
  unfold reconcileAttachments
  rw [h]
  exact events_writes

theorem newEvents_eq : newEvents db evidence = written db evidence := by
  unfold newEvents
  rw [events_reconcile h, drop_left]

theorem row?_reconcile : (reconcileAttachments db evidence).row? i =
    if i ∈ evidence.interfaces then some (evidence.rowAfter (db.row? i) i) else db.row? i := by
  unfold reconcileAttachments
  rw [h]
  exact row?_writes interfaces_nodup

theorem attachedAt_reconcile : (reconcileAttachments db evidence).attachedAt i =
    if i ∈ evidence.interfaces then (evidence.after i).location else db.attachedAt i := by
  unfold Database.attachedAt
  rw [row?_reconcile h]
  split <;> rfl

end

theorem Sound.reconcile (h : Sound db) : Sound (reconcileAttachments db evidence) := by
  cases hfl : evidence.fails with
  | true =>
    rw [reconcile_of_fails hfl]
    exact h
  | false =>
    intro i row hrow hst
    rw [row?_reconcile hfl] at hrow
    split at hrow
    · cases hrow
      have hsl := (confirmed_iff _).1 hst
      change ((evidence.resolution i).selected.map Candidate.switchSourceId).isSome = true
      rw [isSome_map]
      exact hsl
    · exact h i row hrow hst

theorem event?_attachedAt (hsn : Sound db) (hann : Announced db evidence) (hfl : evidence.fails = false)
    (hi : i ∈ evidence.interfaces) : match evidence.event? (db.row? i) i with
    | none => db.attachedAt i = (evidence.after i).location
    | some event => ∀ known, event.apply known = (evidence.after i).location :=
  event?_tells (hsn i) fun row hrow => hann hfl i hi row hrow

theorem Faithful.reconcile (h : Faithful db) (hsn : Sound db) (hann : Announced db evidence) :
    Faithful (reconcileAttachments db evidence) := by
  cases hfl : evidence.fails with
  | true =>
    rw [reconcile_of_fails hfl]
    exact h
  | false =>
    unfold Faithful at h ⊢
    rw [events_reconcile hfl, replay_append, h]
    apply replay_eq_of_diff written_nodup
    · intro event hev
      obtain ⟨i, hi, hsm⟩ := mem_filterMap.1 hev
      have htel := event?_attachedAt hsn hann hfl hi
      rw [hsm] at htel
      cases key_of_event? hsm
      rw [attachedAt_reconcile hfl, if_pos hi]
      exact htel _
    · intro i hnn
      rw [attachedAt_reconcile hfl]
      split
      · rename_i hi
        have htel := event?_attachedAt hsn hann hfl hi
        cases hev : evidence.event? (db.row? i) i with
        | none =>
          rw [hev] at htel
          exact htel
        | some event =>
          apply absurd _ hnn
          apply List.mem_map.2
          exact ⟨event, mem_filterMap.2 ⟨i, hi, hev⟩, key_of_event? hev⟩
      · rfl

/-- A change that is not logged would leave the fold behind. -/
theorem Faithful.logged (h : Faithful db) (h' : Faithful (reconcileAttachments db evidence)) :
    Logged db evidence := by
  intro i hne
  cases hfl : evidence.fails with
  | true =>
    rw [reconcile_of_fails hfl] at hne
    exact absurd rfl hne
  | false =>
    unfold Faithful at h h'
    rw [events_reconcile hfl, replay_append, h] at h'
    have hmem : i ∈ (written db evidence).map Event.assetInterfaceId := by
      by_contra hnn
      apply hne
      rw [← h']
      exact (replay_of_not_mem fun event hev heq => hnn (List.mem_map.2 ⟨event, hev, heq⟩)).symm
    rw [newEvents_eq hfl]
    have hcnt := count_eq_one_of_mem written_nodup hmem
    rw [List.count, countP_map] at hcnt
    rw [← hcnt]
    apply countP_congr
    intro event _
    simp

/-- Without the condition some interface is confirmed of which no event tells. -/
theorem Logged.announced (hlog : Logged db evidence) : Announced db evidence := by
  intro hfl i hi row hrow hst hcn
  have hbf : db.attachedAt i = none := by
    unfold Database.attachedAt
    rw [hrow]
    change row.shown.location = none
    unfold Public.location
    rw [if_neg]
    rcases hst with hst | hst <;> simp [hst]
  have haf : (reconcileAttachments db evidence).attachedAt i ≠ none := by
    rw [attachedAt_reconcile hfl, if_pos hi, location_after]
    have hsl := (confirmed_iff _).1 hcn
    obtain ⟨selected, hsl⟩ := isSome_iff_exists.1 hsl
    change (evidence.resolution i).selected = some selected at hsl
    rw [hsl]
    simp
  have hcnt := hlog i (by rw [hbf]; exact haf.symm)
  rw [newEvents_eq hfl] at hcnt
  obtain ⟨event, hev, hkey⟩ :=
    countP_pos_iff.1
    (by omega : 0 < (written db evidence).countP fun event => event.assetInterfaceId = i)
  obtain ⟨j, -, hsm⟩ := mem_filterMap.1 hev
  cases (of_decide_eq_true hkey).symm.trans (key_of_event? hsm)
  unfold Evidence.event? eventType at hsm
  rw [hrow, map_some] at hsm
  have hsl := (confirmed_iff _).1 hcn
  rcases hst with hst | hst <;> simp [hst, hcn] at hsm <;> split at hsm <;> simp at hsm

/-- The tables before the first reconciliation. -/
def empty : Database := ⟨[], []⟩

/-- The log determines the confirmed attachments in every state of a run, and
every change of them has one event. -/
structure LogLaw (runs : List Evidence) : Prop where
  faithful : ∀ before after, runs = before ++ after → Faithful (run reconcileAttachments empty before)
  logged : Along reconcileAttachments Logged empty runs

theorem faithful_run {runs : List Evidence} (hfi : Faithful db) (hsn : Sound db)
    (h : Along reconcileAttachments Announced db runs) :
    (∀ before after, runs = before ++ after → Faithful (run reconcileAttachments db before)) ∧
      Along reconcileAttachments Logged db runs := by
  induction runs generalizing db with
  | nil =>
    refine ⟨fun before after heq => ?_, trivial⟩
    obtain ⟨rfl, -⟩ := append_eq_nil_iff.1 heq.symm
    exact hfi
  | cons evidence rest ih =>
    have hnx : Faithful (reconcileAttachments db evidence) := hfi.reconcile hsn h.1
    obtain ⟨hrs, hlog⟩ := ih hnx hsn.reconcile h.2
    refine ⟨fun before after heq => ?_, hfi.logged hnx, hlog⟩
    cases before with
    | nil => exact hfi
    | cons first before =>
      cases (List.cons.inj heq).1
      exact hrs before after (List.cons.inj heq).2

theorem announced_run {runs : List Evidence} (h : Along reconcileAttachments Logged db runs) :
    Along reconcileAttachments Announced db runs := by
  induction runs generalizing db with
  | nil => trivial
  | cons evidence rest ih => exact ⟨h.1.announced, ih h.2⟩

/-- **The log determines the confirmed attachments** exactly when no
reconciliation confirms an interface whose row says that it was seen at uplinks
only, or nowhere. -/
theorem attachment_log_iff (runs : List Evidence) : LogLaw runs ↔
    Along reconcileAttachments Announced empty runs := by
  constructor
  · intro h
    exact announced_run h.logged
  · intro h
    have hfi : Faithful empty := rfl
    obtain ⟨hst, hlog⟩ := faithful_run hfi nofun h
    exact ⟨hst, hlog⟩

/-- An interface that nobody sees. -/
def sampleUnseen : Evidence := ⟨[], [(1, 1)], [], 1, false⟩

/-- The interface at a port. -/
def sampleSeen : Evidence :=
  ⟨[⟨1, 1, 3, [], [], none, .direct, some 1, 80, [], [], []⟩], [(1, 1)], [], 2, false⟩

/-- The interface was unresolved, is confirmed now, and has no event. -/
theorem found_again_is_not_logged : ¬ LogLaw [sampleUnseen, sampleSeen] := by
  intro h
  have hann := announced_run h.logged
  have hint : sampleUnseen.interfaces = [1] ∧ sampleSeen.interfaces = [1] := by decide
  have hrow : (reconcileAttachments empty sampleUnseen).row? 1 = some (sampleUnseen.rowAfter none 1) := by
    rw [row?_reconcile rfl, hint.1, if_pos mem_cons_self]
    rfl
  have hun : (sampleUnseen.rowAfter none 1).shown.status = .unresolved := by
    simp [Evidence.rowAfter, Evidence.after, Evidence.resolution, sampleUnseen, resolveAttachment]
  have hse : (sampleSeen.resolution 1).status = .confirmed := by
    simp [Evidence.resolution, sampleSeen, resolveAttachment]
  have hmem : 1 ∈ sampleSeen.interfaces := by
    rw [hint.2]
    exact mem_cons_self
  exact hann.2.1 rfl 1 hmem _ hrow (.inr hun) hse

end WebOvpn.Attachments
