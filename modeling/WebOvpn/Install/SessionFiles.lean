/-
The session root as files and directories: creation of a session in the steps
in which it reaches the disk, and the functions that scan the root afterwards.
-/
import WebOvpn.Install.SessionQuota
import WebOvpn.Lib.Crash

namespace WebOvpn

open Op List

/-- A file: opened and not yet written to its end, or complete.  The repository
reads its JSON files as a whole, and what is cut off is not JSON. -/
inductive Stored (α : Type) where
  | torn
  | whole (content : α)

structure SessionAuthFile where
  credentialSha256 : Text
  createNonceSha256 : Text

structure SessionDirectory where
  inventory : Option (Stored Bytes)
  auth : Option (Stored SessionAuthFile)
  status : Option (Stored SessionStatus)
  approval : Option Approval
  revision : Option Revision
  execution : Option Bundle

def SessionDirectory.empty : SessionDirectory := ⟨none, none, none, none, none, none⟩

inductive RootEntry where
  | directory (files : SessionDirectory)
  | other

abbrev SessionRoot := Option (List (Text × RootEntry))

/-- The arguments of `create`, and the random part of its temporary name. -/
structure NewSession where
  sessionId : Text
  inventory : Bytes
  credentialSha256 : Text
  createNonceSha256 : Text
  status : SessionStatus
  token : Text

def NewSession.session (new : NewSession) : Session where
  inventory := new.inventory
  credentialSha256 := new.credentialSha256
  createNonceSha256 := new.createNonceSha256
  status := new.status
  approval := none
  revision := none
  execution := none

inductive CreatePoint where
  | rootMade
  | temporaryMade
  | inventoryOpened
  | inventoryWritten
  | authOpened
  | authWritten
  | statusOpened
  | statusWritten
  | temporarySynced
  | published
  | rootSynced
  | temporaryEmptied
  | temporaryRemoved
deriving DecidableEq

/-- The new session is on the disk under its temporary name. -/
def CreatePoint.hides : CreatePoint → Bool
  | .temporaryMade | .inventoryOpened | .inventoryWritten | .authOpened | .authWritten
  | .statusOpened | .statusWritten | .temporarySynced | .temporaryEmptied => true
  | _ => false

/-- The new session is on the disk under its own name. -/
def CreatePoint.publishes : CreatePoint → Bool
  | .published | .rootSynced => true
  | _ => false

namespace SessionFiles

open Repository (invalid failed notFound validateSessionId)

def temporaryName (id token : Text) : Text :=
  text "." ++ id ++ text "." ++ token ++ ".tmp"

def lookup (root : SessionRoot) (name : Text) : Option RootEntry :=
  root.bind fun entries => entries.lookup name

def change (name : Text) (f : SessionDirectory → SessionDirectory) (root : SessionRoot) : SessionRoot :=
  root.map fun entries => entries.map fun entry =>
    match entry with
    | (name', .directory files) =>
      if name' = name then (name, .directory (f files)) else (name', .directory files)
    | other => other

def insert (name : Text) (root : SessionRoot) : SessionRoot :=
  root.map fun entries => entries ++ [(name, .directory SessionDirectory.empty)]

def rename (source target : Text) (root : SessionRoot) : SessionRoot :=
  root.map fun entries => entries.map fun entry =>
    if entry.1 = source then (target, entry.2) else entry

def remove (name : Text) (root : SessionRoot) : SessionRoot :=
  root.map fun entries => entries.filter fun entry => entry.1 ≠ name

def loadStatus (root : SessionRoot) (sessionId : Text) : Except Exc SessionStatus := do
  let id ← validateSessionId sessionId
  match lookup root id with
  | none => .error notFound
  | some .other => .error (invalid "Install session is not a directory")
  | some (.directory files) =>
    match files.status with
    | none => .error (invalid "Install session file cannot be inspected")
    | some .torn => .error (invalid "Install session status is invalid")
    | some (.whole status) => .ok status

def loadCreateNonceSha256 (root : SessionRoot) (sessionId : Text) : Except Exc Text := do
  let id ← validateSessionId sessionId
  match lookup root id with
  | some (.directory files) =>
    match files.auth with
    | none => .error (invalid "Install session file cannot be inspected")
    | some .torn => .error (invalid "Install session authorization is invalid")
    | some (.whole auth) =>
      if auth.createNonceSha256.isSha256 then .ok auth.createNonceSha256
      else .error (invalid "Install session authorization is invalid")
  | _ => .error (invalid "Install session file cannot be inspected")

def listEntry (root : SessionRoot) (entry : Text × RootEntry) : Except Exc SessionStatus :=
  match entry with
  | (name, .directory _) =>
    if name.isSessionId then loadStatus root name
    else .error (invalid "Install session root contains an unsafe object")
  | (_, .other) => .error (invalid "Install session root contains an unsafe object")

def listStatuses (root : SessionRoot) : Except Exc (List SessionStatus) :=
  match root with
  | none => .ok []
  | some entries =>
    (entries.insertionSort fun a b => Text.le a.1 b.1 = true).mapM (listEntry root)

def findAmong (root : SessionRoot) (nonceSha256 : Text) :
    List SessionStatus → Except Exc (Option SessionStatus)
  | [] => .ok none
  | status :: rest => do
      let stored ← loadCreateNonceSha256 root status.sessionId
      if stored = nonceSha256 then .ok (some status) else findAmong root nonceSha256 rest

def findStatusByCreateNonce (root : SessionRoot) (nonceSha256 : Text) :
    Except Exc (Option SessionStatus) := do
  raiseWhen (nonceSha256.isSha256 = false) (invalid "Install create nonce hash is invalid")
  let statuses ← listStatuses root
  findAmong root nonceSha256 statuses

/-- The checks of `create` on its arguments. -/
def checkNew (new : NewSession) : Except Exc Text := do
  let id ← validateSessionId new.sessionId
  raiseWhen (new.inventory = []) (invalid "Install inventory bytes are invalid")
  raiseWhen (new.credentialSha256.isSha256 = false)
    (invalid "Install credential hash is invalid")
  raiseWhen (new.createNonceSha256.isSha256 = false)
    (invalid "Install create nonce hash is invalid")
  raiseWhen (new.status.sessionId ≠ id)
    (invalid "Install session status identity is invalid")
  return id

def ensureRoot : Op (History SessionRoot CreatePoint) Exc Unit := do
  let present ← look fun root => .ok root.isSome
  if present then return () else step .rootMade fun _ => some []

/-- The `finally` block: a temporary directory that is left is removed. -/
def discardTemporary (temporary : Text) : Op (History SessionRoot CreatePoint) Exc Unit := do
  let present ← look fun root => .ok (lookup root temporary).isSome
  if present then do
    step .temporaryEmptied (change temporary fun files => { files with inventory := none })
    step .temporaryEmptied (change temporary fun files => { files with auth := none })
    step .temporaryEmptied (change temporary fun files => { files with status := none })
    step .temporaryRemoved (remove temporary)
  else return ()

/-- The `try` block: the files are written under the temporary name, and the
directory is then renamed. -/
def writeSession (new : NewSession) (id temporary : Text) :
    Op (History SessionRoot CreatePoint) Exc Unit := do
  let present ← look fun root => .ok (lookup root temporary).isSome
  raiseIf (present = true) (failed "Install session directory cannot be created")
  step .temporaryMade (insert temporary)
  step .inventoryOpened (change temporary fun files => { files with inventory := some .torn })
  step .inventoryWritten
    (change temporary fun files => { files with inventory := some (.whole new.inventory) })
  step .authOpened (change temporary fun files => { files with auth := some .torn })
  step .authWritten (change temporary fun files =>
    { files with auth := some (.whole ⟨new.credentialSha256, new.createNonceSha256⟩) })
  step .statusOpened (change temporary fun files => { files with status := some .torn })
  step .statusWritten
    (change temporary fun files => { files with status := some (.whole new.status) })
  step .temporarySynced synced
  step .published (rename temporary id)
  step .rootSynced synced
where
  /-- `fsync` changes nothing that a reader sees. -/
  synced (root : SessionRoot) : SessionRoot := root

def create (new : NewSession) : Op (History SessionRoot CreatePoint) Exc Unit := do
  let id ← lift (checkNew new)
  ensureRoot
  let present ← look fun root => .ok (lookup root id).isSome
  raiseIf (present = true)
    (.control ⟨"install_session_conflict", "Install session already exists", 4⟩)
  let temporary := temporaryName id new.token
  ensuring (writeSession new id temporary) (discardTemporary temporary)

section

variable {s : Store} {id name : Text} {a : Session}

def ofSession (a : Session) : SessionDirectory where
  inventory := some (.whole a.inventory)
  auth := some (.whole ⟨a.credentialSha256, a.createNonceSha256⟩)
  status := some (.whole a.status)
  approval := a.approval
  revision := a.revision
  execution := a.execution

def ofStore (s : Store) : List (Text × RootEntry) :=
  s.map fun entry => (entry.1, .directory (ofSession entry.2))

/-- Sessions as the repository stores them. -/
structure Sound (s : Store) : Prop where
  valid : s.Valid
  hashed : ∀ id a, s.lookup id = some a → a.createNonceSha256.isSha256 = true

theorem Sound.isSessionId (hs : Sound s) (ha : s.lookup id = some a) : id.isSessionId = true := by
  have hid := (hs.valid.named id a ha).2
  unfold validateSessionId at hid
  split at hid
  · next hmt =>
      rw [Except.ok.injEq] at hid
      rwa [hid] at hmt
  · cases hid

theorem lookup_ofStore (s : Store) (name : Text) : (ofStore s).lookup name =
    (s.lookup name).map fun a => RootEntry.directory (ofSession a) := by
  induction s with
  | nil => rfl
  | cons entry rest ih =>
    obtain ⟨k, a⟩ := entry
    simp only [ofStore, map_cons, List.lookup_cons] at ih ⊢
    cases hk : name == k
    · simpa using ih
    · rfl

/-- The sessions in the order of their names. -/
def sorted (s : Store) : Store := s.insertionSort fun a b => Text.le a.1 b.1 = true

theorem mem_sorted {entry : Text × Session} : entry ∈ sorted s ↔ entry ∈ s :=
  mem_insertionSort _

theorem loadStatus_ofStore (hs : Sound s) (ha : s.lookup id = some a) :
    loadStatus (some (ofStore s)) id = .ok a.status := by
  have hlo : lookup (some (ofStore s)) id = some (.directory (ofSession a)) := by
    rw [lookup, Option.bind_some, lookup_ofStore, ha]
    rfl
  rw [loadStatus, (hs.valid.named id a ha).2]
  simp only [bind, Except.bind, hlo]
  rfl

theorem loadCreateNonceSha256_ofStore (hs : Sound s) (ha : s.lookup id = some a) :
    loadCreateNonceSha256 (some (ofStore s)) id = .ok a.createNonceSha256 := by
  have hlo : lookup (some (ofStore s)) id = some (.directory (ofSession a)) := by
    rw [lookup, Option.bind_some, lookup_ofStore, ha]
    rfl
  rw [loadCreateNonceSha256, (hs.valid.named id a ha).2]
  simp only [bind, Except.bind, hlo]
  exact if_pos (hs.hashed id a ha)

theorem ofStore_sorted (s : Store) : (ofStore s).insertionSort
    (fun a b => Text.le a.1 b.1 = true) = ofStore (sorted s) := by
  unfold ofStore sorted
  symm
  apply map_insertionSort
  intro a _ b _
  rfl

theorem listStatuses_ofStore (hs : Sound s) :
    listStatuses (some (ofStore s)) = .ok ((sorted s).map fun entry => entry.2.status) := by
  have hls : listStatuses (some (ofStore s)) =
      ((sorted s).map fun entry => (entry.1, RootEntry.directory (ofSession entry.2))).mapM
        (listEntry (some (ofStore s))) := by
    rw [← ofStore, ← ofStore_sorted]
    rfl
  rw [hls, mapM_map]
  apply mapM_eq_ok
  intro entry hen
  obtain ⟨id, a⟩ := entry
  have ha := lookup_of_mem hs.valid.distinct (mem_sorted.1 hen)
  rw [Function.comp_apply, listEntry, if_pos (hs.isSessionId ha)]
  exact loadStatus_ofStore hs ha

theorem findAmong_ofStore (hs : Sound s) (nonce : Text) (entries : Store)
    (hen : ∀ entry ∈ entries, entry ∈ s) :
    findAmong (some (ofStore s)) nonce (entries.map fun entry => entry.2.status) =
      .ok ((entries.find? fun entry => entry.2.createNonceSha256 == nonce).map
        fun entry => entry.2.status) := by
  induction entries with
  | nil => rfl
  | cons entry rest ih =>
    obtain ⟨id, a⟩ := entry
    have ha := lookup_of_mem hs.valid.distinct (hen _ mem_cons_self)
    rw [map_cons, findAmong, (hs.valid.named id a ha).1, loadCreateNonceSha256_ofStore hs ha]
    have hrs := ih fun entry het => hen entry (mem_cons_of_mem _ het)
    by_cases hnn : a.createNonceSha256 = nonce
    · simp [bind, Except.bind, hnn]
    · simp [bind, Except.bind, hnn, hrs]

theorem findStatusByCreateNonce_ofStore (hs : Sound s) {nonce : Text} (hnn : nonce.isSha256 = true) :
    findStatusByCreateNonce (some (ofStore s)) nonce =
      .ok (((sorted s).find? fun entry => entry.2.createNonceSha256 == nonce).map
        fun entry => entry.2.status) := by
  have hch : raiseWhen (nonce.isSha256 = false)
      (invalid "Install create nonce hash is invalid") = .ok () := by
    rw [raiseWhen_eq_ok, hnn]
    simp
  rw [findStatusByCreateNonce, hch, listStatuses_ofStore hs]
  exact findAmong_ofStore hs nonce (sorted s) fun entry hen => mem_sorted.1 hen

theorem listStatuses_of_stranger {entries : List (Text × RootEntry)} {entry : RootEntry}
    (hmem : (name, entry) ∈ entries) (hnm : name.isSessionId = false) :
    ∃ e, listStatuses (some entries) = .error e := by
  apply mapM_eq_error ((mem_insertionSort _).2 hmem)
    (e := invalid "Install session root contains an unsafe object")
  cases entry with
  | other => rfl
  | directory files => exact if_neg (by rw [hnm]; simp)

end

section

variable {s : Store} {new : NewSession} {id temporary : Text} {root : SessionRoot}

def Renders (root : SessionRoot) (s : Store) : Prop :=
  root = some (ofStore s) ∨ root = none ∧ s = []

def createdAt (new : NewSession) (s : Store) : Option CreatePoint → Store
  | none => s
  | some point =>
    if point.publishes then s ++ [(new.status.sessionId, new.session)] else s

theorem checkNew_eq_ok (h : checkNew new = .ok id) :
    new.status.sessionId = id ∧ validateSessionId id = .ok id ∧
      new.createNonceSha256.isSha256 = true := by
  simp only [checkNew, bind_eq_ok, raiseWhen_eq_ok] at h
  obtain ⟨id', hid, _, -, _, -, _, hnn, _, hst, heq⟩ := h
  cases heq
  refine ⟨not_not.1 hst, ?_, by simpa using hnn⟩
  unfold validateSessionId at hid ⊢
  split at hid
  · next hmt =>
      cases hid
      rw [Text.strip_strip, if_pos hmt]
  · cases hid

theorem Sound.append (hs : Sound s) (h : checkNew new = .ok id) (hfr : s.lookup id = none) :
    Sound (s ++ [(id, new.session)]) := by
  obtain ⟨hst, hid, hnn⟩ := checkNew_eq_ok h
  have hlo {id' : Text} {a : Session}
      (ha : (s ++ [(id, new.session)]).lookup id' = some a) :
      s.lookup id' = some a ∨ (id' = id ∧ a = new.session) := by
    rw [lookup_append] at ha
    cases hold : s.lookup id' with
    | some a' => rw [hold] at ha; exact .inl ha
    | none =>
      rw [hold, Option.none_or, lookup_cons] at ha
      split at ha
      next hnm => exact .inr ⟨beq_iff_eq.1 hnm, (Option.some.inj ha).symm⟩
      next => simp at ha
  refine ⟨⟨?_, fun id' a ha => ?_⟩, fun id' a ha => ?_⟩
  · rw [map_append]
    refine nodup_append.2 ⟨hs.valid.distinct, by simp, ?_⟩
    intro name hnm name' hnm' heq
    simp only [map_cons, map_nil, mem_singleton] at hnm'
    obtain ⟨entry, hen, rfl⟩ := mem_map.1 hnm
    have hne := List.lookup_eq_none_iff.1 hfr entry hen
    simp [heq, hnm'] at hne
  · rcases hlo ha with ha | ⟨rfl, rfl⟩
    · exact hs.valid.named id' a ha
    · exact ⟨hst, hid⟩
  · rcases hlo ha with ha | ⟨rfl, rfl⟩
    · exact hs.hashed id' a ha
    · exact hnn

theorem temporaryName_not_isSessionId (id token : Text) :
    (temporaryName id token).isSessionId = false := by
  have hha : temporaryName id token = CodePoint.ofChar '.' :: (id ++ text "." ++ token ++ ".tmp") := by
    simp [temporaryName, text]
  rw [hha]
  rfl

theorem not_mem_ofStore (hs : Sound s) {name : Text} (hnm : name.isSessionId = false) :
    name ∉ (ofStore s).map Prod.fst := by
  intro hmem
  rw [ofStore, map_map] at hmem
  obtain ⟨⟨id, a⟩, hen, heq⟩ := mem_map.1 hmem
  have hid := hs.isSessionId (lookup_of_mem hs.valid.distinct hen)
  rw [show id = name from heq, hnm] at hid
  cases hid

variable {entries : List (Text × RootEntry)}

theorem change_last
    (h : temporary ∉ entries.map Prod.fst) (files : SessionDirectory)
    (f : SessionDirectory → SessionDirectory) :
    change temporary f (some (entries ++ [(temporary, .directory files)])) =
      some (entries ++ [(temporary, .directory (f files))]) := by
  rw [change, Option.map_some, map_append]
  congr 2
  · refine (map_congr_left fun entry hen => ?_).trans (map_id entries)
    obtain ⟨name, content⟩ := entry
    cases content with
    | other => rfl
    | directory files =>
      refine if_neg ?_
      rintro rfl
      exact h (mem_map.2 ⟨_, hen, rfl⟩)
  · simp

theorem rename_last {entry : RootEntry}
    (h : temporary ∉ entries.map Prod.fst) (id : Text) :
    rename temporary id (some (entries ++ [(temporary, entry)])) = some (entries ++ [(id, entry)]) := by
  rw [rename, Option.map_some, map_append]
  congr 2
  · refine (map_congr_left fun entry hen => ?_).trans (map_id entries)
    refine if_neg ?_
    rintro rfl
    exact h (mem_map.2 ⟨_, hen, rfl⟩)
  · simp

def AtPoint (new : NewSession) (s : Store) (point : CreatePoint) (d : SessionRoot) : Prop :=
  if point.hides then ∃ entries name entry, d = some entries ∧ (name, entry) ∈ entries ∧
    name.isSessionId = false
  else Renders d (createdAt new s (some point)) ∧ Sound (createdAt new s (some point))

theorem writeSession_passes (hs : Sound s) (h : checkNew new = .ok id)
    (hfr : s.lookup id = none) (htm : temporary = temporaryName id new.token) :
    Passes (writeSession new id temporary) (some (ofStore s)) (AtPoint new s) fun r d =>
      r = .ok () ∧ d = some (ofStore (s ++ [(id, new.session)])) := by
  have hnm : temporary.isSessionId = false := by
    rw [htm]
    exact temporaryName_not_isSessionId id new.token
  have hnew := not_mem_ofStore hs hnm
  have hhid {point : CreatePoint} {files : SessionDirectory} (hpi : point.hides = true) :
      AtPoint new s point (some (ofStore s ++ [(temporary, .directory files)])) := by
    unfold AtPoint
    rw [if_pos hpi]
    exact ⟨_, temporary, .directory files, rfl, by simp, hnm⟩
  have hpb {point : CreatePoint} (hhides : point.hides = false)
      (hpubl : point.publishes = true) :
      AtPoint new s point (some (ofStore (s ++ [(id, new.session)]))) := by
    unfold AtPoint
    rw [hhides, createdAt, if_pos hpubl, (checkNew_eq_ok h).1]
    exact ⟨.inl rfl, hs.append h hfr⟩
  -- one step on a file of the temporary directory
  have hfl {point : CreatePoint} {f : SessionDirectory → SessionDirectory}
      {files : SessionDirectory} (files' : SessionDirectory)
      {rest : Unit → Op (History SessionRoot CreatePoint) Exc Unit}
      {Q : Except Exc Unit → SessionRoot → Prop} (hpi : point.hides = true)
      (hf : f files = files')
      (hrs : Passes (rest ()) (some (ofStore s ++ [(temporary, .directory files')]))
        (AtPoint new s) Q) :
      Passes (step point (change temporary f) >>= rest)
        (some (ofStore s ++ [(temporary, .directory files)])) (AtPoint new s) Q := by
    have hch := change_last hnew files f
    rw [hf] at hch
    apply passes_step_bind
    · rw [hch]
      exact hhid hpi
    · rw [hch]
      exact hrs
  unfold writeSession
  apply passes_look_bind
  · intro e he
    cases he
  intro present hpr
  rw [lookup, Option.bind_some, lookup_eq_none_of_not_mem hnew] at hpr
  cases hpr
  apply passes_lift_bind
  · intro e he
    cases he
  intro _ _
  refine passes_step_bind (hhid rfl) ?_
  apply hfl ⟨some .torn, none, none, none, none, none⟩ rfl rfl
  apply hfl ⟨some (.whole new.inventory), none, none, none, none, none⟩ rfl rfl
  apply hfl ⟨some (.whole new.inventory), some .torn, none, none, none, none⟩ rfl rfl
  apply hfl ⟨some (.whole new.inventory),
    some (.whole ⟨new.credentialSha256, new.createNonceSha256⟩), none, none, none, none⟩ rfl rfl
  apply hfl ⟨some (.whole new.inventory),
    some (.whole ⟨new.credentialSha256, new.createNonceSha256⟩), some .torn, none, none, none⟩
    rfl rfl
  apply hfl (ofSession new.session) rfl rfl
  refine passes_step_bind (hhid rfl) ?_
  have hfn : rename temporary id (writeSession.synced (some (ofStore s ++
      [(temporary, .directory (ofSession new.session))]))) = some (ofStore (s ++ [(id, new.session)])) := by
    rw [writeSession.synced, rename_last hnew]
    simp [ofStore]
  apply passes_step_bind
  · rw [hfn]
    exact hpb rfl rfl
  · rw [hfn]
    exact passes_step (hpb rfl rfl) ⟨rfl, rfl⟩

theorem ensureRoot_passes (hs : Sound s) (hro : Renders root s) :
    Passes ensureRoot root (AtPoint new s) fun r d => r = .ok () ∧ d = some (ofStore s) := by
  unfold ensureRoot
  refine passes_look_ok rfl ?_
  rcases hro with rfl | ⟨rfl, rfl⟩
  · exact passes_pure ⟨rfl, rfl⟩
  · rw [if_neg (by simp)]
    apply passes_step
    · exact ⟨.inl rfl, hs⟩
    · exact ⟨rfl, rfl⟩

theorem create_passes (hs : Sound s) (hro : Renders root s) (new : NewSession) :
    Passes (create new) root (AtPoint new s) fun r d =>
      ∀ id, checkNew new = .ok id → s.lookup id = none →
        r = .ok () ∧ d = some (ofStore (s ++ [(id, new.session)])) := by
  unfold create
  apply passes_lift_bind
  · intro e he id hid
    rw [hid] at he
    cases he
  intro id hid
  refine (ensureRoot_passes hs hro).bind_ok ?_
  rintro _ rfl
  apply passes_look_bind
  · intro e he
    cases he
  intro present hpr
  rw [lookup, Option.bind_some, lookup_ofStore] at hpr
  cases hlo : s.lookup id with
  | some a =>
    rw [hlo] at hpr
    cases hpr
    apply passes_lift_bind
    · intro e _ id' hid' hfr
      cases hid.symm.trans hid'
      rw [hlo] at hfr
      cases hfr
    · intro _ h
      cases h
  | none =>
    rw [hlo] at hpr
    cases hpr
    apply passes_lift_bind
    · intro e he
      cases he
    intro _ _
    refine Passes.ensuring (writeSession_passes hs hid hlo rfl) ?_
    rintro r d ⟨rfl, rfl⟩
    unfold discardTemporary
    have hgn := not_mem_ofStore (hs.append hid hlo)
      (temporaryName_not_isSessionId id new.token)
    refine passes_look_ok rfl ?_
    rw [lookup, Option.bind_some, lookup_eq_none_of_not_mem hgn]
    apply passes_pure
    intro id' hid' _
    cases hid.symm.trans hid'
    exact ⟨rfl, rfl⟩

/-- The scans of the root and later creations work, and the listing gives
exactly the sessions of the store. -/
structure Usable (root : SessionRoot) (s : Store) : Prop where
  listed : listStatuses root = .ok ((sorted s).map fun entry => entry.2.status)
  found : ∀ nonce, nonce.isSha256 = true → findStatusByCreateNonce root nonce =
    .ok (((sorted s).find? fun entry => entry.2.createNonceSha256 == nonce).map
      fun entry => entry.2.status)
  created : ∀ new id, checkNew new = .ok id → s.lookup id = none → (finish (create new) root).1 = .ok ()

theorem Renders.usable (hs : Sound s) (hro : Renders root s) : Usable root s where
  listed := by
    rcases hro with rfl | ⟨rfl, rfl⟩
    · exact listStatuses_ofStore hs
    · rfl
  found := by
    intro nonce hnn
    rcases hro with rfl | ⟨rfl, rfl⟩
    · exact findStatusByCreateNonce_ofStore hs hnn
    · have hch : raiseWhen (nonce.isSha256 = false)
          (invalid "Install create nonce hash is invalid") = .ok () := by
        rw [raiseWhen_eq_ok, hnn]
        simp
      rw [findStatusByCreateNonce, hch]
      rfl
  created := by
    intro new id hid hfr
    exact ((create_passes hs hro new).finish id hid hfr).1

end

theorem sound_sessionsAfter (steps : List Step) : Sound (sessionsAfter steps) where
  valid := sessionsAfter_valid steps
  hashed := by
    apply sessionsAfter_induct (P := fun a => a.createNonceSha256.isSha256 = true)
    · intro b _ hnn
      exact hnn
    · intro step id ok a b hmv ha
      rw [hmv.createNonce_eq]
      exact ha

/-- A creation that is interrupted leaves the repository usable exactly when its
directory does not remain under the temporary name. -/
theorem interrupted_create_usable_iff (steps : List Step) (root : SessionRoot)
    (hro : Renders root (sessionsAfter steps)) (new : NewSession)
    (point : Option CreatePoint) (d : SessionRoot) (h : (point, d) ∈ interruptions (create new) root) :
    Usable d (createdAt new (sessionsAfter steps) point) ↔ ∀ p, point = some p → p.hides = false := by
  have hs := sound_sessionsAfter steps
  rcases (create_passes hs hro new).interruptions h with ⟨rfl, rfl⟩ | ⟨p, rfl, hp⟩
  · constructor
    · intro _ p hp
      cases hp
    · intro _
      exact hro.usable hs
  · unfold AtPoint at hp
    cases hhid : p.hides with
    | true =>
      rw [if_pos hhid] at hp
      obtain ⟨entries, name, entry, rfl, hmem, hnm⟩ := hp
      obtain ⟨e, he⟩ := listStatuses_of_stranger hmem hnm
      constructor
      · intro husa
        rw [husa.listed] at he
        cases he
      · intro hnot
        rw [hnot p rfl] at hhid
        cases hhid
    | false =>
      rw [hhid] at hp
      constructor
      · rintro _ _ ⟨⟩
        exact hhid
      · intro _
        exact hp.1.usable hp.2

def sampleNew : NewSession where
  sessionId := Sample.sessionId
  inventory := [0x7b]
  credentialSha256 := Sample.inventoryDigest
  createNonceSha256 := Sample.inventoryDigest
  status := initialStatus
  token := "00000000"
where
  initialStatus : SessionStatus :=
    { sessionId := Sample.sessionId, state := .awaitingApproval, stage := .awaitingApproval
      stageHistory := [], inventorySha256 := [], machineUuid := [], agentBootId := []
      sourceIp := [], createdAt := Sample.minute 0, updatedAt := Sample.minute 0
      lastSeenAt := Sample.minute 0, expiresAt := Sample.minute 30, expiredAt := none
      planRevision := none, cancelledAt := none, cancelReason := none, agentStatus := none
      execution := none }

theorem sampleNew_points : (interruptions (create sampleNew) none).map Prod.fst =
      [none, some .rootMade, some .temporaryMade, some .inventoryOpened,
        some .inventoryWritten, some .authOpened, some .authWritten, some .statusOpened,
        some .statusWritten, some .temporarySynced, some .published, some .rootSynced] := by
  decide

theorem sampleNew_interruption (point : Option CreatePoint)
    (h : point ∈ (interruptions (create sampleNew) none).map Prod.fst) :
    ∃ d, (point, d) ∈ interruptions (create sampleNew) none := by
  obtain ⟨⟨point', d⟩, hmem, rfl⟩ := mem_map.1 h
  exact ⟨d, hmem⟩

/-- A creation interrupted right after it is published leaves the root usable. -/
theorem interrupted_create_usable_published : ∃ d,
    (some .published, d) ∈ interruptions (create sampleNew) none ∧
      Usable d (createdAt sampleNew (sessionsAfter []) (some .published)) := by
  obtain ⟨d, hd⟩ := sampleNew_interruption (some .published)
    (by rw [sampleNew_points]; simp)
  refine ⟨d, hd, (interrupted_create_usable_iff [] none (.inr ⟨rfl, rfl⟩) sampleNew _ d hd).2 ?_⟩
  rintro _ ⟨⟩
  rfl

/-- A creation interrupted after its first step under the temporary name wedges
the repository. -/
theorem interrupted_create_wedges :
    ¬ ∀ (steps : List Step) (root : SessionRoot), Renders root (sessionsAfter steps) →
      ∀ (new : NewSession) (point : Option CreatePoint) (d : SessionRoot),
        (point, d) ∈ interruptions (create new) root →
          Usable d (createdAt new (sessionsAfter steps) point) := by
  intro h
  obtain ⟨d, hd⟩ := sampleNew_interruption (some .temporaryMade)
    (by rw [sampleNew_points]; simp)
  have hro : Renders none (sessionsAfter []) := .inr ⟨rfl, rfl⟩
  have hps := create_passes (sound_sessionsAfter []) hro sampleNew
  rcases hps.interruptions hd with ⟨hnn, -⟩ | ⟨p, hp, hat⟩
  · cases hnn
  · cases hp
    obtain ⟨entries, name, entry, rfl, hmem, hnm⟩ := hat
    obtain ⟨e, he⟩ := listStatuses_of_stranger hmem hnm
    rw [(h [] none hro sampleNew _ _ hd).listed] at he
    cases he

end SessionFiles

end WebOvpn
