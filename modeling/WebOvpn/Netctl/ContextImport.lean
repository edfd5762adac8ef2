/-
Context documents of netctl and their import: what it requires, its revisions and runs,
the head of a context, and the steps of a call of `import_context`.
-/
import Mathlib.Data.Rat.Init
import WebOvpn.Lib.JsonParse
import WebOvpn.Lib.JsonText
import WebOvpn.Lib.Run
import WebOvpn.Lib.Sorted

namespace WebOvpn.Netctl

open Text

/-- The key of a mapping: text, a number with the name that JSON gives it, the
null, or a key that JSON does not have. -/
inductive YKey where
  | str (value : Text)
  | num (value : Rat) (name : Text)
  | null
  | other
  deriving DecidableEq

/-- A value as `yaml.safe_load` returns it. A float is finite when it has a
token; `other` is a value that `json.dumps` refuses, with its truth. -/
inductive YVal where
  | null
  | bool (value : Bool)
  | int (value : Int)
  | float (token : Option NumberToken)
  | str (value : Text)
  | date (isoformat : Text)
  | other (truth : Bool)
  | arr (items : List YVal)
  | obj (members : List (YKey × YVal))

abbrev YMembers := List (YKey × YVal)

def get? (members : YMembers) (key : String) : Option YVal := members.lookup (.str (text key))

def isNonblank (value : Text) : Bool := !(strip value).isEmpty

def entityId (entity : YMembers) : Option Text :=
  match get? entity "id" with
  | some (.str id) => if isNonblank id then some id else none
  | _ => none

/-- The kinds of entities, in the order of `IMPORT_COLLECTIONS`. -/
inductive Kind where
  | site
  | location
  | segment
  | asset
  | service
  | link
  deriving DecidableEq

def Kind.all : List Kind := [.site, .location, .segment, .asset, .service, .link]

def Kind.collection : Kind → String
  | .site => "sites"
  | .location => "locations"
  | .segment => "segments"
  | .asset => "devices"
  | .service => "services"
  | .link => "links"

def collectionItems (document : YMembers) (kind : Kind) : List YVal :=
  match get? document kind.collection with
  | some (.arr items) => items
  | _ => []

/-- What Python makes of a value as text, and of an error of `json.dumps`. -/
structure PythonText where
  repr : YVal → Text
  str : YVal → Text
  message : YMembers → Text

structure ContextError where
  path : Text
  message : Text

def decimal (n : Nat) : Text := (Nat.toDigits 10 n).map CodePoint.ofChar

def validEntityIds (items : List YVal) : List Text :=
  items.filterMap fun item =>
    match item with
    | .obj entity => entityId entity
    | _ => none

def normaliseRelationType (relation : Text) : Text :=
  if relation = "connected_to" then "CONNECTED_TO" else relation

def relationTypes : List Text :=
  ["CONNECTED_TO", "MEMBER_OF", "ROUTED_VIA", "RUNS_ON", "USED_BY", "LOCATED_AT",
    "CAN_ACCESS", "AFFECTED_BY", "RESOLVED_BY", "connected_to"]

def relationErrors (python : PythonText) (link : YMembers) (path : Text) : List ContextError :=
  match get? link "relation" with
  | some (.str relation) =>
    if relation ∈ relationTypes then []
    else [⟨path ++ ".relation", text "unsupported relation " ++ python.repr (.str relation)⟩]
  | some relation => [⟨path ++ ".relation", text "unsupported relation " ++ python.repr relation⟩]
  | none => [⟨path ++ ".relation", text "unsupported relation " ++ python.repr .null⟩]

def confidenceErrors (link : YMembers) (path : Text) : List ContextError :=
  match get? link "confidence" with
  | none => []
  | some (.int confidence) =>
    if 0 ≤ confidence ∧ confidence ≤ 100 then []
    else [⟨path ++ ".confidence", "confidence must be an integer from 0 to 100"⟩]
  | some _ => [⟨path ++ ".confidence", "confidence must be an integer from 0 to 100"⟩]

def deviceErrors (endpoint : YMembers) (path : Text) (deviceIds : List Text) : List ContextError :=
  match get? endpoint "device" with
  | some (.str device) =>
    if !isNonblank device then [⟨path ++ ".device", "device must be a non-blank string"⟩]
    else if device ∈ deviceIds then []
    else [⟨path ++ ".device", text "unknown device '" ++ device ++ "'"⟩]
  | _ => [⟨path ++ ".device", "device must be a non-blank string"⟩]

def interfaceErrors (endpoint : YMembers) (path : Text) : List ContextError :=
  match get? endpoint "interface" with
  | none => []
  | some (.str name) =>
    if isNonblank name then []
    else [⟨path ++ ".interface", "interface must be a non-blank string when present"⟩]
  | some _ => [⟨path ++ ".interface", "interface must be a non-blank string when present"⟩]

def endpointErrors (link : YMembers) (path : Text) (deviceIds : List Text) (name : String) :
    List ContextError :=
  let endpointPath := path ++ text "." ++ text name
  match get? link name with
  | some (.obj endpoint) => deviceErrors endpoint endpointPath deviceIds ++ interfaceErrors endpoint endpointPath
  | _ => [⟨endpointPath, "endpoint must be an object"⟩]

def linkSemanticErrors (python : PythonText) (link : YMembers) (path : Text) (deviceIds : List Text) :
    List ContextError :=
  relationErrors python link path ++ confidenceErrors link path ++
    endpointErrors link path deviceIds "endpoint_a" ++ endpointErrors link path deviceIds "endpoint_b"

def linkErrors (python : PythonText) (kind : Kind) (item : YVal) (path : Text) (deviceIds : List Text) :
    List ContextError :=
  match kind, item with
  | .link, .obj link => linkSemanticErrors python link path deviceIds
  | _, _ => []

/-- The items of a collection from an index on; `seen` are the identifiers before it. -/
def itemErrors (python : PythonText) (kind : Kind) (deviceIds : List Text) :
    Nat → List Text → List YVal → List ContextError
  | _, _, [] => []
  | index, seen, item :: rest =>
    let path := text kind.collection ++ text "." ++ decimal index
    match (match item with | .obj entity => entityId entity | _ => none) with
    | none =>
      ⟨path ++ ".id", "id must be a non-blank string"⟩ ::
        (linkErrors python kind item path deviceIds ++ itemErrors python kind deviceIds (index + 1) seen rest)
    | some id =>
      (if id ∈ seen then [⟨path ++ ".id", text "duplicate id '" ++ id ++ "'"⟩] else []) ++
        (linkErrors python kind item path deviceIds ++
          itemErrors python kind deviceIds (index + 1) (id :: seen) rest)

def ContextError.before (a b : ContextError) : Bool :=
  if a.path = b.path then Text.le a.message b.message else Text.le a.path b.path

def validateImportSemantics (python : PythonText) (document : YMembers) : List ContextError :=
  (Kind.all.flatMap fun kind =>
    itemErrors python kind (validEntityIds (collectionItems document .asset)) 0 []
      (collectionItems document kind)).insertionSort fun a b => a.before b = true

section

variable {α : Type}

/-- `d[key] = value`: a known key keeps its place. -/
def insertEntry (dict : List (Text × α)) (entry : Text × α) : List (Text × α) :=
  if entry.1 ∈ dict.map Prod.fst then dict.map fun old => if old.1 = entry.1 then entry else old
  else dict ++ [entry]

/-- A dictionary of entries, the last of a key last. -/
def dictFrom (entries : List (Text × α)) : List (Text × α) := entries.foldl insertEntry []

end

def normaliseImportEntities (document : YMembers) (kind : Kind) : List (Text × YMembers) :=
  dictFrom (sortByName ((collectionItems document kind).filterMap fun item =>
    match item with
    | .obj entity => (entityId entity).map fun id => (id, entity)
    | _ => none))

/-- Members in the order of `sort_keys`, with the names that JSON gives to their
keys. Keys of different types cannot be compared. -/
def orderMembers (members : List (YKey × JVal)) : Option (List (Text × JVal)) :=
  if members.all fun member => member.1 matches .str _ then
    some (sortByName (members.filterMap fun member =>
      match member.1 with
      | .str name => some (name, member.2)
      | _ => none))
  else if members.all fun member => member.1 matches .num _ _ then
    some (((members.filterMap fun member =>
      match member.1 with
      | .num value name => some (value, name, member.2)
      | _ => none).insertionSort fun a b => a.1 ≤ b.1).map Prod.snd)
  else
    match members with
    | [(.null, value)] => some [("null", value)]
    | _ => none

mutual

/-- The JSON value that `json.dumps` writes for a value, with the keys in order;
`none` is a `TypeError` or `ValueError`. -/
def YVal.toJson? : YVal → Option JVal
  | .null => some .null
  | .bool value => some (.bool value)
  | .int value => if maxStrDigits < (Nat.toDigits 10 value.natAbs).length then none
    else some (.int value)
  | .float (some token) => some (.float token.toChars)
  | .float none => none
  | .str value => some (.str value)
  | .date isoformat => some (.str isoformat)
  | .other _ => none
  | .arr items => (itemsToJson? items).map JVal.arr
  | .obj members => ((membersToJson? members).bind orderMembers).map fun members =>
    .obj (dictFrom members)

def itemsToJson? : List YVal → Option (List JVal)
  | [] => some []
  | item :: rest =>
    match item.toJson?, itemsToJson? rest with
    | some item, some rest => some (item :: rest)
    | _, _ => none

def membersToJson? : List (YKey × YVal) → Option (List (YKey × JVal))
  | [] => some []
  | (key, value) :: rest =>
    match value.toJson?, membersToJson? rest with
    | some value, some rest => some ((key, value) :: rest)
    | _, _ => none

end

def canonicalEntityJson (entity : YMembers) : Option Text := (YVal.obj entity).toJson?.map encodePlain

def charsOf (value : Text) : List Char := value.map fun c => Char.ofNat c.val

def loadsText (value : Text) : Except LoadsError JVal := parseDocument pythonDialect (charsOf value)

def YVal.isTruthy : YVal → Bool
  | .null => false
  | .bool value => value
  | .int value => value ≠ 0
  | .float (some token) => (token.digits ++ token.fraction).any fun c => c.isDigit && c ≠ '0'
  | .float none => true
  | .str value => !value.isEmpty
  | .date _ => true
  | .other truth => truth
  | .arr items => !items.isEmpty
  | .obj members => !members.isEmpty

def contextId (python : PythonText) (document : YMembers) : Text :=
  match get? document "metadata" with
  | some (.obj metadata) =>
    match get? metadata "context_id" with
    | some (.str value) => value
    | some value => if value.isTruthy then python.str value else []
    | none => []
  | _ => []

open Text

/-- A row of `context_revisions`; its identifier is its place. -/
structure Revision where
  contextId : Text
  sha256 : Text
  sourcePath : Text
  gitSha : Text

inductive RunStatus where
  | running
  | successImported
  | successNoopSameContent
  | successActivatedExistingContent
  | validationError
  | dbError
  deriving DecidableEq

def RunStatus.isSuccess : RunStatus → Bool
  | .successImported => true
  | .successNoopSameContent => true
  | .successActivatedExistingContent => true
  | _ => false

/-- A row of `context_import_runs`; its identifier is its place. -/
structure ImportRun where
  contextId : Text
  revision : Option Nat
  base : Option Nat
  inputSha256 : Text
  gitSha : Text
  sourcePath : Text
  status : RunStatus
  errors : List ContextError

/-- A row of `context_heads`, whose key is the context. -/
structure Head where
  revision : Nat
  run : Nat

inductive Lifecycle where
  | active
  | retired
  deriving DecidableEq

/-- The columns of `intent_links` that the other tables lack. -/
structure LinkColumns where
  relation : Text
  endpointA : Text
  endpointB : Text
  deriving DecidableEq

/-- What a document says of an entity. -/
structure Candidate where
  stableId : Text
  canonicalJson : Text
  canonicalHash : Text
  link : Option LinkColumns
  deriving DecidableEq

structure IntentRow where
  kind : Kind
  revision : Nat
  lifecycle : Lifecycle
  candidate : Candidate
  origin : Nat

structure Database where
  revisions : List Revision
  runs : List ImportRun
  heads : Text → Option Head
  intents : List IntentRow

/-- Why a transaction fails. -/
inductive DatabaseError where
  | unique (kind : Kind) (revision : Nat) (stableId : Text)
  | notRunning (run : Nat)
  deriving DecidableEq

def Kind.table : Kind → Text
  | .site => "intent_sites"
  | .location => "intent_locations"
  | .segment => "intent_segments"
  | .asset => "intent_assets"
  | .service => "intent_services"
  | .link => "intent_links"

/-- `str(exc)`. -/
def DatabaseError.message : DatabaseError → Text
  | .unique kind _ _ =>
    text "UNIQUE constraint failed: " ++ kind.table ++ text ".context_revision_id, " ++ kind.table ++
      ".stable_id"
  | .notRunning run => text "context import run is not running or not found: " ++ decimal (run + 1)

def Database.contextOf (db : Database) (revision : Nat) : Option Text :=
  db.revisions[revision]?.map Revision.contextId

def Database.finishRun (db : Database) (run : Nat) (status : RunStatus) (errors : List ContextError) :
    Except DatabaseError Database :=
  if db.runs[run]?.any fun row => row.status = .running then
    .ok { db with runs := db.runs.modify run fun row => { row with status := status, errors := errors } }
  else .error (.notRunning run)

def Database.setHead (db : Database) (contextId : Text) (revision run : Nat) : Database :=
  { db with heads := Function.update db.heads contextId (some ⟨revision, run⟩) }

def Database.hasSnapshot (db : Database) (revision : Nat) : Bool :=
  db.runs.any fun run => run.revision = some revision && run.status.isSuccess

def Database.rowsOf (db : Database) (kind : Kind) (revision : Nat) : List IntentRow :=
  db.intents.filter fun row => row.kind = kind && row.revision = revision

def Database.isSameEntity (db : Database) (kind : Kind) (contextId : Option Text) (candidate : Candidate)
    (row : IntentRow) : Bool :=
  row.kind = kind && db.contextOf row.revision = contextId && row.candidate.stableId = candidate.stableId &&
    row.candidate.canonicalHash = candidate.canonicalHash &&
      row.candidate.canonicalJson = candidate.canonicalJson

def Database.findEntityOrigin (db : Database) (kind : Kind) (revision : Nat)
    (candidate : Candidate) : Option Nat :=
  (db.intents.find? (db.isSameEntity kind (db.contextOf revision) candidate)).map IntentRow.origin

def Database.insertRow (db : Database) (row : IntentRow) : Except DatabaseError Database :=
  if db.intents.any fun old => old.kind = row.kind && old.revision = row.revision &&
      old.candidate.stableId = row.candidate.stableId then
    .error (.unique row.kind row.revision row.candidate.stableId)
  else .ok { db with intents := db.intents ++ [row] }

abbrev CandidateRows := List (Text × Candidate)

def Database.insertActive (kind : Kind) (revision : Nat) (db : Database) (entry : Text × Candidate) :
    Except DatabaseError Database :=
  db.insertRow ⟨kind, revision, .active, entry.2, (db.findEntityOrigin kind revision entry.2).getD revision⟩

def Database.insertRetired (kind : Kind) (revision : Nat) (candidates : CandidateRows) (db : Database)
    (prior : Text × IntentRow) : Except DatabaseError Database :=
  if prior.1 ∈ candidates.map Prod.fst then .ok db
  else db.insertRow ⟨kind, revision, .retired, prior.2.candidate, prior.2.origin⟩

def Database.loadRevisionRows (db : Database) (kind : Kind) : Option Nat → List (Text × IntentRow)
  | none => []
  | some revision => sortByName ((db.rowsOf kind revision).map fun row => (row.candidate.stableId, row))

def Database.materialiseTable (revision : Nat) (prior : Option Nat)
    (candidates : Kind → CandidateRows) (db : Database)
    (kind : Kind) : Except DatabaseError Database := do
  let inserted ← (sortByName (candidates kind)).foldlM (Database.insertActive kind revision) db
  (db.loadRevisionRows kind prior).foldlM (Database.insertRetired kind revision (candidates kind)) inserted

def Database.materialiseSnapshot (db : Database) (revision : Nat) (prior : Option Nat)
    (candidates : Kind → CandidateRows) : Except DatabaseError Database :=
  Kind.all.foldlM (Database.materialiseTable revision prior candidates) db

def Database.loadActiveSnapshot (db : Database) (contextId : Text) :
    Option (List (Kind × List (Text × Except LoadsError JVal))) :=
  (db.heads contextId).map fun head =>
    Kind.all.map fun kind =>
      (kind, (sortByName (((db.rowsOf kind head.revision).filter fun row => row.lifecycle = .active).map
        fun row => (row.candidate.stableId, row.candidate))).map fun entry =>
          (entry.1, loadsText entry.2.canonicalJson))

abbrev Digest := Bytes → Text

def linkColumns (entity : YMembers) : Option LinkColumns :=
  match get? entity "relation", get? entity "endpoint_a", get? entity "endpoint_b" with
  | some (.str relation), some (.obj endpointA), some (.obj endpointB) => do
      let endpointA ← canonicalEntityJson endpointA
      let endpointB ← canonicalEntityJson endpointB
      return ⟨normaliseRelationType relation, endpointA, endpointB⟩
  | _, _, _ => none

/-- A row of `_prepare_candidate_rows`; `none` is a `TypeError` or `ValueError`. -/
def prepareCandidate (sha256 : Digest) (kind : Kind)
    (entry : Text × YMembers) : Option (Text × Candidate) := do
  let canonicalJson ← canonicalEntityJson entry.2
  let bytes ← utf8Bytes canonicalJson
  if kind = .link then
    let columns ← linkColumns entry.2
    return (entry.1, ⟨entry.1, canonicalJson, sha256 bytes, some columns⟩)
  else return (entry.1, ⟨entry.1, canonicalJson, sha256 bytes, none⟩)

def prepareCandidateRows (sha256 : Digest) (document : YMembers) : Option (Kind → CandidateRows) := do
  let sites ← (normaliseImportEntities document .site).mapM (prepareCandidate sha256 .site)
  let locations ← (normaliseImportEntities document .location).mapM (prepareCandidate sha256 .location)
  let segments ← (normaliseImportEntities document .segment).mapM (prepareCandidate sha256 .segment)
  let assets ← (normaliseImportEntities document .asset).mapM (prepareCandidate sha256 .asset)
  let services ← (normaliseImportEntities document .service).mapM (prepareCandidate sha256 .service)
  let links ← (normaliseImportEntities document .link).mapM (prepareCandidate sha256 .link)
  return fun
    | .site => sites
    | .location => locations
    | .segment => segments
    | .asset => assets
    | .service => services
    | .link => links

structure Reader where
  load : Bytes → YMembers
  sha256 : Digest
  python : PythonText

/-- A call of `import_context` with the document that its bytes determine. -/
structure Call where
  rawBytes : Bytes
  sourcePath : Text
  gitSha : Text
  deriving DecidableEq

section

variable (reader : Reader)

def Call.document (call : Call) : YMembers := reader.load call.rawBytes

def Call.contextId (call : Call) : Text := Netctl.contextId reader.python (call.document reader)

def Call.revision (call : Call) : Revision :=
  ⟨call.contextId reader, reader.sha256 call.rawBytes, call.sourcePath, call.gitSha⟩

inductive Phase where
  | idle
  | starting (call : Call)
  | refusing (call : Call) (base : Option Nat) (errors : List ContextError)
  | recording (call : Call) (base : Option Nat) (candidates : Kind → CandidateRows)
  | activating (call : Call) (revision run : Nat) (candidates : Kind → CandidateRows)
  | failing (call : Call) (run : Nat) (message : Text)
  | returned (call : Call) (status : RunStatus)
  | raised (call : Call)

/-- The next step of a call; `fail` is an error of any statement of its
transaction, or of its commit. -/
inductive Event where
  | call (call : Call)
  | read
  | commit
  | fail (message : Text)
  deriving DecidableEq

def Call.base (call : Call) (db : Database) : Option Nat :=
  (db.heads (call.contextId reader)).map Head.revision

/-- The validation before the first transaction. -/
def startStep (call : Call) (db : Database) : Phase :=
  match validateImportSemantics reader.python (call.document reader) with
  | [] =>
    match prepareCandidateRows reader.sha256 (call.document reader) with
    | some candidates => .recording call (call.base reader db) candidates
    | none =>
      .refusing call (call.base reader db)
        [⟨"canonicalization", reader.python.message (call.document reader)⟩]
  | errors => .refusing call (call.base reader db) errors

/-- The row that `create_context_import_run` inserts. -/
def Call.run (call : Call) (revision base : Option Nat) : ImportRun :=
  ⟨call.contextId reader, revision, base, reader.sha256 call.rawBytes, call.gitSha,
    call.sourcePath, .running, []⟩

/-- `_record_validation_error`. -/
def refuseStep (call : Call) (base : Option Nat) (errors : List ContextError) (db : Database) :
    Database × Phase :=
  if isNonblank call.gitSha then
    ({ db with runs :=
      db.runs ++ [{ call.run reader none base with status := .validationError, errors := errors }]
      },
      .returned call .validationError)
  else (db, .raised call)

def recordRevision (call : Call) (db : Database) : Database × Nat :=
  match db.revisions.findIdx? fun row =>
      row.contextId = call.contextId reader && row.sha256 = reader.sha256 call.rawBytes with
  | some revision => (db, revision)
  | none => ({ db with revisions := db.revisions ++ [call.revision reader] }, db.revisions.length)

def recordStep (call : Call) (base : Option Nat) (candidates : Kind → CandidateRows) (db : Database) :
    Database × Phase :=
  if isNonblank call.gitSha then
    ({ (recordRevision reader call db).1 with
        runs := db.runs ++ [call.run reader (some (recordRevision reader call db).2) base] },
      .activating call (recordRevision reader call db).2 db.runs.length candidates)
  else (db, .raised call)

def activate (call : Call) (revision run : Nat) (candidates : Kind → CandidateRows) (db : Database) :
    Except DatabaseError (Database × RunStatus) :=
  if (db.heads (call.contextId reader)).any fun head => head.revision = revision then
    .ok (db, .successNoopSameContent)
  else if db.hasSnapshot revision then
    .ok (db.setHead (call.contextId reader) revision run, .successActivatedExistingContent)
  else
    match db.materialiseSnapshot revision (call.base reader db) candidates with
    | .ok db => .ok (db.setHead (call.contextId reader) revision run, .successImported)
    | .error e => .error e

/-- The transaction of the snapshot. -/
def activateStep (call : Call) (revision run : Nat) (candidates : Kind → CandidateRows) (db : Database) :
    Database × Phase :=
  match activate reader call revision run candidates db with
  | .error e => (db, .failing call run e.message)
  | .ok (activated, status) =>
    match activated.finishRun run status [] with
    | .error e => (db, .failing call run e.message)
    | .ok finished => (finished, .returned call status)

/-- `_record_database_error`. -/
def failStep (call : Call) (run : Nat) (message : Text) (db : Database) : Database × Phase :=
  match db.finishRun run .dbError [⟨"database", message⟩] with
  | .error _ => (db, .raised call)
  | .ok finished => (finished, .returned call .dbError)

def act (_who : Nat) (event : Event) (db : Database) (phase : Phase) : Database × Phase :=
  match phase, event with
  | .idle, .call call => (db, .starting call)
  | .starting call, .read => (db, startStep reader call db)
  | .starting call, .fail _ => (db, .raised call)
  | .refusing call base errors, .commit => refuseStep reader call base errors db
  | .refusing call _ _, .fail _ => (db, .raised call)
  | .recording call base candidates, .commit => recordStep reader call base candidates db
  | .recording call _ _, .fail _ => (db, .raised call)
  | .activating call revision run candidates, .commit => activateStep reader call revision run candidates db
  | .activating call _ run _, .fail message => (db, .failing call run message)
  | .failing call run message, .commit => failStep call run message db
  | .failing call _ _, .fail _ => (db, .raised call)
  | phase, _ => (db, phase)

end

end WebOvpn.Netctl
