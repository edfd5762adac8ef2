/-
The final name servers of a workstation: its files and its network, what others
do to them, and the steps of `apply`.
-/
import WebOvpn.Lib.Folder
import WebOvpn.Lib.Turns
import WebOvpn.Resolver.Configuration

namespace WebOvpn.Resolver

open Text
open ConfigParser (isChar)

abbrev Attributes := List (Text × Bytes)

structure File where
  node : Nat × Nat
  uid : Nat
  gid : Nat
  mode : Nat
  links : Nat
  isRegular : Bool
  mtime : Nat
  attributes : Attributes
  data : Bytes
  deriving DecidableEq

/-- `file_identity`, as far as a rename keeps it. -/
structure Identity where
  node : Nat × Nat
  uid : Nat
  gid : Nat
  mode : Nat
  links : Nat
  size : Nat
  mtime : Nat
  deriving DecidableEq

def File.identity (file : File) : Identity :=
  ⟨file.node, file.uid, file.gid, file.mode, file.links, file.data.length, file.mtime⟩

structure NmContext where
  device : Text
  version : Nat
  applied : Text
  deriving DecidableEq

inductive DnsCode where
  | requestUnverified
  | identityUnverified
  | backendUnverified
  | ownershipUnverified
  | configurationChanged
  | lookupFailed
  | kerberosFailed
  | activeUnverified
  | networkChanged
  | backupUnverified
  | claimConsumed
  | busy
  | applyFailed
  | rollbackUnverified
  | outcomeUnverified
  | contextUnverified
  | applied
  | raised
  deriving DecidableEq

/-- What commands and the kernel tell. `connection` is the active connection of
the interface, if there is one, and `none` when `nmcli` tells nothing definite.
`refusal` is the code with which commands, checks and records stop now. -/
structure Status where
  machine : Text
  boot : Text
  hostname : Text
  interface : Option Text
  connection : Option (Option Text)
  filename : Option Text
  network : Option Bytes
  nmContext : Option NmContext
  refusal : Option DnsCode

/-- A request; `isNumbered` is that `schema_version` is the integer 1. -/
structure Request where
  isNumbered : Bool
  machineUuid : Text
  hostname : Text
  servers : List Text

structure Public where
  machine : Text
  hostname : Text
  boot : Text
  backend : Backend
  interface : Text
  connection : Option Text
  servers : List Text
  persistentServers : List Text
  configurationSha256 : Text
  networkSha256 : Text
  deriving DecidableEq

/-- `Snapshot`. The persistent file may be absent. -/
structure Snapshot where
  facts : Public
  path : Text
  file : Option File
  records : List (Text × Option File)
  attributes : Attributes
  source : Option Text
  nmContext : Option NmContext
  network : Bytes

def Snapshot.content (snapshot : Snapshot) : Bytes := (snapshot.file.map File.data).getD []

/-- A call of `apply`, with what it runs on. `owner` and `group` are those of the
directories, and `isRoot` tells that files may be given away. -/
structure Job where
  ipAddress : IpAddress
  sha256 : Bytes → Text
  recordsSha256 : List (Text × Option (File × Attributes)) → Text
  snapshotSha256 : Public → Text
  allocate : List (Nat × Nat) → Nat × Nat
  mkstemp : Text → List Text → Text
  slot : Text → List Text → Text
  owner : Nat
  group : Nat
  isRoot : Bool
  request : Request
  expected : Text
  claimSha256 : Text
  isNative : Bool
  isSha256 : Bool
  attempts : Nat
  mtime : Nat

/-- What a call has read last. -/
structure Readings where
  files : Text → Option (Option File)
  attributes : Text → Option Attributes
  network : Option Bytes

/-- `new_info`: the file of the descriptor, which may have no name any more. -/
structure Replacement where
  node : Nat × Nat
  file : Option File

/-- The state of the workstation: its files by path, the files that others have
stored with their paths, what commands tell, the claim directories, and the
claims whose calls got past them. The rest belongs to the call: what it has read
last, its first and its last observation, and its variables. -/
structure World where
  folder : Folder Text File.node
  theirs : List (Text × File)
  status : Status
  claims : List Text
  passed : List Text
  readings : Readings
  before : Option (Snapshot × Readings)
  observed : Option Snapshot
  changed : Bool
  newInfo : Option Replacement

inductive Move where
  | store (path : Text) (file : File)
  | remove (path : Text)
  | status (status : Status)
  | claim (claimSha256 : Text)

abbrev Step (α : Type) := Op (Scene World Move) DnsCode α

def directory (path : Text) : Text := path.reverse.dropWhile (fun c => !isChar '/' c) |>.reverse

def baseName (path : Text) : Text := path.reverse.takeWhile (fun c => !isChar '/' c) |>.reverse

/-- A name that `tempfile` or `uuid4` makes. -/
def isPrivate (path : Text) : Bool :=
  (text ".alt-dns-").isPrefixOf (baseName path) && !(baseName path).tail.any (isChar '.')

def IsSlot (path slot : Text) : Prop := isPrivate slot = true ∧ directory slot = directory path

instance (path slot : Text) : Decidable (IsSlot path slot) := inferInstanceAs (Decidable (_ ∧ _))

/-- What others have stored except what they replace or remove now. -/
def World.without (w : World) (path : Text) : List (Text × File) :=
  w.theirs.filter fun entry => w.folder.get path ≠ some entry.2

/-- What others do. The private names are the calls', and a claim directory that
exists is left. -/
def others (w : World) : Move → World
  | .store path file =>
    if isPrivate path then w
    else if h : w.folder.Takes path file then
      { w with folder := w.folder.store path file h, theirs := (path, file) :: w.without path }
    else w
  | .remove path =>
    if isPrivate path then w else { w with folder := w.folder.remove path, theirs := w.without path }
  | .status status => { w with status := status }
  | .claim claimSha256 =>
    if claimSha256 ∈ w.claims then w
    else { w with claims := claimSha256 :: w.claims, passed := claimSha256 :: w.passed }

def step {α : Type} (f : World → Except DnsCode α × World) : Step α := Op.own others .raised f

/-- A step that changes nothing here: a command, a check, a record in the journal. -/
def pass : Step Unit := step fun w => (w.status.refusal.elim (.ok ()) .error, w)

def require (condition : Bool) (code : DnsCode) : Step Unit := Op.raiseIf (condition = false) code

def runIf (condition : Bool) (m : Step Unit) : Step Unit := if condition then m else pure ()

/-- What a command tells, when it tells anything definite. -/
def ask {α : Type} (code : DnsCode) (f : Status → Option α) : Step α := step fun w =>
  ((f w.status).elim (.error code) .ok, w)

section

variable (job : Job)

/-- What `read` requires. -/
def isReadable (isPrivateFile allowHardlinks : Bool) (file : File) : Bool :=
  file.isRegular && file.uid = job.owner && 1 ≤ file.links && (allowHardlinks || file.links = 1) &&
    file.mode / 2 % 2 = 0 && file.mode / 16 % 2 = 0 && (!isPrivateFile || file.mode % 64 = 0)

def World.saw (w : World) (path : Text) (file : Option File) : World :=
  { w with readings := { w.readings with files := Function.update w.readings.files path (some file) } }

def World.sawAttributes (w : World) (path : Text) (attributes : Attributes) : World :=
  { w with readings :=
    { w.readings with attributes := Function.update w.readings.attributes path (some attributes) } }

def World.sawNetwork (w : World) (network : Bytes) : World :=
  { w with readings := { w.readings with network := some network } }

def readFile (isPrivateFile allowHardlinks : Bool) (path : Text) : Step (Option File) := step fun w =>
  match w.folder.get path with
  | none => (.ok none, w.saw path none)
  | some file =>
    if !isReadable job isPrivateFile allowHardlinks file then (.error .ownershipUnverified, w)
    else if 262144 < file.data.length then (.error .configurationChanged, w)
    else (.ok (some file), w.saw path (some file))

def readPresent (isPrivateFile allowHardlinks : Bool) (path : Text) : Step File := do
  match ← readFile job isPrivateFile allowHardlinks path with
  | some file => return file
  | none => Op.raise .raised

def readAttributes (path : Text) : Step Attributes := step fun w =>
  match w.folder.get path with
  | none => (.error .raised, w)
  | some file => (.ok file.attributes, w.sawAttributes path file.attributes)

/-- `network_snapshot`, in its canonical form. -/
def readNetwork : Step Bytes := step fun w =>
  match w.status.network with
  | none => (.error .backendUnverified, w)
  | some network => (.ok network, w.sawNetwork network)

def isUuid (value : Text) : Bool :=
  (value.splitOn (CodePoint.ofChar '-')).map List.length = [8, 4, 4, 4, 12] &&
    value.all (fun c => c.isLowerHex || isChar '-' c) && value.any fun c => !isChar '0' c && !isChar '-' c

/-- `re.fullmatch('[a-z][a-z0-9-]{0,62}', hostname)`. -/
def isHostname : Text → Bool
  | [] => false
  | c :: rest => c.isLower && rest.length ≤ 62 && rest.all fun d =>
    d.isLower || d.isDigit || isChar '-' d

/-- `re.fullmatch('[A-Za-z0-9][A-Za-z0-9_.-]{0,14}', interface)`. -/
def isInterface : Text → Bool
  | [] => false
  | c :: rest => c.isAlnum && rest.length ≤ 14 && rest.all fun d =>
    d.isAlnum || isChar '_' d || isChar '.' d || isChar '-' d

def connectionsDirectory : Text := "/etc/NetworkManager/system-connections/"

/-- `re.fullmatch('/etc/NetworkManager/system-connections/[A-Za-z0-9_. -]+[.]nmconnection',
filename)`. -/
def isKeyfilePath (filename : Text) : Bool :=
  connectionsDirectory.isPrefixOf filename && (text ".nmconnection").isSuffixOf filename &&
    connectionsDirectory.length + 13 < filename.length &&
    (filename.drop connectionsDirectory.length).all fun c =>
      c.isAlnum || isChar '_' c || isChar '.' c || isChar ' ' c || isChar '-' c

def interfacePath (interface : Text) (name : String) : Text :=
  text "/etc/net/ifaces/" ++ interface ++ text "/" ++ text name

def sourcePath (interface : Text) : Text := text "/run/resolvconf/interfaces/" ++ interface

def activePath : Text := "/etc/resolv.conf"

/-- What an observation finds of the backend: the path with its file and its
servers, the source and the records. -/
structure Persistent where
  backend : Backend
  path : Text
  file : Option File
  servers : List Text
  source : Option Text
  records : List (Text × Option File)

def definite {α : Type} (value : Option α) (code : DnsCode) : Step α :=
  Op.lift (value.elim (.error code) .ok)

def observeKeyfile (interface connection filename : Text) : Step Persistent := do
  require (isKeyfilePath filename) .raised
  let file ← readPresent job true false filename
  let sections ← definite (keyfile file.data) .backendUnverified
  let uuid ← definite (sections.get? parser "connection" "uuid") .raised
  require (uuid = connection &&
    ((sections.get? parser "connection" "interface-name").getD interface) = interface) .backendUnverified
  let servers ← definite (keyfileServers job.ipAddress sections) .raised
  return ⟨.nmKeyfile, filename, some file, servers, none, [(filename, some file)]⟩

structure OwnedRollback where
  original : Snapshot
  replacement : Bytes
  replacementInfo : Replacement

/-- The only registered source of an interface, or the one that a failed
activation has left. -/
def observeSource (owned : Option OwnedRollback) (path source : Text)
    (file : Option File) : Step File := do
  let found ← readPresent job false false source
  if found.data = (file.map File.data).getD [] then return found
  else
    match owned with
    | none => Op.raise .backendUnverified
    | some owned => do
        let attributes ← readAttributes path
        require (owned.original.facts.backend = .etcnet && owned.original.path = path &&
          owned.original.source = some source && (file.map File.data).getD [] = owned.replacement &&
          file.map File.identity = owned.replacementInfo.file.map File.identity &&
          attributes = owned.original.attributes &&
          ((owned.original.records.lookup source).join).any fun prior =>
            found.data = prior.data && found.identity = prior.identity) .configurationChanged
        return found

def readServers (file : Option File) : Step (List Text) :=
  match file with
  | none => pure []
  | some file => definite (resolvers job.ipAddress file.data) .backendUnverified

def observeInterface (owned : Option OwnedRollback) (interface : Text)
    (connection : Option Text) : Step Persistent := do
  let options ← readPresent job false false (interfacePath interface "options")
  let settings ← definite (shellOptions options.data) .backendUnverified
  require (((settings.lookup (text "TYPE")).any fun kind =>
    kind ∈ [text "eth", text "vlan", text "bond", text "bri"])) .backendUnverified
  require (lower ((settings.lookup (text "NM_CONTROLLED")).getD []) =
      (if connection.isSome then text "yes" else text "no") &&
    lower ((settings.lookup (text "SYSTEMD_CONTROLLED")).getD (text "no")) = text "no") .backendUnverified
  let path := interfacePath interface "resolv.conf"
  let file ← readFile job false false path
  require (file.isSome || connection.isSome && ((settings.lookup (text "BOOTPROTO")).any fun kind =>
    kind ∈ [text "dhcp", text "dhcp4"])) .backendUnverified
  let servers ← readServers job file
  match connection with
  | some _ => return ⟨.nmEtcnet, path, file, servers, none,
    [(interfacePath interface "options", some options), (path, file)]⟩
  | none => do
      let source := sourcePath interface
      let found ← observeSource job owned path source file
      return ⟨.etcnet, path, file, servers, some source,
        [(interfacePath interface "options", some options), (source, some found), (path, file)]⟩

def observePersistent (owned : Option OwnedRollback) (interface : Text) (connection : Option Text)
    (filename : Text) : Step Persistent :=
  match connection with
  | some uuid =>
    if filename.isEmpty ∨ filename = "--" then observeInterface job owned interface connection
    else observeKeyfile job interface uuid filename
  | none => observeInterface job owned interface none

def withAttributes (entry : Text × Option File) : Step (Text × Option (File × Attributes)) :=
  match entry with
  | (path, none) => pure (path, none)
  | (path, some file) => do
      let attributes ← readAttributes path
      return (path, some (file, attributes))

/-- The file of the connection as `nmcli` tells it. -/
def askFilename (connection : Option Text) : Step Text :=
  match connection with
  | some _ => ask .backendUnverified Status.filename
  | none => pure []

def fileAttributes (persistent : Persistent) : Step Attributes :=
  match persistent.file with
  | some _ => readAttributes persistent.path
  | none => pure []

/-- `_observe` without its last handler. -/
def observeParts (owned : Option OwnedRollback) : Step Snapshot := do
  require (job.request.isNumbered && isUuid job.request.machineUuid && isHostname job.request.hostname) .raised
  require (validate job.ipAddress job.request.servers = some job.request.servers) .raised
  let machine ← ask .raised fun status => some status.machine
  let boot ← ask .raised fun status => some status.boot
  let hostname ← ask .backendUnverified fun status => some status.hostname
  require (machine = job.request.machineUuid && hostname = job.request.hostname && isUuid boot)
    .identityUnverified
  let interface ← ask .backendUnverified Status.interface
  require (isInterface interface) .raised
  let connection ← ask .backendUnverified Status.connection
  require (connection.all isUuid) .raised
  let filename ← askFilename connection
  let persistent ← observePersistent job owned interface connection filename
  let active ← readPresent job false true activePath
  let servers ← definite (resolvers job.ipAddress active.data) .backendUnverified
  let records ← Op.forEach withAttributes persistent.records
  let network ← readNetwork
  let attributes ← fileAttributes persistent
  return {
    facts := {
      machine := machine
      hostname := job.request.hostname
      boot := boot
      backend := persistent.backend
      interface := interface
      connection := connection
      servers := servers
      persistentServers := persistent.servers
      configurationSha256 := job.recordsSha256 records
      networkSha256 := job.sha256 network }
    path := persistent.path
    file := persistent.file
    records := persistent.records
    attributes := attributes
    source := persistent.source
    nmContext := none
    network := network }

/-- `_observe`: an exception that is no `DnsError` becomes one. -/
def observeWith (owned : Option OwnedRollback) : Step Snapshot :=
  Op.onError (observeParts job owned) fun code => Op.raise (if code = .raised then .backendUnverified else code)

/-- `nm_reapply_context` of a backend that has one. -/
def observeContext (snapshot : Snapshot) : Step Snapshot := do
  if snapshot.facts.backend = .etcnet then return snapshot
  else do
    let context ← ask .backendUnverified Status.nmContext
    return { snapshot with nmContext := some context }

/-- `observe`; what it returns is the last observation. -/
def observe : Step Snapshot := do
  let snapshot ← observeWith job none
  let snapshot ← observeContext snapshot
  Op.assign fun w => { w with observed := some snapshot }
  return snapshot

/-- `tempfile.mkstemp` in the directory of the path. -/
def makeSlot (path : Text) : Step Text := step fun w =>
  let slot := job.mkstemp path (w.folder.entries.map Prod.fst)
  let file : File :=
    ⟨job.allocate (w.folder.files.map File.node), job.owner, job.owner, 0o600, 1, true, 0, [], []⟩
  if h : w.folder.get slot = none ∧ IsSlot path slot ∧ w.folder.Takes slot file then
    (.ok slot, { w with folder := w.folder.store slot file h.2.2 })
  else (.error .raised, w)

def changeSlot (slot : Text) (change : File → File) : Step Unit := step fun w =>
  match w.folder.get slot with
  | none => (.error .raised, w)
  | some file =>
    if h : w.folder.Takes slot
      (change file) then (.ok (), { w with folder := w.folder.store slot (change file) h })
    else (.error .raised, w)

def slotNode (slot : Text) : Step (Nat × Nat) := step fun w =>
  ((w.folder.get slot).elim (.error .raised) fun file => .ok file.node, w)

/-- `os.fstat` of the descriptor. -/
def statFile (node : Nat × Nat) : Step Replacement := step fun w =>
  (.ok ⟨node, w.folder.files.find? fun file => file.node = node⟩, w)

def fillSlot (slot : Text) (mode uid gid mtime : Nat) (attributes : Attributes)
    (data : Bytes) : Step Unit := do
  changeSlot slot fun file => { file with mode := mode }
  runIf job.isRoot (changeSlot slot fun file => { file with uid := uid, gid := gid })
  changeSlot slot fun file => { file with attributes := attributes }
  let _ ← Op.forEach
    (fun byte => changeSlot slot fun file =>
    { file with data := file.data ++ [byte], mtime := mtime }) data
  pass

/-- `renameat2` with `RENAME_EXCHANGE`. -/
def exchangeNames (slot path : Text) : Step Unit := step fun w =>
  if (w.folder.get slot).isSome && (w.folder.get path).isSome then
    (.ok (), { w with folder := w.folder.exchange slot path })
  else (.error .applyFailed, w)

/-- `renameat2` with `RENAME_NOREPLACE`. -/
def renameFree (old new : Text) (code : DnsCode) : Step Unit := step fun w =>
  if (w.folder.get old).isSome && (w.folder.get new).isNone then
    (.ok (), { w with folder := w.folder.exchange old new })
  else (.error code, w)

def exchange (path : Text) (old new : Bytes) (info : Replacement) (attributes : Attributes)
    (mtime : Nat) :
    Step Replacement := do
  let current ← readPresent job false false path
  let currentAttributes ← readAttributes path
  let known ← definite info.file .configurationChanged
  require (current.data = old && currentAttributes = attributes &&
    current.identity = known.identity) .configurationChanged
  let slot ← makeSlot job path
  let node ← slotNode slot
  fillSlot job slot known.mode known.uid known.gid mtime attributes new
  pass
  exchangeNames slot path
  let moved ← readPresent job false false slot
  let movedAttributes ← readAttributes slot
  require (moved.data = old && movedAttributes = attributes && moved.identity = known.identity)
    .configurationChanged
  pass
  statFile node

def publishAbsent (path : Text) (data : Bytes) (mtime : Nat) : Step Replacement := do
  pass
  let slot ← makeSlot job path
  let node ← slotNode slot
  fillSlot job slot 0o644 job.owner job.group mtime [] data
  pass
  renameFree slot path .configurationChanged
  pass
  statFile node

/-- The free name of `uuid.uuid4` beside a path. -/
def nameSlot (path : Text) : Step Text := step fun w =>
  let slot := job.slot path (w.folder.entries.map Prod.fst)
  (if IsSlot path slot then .ok slot else .error .raised, w)

/-- The file of a racing editor is put back, unless the path is taken again. -/
def undoRemoval (slot path : Text) : Step Unit := do
  Op.onError (renameFree slot path .raised) fun _ => pure ()
  Op.raise .configurationChanged

def restoreAbsent (path : Text) (data : Bytes) (info : Replacement) : Step Unit := do
  let current ← readPresent job false false path
  let currentAttributes ← readAttributes path
  let known ← definite info.file .configurationChanged
  require (current.data = data && current.identity = known.identity && currentAttributes.isEmpty)
    .configurationChanged
  let slot ← nameSlot job path
  pass
  renameFree path slot .configurationChanged
  let moved ← readPresent job false false slot
  let movedAttributes ← readAttributes slot
  if moved.data = data && movedAttributes.isEmpty && moved.identity = known.identity then pass
  else undoRemoval slot path

def rollbackContext : Step Unit := pass

def reapplySettings (rollback : Bool) : Step Unit := if rollback then rollbackContext else pass

/-- `activate`: commands, after which the system may take other servers. -/
def activate (before : Snapshot) (rollback : Bool) : Step Unit := do
  if before.facts.backend = .etcnet then pass
  else do
    reapplySettings rollback
    pass
    pass

/-- The part of `same_connection` that concerns a file with options. -/
def isSameOptions (before after : Snapshot) : Bool :=
  before.records.all fun entry =>
    !(text "/options").isSuffixOf entry.1 ||
      match entry.2, (after.records.lookup entry.1).join with
      | some file, some found =>
        found.data = file.data && found.node = file.node && found.mode = file.mode && found.uid = file.uid &&
          found.gid = file.gid
      | _, _ => false

def sameConnection (before after : Snapshot) (checkNetwork : Bool) : Step Unit := do
  require (after.facts.machine = before.facts.machine && after.facts.hostname = before.facts.hostname &&
    after.facts.boot = before.facts.boot && after.facts.backend = before.facts.backend &&
    after.facts.interface = before.facts.interface && after.facts.connection = before.facts.connection &&
    (!checkNetwork || after.facts.networkSha256 = before.facts.networkSha256)) .networkChanged
  require (after.path = before.path && after.source = before.source) .configurationChanged
  require (before.records.all (fun entry => after.records.any fun found => found.1 = entry.1) &&
    after.records.all fun entry => before.records.any fun found => found.1 = entry.1) .configurationChanged
  require (isSameOptions before after) .configurationChanged

def tryObserve : Step (Option Snapshot) :=
  Op.onError (do let snapshot ← observe job; return some snapshot)
    fun code => if code = .backendUnverified then pure none else Op.raise code

/-- The variables of `observe_settled`; `value` is the observation of this round. -/
structure Progress where
  stable : Nat
  networkPending : Bool
  value : Option Snapshot

/-- Whether an observation is what the loop waits for. -/
def isMatched (before : Snapshot) (servers persistent : List Text) (value : Snapshot) : Bool :=
  value.facts.networkSha256 = before.facts.networkSha256 && value.facts.servers = servers &&
    value.facts.persistentServers = persistent

/-- A round of the loop of `observe_settled`. -/
def settleRound (before : Snapshot) (servers persistent : List Text)
    (progress : Progress) : Step Progress := do
  match ← tryObserve job with
  | none => return { progress with stable := 0, value := none }
  | some value => do
      sameConnection before value false
      return {
        stable := if isMatched before servers persistent value then progress.stable + 1 else 0
        networkPending := value.facts.networkSha256 ≠ before.facts.networkSha256
        value := some value }

/-- What a round has found, when it is the second one in a row. -/
def Progress.converged (progress : Progress) : Option Snapshot :=
  if progress.stable = 2 then progress.value else none

/-- The loop of `observe_settled`, which may go round so often after the first
time before its deadline. -/
def settle (before : Snapshot) (servers persistent : List Text) : Nat → Progress → Step Snapshot
  | 0, progress => do
      let progress ← settleRound job before servers persistent progress
      match progress.converged with
      | some value => return value
      | none => Op.raise (if progress.networkPending then .networkChanged else .activeUnverified)
  | attempts + 1, progress => do
      let progress ← settleRound job before servers persistent progress
      match progress.converged with
      | some value => return value
      | none => do
          pass
          settle before servers persistent attempts progress

/-- `observe_settled`; its record in the journal comes last, whatever the outcome. -/
def observeSettled (before : Snapshot) (servers persistent : List Text) : Step Snapshot := do
  let value ← Op.onError (settle job before servers persistent job.attempts ⟨0, false, none⟩) fun code => do
    pass
    Op.raise code
  pass
  return value

inductive ResultStatus where
  | appliedVerified
  | rolledBackVerified
  | outcomeUnverified
  deriving DecidableEq

structure Result where
  status : ResultStatus
  changed : Option Bool
  code : DnsCode
  deriving DecidableEq

/-- The code of an exception that may be none of `CODES`. -/
def DnsCode.known : DnsCode → DnsCode
  | .raised => .outcomeUnverified
  | code => code

/-- `directory.exists()` has to be false. -/
def requireUnclaimed : Step Unit := step fun w =>
  (if job.claimSha256 ∈ w.claims then .error .claimConsumed else .ok (), w)

/-- `directory.mkdir`, which fails when the directory exists. -/
def makeClaim : Step Unit := step fun w =>
  if job.claimSha256 ∈ w.claims then (.error .raised, w)
    else (.ok (), { w with claims := job.claimSha256 :: w.claims })

/-- The first observation is kept with what was read for it. -/
def observeBefore : Step Snapshot := do
  let before ← observe job
  Op.assign fun w => { w with before := some (before, w.readings) }
  return before

/-- `new_info` of a file that stays as it is. -/
def Snapshot.info (snapshot : Snapshot) : Option Replacement :=
  snapshot.file.map fun file => ⟨file.node, some file⟩

/-- The new file is put at the path; the name `new_info` is bound afterwards. -/
def replaceFile (before : Snapshot) (new : Bytes) : Step Replacement :=
  match before.info with
  | some info => exchange job before.path before.content new info before.attributes job.mtime
  | none => publishAbsent job before.path new job.mtime

/-- What the observation afterwards has to be. -/
def isApplied (before after : Snapshot) (new : Bytes) (info : Option Replacement) : Bool :=
  after.content = new && after.attributes = before.attributes &&
    decide (after.file.map File.node = info.map Replacement.node)

/-- The block of `apply` that changes the workstation. -/
def change (before : Snapshot) (new : Bytes) : Step Result := do
  Op.assign fun w => { w with
    changed := new ≠ before.content || before.facts.servers ≠ job.request.servers
    newInfo := if new = before.content then before.info else none }
  runIf (new ≠ before.content) do
    let info ← replaceFile job before new
    Op.assign fun w => { w with newInfo := some info }
  let changed ← Op.view fun w => .ok w.changed
  runIf changed (activate before false)
  let after ← observeSettled job before job.request.servers job.request.servers
  sameConnection before after true
  let info ← Op.view fun w => .ok w.newInfo
  require (isApplied before after new info) .configurationChanged
  require (after.facts.servers = job.request.servers && after.facts.persistentServers = job.request.servers)
    .activeUnverified
  pass
  return ⟨.appliedVerified, some changed, .applied⟩

def restoreFile (before : Snapshot) (new : Bytes) (info : Replacement) : Step Unit :=
  match before.file with
  | some _ => do
      let _ ← exchange job before.path new before.content info before.attributes job.mtime
      return ()
  | none => restoreAbsent job before.path new info

/-- What a rollback does when something was changed. `new_info` may be unbound. -/
def undo (before : Snapshot) (new : Bytes) : Step Unit := do
  runIf before.nmContext.isSome rollbackContext
  let info ← Op.view fun w => w.newInfo.elim (.error .raised) .ok
  let current ← observeWith job (some ⟨before, new, info⟩)
  sameConnection before current true
  require (current.content = new && current.attributes = before.attributes) .raised
  runIf (new ≠ before.content) (restoreFile job before new info)
  activate before true

/-- What the observation after a rollback has to be. -/
def isRestored (before restored : Snapshot) : Bool :=
  restored.file.isSome = before.file.isSome && restored.content = before.content &&
    restored.facts.servers = before.facts.servers && restored.facts.networkSha256 = before.facts.networkSha256

/-- The block of `apply` that takes the change back. -/
def rollback (before : Snapshot) (new : Bytes) (code : DnsCode) : Step Result := do
  let changed ← Op.view fun w => .ok w.changed
  runIf changed (undo job before new)
  let restored ← observeSettled job before before.facts.servers before.facts.persistentServers
  require (isRestored before restored) .raised
  pass
  return ⟨.rolledBackVerified, some false, code.known⟩

def changeOrRollback (before : Snapshot) (new : Bytes) : Step Result :=
  Op.onError (change job before new) fun code => do
    let result ← Op.onError (rollback job before new code) fun _ =>
      pure ⟨.outcomeUnverified, none, .rollbackUnverified⟩
    pass
    return result

def writeRecords : Step Unit := do
  let _ ← Op.forEach (fun _ => pass) [text "invocation.json", "resolver.before", "manifest.json",
    "network.before.json"]
  return ()

def applyLocked (before : Snapshot) : Step Result := do
  requireUnclaimed job
  makeClaim job
  Op.assign fun w => { w with passed := job.claimSha256 :: w.passed }
  writeRecords
  pass
  let fresh ← observe job
  require (fresh.facts = before.facts && fresh.nmContext = before.nmContext) .configurationChanged
  let new ← definite
    (rewrite job.ipAddress before.facts.backend (before.file.map File.data) job.request.servers)
    .raised
  let result ← changeOrRollback job before new
  pass
  return result

def apply : Step Result :=
  Op.onError (do
    require job.isNative .contextUnverified
    require job.isSha256 .requestUnverified
    requireUnclaimed job
    let before ← observeBefore job
    require (job.snapshotSha256 before.facts = job.expected) .configurationChanged
    pass
    applyLocked job before) fun code => do
    let changed ← Op.view fun w => .ok w.changed
    return ⟨.outcomeUnverified, if changed then none else some false, code.known⟩

end

end WebOvpn.Resolver
