/-
The repair of an empty wallet name: the sections of the configuration, the two folders of the
employee, what the
employee's programs do to them, and the steps of `apply_wallet_files`.
-/
import WebOvpn.Lib.ConfigParser
import WebOvpn.Lib.Folder
import WebOvpn.Lib.JsonText
import WebOvpn.Lib.Turns

namespace WebOvpn

namespace Wallet

open Text
open ConfigParser (isChar Sections)

/-- `configparser.ConfigParser(interpolation=None, strict=True, default_section="\0")`
with `str` for `optionxform`. -/
def parser : ConfigParser.Setup := ⟨id, [0]⟩

/-- `_configuration` of a file that exists. `none` is an exception. -/
def configuration (data : Bytes) : Option Sections :=
  if data.contains 0 then none else (decode data).bind (ConfigParser.parseSections parser)

def isConfirmed (sections : Sections) : Bool :=
  sections.get? parser "Wallet" "Default Wallet" = some [] &&
    sections.get? parser "Wallet" "First Use" = some (text "false")

def isWalletName (name : Text) : Bool :=
  match name with
  | [] => false
  | first :: rest => first.isAlnum && rest.length ≤ 63 && rest.all fun c =>
    c.isAlnum || isChar '.' c || isChar '_' c || isChar '-' c

/-- `\[(.+)\]\s*` on a stripped line. -/
def wholeHeader (line : Text) : Option Text :=
  match line with
  | [] => none
  | c :: rest =>
    if isChar '[' c then
      match rest.reverse with
      | d :: header => if isChar ']' d && !header.isEmpty then some header.reverse else none
      | [] => none
    else none

/-- The lines with the default wallet set, from a section on, and how many were changed. -/
def repairLines (name : Text) : Option Text → List Text → List Text × Nat
  | _, [] => ([], 0)
  | active, line :: rest =>
    let core := line.rdropWhile fun c => isChar '\r' c || isChar '\n' c
    let ending := line.drop core.length
    let active := (wholeHeader (strip core)).or active
    let (lines, changed) := repairLines name active rest
    match splitAtFirst (isChar '=') core with
    | some (key, _) =>
      if active = some (text "Wallet") ∧ strip key = "Default Wallet" then
        ((key ++ text "=" ++ name ++ ending) :: lines, changed + 1)
      else (line :: lines, changed)
    | none => (line :: lines, changed)

/-- `repair_configuration`. `none` is `kwallet_configuration_unverified`. -/
def repairConfiguration (data : Bytes) (name : Text) : Option Bytes := do
  if !isWalletName name then none
  let sections ← configuration data
  if !isConfirmed sections then none
  let content ← decode data
  let (lines, changed) := repairLines name none (keptLines content)
  let result ← utf8Bytes lines.flatten
  let repaired ← configuration result
  if changed = 1 ∧ repaired.get? parser "Wallet" "Default Wallet" = some name then some result else none

open Text

structure File where
  node : Nat × Nat
  uid : Nat
  gid : Nat
  mode : Nat
  links : Nat
  isRegular : Bool
  data : Bytes
  deriving DecidableEq

/-- `(st_dev, st_ino, st_uid, st_gid, mode, st_nlink, st_size)`. -/
def File.identity (file : File) : (Nat × Nat) × Nat × Nat × Nat × Nat × Nat :=
  (file.node, file.uid, file.gid, file.mode, file.links, file.data.length)

abbrev Files := SharedFolder Text File.node

/-- The session of the employee, as far as files are concerned. -/
structure SessionContext where
  uid : Nat
  gid : Nat

/-- `WalletEvidence` with the disposition `repair`, or what is found again. -/
structure WalletEvidence where
  configuration : Option File
  files : List (Text × File)

/-- The codes of `WalletError` that leave `apply_wallet_files`; `raised` is any
other exception, which does not. -/
inductive WalletCode where
  | writerIdentityUnverified
  | transitionUnverified
  | rollbackVerified
  | rollbackUnverified
  | raised
  deriving DecidableEq

/-- A call of `apply_wallet_files`, with the digest and the file system that it
runs on. -/
structure Job where
  sha256 : Bytes → Text
  allocate : List (Nat × Nat) → Nat × Nat
  context : SessionContext
  walletName : Text
  evidence : WalletEvidence
  operationSha256 : Text
  isWriter : Bool

/-- The two folders, what has been `kwalletrc` by others, the variables of the
call with the file that it created, and what it read last of every name. -/
structure World where
  config : Files
  wallet : Files
  versions : List File
  opened : Bool
  created : Bool
  ours : Option File
  tempState : Option File
  seenConfig : Text → Option (Option File)
  seenWallet : Text → Option (Option File)

/-- A program of the employee edits, creates or replaces a file. -/
inductive Move where
  | config (name : Text) (file : File)
  | wallet (name : Text) (file : File)

def kwalletrc : Text := "kwalletrc"

def sources : List Text := [".kwl", ".salt", "_attributes.json"]

abbrev Step (α : Type) := Op (Scene World Move) WalletCode α

section

variable (job : Job)

def Job.temporary : Text := text ".alt-wallet-repair-" ++ job.operationSha256

def Job.pairs : List (Text × Text) :=
  [(".kwl", job.walletName ++ ".kwl"), (".salt", job.walletName ++ ".salt"),
    ("_attributes.json", job.walletName ++ "_attributes.json")]

def Job.file? (name : Text) : Option File := job.evidence.files.lookup name

def others (w : World) : Move → World
  | .config name file =>
    if name = job.temporary then w
    else { w with
      config := w.config.stored name file
      versions := if name = kwalletrc ∧ w.config.folder.Takes name file then file :: w.versions else w.versions }
  | .wallet name file => { w with wallet := w.wallet.stored name file }

def step {α : Type} (f : World → Except WalletCode α × World) : Step α := Op.own (others job) .raised f

/-- A step that changes no file: `quiet`, a check of a directory, `os.fsync`. -/
def pass : Step Unit := step job fun w => (.ok (), w)

def isOwned (limit : Nat) (file : File) : Bool :=
  file.isRegular && file.uid = job.context.uid && file.gid = job.context.gid &&
    (file.mode = 0o400 || file.mode = 0o600) && file.links = 1 && file.data.length ≤ limit

/-- What `_file` makes of what it finds. -/
def fileState (limit : Nat) : Option File → Except WalletCode (Option File)
  | none => .ok none
  | some file => if isOwned job limit file then .ok (some file) else .error .raised

def World.sawConfig (w : World) (name : Text) (file : Option File) : World :=
  { w with seenConfig := Function.update w.seenConfig name (some file) }

def World.sawWallet (w : World) (name : Text) (file : Option File) : World :=
  { w with seenWallet := Function.update w.seenWallet name (some file) }

/-- `_file` in the folder of the configuration. -/
def readConfig (limit : Nat) (name : Text) : Step (Option File) := step job fun w =>
  match fileState job limit (w.config.folder.get name) with
  | .ok file => (.ok file, w.sawConfig name file)
  | .error e => (.error e, w)

def readWallet (limit : Nat) (name : Text) : Step (Option File) := step job fun w =>
  match fileState job limit (w.wallet.folder.get name) with
  | .ok file => (.ok file, w.sawWallet name file)
  | .error e => (.error e, w)

def fileLimit : Nat := 67108864

def configurationLimit : Nat := 131072

def sameFile : Option File → Option File → Bool
  | some actual, some expected =>
    job.sha256 actual.data = job.sha256 expected.data && actual.identity = expected.identity
  | _, _ => false

/-- `_rename_at2` with `RENAME_EXCHANGE` in the folder of the configuration. -/
def exchangeConfig : Step Unit := step job fun w =>
  if (w.config.folder.get job.temporary).isSome && (w.config.folder.get kwalletrc).isSome then
    (.ok (), { w with config := { w.config with folder := w.config.folder.exchange job.temporary kwalletrc } })
  else (.error .raised, w)

def renameWallet (old new : Text) : Step Unit := step job fun w =>
  if (w.wallet.folder.get old).isSome && (w.wallet.folder.get new).isNone then
    (.ok (), { w with wallet := { w.wallet with folder := w.wallet.folder.exchange old new } })
  else (.error .raised, w)

/-- The file that `os.open` creates. -/
def Job.newFile (w : World) (mode : Nat) : File :=
  ⟨job.allocate (w.config.folder.files.map File.node), job.context.uid, job.context.gid, mode, 1, true, []⟩

/-- `os.open` with `O_CREAT | O_EXCL`, and `created = True`. -/
def createTemporary (mode : Nat) : Step Unit := step job fun w =>
  if h : w.config.folder.get job.temporary = none ∧ w.config.folder.Takes job.temporary (job.newFile w mode) then
    (.ok (), { w with
      config := { w.config with folder := w.config.folder.store job.temporary (job.newFile w mode) h.2 }
      created := true
      ours := some (job.newFile w mode) })
  else (.error .raised, w)

def changeTemporary (change : File → File) : Step Unit := step job fun w =>
  match w.config.folder.get job.temporary with
  | none => (.error .raised, w)
  | some file =>
    if h : w.config.folder.Takes job.temporary (change file) then
      (.ok (), { w with
        config := { w.config with folder := w.config.folder.store job.temporary (change file) h }
        ours := some (change file) })
    else (.error .raised, w)

def unlinkTemporary : Step Unit := step job fun w =>
  if (w.config.folder.get job.temporary).isSome then
    (.ok (), { w with config := { w.config with folder := w.config.folder.remove job.temporary } })
  else (.error .raised, w)

def require (condition : Bool) : Step Unit := Op.raiseIf (condition = false) .raised

def existsInWallet (name : Text) : Step Bool :=
  step job fun w => (.ok (w.wallet.folder.get name).isSome, w)

/-- The names of `directory.iterdir()`. -/
def listWallet : Step (List Text) := step job fun w => (.ok (w.wallet.folder.entries.map Prod.fst), w)

/-- `lstat` gives the identity that was read. -/
def checkWallet (name : Text) (file : File) : Step Unit := step job fun w =>
  (if w.wallet.folder.get name = some file then .ok () else .error .raised, w)

def checkConfig (name : Text) (file : Option File) : Step Unit := step job fun w =>
  (if w.config.folder.get name = file then .ok () else .error .raised, w)

def inspectWallet : Step (Option WalletEvidence) := do
  require (isWalletName job.walletName)
  pass job
  let configuration ← readConfig job configurationLimit kwalletrc
  let sections ← Op.lift (match configuration with
    | none => .ok none
    | some file => (Wallet.configuration file.data).elim (.error .raised) fun sections => .ok (some sections))
  pass job
  let present ← Op.forEach (existsInWallet job) sources
  if !present.any id then
    let targets ← Op.forEach (fun pair => existsInWallet job pair.2) job.pairs
    require (!(sections.any isConfirmed && targets.any id))
    return none
  else
    require (present.all id && sections.any isConfirmed)
    pass job
    let targets ← Op.forEach (fun pair => existsInWallet job pair.2) job.pairs
    require (!targets.any id)
    let names ← listWallet job
    require (names.length ≤ 1024)
    let files ← Op.forEach (fun name => do
      match ← readWallet job fileLimit name with
      | some file => return (name, file)
      | none => Op.raise .raised) (names.insertionSort fun a b => Text.le a b = true)
    require ((files.map fun entry => entry.2.data.length).sum ≤ 268435456)
    let again ← listWallet job
    require (again.all (fun name => names.contains name) && names.all fun name => again.contains name)
    let _ ← Op.forEach (fun entry => checkWallet job entry.1 entry.2) files
    checkConfig job kwalletrc configuration
    require (configuration.any fun file => (repairConfiguration file.data job.walletName).isSome)
    return some ⟨configuration, files⟩

def surveyPair (pair : Text × Text) : Step (Option (Text × Text)) := do
  match ← readWallet job fileLimit pair.1 with
  | some original =>
    require (sameFile job (some original) (job.file? pair.1))
    return none
  | none =>
    let target ← readWallet job fileLimit pair.2
    require (sameFile job target (job.file? pair.1))
    return some pair

def exchangeBack (tempState saved : Option File) : Step Unit := do
  pass job
  require (sameFile job (← readConfig job fileLimit kwalletrc) tempState)
  require (sameFile job (← readConfig job fileLimit job.temporary) saved)
  exchangeConfig job
  require (sameFile job (← readConfig job fileLimit kwalletrc) saved)
  require (sameFile job (← readConfig job fileLimit job.temporary) tempState)
  pass job

def restoreConfig (exchanged : Bool) (tempState saved : Option File) : Step Unit :=
  if exchanged then exchangeBack job tempState saved else pure ()

def restorePair (pair : Text × Text) : Step Unit := do
  pass job
  require (← readWallet job fileLimit pair.1).isNone
  require (sameFile job (← readWallet job fileLimit pair.2) (job.file? pair.1))
  renameWallet job pair.2 pair.1
  pass job

def checkOld (pair : Text × Text) : Step Unit := do
  require (sameFile job (← readWallet job fileLimit pair.1) (job.file? pair.1))

def dropTemporary (tempState : Option File) : Step Unit := do
  require (sameFile job (← readConfig job fileLimit job.temporary) tempState)
  unlinkTemporary job
  pass job

def readSaved (created : Bool) : Step (Option File) :=
  if created then readConfig job fileLimit job.temporary else pure none

def rollback : Step Unit := do
  pass job
  let moves ← Op.forEach (surveyPair job) job.pairs
  let created ← Op.view fun w => .ok w.created
  let tempState ← Op.view fun w => .ok w.tempState
  let saved ← readSaved job created
  let current ← readConfig job fileLimit kwalletrc
  let exchanged := created && sameFile job current tempState
  require (!(exchanged && saved.isNone))
  require (!(created && !exchanged && !sameFile job saved tempState))
  restoreConfig job exchanged tempState saved
  let _ ← Op.forEach (restorePair job) moves.reduceOption.reverse
  let _ ← Op.forEach (checkOld job) job.pairs
  if created then dropTemporary job tempState

/-- `temp_state = read(config, temporary)`, which must have the data. -/
def captureTemporary (desired : Bytes) : Step Unit := do
  let tempState ← readConfig job fileLimit job.temporary
  Op.assign fun w => { w with tempState := tempState }
  require (tempState.any fun file => file.data = desired)

def movePair (pair : Text × Text) : Step Unit := do
  pass job
  require (sameFile job (← readWallet job fileLimit pair.1) (job.file? pair.1))
  renameWallet job pair.1 pair.2
  pass job
  require (sameFile job (← readWallet job fileLimit pair.2) (job.file? pair.1))

def checkPair (pair : Text × Text) : Step Unit := do
  require (← readWallet job fileLimit pair.1).isNone
  require (sameFile job (← readWallet job fileLimit pair.2) (job.file? pair.1))

def isFresh (fresh : WalletEvidence) : Bool :=
  fresh.files.all (fun entry => (job.file? entry.1).isSome) &&
    job.evidence.files.all (fun entry => (fresh.files.lookup entry.1).isSome) &&
    sameFile job fresh.configuration job.evidence.configuration &&
    job.evidence.files.all fun entry => sameFile job (fresh.files.lookup entry.1) (some entry.2)

def writeTemporary (desired : Bytes) : Step Unit := do
  let mode := (job.evidence.configuration.map File.mode).getD 0
  createTemporary job mode
  changeTemporary job fun file => { file with mode := mode }
  let _ ← Op.forEach
    (fun byte => changeTemporary job fun file => { file with data := file.data ++ [byte] }) desired
  pass job

/-- What `apply_wallet_files` tries. -/
def transition : Step Unit := do
  pass job
  let fresh ← inspectWallet job
  require (fresh.any (isFresh job))
  let _ ← Op.forEach (fun _ => pass job) (List.range 5)
  Op.assign fun w => { w with opened := true }
  pass job
  let desired ← Op.lift ((job.evidence.configuration.bind fun file =>
    repairConfiguration file.data job.walletName).elim (.error .raised) .ok)
  writeTemporary job desired
  captureTemporary job desired
  let _ ← Op.forEach (movePair job) job.pairs
  pass job
  require (sameFile job (← readConfig job fileLimit kwalletrc) job.evidence.configuration)
  exchangeConfig job
  pass job
  require (sameFile job (← readConfig job fileLimit job.temporary) job.evidence.configuration)
  let tempState ← Op.view fun w => .ok w.tempState
  require (sameFile job (← readConfig job fileLimit kwalletrc) tempState)
  let _ ← Op.forEach (checkPair job) job.pairs
  pass job

def isOperation (operationSha256 : Text) : Bool :=
  operationSha256.length = 64 && operationSha256.all CodePoint.isLowerHex

def applyWalletFiles : Step Unit := do
  Op.raiseIf (job.isWriter = false) .writerIdentityUnverified
  Op.raiseIf (isOperation job.operationSha256 = false) .writerIdentityUnverified
  Op.onError (transition job) fun _ => do
    let opened ← Op.view fun w => .ok w.opened
    Op.raiseIf (opened = false) .transitionUnverified
    Op.onError (rollback job) fun _ => Op.raise .rollbackUnverified
    Op.raise .rollbackVerified

end

end Wallet

end WebOvpn
