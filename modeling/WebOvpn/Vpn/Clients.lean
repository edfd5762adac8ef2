/-
The certificate index of Easy-RSA, and what `vpnctl` does to disable or delete a client: it
revokes the certificate, moves the files and writes the registry row.
-/
import WebOvpn.Lib.Crash
import WebOvpn.Lib.Lines

namespace WebOvpn.Vpn

open Text List

inductive CertStatus where
  | unknown
  | valid
  | revoked
  | expired
  | missing
  deriving DecidableEq

/-- `CLIENT_RE.match`: letters, digits, `.`, `_` and `-`.  `$` also matches
before a line feed at the end. -/
def isClientName (name : Text) : Bool :=
  let body := if name.getLast? = some 10 then name.dropLast else name
  !body.isEmpty && body.all fun c => c.isAlnum || c.val == 46 || c.val == 95 || c.val == 45

def tab : CodePoint := 9

def slash : CodePoint := 47

/-- `line.split("\t", 1)[0]`. -/
def firstField (line : Text) : Text := line.takeWhile (· ≠ tab)

/-- The test by which `cert_status` takes a line for one of the client. -/
def mentions (client line : Text) : Bool :=
  contains (text "/CN=" ++ client) line || endswith (rstrip line) (text "CN=" ++ client) ||
    contains (tab :: client) line

def answer (line : Text) : Option CertStatus :=
  if firstField line = "V" then some .valid
  else if firstField line = "R" then some .revoked
  else if firstField line = "E" then some .expired
  else none

def statusIn (client : Text) : List Text → CertStatus
  | [] => .missing
  | line :: rest =>
    if mentions client line then
      match answer line with
      | some status => status
      | none => statusIn client rest
    else statusIn client rest

def indexLines (index : Option Text) : List Text :=
  match index with
  | none => []
  | some content => splitlines content

def certStatus (index : Option Text) (client : Text) : CertStatus :=
  match index with
  | none => .unknown
  | some content => statusIn client (splitlines content)

def subject (line : Text) : Text := ((line.splitOn tab).drop 5).headD []

/-- The common name in the subject of the line is exactly `client`. -/
def isOwn (client line : Text) : Bool :=
  ((subject line).splitOn slash).tail.contains (text "CN=" ++ client)

def isOwnValid (client line : Text) : Bool :=
  isOwn client line && firstField line == "V"

/-- The line decides what `cert_status` answers, if no line before it does. -/
def decides (client line : Text) : Bool := mentions client line && (answer line).isSome

variable {client line : Text} {lines lines' : List Text} {index : Option Text}

theorem mentions_of_isOwn (h : isOwn client line = true) : mentions client line = true := by
  have hmem : text "CN=" ++ client ∈ ((subject line).splitOn slash).tail :=
    elem_iff.1 h
  have hsub : slash :: (text "CN=" ++ client) <:+: subject line :=
    cons_isInfix_of_mem_splitOn hmem
  have hln : subject line <:+: line := by
    unfold subject
    cases hdr : (line.splitOn tab).drop 5 with
    | nil => exact nil_infix
    | cons field more =>
      apply isInfix_of_mem_splitOn
      apply mem_of_mem_drop
      rw [hdr]
      exact mem_cons_self
  have hcn : contains (text "/CN=" ++ client) line = true :=
    contains_iff_isInfix.2 (hsub.trans hln)
  unfold mentions
  rw [hcn]
  rfl

theorem answer_of_valid (h : firstField line = "V") : answer line = some .valid := by
  unfold answer
  rw [if_pos h]

theorem answer_eq_revoked_iff : answer line = some .revoked ↔ firstField line = "R" := by
  unfold answer
  constructor
  · intro h
    split_ifs at h with hvl hrv
    · cases h
    · exact hrv
    · cases h
  · intro h
    rw [h]
    rfl

theorem answer_eq_valid_iff : answer line = some .valid ↔ firstField line = "V" := by
  refine ⟨?_, answer_of_valid⟩
  intro h
  unfold answer at h
  split_ifs at h with hvl
  · exact hvl
  · cases h
  · cases h

theorem answer_ne_missing : answer line ≠ some .missing := by
  intro h
  unfold answer at h
  split_ifs at h <;> cases h

theorem decides_of_isOwnValid (h : isOwnValid client line = true) : decides client line = true := by
  unfold isOwnValid at h
  rw [Bool.and_eq_true, beq_iff_eq] at h
  unfold decides
  rw [mentions_of_isOwn h.1, answer_of_valid h.2]
  rfl

theorem statusIn_eq (client : Text) (lines : List Text) :
    statusIn client lines = ((lines.find? (decides client)).bind answer).getD .missing := by
  induction lines with
  | nil => rfl
  | cons line rest ih =>
    unfold statusIn
    rw [ih, find?_cons]
    cases hmen : mentions client line with
    | false => simp [decides, hmen]
    | true => cases han : answer line <;> simp [decides, hmen, han]

def letter (client : Text) (lines : List Text) : Option Text :=
  (lines.find? (decides client)).map firstField

theorem exists_answer_of_find? (h : lines.find? (decides client) = some line) :
    ∃ status, answer line = some status ∧ status ≠ .missing := by
  have hdc := find?_some h
  unfold decides at hdc
  rw [Bool.and_eq_true] at hdc
  obtain ⟨status, hst⟩ := Option.isSome_iff_exists.1 hdc.2
  refine ⟨status, hst, ?_⟩
  rintro rfl
  exact answer_ne_missing hst

theorem statusIn_eq_missing_iff : statusIn client lines = .missing ↔
    lines.find? (decides client) = none := by
  rw [statusIn_eq]
  cases hfn : lines.find? (decides client) with
  | none => simp
  | some line =>
    obtain ⟨status, hst, hne⟩ := exists_answer_of_find? hfn
    simp [hst, hne]

theorem statusIn_eq_iff {status : CertStatus} {name : Text} (hne : status ≠ .missing)
    (han : ∀ line, answer line = some status ↔ firstField line = name) :
    statusIn client lines = status ↔ letter client lines = some name := by
  rw [statusIn_eq, letter]
  cases hfi : lines.find? (decides client) with
  | none => simp [hne.symm]
  | some line =>
    obtain ⟨found, hfn, -⟩ := exists_answer_of_find? hfi
    have hln := han line
    rw [hfn, Option.some.injEq] at hln
    simp [hfn, hln]

theorem statusIn_eq_revoked_iff : statusIn client lines = .revoked ↔
    letter client lines = some (text "R") := by
  apply statusIn_eq_iff
  · intro h
    cases h
  · intro line
    exact answer_eq_revoked_iff

theorem statusIn_eq_valid_iff : statusIn client lines = .valid ↔
    letter client lines = some (text "V") := by
  apply statusIn_eq_iff
  · intro h
    cases h
  · intro line
    exact answer_eq_valid_iff

theorem answer_eq_answer_iff {other : Text} {status status' : CertStatus}
    (h : answer line = some status) (h' : answer other = some status') :
    status = status' ↔ firstField line = firstField other := by
  unfold answer at h h'
  split_ifs at h h' <;> cases h <;> cases h' <;> simp_all <;> decide

theorem statusIn_eq_statusIn_iff :
    statusIn client lines = statusIn client lines' ↔ letter client lines = letter client lines' := by
  rw [statusIn_eq, statusIn_eq, letter, letter]
  cases hfn : lines.find? (decides client) with
  | none =>
    cases hfn' : lines'.find? (decides client) with
    | none => simp
    | some line =>
      obtain ⟨status, hst, hne⟩ := exists_answer_of_find? hfn'
      simp [hst, hne.symm]
  | some line =>
    obtain ⟨status, hst, hne⟩ := exists_answer_of_find? hfn
    cases hfn' : lines'.find? (decides client) with
    | none => simp [hst, hne]
    | some other =>
      obtain ⟨status', hst', -⟩ := exists_answer_of_find? hfn'
      simp [hst, hst', answer_eq_answer_iff hst hst']

theorem not_isOwnValid_of_missing (h : statusIn client lines = .missing) :
    ∀ line ∈ lines, isOwnValid client line = false := by
  intro line hln
  have hnn := find?_eq_none.1 (statusIn_eq_missing_iff.1 h) line hln
  rw [Bool.eq_false_iff]
  intro hown
  exact hnn (decides_of_isOwnValid hown)

/-- What Easy-RSA keeps of the public key infrastructure: the index, the
entries listed in `crl.pem`, and the names with an issued certificate and with
a private key. -/
structure Pki where
  index : Option Text
  crl : Option (List Text)
  issued : List Text
  keys : List Text
  deriving DecidableEq

/-- The commands of Easy-RSA that `vpnctl` runs; `none` is a failure. -/
structure Easyrsa where
  revoke : Text → Pki → Option Pki
  genCrl : Option Text → Option (List Text)

/-- The entry of `client` is revoked: the letter changes, the subject stays. -/
def Revokes (client : Text) (before after : Text) : Prop :=
  if isOwnValid client before then firstField after = "R" ∧ subject after = subject before
  else after = before

/-- `easyrsa revoke NAME` works on the index that is there, turns an entry
whose common name is exactly `NAME` from `V` into `R` and touches no other
line; the name cannot be revoked again right after that. -/
structure Easyrsa.Lawful (easyrsa : Easyrsa) : Prop where
  revokes : ∀ name pki pki', easyrsa.revoke name pki = some pki' →
    ∃ before after, pki.index = some before ∧ pki'.index = some after ∧
      List.Forall₂ (Revokes name) (splitlines before) (splitlines after)
  again : ∀ name pki pki', easyrsa.revoke name pki = some pki' →
    ∀ crl, easyrsa.revoke name { pki' with crl := crl } = none

theorem not_isOwnValid_of_revokes (h : List.Forall₂ (Revokes client) lines lines') :
    ∀ line ∈ lines', isOwnValid client line = false := by
  induction h with
  | nil =>
    intro line hln
    cases hln
  | @cons before after rest rest' hrv _ ih =>
    intro line hln
    rcases mem_cons.1 hln with rfl | hln
    · unfold Revokes at hrv
      split_ifs at hrv with hown
      · unfold isOwnValid
        rw [hrv.1, Bool.and_eq_false_iff]
        exact .inr (by decide)
      · rw [hrv]
        exact Bool.eq_false_iff.2 hown
    · exact ih line hln

end WebOvpn.Vpn

namespace WebOvpn

open Op

namespace Vpn

open Text

structure ClientRow where
  name : Text
  profile : Option Text
  detectedProfile : Option Text
  vpnIp : Option Text
  clientType : Text
  remoteLanCidr : Option Text
  status : Text
  createdAt : Option Text
  updatedAt : Option Text
  ovpnPath : Option Text
  ccdPath : Option Text
  tlscryptPath : Option Text
  batPath : Option Text
  shareOvpnPath : Option Text
  comment : Option Text
  certExists : Option Nat
  keyExists : Option Nat
  ccdExists : Option Nat
  ovpnExists : Option Nat
  deriving DecidableEq

def getClientRow (name : Text) (rows : List ClientRow) : Option ClientRow :=
  rows.find? fun row => row.name = name

/-- `upsert_client`, once its defaults are filled in: an existing row keeps its
creation time. -/
def upsertClient (row : ClientRow) (rows : List ClientRow) : List ClientRow :=
  match getClientRow row.name rows with
  | none => rows ++ [row]
  | some old =>
    let created := if old.createdAt.getD [] = [] then row.createdAt else old.createdAt
    rows.map fun other => if other.name = row.name then { row with createdAt := created } else other

/-- The files of a client that OpenVPN and the client itself use. -/
inductive Artifact where
  | ccd
  | ovpn
  | tlscrypt
  | bat
  | shareOvpn
  | shareBat
  deriving DecidableEq

def activeFiles : List Artifact := [.ccd, .ovpn, .tlscrypt, .bat, .shareOvpn, .shareBat]

/-- The directories of the configuration. -/
structure Config where
  outDir : Text
  shareOutDir : Text
  ccdDir : Text

def joinPath (directory name : Text) : Text :=
  if name = "." then directory else directory ++ slash :: name

def clientPath (cfg : Config) (client : Text) : Artifact → Text
  | .ccd => joinPath cfg.ccdDir client
  | .ovpn => joinPath cfg.outDir (client ++ ".ovpn")
  | .tlscrypt => joinPath cfg.outDir (client ++ ".tls-crypt-v2.key")
  | .bat => joinPath cfg.outDir (client ++ "-install-hosts-as-admin.bat")
  | .shareOvpn => joinPath cfg.shareOutDir (client ++ ".ovpn")
  | .shareBat => joinPath cfg.shareOutDir (client ++ "-install-hosts-as-admin.bat")

/-- The address in a line of a CCD file: `ifconfig-push\s+(\S+)\s+255\.255\.255\.0`. -/
def ifconfigPush (line : Text) : Option Text :=
  let command := text "ifconfig-push"
  let rest := line.drop command.length
  let afterSpace := rest.dropWhile CodePoint.isSpace
  let address := afterSpace.takeWhile fun c => !c.isSpace
  let afterAddress := afterSpace.drop address.length
  let mask := afterAddress.dropWhile CodePoint.isSpace
  if command.isPrefixOf line ∧ afterSpace.length < rest.length ∧ address ≠ [] ∧
      mask.length < afterAddress.length ∧ (text "255.255.255.0").isPrefixOf mask then
    some address
  else none

def parseCcdVpnIp (content : Text) : Option Text :=
  ((splitlines content).map fun line => ifconfigPush (strip line)).foldl (fun found ip => ip.or found) none

/-- What a call for one client reads and writes.  The archive lists the files
moved there; the folder they are in is named by the time of the call.  `kills`
counts how often the management interface was asked to drop the session. -/
structure State where
  pki : Pki
  installedCrl : Option (List Text)
  files : List (Artifact × Text)
  archive : List (Artifact × Text)
  registry : List ClientRow
  kills : Nat
  deriving DecidableEq

inductive VpnError where
  | invalidName
  | commandFailed
  | attributeError
  deriving DecidableEq

/-- The steps after which a call can be interrupted. -/
inductive Point where
  | revoked
  | crlGenerated
  | crlInstalled
  | filed (artifact : Artifact)
  | rowWritten
  | killAttempted
  deriving DecidableEq

inductive RevokeAction where
  | alreadyRevoked
  | revoked
  deriving DecidableEq

/-- What `revoke_cert` reports. -/
structure RevokeResult where
  statusBefore : CertStatus
  actions : List RevokeAction
  statusAfter : Option CertStatus
  deriving DecidableEq

inductive Mode where
  | disable
  | delete
  deriving DecidableEq

/-- The arguments of `disable_or_delete`. -/
structure Call where
  client : Text
  mode : Mode
  purge : Bool
  reason : Text
  killActive : Bool

structure DisableResult where
  revoke : RevokeResult
  files : List Artifact
  deriving DecidableEq

abbrev Action := Op (History State Point) VpnError

section

variable (easyrsa : Easyrsa)

def updateCrl : Action Unit := do
  let crl ← look fun s =>
    match easyrsa.genCrl s.pki.index with
    | none => .error .commandFailed
    | some crl => .ok crl
  step .crlGenerated fun s => { s with pki := { s.pki with crl := some crl } }
  let src ← look fun s => .ok s.pki.crl
  match src with
  | none => pure ()
  | some listed => step .crlInstalled fun s => { s with installedCrl := some listed }

def revokeNow (client : Text) (before : CertStatus) : Action RevokeResult := do
  let pki ← look fun s =>
    match easyrsa.revoke client s.pki with
    | none => .error .commandFailed
    | some pki => .ok pki
  step .revoked fun s => { s with pki := pki }
  updateCrl easyrsa
  let after ← look fun s => .ok (certStatus s.pki.index client)
  return ⟨before, [.revoked], some after⟩

def revokeByStatus (client : Text) : CertStatus → Action RevokeResult
  | .missing => return ⟨.missing, [], none⟩
  | .revoked => do
      updateCrl easyrsa
      return ⟨.revoked, [.alreadyRevoked], none⟩
  | .unknown => revokeNow easyrsa client .unknown
  | .valid => revokeNow easyrsa client .valid
  | .expired => revokeNow easyrsa client .expired

def revokeCert (client : Text) : Action RevokeResult := do
  raiseIf (isClientName client = false) .invalidName
  let before ← look fun s => .ok (certStatus s.pki.index client)
  revokeByStatus easyrsa client before

end

def fileAway (purge : Bool) (s : State) (artifact : Artifact) : State :=
  match s.files.lookup artifact with
  | none => s
  | some content =>
    { s with
      files := s.files.filter fun entry => entry.1 ≠ artifact
      archive := if purge then s.archive else s.archive ++ [(artifact, content)] }

def archiveOne (purge : Bool) (artifact : Artifact) : Action (Option Artifact) := do
  let found ← look fun s => .ok (s.files.lookup artifact)
  match found with
  | none => return none
  | some _ =>
    step (.filed artifact) fun s => fileAway purge s artifact
    return some artifact

def statusText : Mode → Text
  | .disable => "disabled"
  | .delete => "deleted"

/-- `(get_client_row(client) or {}).get("profile") if get_client_row(client) else None`.
A row is a `sqlite3.Row`, which is true and has no method `get`. -/
def rowProfile (client : Text) (s : State) : Except VpnError (Option Text) :=
  match getClientRow client s.registry with
  | none => .ok none
  | some _ => .error .attributeError

def flag (b : Bool) : Option Nat := some (if b then 1 else 0)

def newRow (cfg : Config) (call : Call) (now : Text) (profile : Option Text) (s : State) :
    ClientRow where
  name := call.client
  profile := profile
  detectedProfile := none
  vpnIp := (s.files.lookup .ccd).bind parseCcdVpnIp
  clientType := "user"
  remoteLanCidr := none
  status := statusText call.mode
  createdAt := some now
  updatedAt := some now
  ovpnPath := some (clientPath cfg call.client .ovpn)
  ccdPath := some (clientPath cfg call.client .ccd)
  tlscryptPath := some (clientPath cfg call.client .tlscrypt)
  batPath := some (clientPath cfg call.client .bat)
  shareOvpnPath := some (clientPath cfg call.client .shareOvpn)
  comment := some call.reason
  certExists := flag (s.pki.issued.contains call.client)
  keyExists := flag (s.pki.keys.contains call.client)
  ccdExists := flag (s.files.lookup .ccd).isSome
  ovpnExists := flag (s.files.lookup .ovpn).isSome

/-- The kill is tried whatever comes of it: its exceptions are caught. -/
def killSession (killActive : Bool) : Action Unit :=
  if killActive then step .killAttempted fun s => { s with kills := s.kills + 1 } else pure ()

/-- `disable_or_delete` after the files are archived. -/
def register (cfg : Config) (call : Call) (now : Text) : Action Unit := do
  let profile ← look (rowProfile call.client)
  let row ← look fun s => .ok (newRow cfg call now profile s)
  step .rowWritten fun s => { s with registry := upsertClient row s.registry }
  killSession call.killActive

/-- `disable_or_delete`.  The closing `record_operation` swallows every
exception and is not part of the state. -/
def disableOrDelete (cfg : Config) (easyrsa : Easyrsa) (call : Call)
    (now : Text) : Action DisableResult := do
  raiseIf (isClientName call.client = false) .invalidName
  let revoke ← revokeCert easyrsa call.client
  let moved ← forEach (archiveOne call.purge) activeFiles
  register cfg call now
  return ⟨revoke, moved.filterMap id⟩

end Vpn

end WebOvpn
