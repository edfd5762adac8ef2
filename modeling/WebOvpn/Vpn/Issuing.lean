/-
The commands of `vpnctl` that make, change and remove clients, one at a time
and in batches, and the registry rows that they write.
-/
import WebOvpn.Vpn.ServerConf

namespace WebOvpn.Vpn

open Text

/-- What the commands find on the host and the external programs they run;
`none` is a program that fails. -/
structure Host where
  easyrsaDir : Bool
  serverKey : Bool
  shareMounted : Bool
  buildClientFull : Text → PkiDir → Option PkiDir
  genTlsCrypt : Text → Option Text
  revoke : Text → PkiDir → Option PkiDir
  genCrl : PkiDir → Option PkiDir
  v6 : Ipv6

/-- The time of a call as rows and as the names of backups have it. -/
structure Moment where
  now : Text
  stamp : Text

def ovpnName (client : Text) : Text := client ++ ".ovpn"

def tlscryptName (client : Text) : Text := client ++ ".tls-crypt-v2.key"

def batName (client : Text) : Text := client ++ "-install-hosts-as-admin.bat"

def backupMark : Text := ".backup."

def backupName (name stamp : Text) : Text := name ++ backupMark ++ stamp

/-- The names under which `CCD_DIR / client` is a directory. -/
def isDirectoryName (client : Text) : Bool := client = "." || client = ".."

def ccdExists (ccd : Directory) (client : Text) : Bool := isDirectoryName client || ccd.has client

def readPki : Command PkiDir := Prog.get File.pkiDir

def readCcdDir : Command Directory := Prog.get File.ccdDir

def readOutDir : Command (List Text) := do
  let out : Directory ← Prog.get File.outDir
  return out.map Prod.fst

def readRegistry : Command (List ClientRow) := Prog.get File.registryDb

def readCcd (client : Text) : Command (Option Text) := do
  let ccd ← readCcdDir
  return ccd.lookup client

/-- `backup_file` of the CCD file and `write_ccd_file`. -/
def replaceCcd (client content : Text) (moment : Moment) : Command Unit := do
  let ccd ← readCcdDir
  Prog.raiseIf (isDirectoryName client = true) .raised
  let saved := match ccd.lookup client with
    | some old => ccd.write (backupName client moment.stamp) old
    | none => ccd
  Prog.put File.ccdDir (saved.write client content)

/-- `backup_file` of a file in the output directory. -/
def backupOut (name : Text) (moment : Moment) : Command Unit := do
  let out : Directory ← Prog.get File.outDir
  match out.lookup name with
  | some old => Prog.put File.outDir (out.write (backupName name moment.stamp) old)
  | none => return ()

def writeOut (name content : Text) : Command Unit := do
  let out : Directory ← Prog.get File.outDir
  Prog.put File.outDir (out.write name content)

/-- `archive_one` of a file in the output directory. -/
def archiveOut (name : Text) : Command Unit := do
  let out : Directory ← Prog.get File.outDir
  Prog.put File.outDir (out.remove name)

def registerRow (row : ClientRow) : Command Unit := do
  let rows ← readRegistry
  let clientType := if row.clientType = [] then text "user" else row.clientType
  Prog.put File.registryDb (upsertClient { row with clientType := clientType } rows)

def CertStatus.name : CertStatus → Text
  | .unknown => "unknown"
  | .valid => "valid"
  | .revoked => "revoked"
  | .expired => "expired"
  | .missing => "missing"

structure FilesOf where
  ovpnPath : Text
  ccdPath : Text
  tlscryptPath : Text
  batPath : Option Text
  shareOvpnPath : Option Text
  certExists : Bool
  keyExists : Bool
  ccdExists : Bool
  ovpnExists : Bool

def ifExists (found : Bool) (path : Text) : Option Text := if found then some path else none

def filesOf (cfg : Settings) (client : Text) : Command FilesOf := do
  let pki ← readPki
  let ccd ← readCcdDir
  let out ← readOutDir
  let share : Directory ← Prog.get File.shareDir
  let path := clientPath cfg.directories client
  return {
    ovpnPath := path .ovpn
    ccdPath := path .ccd
    tlscryptPath := path .tlscrypt
    batPath := ifExists (decide (batName client ∈ out)) (path .bat)
    shareOvpnPath := ifExists (share.has (ovpnName client)) (path .shareOvpn)
    certExists := pki.issued.has client
    keyExists := pki.keys.has client
    ccdExists := ccdExists ccd client
    ovpnExists := decide (ovpnName client ∈ out) }

def rowOf (client : Text) (files : FilesOf) (now : Text) : ClientRow where
  name := client
  profile := none
  detectedProfile := none
  vpnIp := none
  clientType := []
  remoteLanCidr := none
  status := []
  createdAt := some now
  updatedAt := some now
  ovpnPath := some files.ovpnPath
  ccdPath := some files.ccdPath
  tlscryptPath := some files.tlscryptPath
  batPath := files.batPath
  shareOvpnPath := files.shareOvpnPath
  comment := none
  certExists := flag files.certExists
  keyExists := flag files.keyExists
  ccdExists := flag files.ccdExists
  ovpnExists := flag files.ovpnExists

def inferProfileOf (cfg : Settings) (host : Host) (client : Text) : Command Text := do
  let content ← readCcd client
  let out ← readOutDir
  let vipnets ← readVipnetNets cfg
  return inferProfile cfg (parseCcdFile host.v6 content) (decide (batName client ∈ out)) vipnets

def knownProfile (detected : Text) : Option Text :=
  if (profiles.any fun p => p.name = detected) then some detected else none

def nonempty (value : Option Text) : Option Text := value.filter fun t => t ≠ []

/-- The row of `current_file_registry_row`, given what was there and what the files say. -/
def refreshedRow (row : ClientRow) (existing : Option ClientRow) (parsed : ParsedCcd)
    (inferred : ClientType)
    (detected : Option Text) (cert : CertStatus) (profile : Option Text) (comment : Text) : ClientRow :=
  { row with
    profile := (nonempty profile).or
      (nonempty (existing.bind ClientRow.profile) |>.or (detected.bind knownProfile))
    detectedProfile := detected
    vpnIp := (nonempty parsed.vpnIp).or (existing.bind ClientRow.vpnIp)
    clientType := (existing.map ClientRow.clientType).getD inferred.name
    remoteLanCidr := (existing.map ClientRow.remoteLanCidr).getD (firstIroute parsed)
    status :=
      match cert with
      | .valid => "active"
      | .revoked => "revoked"
      | _ => (existing.map ClientRow.status).getD cert.name
    batPath := row.batPath.or (existing.bind ClientRow.batPath)
    shareOvpnPath := row.shareOvpnPath.or (existing.bind ClientRow.shareOvpnPath)
    comment := if comment ≠ [] then some comment else (existing.map ClientRow.comment).getD (some []) }

section

variable (cfg : Settings) (host : Host) (moment : Moment)

def refreshClientRegistry (client : Text) (profile : Option Text)
    (comment : Text) : Command ClientRow := do
  let rows ← readRegistry
  let content ← readCcd client
  let parsed := parseCcdFile host.v6 content
  let inferred ← Prog.lift (inferClientTypeFromCcd cfg host.v6 parsed)
  let detected ← inferProfileOf cfg host client
  let pki ← readPki
  let files ← filesOf cfg client
  let row := refreshedRow (rowOf client files moment.now) (getClientRow client rows) parsed inferred
    (ifExists content.isSome detected) (certStatus pki.index client) profile comment
  registerRow row
  return row

def takenBy (client ip : Text) (ccd : Directory) : Option Text :=
  (ccd.find? fun entry => entry.1 ≠ client && !contains backupMark entry.1 &&
    contains (text "ifconfig-push " ++ ip ++ " ") entry.2).map Prod.fst

def checkVpnIpCollision (client vpnIp : Text) (clientType : ClientType) : Command Unit :=
  if vpnIp = [] then return ()
  else do
    Prog.lift (validateVpnIp cfg vpnIp clientType)
    let ccd ← readCcdDir
    match takenBy client vpnIp ccd with
    | some file => Prog.stop (.exit (.ipTaken vpnIp file))
    | none => return ()

/-- `extract_cert`: there is a certificate between its two marks. -/
def hasCert (content : Text) : Bool :=
  content.tails.any fun rest => (text "-----BEGIN CERTIFICATE-----").isPrefixOf rest &&
    contains "-----END CERTIFICATE-----" (rest.drop 27)

/-- The checks of `build_ovpn`, and what it puts into the profile from the files. -/
def buildOvpn (client : Text) : Command Text := do
  let pki ← readPki
  let out : Directory ← Prog.get File.outDir
  match pki.caCrt, pki.issued.lookup client, pki.keys.lookup client, out.lookup (tlscryptName client) with
  | some ca, some crt, some key, some tlscrypt =>
    if hasCert crt then return joinLines [ca, crt, key, tlscrypt]
    else Prog.stop (.exit (.noCertificate client))
  | _, _, _, _ => Prog.stop (.exit .missingForOvpn)

/-- What `generate_client` has settled before it changes anything. -/
structure ClientPlan where
  profile : Profile
  clientType : ClientType
  remoteLan : Text
  ccd : Text

/-- The arguments of `generate_client`. -/
structure ClientRequest where
  client : Text
  profile : Text
  vpnIp : Text
  comment : Text
  clientType : Text
  remoteLan : Text
  createServerRoute : Bool

/-- `generate_client` as far as a dry run goes. -/
def planClient (request : ClientRequest) : Command ClientPlan := do
  Prog.raiseIf (isClientName request.client = false) (.exit .badClient)
  let profile ← Prog.lift (validateProfile request.profile)
  let clientType ← Prog.lift (normalizeClientType request.clientType)
  let remoteLan ← Prog.lift (validateClientNetworkPlan cfg clientType request.vpnIp request.remoteLan)
  checkVpnIpCollision cfg request.client request.vpnIp clientType
  let ccd ← ccdContent cfg profile request.vpnIp clientType remoteLan
  return ⟨profile, clientType, remoteLan, ccd⟩

def issueCertificate (client : Text) : Command Unit := do
  let pki ← readPki
  if pki.issued.has client && pki.keys.has client then return ()
  else
    match host.buildClientFull client pki with
    | some pki' => Prog.put File.pkiDir pki'
    | none => Prog.stop .command

/-- The key for `tls-crypt-v2` is made unless it is there. -/
def issueTlsCrypt (client : Text) : Command Unit := do
  let out : Directory ← Prog.get File.outDir
  if out.has (tlscryptName client) then return ()
  else
    match host.genTlsCrypt client with
    | some key => Prog.put File.outDir (out.write (tlscryptName client) key)
    | none => Prog.stop .command

/-- The file with the host names is written for a profile with hosts and
archived for any other. -/
def updateBat (client : Text) (hosts : Bool) : Command Unit :=
  if hosts then writeOut (batName client) [] else archiveOut (batName client)

def copyToShare (client ovpn : Text) (hosts : Bool) : Command Unit :=
  if host.shareMounted then do
    let share : Directory ← Prog.get File.shareDir
    let copied := share.write (ovpnName client) ovpn
    Prog.put File.shareDir (if hosts then copied.write (batName client) [] else copied)
  else return ()

/-- The row that `generate_client` writes. -/
def registerClient (request : ClientRequest) (plan : ClientPlan) : Command Unit := do
  let detected ← inferProfileOf cfg host request.client
  let content ← readCcd request.client
  let pki ← readPki
  let files ← filesOf cfg request.client
  let revoked := certStatus pki.index request.client = .revoked
  registerRow { rowOf request.client files moment.now with
    profile := some request.profile
    detectedProfile := some detected
    vpnIp := (nonempty (some request.vpnIp)).or (parseCcdFile host.v6 content).vpnIp
    clientType := plan.clientType.name
    remoteLanCidr := nonempty (some plan.remoteLan)
    status := if revoked then "revoked" else "active"
    comment := some request.comment }

/-- `generate_client` from the point where a dry run ends. -/
def makeClient (request : ClientRequest) (plan : ClientPlan) : Command Unit := do
  Prog.raiseIf (host.easyrsaDir = false) (.exit .noEasyrsa)
  Prog.raiseIf (host.serverKey = false) (.exit .noServerKey)
  issueCertificate host request.client
  issueTlsCrypt host request.client
  replaceCcd request.client plan.ccd moment
  backupOut (ovpnName request.client) moment
  backupOut (batName request.client) moment
  if plan.clientType = .routerSiteToSite ∧ request.createServerRoute then do
    let _ ← addSiteRoute cfg host.v6 plan.remoteLan request.client
  let ovpn ← buildOvpn request.client
  writeOut (ovpnName request.client) ovpn
  updateBat request.client plan.profile.hosts
  copyToShare host request.client ovpn plan.profile.hosts
  registerClient cfg host moment request plan

def generateClient (request : ClientRequest) (dryRun : Bool) : Command ClientPlan := do
  let plan ← planClient cfg request
  if dryRun then return plan
  else do
    makeClient cfg host moment request plan
    return plan

structure Access where
  template : Option Text
  networks : List Text
  dns : Bool

def applyNetworksToClient (client : Text) (cidrs : List Text) (vpnIp : Text) (dns : Bool)
    (reason templateName : Text) : Command Access := do
  Prog.raiseIf (isClientName client = false) (.exit .badClient)
  let selected ← Prog.lift (uniqueCidrs cidrs)
  Prog.raiseIf (selected = []) (.exit .noNetworks)
  let available ← availableNetworkCidrs cfg
  let missing := selected.filter fun cidr => cidr ∉ available
  Prog.raiseIf (missing ≠ []) (.exit (.notInCatalogue missing))
  checkVpnIpCollision cfg client vpnIp .user
  let ccd ← Prog.lift (ccdContentFromNetworks cfg selected vpnIp dns)
  replaceCcd client ccd moment
  backupOut (batName client) moment
  archiveOut (batName client)
  let _ ← refreshClientRegistry cfg host moment client (nonempty (some templateName)) reason
  return ⟨nonempty (some templateName), selected, dns⟩

def applyNetworkTemplateToClient (client templateName vpnIp reason : Text) : Command Access := do
  let template ← getNetworkTemplate cfg templateName
  applyNetworksToClient cfg host moment client template.cidrs vpnIp template.dns reason template.name

/-- The files of a client that `preflight_batch_clients` looks for. -/
def anyFileOf (client : Text) (pki : PkiDir) (ccd : Directory) (out : List Text)
    (share : Directory) : Bool :=
  pki.issued.has client || pki.keys.has client || pki.reqs.contains client ||
    out.contains (tlscryptName client) || out.contains (ovpnName client) || out.contains (batName client) ||
    ccdExists ccd client || share.has (ovpnName client) || share.has (batName client)

def preflightBatchClients (clients : List Text) : Command (List Text) := do
  let names := clients.map strip
  Prog.raiseIf (¬ ∀ name ∈ names, isClientName name = true) (.exit .badClient)
  Prog.raiseIf (names = []) (.exit .noBatchClients)
  Prog.raiseIf (¬ names.Nodup) (.exit .repeatedBatchClients)
  let rows ← readRegistry
  let pki ← readPki
  let ccd ← readCcdDir
  let out ← readOutDir
  let share : Directory ← Prog.get File.shareDir
  let conflicts := names.filter fun name =>
    (rows.any fun row => row.name = name && row.status = "active") || anyFileOf name pki ccd out share
  Prog.raiseIf (conflicts ≠ []) (.exit (.clientsExist conflicts))
  return names

/-- The arguments of `generate_batch`. -/
structure BatchRequest where
  clients : List Text
  template : Text
  cidrs : List Text
  dns : Bool
  comment : Text

def checkBatchAccess (request : BatchRequest) : Command (List Text) := do
  let selected ← Prog.lift (uniqueCidrs request.cidrs)
  Prog.raiseIf ((request.template ≠ []) = (selected ≠ [])) (.exit .templateOrNetworks)
  if request.template ≠ [] then do
    let _ ← getNetworkTemplate cfg request.template
    return selected
  else do
    let available ← availableNetworkCidrs cfg
    let missing := selected.filter fun cidr => cidr ∉ available
    Prog.raiseIf (missing ≠ []) (.exit (.notInCatalogue missing))
    return selected

def batchReason (request : BatchRequest) : Text :=
  if request.comment = [] then "batch client creation" else request.comment

def giveBatchAccess (request : BatchRequest) (selected : List Text) (client : Text) : Command Access :=
  if request.template ≠ [] then
    applyNetworkTemplateToClient cfg host moment client request.template [] (batchReason request)
  else applyNetworksToClient cfg host moment client selected [] request.dns (batchReason request) []

/-- What `generate_batch` asks of `generate_client` for one of its clients. -/
def batchClient (request : BatchRequest) (client : Text) : ClientRequest :=
  ⟨client, "custom", [], request.comment, "user", [], false⟩

/-- One turn of the loop of `generate_batch`; a dry run gives no access. -/
def batchTurn (request : BatchRequest) (selected : List Text) (dryRun : Bool) (client : Text) :
    Command (Option Access) := do
  let _ ← generateClient cfg host moment (batchClient request client) dryRun
  if dryRun then return none
  else do
    let access ← giveBatchAccess cfg host moment request selected client
    return some access

/-- The loop of `generate_batch`. -/
def batchTurns (request : BatchRequest) (selected : List Text) (dryRun : Bool) :
    List Text → Command (List (Text × Option Access))
  | [] => return []
  | client :: rest => do
      let access ← batchTurn cfg host moment request selected dryRun client
      let others ← batchTurns request selected dryRun rest
      return (client, access) :: others

def generateBatch (request : BatchRequest) (dryRun : Bool) : Command (List (Text × Option Access)) := do
  let names ← preflightBatchClients request.clients
  let selected ← checkBatchAccess cfg request
  batchTurns cfg host moment request selected dryRun names

end

/-- The defaults of the configuration. -/
def sampleSettings : Settings where
  directumIp := 0xC0A8640A
  extraDirectumIp := 0xC0A86411
  dnsIp := 0xC0A86401
  dnsDomain := "lan"
  tunnelCidr := ⟨0xC0A83200, 24, by decide⟩
  serverTunnelIp := 0xC0A83201
  userPoolStart := 0xC0A83202
  userPoolEnd := 0xC0A832C7
  routerPoolStart := 0xC0A832C8
  routerPoolEnd := 0xC0A832F9
  legacyCidrs := [⟨0x0A080000, 24, by decide⟩]
  centralLanCidrs := [⟨0xC0A86400, 23, by decide⟩]
  vipnetTargetCidrs := [⟨0xAC999900, 24, by decide⟩]
  statusLog := "/run/status.log"
  managementSocket := "/run/management.sock"
  managementClientGroup := "openvpn"
  managementLogCache := 200
  directories := ⟨"/out", "/mnt", "/ccd"⟩
  oneLine := by
    have h : (text "lan").all (fun c => !c.isLineBreak) = true := by decide
    intro c hc
    simpa using List.all_eq_true.1 h c hc

def sampleCertificate : Text := "-----BEGIN CERTIFICATE-----\n-----END CERTIFICATE-----"

/-- A host on which every external command succeeds. -/
def sampleHost : Host where
  easyrsaDir := true
  serverKey := true
  shareMounted := false
  buildClientFull := fun client pki => some { pki with
    issued := pki.issued.write client sampleCertificate
    keys := pki.keys.write client "key" }
  genTlsCrypt := fun _ => some "key"
  revoke := fun _ pki => some pki
  genCrl := fun pki => some { pki with crl := some [] }
  v6 := ⟨fun _ => none, fun _ => false⟩

def sampleMoment : Moment := ⟨"2025-03-01", "20250301"⟩

/-- An installation without clients. -/
def sampleFiles : Files
  | .networksDb => none
  | .vipnetNets => none
  | .templatesDb => none
  | .serverConf => none
  | .pkiDir => ⟨none, some "ca", none, [], [], []⟩
  | .ccdDir => []
  | .outDir => []
  | .shareDir => []
  | .registryDb => []

end WebOvpn.Vpn
