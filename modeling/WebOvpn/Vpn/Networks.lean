/-
The files of `vpnctl` and its network catalogue: the tagged networks, the file
of the NAT networks that follows them, and the route templates.
-/
import Mathlib.Data.List.Sort
import WebOvpn.Lib.Ipv4
import WebOvpn.Lib.Listing
import WebOvpn.Lib.Prog
import WebOvpn.Vpn.Clients

namespace WebOvpn.Vpn

open Text

/-- The `SystemExit` that `vpnctl` raises by itself. -/
inductive Refusal where
  | badCidr (cidr : Text)
  | badClient
  | unknownProfile (profile : Text)
  | unknownClientType (name : Text)
  | badVpnIp (ip : Text)
  | outsideTunnel (ip : Text)
  | serverIp
  | outsideUserPool
  | outsideRouterPool
  | overlapping (lan : Text) (other : Ipv4Network)
  | lanOfUser
  | routerWithoutIp
  | siteWithoutLan
  | ipTaken (ip file : Text)
  | badTemplateName
  | builtinTemplate (name : Text)
  | unknownTemplate (name : Text)
  | notInCatalogue (cidrs : List Text)
  | noNetworks
  | noEasyrsa
  | noServerKey
  | missingForOvpn
  | noCertificate (client : Text)
  | noBatchClients
  | repeatedBatchClients
  | clientsExist (names : List Text)
  | templateOrNetworks
  | statusInterval
  | statusVersion
  | emptySocket
  | tcpSocket
  | relativeSocket
  | logCache
  deriving DecidableEq

/-- How a command stops: by a `SystemExit` of its own, by a failed external
command, or by another exception. -/
inductive Stop where
  | exit (refusal : Refusal)
  | command
  | raised
  deriving DecidableEq

structure NetworkRow where
  cidr : Text
  tag : Text
  nat : Bool
  comment : Text
  source : Text

/-- A row of `NETWORK_TEMPLATES_DB`. -/
structure NetworkTemplate where
  name : Text
  description : Text
  cidrs : List Text
  dns : Bool
  builtin : Bool

abbrev Directory := List (Text × Text)

def Directory.write (directory : Directory) (name content : Text) : Directory :=
  (name, content) :: directory.filter fun entry => entry.1 ≠ name

def Directory.remove (directory : Directory) (name : Text) : Directory :=
  directory.filter fun entry => entry.1 ≠ name

def Directory.has (directory : Directory) (name : Text) : Bool := (directory.lookup name).isSome

theorem Directory.lookup_write (directory : Directory) (name other content : Text) :
    (directory.write name content).lookup other = if other = name then some content
      else directory.lookup other := by
  unfold Directory.write
  by_cases h : other = name
  · rw [h, List.lookup_cons_self, if_pos rfl]
  · rw [lookup_cons_of_ne h, lookup_filter_ne, if_neg h, if_neg h]

/-- `PKI_DIR`; the certificates, keys and requests by the name of the client. -/
structure PkiDir where
  index : Option Text
  caCrt : Option Text
  crl : Option (List Text)
  issued : Directory
  keys : Directory
  reqs : List Text

/-- The files and directories that the commands read and replace. -/
inductive File where
  | networksDb
  | vipnetNets
  | templatesDb
  | serverConf
  | pkiDir
  | ccdDir
  | outDir
  | shareDir
  | registryDb
  deriving DecidableEq

/-- What they hold; `none` is a file that does not exist. -/
abbrev Content : File → Type
  | .networksDb => Option (List NetworkRow)
  | .vipnetNets => Option Text
  | .templatesDb => Option (List NetworkTemplate)
  | .serverConf => Option Text
  | .pkiDir => PkiDir
  | .ccdDir => Directory
  | .outDir => Directory
  | .shareDir => Directory
  | .registryDb => List ClientRow

abbrev Files := Contents Content

abbrev Command (α : Type) := Prog Content Stop α

/-- The configuration.  The addresses and networks in it are well formed, and
the domain is one line. -/
structure Settings where
  directumIp : Ipv4
  extraDirectumIp : Ipv4
  dnsIp : Ipv4
  dnsDomain : Text
  tunnelCidr : Ipv4Network
  serverTunnelIp : Ipv4
  userPoolStart : Ipv4
  userPoolEnd : Ipv4
  routerPoolStart : Ipv4
  routerPoolEnd : Ipv4
  legacyCidrs : List Ipv4Network
  centralLanCidrs : List Ipv4Network
  vipnetTargetCidrs : List Ipv4Network
  statusLog : Text
  managementSocket : Text
  managementClientGroup : Text
  managementLogCache : Nat
  directories : Config
  oneLine : ∀ c ∈ dnsDomain, c.isLineBreak = false

def normalizeCidr (cidr : Text) : Except Stop Text :=
  match Ipv4Network.ofText cidr with
  | some net => .ok net.text
  | none => .error (.exit (.badCidr cidr))

def normalizeTag (tag : Text) : Text :=
  let value := strip (if tag = [] then "default" else tag)
  (if value = [] then text "default" else value).take 80

def normalizeTemplateName (name : Text) : Except Stop Text :=
  if isClientName (strip name) then .ok (strip name) else .error (.exit .badTemplateName)

/-- The items without those that came before. -/
def distinct (items : List Text) : List Text :=
  items.foldl (fun seen item => if item ∈ seen then seen else seen ++ [item]) []

def uniqueCidrs (cidrs : List Text) : Except Stop (List Text) := do
  return distinct (← cidrs.mapM normalizeCidr)

def hostCidr (a : Ipv4) : Text := (Ipv4Network.ofAddress a 32).text

def lineFeed : CodePoint := 10

def joinLines (lines : List Text) : Text := [lineFeed].intercalate lines

def normalizeNetworkRow (row : NetworkRow) : Except Stop NetworkRow := do
  let cidr ← normalizeCidr row.cidr
  return { row with
    cidr := cidr
    tag := normalizeTag row.tag
    source := if row.source = [] then "custom" else row.source }

/-- The order of the key `(row["tag"], row["cidr"])`. -/
def rowLe (row other : NetworkRow) : Bool :=
  if row.tag = other.tag then Text.le row.cidr other.cidr else Text.le row.tag other.tag

def sortRows (rows : List NetworkRow) : List NetworkRow :=
  rows.insertionSort fun row other => rowLe row other

def putRow (rows : List NetworkRow) (row : NetworkRow) : List NetworkRow :=
  if row.cidr ∈ rows.map NetworkRow.cidr then rows.map fun other => if other.cidr = row.cidr then row else other
  else rows ++ [row]

def legacyVipnetNets (content : Text) : Except Stop (List Text) :=
  ((splitlines content).filterMap fun raw =>
    let line := strip (raw.takeWhile (· ≠ 35))
    if line = [] then none else some line).mapM normalizeCidr

def builtinRow (cidr tag : Text) (nat : Bool) (comment : Text) : NetworkRow :=
  ⟨cidr, normalizeTag tag, nat, comment, "builtin"⟩

section

variable (cfg : Settings)

/-- The rows that `default_network_rows` adds before those of the ViPNet file. -/
def fixedRows : List NetworkRow :=
  [builtinRow (hostCidr cfg.directumIp) "directum" false "Directum",
    builtinRow (hostCidr cfg.extraDirectumIp) "directum" false "Directum 17",
    builtinRow (hostCidr cfg.dnsIp) "dns" false "DNS",
    builtinRow "192.168.100.0/23" "lan" false "LAN",
    builtinRow "10.83.1.0/24" "lan" false "LAN",
    builtinRow "10.10.10.0/23" "lan" false "LAN"]

def defaultNetworkRows : Command (List NetworkRow) := do
  let content : Option Text ← Prog.get File.vipnetNets
  let nets ← Prog.lift (legacyVipnetNets (content.getD []))
  let rows := nets.map fun cidr =>
    builtinRow cidr "vipnet" true "Imported from vipnet-nets.conf"
  return sortRows ((fixedRows cfg ++ rows).foldl putRow [])

def listNetworks : Command (List NetworkRow) := do
  let raw : Option (List NetworkRow) ← Prog.get File.networksDb
  match raw with
  | none => defaultNetworkRows cfg
  | some stored => do
      let rows ← Prog.lift (stored.mapM normalizeNetworkRow)
      return sortRows (rows.foldl putRow [])

def natContent (rows : List NetworkRow) : Text :=
  let nets := ((rows.filter NetworkRow.nat).map NetworkRow.cidr).insertionSort fun net other => Text.le net other
  joinLines nets ++ if nets = [] then [] else [lineFeed]

def saveNetworks (rows : List NetworkRow) : Command Unit := do
  let normalized ← Prog.lift (rows.mapM normalizeNetworkRow)
  Prog.put File.networksDb (some (sortRows normalized))
  Prog.put File.vipnetNets (some (natContent normalized))

def addOrUpdateNetwork (cidr tag : Text) (nat : Bool) (comment : Text) : Command Bool := do
  let normalized ← Prog.lift (normalizeCidr cidr)
  let rows ← listNetworks cfg
  let network : NetworkRow := ⟨normalized, normalizeTag tag, nat, comment, "custom"⟩
  saveNetworks (putRow rows network)
  return decide (normalized ∈ rows.map NetworkRow.cidr)

/-- `remove_network`; whether a row was removed. -/
def removeNetwork (cidr : Text) : Command Bool := do
  let normalized ← Prog.lift (normalizeCidr cidr)
  let rows ← listNetworks cfg
  if normalized ∈ rows.map NetworkRow.cidr then do
    saveNetworks (rows.filter fun row => row.cidr ≠ normalized)
    return true
  else return false

def addVipnetNet (cidr : Text) : Command Bool :=
  addOrUpdateNetwork cfg cidr "vipnet" true "VIPNet NAT network"

def removeVipnetNet (cidr : Text) : Command Bool := removeNetwork cfg cidr

def readVipnetNets : Command (List Text) := do
  let rows ← listNetworks cfg
  return (rows.filter NetworkRow.nat).map NetworkRow.cidr

def availableNetworkCidrs : Command (List Text) := do
  let rows ← listNetworks cfg
  return rows.map NetworkRow.cidr

/-- The builtin templates: their names, networks and whether they push DNS. -/
def builtinSpecs (vipnet : List Text) : List (Text × List Text × Bool) :=
  let directum := [hostCidr cfg.directumIp]
  let directum17 := [hostCidr cfg.directumIp, hostCidr cfg.extraDirectumIp]
  let lanFull := [text "192.168.100.0/23", "10.83.1.0/24", "10.10.10.0/23"]
  [("directum", directum, false), ("directum_hosts", directum, false),
    ("directum_dns", directum, true), ("directum17", directum17, false),
    ("directum17_hosts", directum17, false), ("directum17_dns", directum17, true),
    ("vipnet_only", vipnet, false), ("vipnet_only_dns", vipnet, true),
    ("directum_vipnet", directum ++ vipnet, false),
    ("directum_vipnet_dns", directum ++ vipnet, true),
    ("directum17_vipnet", directum17 ++ vipnet, false),
    ("directum17_vipnet_dns", directum17 ++ vipnet, true),
    ("vipnet", directum ++ vipnet, true), ("router_vipnet", directum ++ vipnet, true),
    ("lan_full", lanFull, true)]

/-- `PROFILE_DESCRIPTIONS`. -/
def profileDescriptions : List (Text × Text) :=
  [("directum", "Только Directum 192.168.100.10/32, без DNS и hosts.bat"),
    ("directum_hosts", "Directum 192.168.100.10/32 + hosts.bat, DNS не меняем"),
    ("directum_dns", "Directum 192.168.100.10/32 + DNS 192.168.100.1 + DOMAIN sosnadmin.local"),
    ("directum17", "Directum 192.168.100.10/32 + 192.168.100.17/32, без DNS и hosts.bat"),
    ("directum17_hosts", "Directum + 192.168.100.17 + hosts.bat, DNS не меняем"),
    ("directum17_dns", "Directum + 192.168.100.17 + DNS + DOMAIN"),
    ("vipnet_only", "Только маршруты ViPNet-сетей из vipnet-nets.conf, без DNS"),
    ("vipnet_only_dns", "ViPNet-сети + DNS + DOMAIN"),
    ("directum_vipnet", "Directum + ViPNet-сети, без DNS"),
    ("directum_vipnet_dns", "Directum + DNS + ViPNet-сети"),
    ("directum17_vipnet", "Directum + 192.168.100.17 + ViPNet-сети, без DNS"),
    ("directum17_vipnet_dns", "Directum + 192.168.100.17 + DNS + ViPNet-сети"),
    ("vipnet", "Совместимый профиль: Directum + DNS + ViPNet-сети"),
    ("router_vipnet",
      "Профиль для роутера: Directum + DNS + ViPNet-сети; маршруты на роутерах часто задаются вручную"),
    ("lan_full", "Полный служебный доступ: 192.168.100.0/23, 10.83.1.0/24, 10.10.10.0/23 + DNS")]

def builtinTemplate (spec : Text × List Text × Bool) : Except Stop NetworkTemplate := do
  let cidrs ← uniqueCidrs spec.2.1
  return ⟨spec.1, (profileDescriptions.lookup spec.1).getD [], cidrs, spec.2.2, true⟩

def builtinNetworkTemplates : Command (List NetworkTemplate) := do
  let vipnet ← readVipnetNets cfg
  Prog.lift ((builtinSpecs cfg vipnet).mapM builtinTemplate)

def normalizeTemplateRow (row : NetworkTemplate) : Except Stop NetworkTemplate := do
  let cidrs ← uniqueCidrs row.cidrs
  let name ← normalizeTemplateName row.name
  return { row with name := name, cidrs := cidrs }

def customNetworkTemplates : Command (List NetworkTemplate) := do
  let raw : Option (List NetworkTemplate) ← Prog.get File.templatesDb
  Prog.lift ((raw.getD []).mapM normalizeTemplateRow)

def putTemplate (rows : List NetworkTemplate) (row : NetworkTemplate) : List NetworkTemplate :=
  if row.name ∈ rows.map NetworkTemplate.name then
    rows.map fun other => if other.name = row.name then row else other
  else rows ++ [row]

/-- The order of the key `(row.get("builtin") is False, row["name"])`. -/
def templateLe (row other : NetworkTemplate) : Bool :=
  if row.builtin = other.builtin then Text.le row.name other.name else row.builtin

def listNetworkTemplates : Command (List NetworkTemplate) := do
  let builtin ← builtinNetworkTemplates cfg
  let custom ← customNetworkTemplates
  return ((builtin ++ custom).foldl putTemplate []).insertionSort fun row other => templateLe row other

def saveCustomNetworkTemplates (rows : List NetworkTemplate) : Command Unit := do
  let normalized ← Prog.lift (rows.mapM fun row => normalizeTemplateRow { row with builtin := false })
  Prog.put File.templatesDb (some (normalized.insertionSort fun row other => Text.le row.name other.name))

def addNetworkTemplate (name : Text) (cidrs : List Text) (description : Text)
    (dns : Bool) : Command NetworkTemplate := do
  let name ← Prog.lift (normalizeTemplateName name)
  let builtin ← builtinNetworkTemplates cfg
  Prog.raiseIf (name ∈ builtin.map NetworkTemplate.name) (.exit (.builtinTemplate name))
  let selected ← Prog.lift (uniqueCidrs cidrs)
  let available ← availableNetworkCidrs cfg
  let missing := selected.filter fun cidr => cidr ∉ available
  Prog.raiseIf (missing ≠ []) (.exit (.notInCatalogue missing))
  let custom ← customNetworkTemplates
  let template : NetworkTemplate := ⟨name, description, selected, dns, false⟩
  saveCustomNetworkTemplates ((custom.filter fun row => row.name ≠ name) ++ [template])
  return template

def removeNetworkTemplate (name : Text) : Command Bool := do
  let name ← Prog.lift (normalizeTemplateName name)
  let builtin ← builtinNetworkTemplates cfg
  Prog.raiseIf (name ∈ builtin.map NetworkTemplate.name) (.exit (.builtinTemplate name))
  let custom ← customNetworkTemplates
  if name ∈ custom.map NetworkTemplate.name then do
    saveCustomNetworkTemplates (custom.filter fun row => row.name ≠ name)
    return true
  else return false

def getNetworkTemplate (name : Text) : Command NetworkTemplate := do
  let name ← Prog.lift (normalizeTemplateName name)
  let rows ← listNetworkTemplates cfg
  match rows.find? fun row => row.name = name with
  | some row => return row
  | none => Prog.stop (.exit (.unknownTemplate name))

end

section

open Prog

variable {cfg : Settings} {R W : File → Prop} {rows : List NetworkRow} {templates : List NetworkTemplate}
  {cidr tag name comment : Text} {cidrs : List Text} {nat dns : Bool}

section

variable (hnetworks : R .networksDb) (hnets : R .vipnetNets)
include hnetworks hnets

theorem listNetworks_uses : (listNetworks cfg).Uses R W := by
  apply Uses.bind (uses_get hnetworks)
  intro raw
  cases raw with
  | none =>
    apply Uses.bind (uses_get hnets)
    intro content
    apply Uses.bind (uses_lift _)
    intro nets
    exact uses_pure _
  | some stored =>
    apply Uses.bind (uses_lift _)
    intro rows
    exact uses_pure _

theorem readVipnetNets_uses : (readVipnetNets cfg).Uses R W :=
  Uses.bind (listNetworks_uses hnetworks hnets) fun _ => uses_pure _

theorem availableNetworkCidrs_uses :
    (availableNetworkCidrs cfg).Uses R W :=
  Uses.bind (listNetworks_uses hnetworks hnets) fun _ => uses_pure _

theorem builtinNetworkTemplates_uses :
    (builtinNetworkTemplates cfg).Uses R W :=
  Uses.bind (readVipnetNets_uses hnetworks hnets) fun _ => uses_lift _

end

theorem customNetworkTemplates_uses (htm : R .templatesDb) : customNetworkTemplates.Uses R W :=
  Uses.bind (uses_get htm) fun _ => uses_lift _

theorem getNetworkTemplate_uses (hnetworks : R .networksDb) (hnets : R .vipnetNets)
    (htm : R .templatesDb) :
    (getNetworkTemplate cfg name).Uses R W := by
  apply Uses.bind (uses_lift _)
  intro name
  apply Uses.bind
  · apply Uses.bind (builtinNetworkTemplates_uses hnetworks hnets)
    intro builtin
    apply Uses.bind (customNetworkTemplates_uses htm)
    intro custom
    exact uses_pure _
  · intro rows
    cases rows.find? fun row => row.name = name with
    | none => exact uses_stop _
    | some row => exact uses_pure _

theorem saveNetworks_uses (hnetworks : W .networksDb) (hnets : W .vipnetNets) :
    (saveNetworks rows).Uses R W :=
  Uses.bind (uses_lift _) fun _ => Uses.bind (uses_put hnetworks) fun _ => uses_put hnets

theorem addOrUpdateNetwork_uses (hnetworks : R .networksDb ∧ W .networksDb)
    (hnets : R .vipnetNets ∧ W .vipnetNets) :
      (addOrUpdateNetwork cfg cidr tag nat comment).Uses R W := by
  apply Uses.bind (uses_lift _)
  intro normalized
  apply Uses.bind (listNetworks_uses hnetworks.1 hnets.1)
  intro rows
  apply Uses.bind (saveNetworks_uses hnetworks.2 hnets.2)
  intro _
  exact uses_pure _

theorem removeNetwork_uses (hnetworks : R .networksDb ∧ W .networksDb)
    (hnets : R .vipnetNets ∧ W .vipnetNets) : (removeNetwork cfg cidr).Uses R W := by
  apply Uses.bind (uses_lift _)
  intro normalized
  apply Uses.bind (listNetworks_uses hnetworks.1 hnets.1)
  intro rows
  split
  · exact Uses.bind (saveNetworks_uses hnetworks.2 hnets.2) fun _ => uses_pure _
  · exact uses_pure _

theorem saveCustomNetworkTemplates_uses (htm : W .templatesDb) :
    (saveCustomNetworkTemplates templates).Uses R W :=
  Uses.bind (uses_lift _) fun _ => uses_put htm

theorem addNetworkTemplate_uses (hnetworks : R .networksDb) (hnets : R .vipnetNets)
    (htm : R .templatesDb ∧ W .templatesDb) :
      (addNetworkTemplate cfg name cidrs description dns).Uses R W := by
  apply Uses.bind (uses_lift _)
  intro name
  apply Uses.bind (builtinNetworkTemplates_uses hnetworks hnets)
  intro builtin
  apply Uses.bind (uses_raiseIf _)
  intro _
  apply Uses.bind (uses_lift _)
  intro selected
  apply Uses.bind (availableNetworkCidrs_uses hnetworks hnets)
  intro available
  apply Uses.bind (uses_raiseIf _)
  intro _
  apply Uses.bind (customNetworkTemplates_uses htm.1)
  intro custom
  apply Uses.bind (saveCustomNetworkTemplates_uses htm.2)
  intro _
  exact uses_pure _

theorem removeNetworkTemplate_uses (hnetworks : R .networksDb) (hnets : R .vipnetNets)
    (htm : R .templatesDb ∧ W .templatesDb) : (removeNetworkTemplate cfg name).Uses R W := by
  apply Uses.bind (uses_lift _)
  intro name
  apply Uses.bind (builtinNetworkTemplates_uses hnetworks hnets)
  intro builtin
  apply Uses.bind (uses_raiseIf _)
  intro _
  apply Uses.bind (customNetworkTemplates_uses htm.1)
  intro custom
  split
  · exact Uses.bind (saveCustomNetworkTemplates_uses htm.2) fun _ => uses_pure _
  · exact uses_pure _

end

end WebOvpn.Vpn
