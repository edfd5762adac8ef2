/-
`server.conf`: the managed block of site routes, the directives that `vpnctl`
sets, and the pool of the server.
-/
import WebOvpn.Lib.Json
import WebOvpn.Vpn.Ccd

namespace WebOvpn.Vpn

open Text

def words (line : Text) : List Text := (line.splitOnP CodePoint.isSpace).filter fun word => word ≠ []

def digitValue (c : CodePoint) : Nat :=
  ((CodePoint.decimalZeros.find? fun base => base ≤ c.val && c.val < base + 10).map fun base =>
    c.val - base).getD 0

/-- Decimal digits with single underscores between them. -/
def isNumeral : Text → Bool
  | [] => false
  | [c] => c.isDecimal
  | c :: d :: rest => c.isDecimal && if d.val = 95 then isNumeral rest else isNumeral (d :: rest)

def numeralValue (numeral : Text) : Nat :=
  (numeral.filter CodePoint.isDecimal).foldl (fun n c => 10 * n + digitValue c) 0

def parseInt (value : Text) : Option Int :=
  match strip value with
  | [] => none
  | c :: rest =>
    if c.val = 43 then if isNumeral rest then some (numeralValue rest) else none
    else if c.val = 45 then if isNumeral rest then some (-numeralValue rest) else none
    else if isNumeral (c :: rest) then some (numeralValue (c :: rest)) else none

/-- `str` of a number. -/
def intText (n : Int) : Text := (encodeInt n).map CodePoint.ofChar

/-- `s.replace(old, new)`; the number says how much of an occurrence is still to be skipped. -/
def replaceFrom (old new : Text) : Nat → Text → Text
  | _, [] => []
  | skip + 1, _ :: rest => replaceFrom old new skip rest
  | 0, c :: rest =>
    if old.isPrefixOf (c :: rest) then new ++ replaceFrom old new (old.length - 1) rest
    else c :: replaceFrom old new 0 rest

def readServerConf : Command Text := do
  let content : Option Text ← Prog.get File.serverConf
  return content.getD []

def confText (lines : List Text) : Text := rstrip (joinLines lines) ++ [lineFeed]

def siteRoutesBegin : Text := "# BEGIN VPNCTL SITE ROUTES"

def siteRoutesEnd : Text := "# END VPNCTL SITE ROUTES"

def serverRouteLine (cidr : Text) : Except Stop Text :=
  match Ipv4Network.ofText cidr with
  | some net => .ok (text "route " ++ net.base.text ++ text " " ++ net.mask.text)
  | none => .error (.exit (.badCidr cidr))

def siteRouteOf (v6 : Ipv6) (line : Text) : Option Text :=
  match words line with
  | key :: ip :: mask :: _ => if key = "route" then ipNetworkText v6 ip mask else none
  | _ => none

def siteRoutesIn (v6 : Ipv6) (inBlock : Bool) : List Text → List Text
  | [] => []
  | raw :: rest =>
    if strip raw = siteRoutesBegin then siteRoutesIn v6 true rest
    else if strip raw = siteRoutesEnd then siteRoutesIn v6 false rest
    else if inBlock then (siteRouteOf v6 (strip raw)).toList ++ siteRoutesIn v6 inBlock rest
    else siteRoutesIn v6 inBlock rest

def siteRoutes (v6 : Ipv6) : Command (List Text) := do
  let content ← readServerConf
  return siteRoutesIn v6 false (splitlines content)

def siteBlock (routeLines : List Text) : List Text := siteRoutesBegin :: (routeLines ++ [siteRoutesEnd])

/-- The loop of `write_site_routes`: the first block is replaced, others are dropped. -/
def withSiteBlock (routeLines : List Text) (inBlock written : Bool) : List Text → List Text × Bool
  | [] => ([], written)
  | raw :: rest =>
    if strip raw = siteRoutesBegin then
      let rewritten := withSiteBlock routeLines true true rest
      ((if written then [] else siteBlock routeLines) ++ rewritten.1, rewritten.2)
    else if strip raw = siteRoutesEnd then withSiteBlock routeLines false written rest
    else if inBlock then withSiteBlock routeLines inBlock written rest
    else
      let rewritten := withSiteBlock routeLines inBlock written rest
      (raw :: rewritten.1, rewritten.2)

def siteRoutesText (routeLines : List Text) (current : Text) : Text :=
  let rewritten := withSiteBlock routeLines false false (splitlines current)
  if rewritten.2 then confText rewritten.1
  else
    let blank := if strip (rewritten.1.getLastD []) ≠ [] then [[]] else []
    confText (rewritten.1 ++ blank ++ siteBlock routeLines)

def writeSiteRoutes (v6 : Ipv6) (routes : List Text) : Command (List Text) := do
  let current ← readServerConf
  let cidrs ← Prog.lift (uniqueCidrs routes)
  let routeLines ← Prog.lift (cidrs.mapM serverRouteLine)
  let newText := siteRoutesText routeLines current
  if newText ≠ current then do
    Prog.put File.serverConf (some newText)
    siteRoutes v6
  else siteRoutes v6

def addSiteRoute (cfg : Settings) (v6 : Ipv6) (cidr client : Text) : Command Bool := do
  Prog.raiseIf (client ≠ [] ∧ isClientName client = false) (.exit .badClient)
  let normalized ← Prog.lift (validateRemoteLanCidr cfg cidr)
  let existing ← siteRoutes v6
  let _ ← writeSiteRoutes v6 (existing ++ [normalized])
  return decide (normalized ∉ existing)

def removeSiteRoute (v6 : Ipv6) (cidr : Text) : Command Bool := do
  let normalized ← Prog.lift (normalizeCidr cidr)
  let existing ← siteRoutes v6
  let _ ← writeSiteRoutes v6 (existing.filter fun row => row ≠ normalized)
  return decide (normalized ∈ existing)

/-- The settings that `inspect_server_config` reports and `patch_server_config` writes. -/
structure ServerSettings where
  statusPath : Text
  statusInterval : Int
  statusVersion : Int
  managementEnabled : Bool
  managementSocket : Text
  managementClientGroup : Text
  managementLogCache : Int

/-- What the lines of the file set. -/
structure ParsedServerConf where
  statusPath : Text
  statusInterval : Option Int
  statusVersion : Option Int
  managementEnabled : Bool
  managementSocket : Text
  managementClientGroup : Text
  managementLogCache : Option Int

def parseServerLine (settings : ParsedServerConf) (raw : Text) : ParsedServerConf :=
  let line := strip raw
  if line.head? = some 35 ∨ line.head? = some 59 then settings
  else
    match words line with
    | key :: first :: rest =>
      if key = "status" then
        { settings with
          statusPath := first
          statusInterval := (rest.head?.bind parseInt).or settings.statusInterval }
      else if key = "status-version" then
        { settings with statusVersion := (parseInt first).or settings.statusVersion }
      else if key = "management" then
        if rest.head? = some (text "unix") then
          { settings with managementEnabled := true, managementSocket := first }
        else settings
      else if key = "management-client-group" then { settings with managementClientGroup := first }
      else if key = "management-log-cache" then
        { settings with managementLogCache := (parseInt first).or settings.managementLogCache }
      else settings
    | _ => settings

def parseServerConfigText (content : Text) : ParsedServerConf :=
  (splitlines content).foldl parseServerLine ⟨[], none, none, false, [], [], none⟩

def intOr (value : Option Int) (default : Int) : Int :=
  match value with
  | some n => if n = 0 then default else n
  | none => default

def textOr (value default : Text) : Text := if value = [] then default else value

def inspectServerConfig (cfg : Settings) : Command ServerSettings := do
  let content ← readServerConf
  let parsed := parseServerConfigText content
  return {
    statusPath := textOr parsed.statusPath cfg.statusLog
    statusInterval := intOr parsed.statusInterval 10
    statusVersion := intOr parsed.statusVersion 2
    managementEnabled := parsed.managementEnabled
    managementSocket := textOr parsed.managementSocket cfg.managementSocket
    managementClientGroup := textOr parsed.managementClientGroup cfg.managementClientGroup
    managementLogCache := intOr parsed.managementLogCache cfg.managementLogCache }

/-- `^(?:\d{1,3}\.){3}\d{1,3}:\d+$`. -/
def isHostPort (path : Text) : Bool :=
  match path.splitOn 58 with
  | [host, port] =>
    (host.splitOn 46).length == 4 &&
      ((host.splitOn 46).all fun part => 1 ≤ part.length && part.length ≤ 3 && part.all CodePoint.isDecimal) &&
      port ≠ [] && port.all CodePoint.isDecimal
  | _ => false

def validateManagementSocketPath (value : Text) : Except Stop Text :=
  let path := strip value
  if path = [] then .error (.exit .emptySocket)
  else if isHostPort path ∨ (text "tcp:").isPrefixOf (lower path) ∨ (text "localhost:").isPrefixOf (lower path) ∨
      (text "0.0.0.0:").isPrefixOf (lower path) then .error (.exit .tcpSocket)
  else if path.head? ≠ some slash then .error (.exit .relativeSocket)
  else .ok path

/-- The arguments of `server-config apply`. -/
structure ServerPatch where
  statusInterval : Option Int
  statusVersion : Option Int
  enableManagement : Bool
  managementSocket : Text
  managementClientGroup : Text
  managementLogCache : Option Int

def patchedSocket (patch : ServerPatch) (current : ServerSettings) : Except Stop Text :=
  if patch.managementSocket ≠ [] then validateManagementSocketPath patch.managementSocket
  else if patch.enableManagement ∨ current.managementEnabled then
    validateManagementSocketPath current.managementSocket
  else .ok current.managementSocket

def patchedSettings (patch : ServerPatch) (current : ServerSettings) : Except Stop ServerSettings := do
  let interval := patch.statusInterval.getD current.statusInterval
  if interval < 5 ∨ 300 < interval then throw (.exit .statusInterval)
  let version := patch.statusVersion.getD current.statusVersion
  if version ≠ 2 ∧ version ≠ 3 then throw (.exit .statusVersion)
  let socket ← patchedSocket patch current
  if patch.managementLogCache.any (· < 1) then throw (.exit .logCache)
  return {
    statusPath := current.statusPath
    statusInterval := interval
    statusVersion := version
    managementEnabled := current.managementEnabled || patch.enableManagement || patch.managementSocket ≠ [] ||
      patch.managementClientGroup ≠ [] || patch.managementLogCache.isSome
    managementSocket := socket
    managementClientGroup :=
      if patch.managementClientGroup = [] then current.managementClientGroup
      else normalizeTag patch.managementClientGroup
    managementLogCache := patch.managementLogCache.getD current.managementLogCache }

def serverDirectives : List Text :=
  ["status", "status-version", "management", "management-client-group",
    "management-log-cache"]

def managedLines (settings : ServerSettings) : List Text :=
  let status := [text "status " ++ settings.statusPath ++ text " " ++ intText settings.statusInterval,
    text "status-version " ++ intText settings.statusVersion]
  if settings.managementEnabled then
    status ++ [text "management " ++ settings.managementSocket ++ " unix",
      text "management-client-group " ++ settings.managementClientGroup,
      text "management-log-cache " ++ intText settings.managementLogCache]
  else status

def patchedText (settings : ServerSettings) (current : Text) : Text :=
  let kept := (splitlines current).filter fun raw => (words raw).headD [] ∉ serverDirectives
  let blank := if strip (kept.getLastD []) ≠ [] then [[]] else []
  confText (kept ++ blank ++ managedLines settings)

def patchServerConfig (cfg : Settings) (patch : ServerPatch) : Command Bool := do
  let currentText ← readServerConf
  let current ← inspectServerConfig cfg
  let settings ← Prog.lift (patchedSettings patch current)
  let newText := patchedText settings currentText
  if newText ≠ currentText then do
    Prog.put File.serverConf (some newText)
    return true
  else return false

def serverLine (net : Ipv4Network) : Text := text "server " ++ net.base.text ++ text " " ++ net.mask.text

def parseNetwork (cidr : Text) : Except Stop Ipv4Network :=
  match Ipv4Network.ofText cidr with
  | some net => .ok net
  | none => .error (.exit (.badCidr cidr))

def migrateServerPool (cfg : Settings) (fromCidr toCidr : Text) : Command Bool := do
  let source ← Prog.lift (parseNetwork fromCidr)
  let target ← Prog.lift (parseNetwork toCidr)
  let currentText ← readServerConf
  if contains (serverLine source) currentText then do
    Prog.put File.serverConf (some (replaceFrom (serverLine source) (serverLine target) 0 currentText))
    let _ ← inspectServerConfig cfg
    return true
  else do
    let _ ← inspectServerConfig cfg
    return false

section

open Prog

variable {cfg : Settings} {v6 : Ipv6} {R W : File → Prop}

theorem readServerConf_uses (hsrv : R .serverConf) : readServerConf.Uses R W :=
  Uses.bind (uses_get hsrv) fun _ => uses_pure _

theorem siteRoutes_uses (hsrv : R .serverConf) : (siteRoutes v6).Uses R W :=
  Uses.bind (readServerConf_uses hsrv) fun _ => uses_pure _

theorem writeSiteRoutes_uses (routes : List Text) (hsrv : R .serverConf ∧ W .serverConf) :
    (writeSiteRoutes v6 routes).Uses R W := by
  apply Uses.bind (readServerConf_uses hsrv.1)
  intro current
  apply Uses.bind (uses_lift _)
  intro cidrs
  apply Uses.bind (uses_lift _)
  intro routeLines
  dsimp only
  split
  · exact Uses.bind (uses_put hsrv.2) fun _ => siteRoutes_uses hsrv.1
  · exact siteRoutes_uses hsrv.1

theorem addSiteRoute_uses (cidr client : Text) (hsrv : R .serverConf ∧ W .serverConf) :
    (addSiteRoute cfg v6 cidr client).Uses R W := by
  apply Uses.bind (uses_raiseIf _)
  intro _
  apply Uses.bind (uses_lift _)
  intro normalized
  apply Uses.bind (siteRoutes_uses hsrv.1)
  intro existing
  apply Uses.bind (writeSiteRoutes_uses _ hsrv)
  intro _
  exact uses_pure _

theorem removeSiteRoute_uses (cidr : Text) (hsrv : R .serverConf ∧ W .serverConf) :
    (removeSiteRoute v6 cidr).Uses R W := by
  apply Uses.bind (uses_lift _)
  intro normalized
  apply Uses.bind (siteRoutes_uses hsrv.1)
  intro existing
  apply Uses.bind (writeSiteRoutes_uses _ hsrv)
  intro _
  exact uses_pure _

theorem inspectServerConfig_uses (hsrv : R .serverConf) : (inspectServerConfig cfg).Uses R W :=
  Uses.bind (readServerConf_uses hsrv) fun _ => uses_pure _

theorem patchServerConfig_uses (patch : ServerPatch) (hsrv : R .serverConf ∧ W .serverConf) :
    (patchServerConfig cfg patch).Uses R W := by
  apply Uses.bind (readServerConf_uses hsrv.1)
  intro currentText
  apply Uses.bind (inspectServerConfig_uses hsrv.1)
  intro current
  apply Uses.bind (uses_lift _)
  intro settings
  dsimp only
  split
  · exact Uses.bind (uses_put hsrv.2) fun _ => uses_pure _
  · exact uses_pure _

theorem migrateServerPool_uses (fromCidr toCidr : Text) (hsrv : R .serverConf ∧ W .serverConf) :
    (migrateServerPool cfg fromCidr toCidr).Uses R W := by
  apply Uses.bind (uses_lift _)
  intro source
  apply Uses.bind (uses_lift _)
  intro target
  apply Uses.bind (readServerConf_uses hsrv.1)
  intro currentText
  split
  · apply Uses.bind (uses_put hsrv.2)
    intro _
    exact Uses.bind (inspectServerConfig_uses hsrv.1) fun _ => uses_pure _
  · exact Uses.bind (inspectServerConfig_uses hsrv.1) fun _ => uses_pure _

end

end WebOvpn.Vpn
