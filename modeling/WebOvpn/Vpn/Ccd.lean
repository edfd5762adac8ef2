/-
The CCD file of a client: which addresses and networks it may get, the lines
that are written, and what is read back from them.
-/
import WebOvpn.Vpn.Networks

namespace WebOvpn.Vpn

open Text

inductive ClientType where
  | user
  | routerNat
  | routerSiteToSite
  deriving DecidableEq

def ClientType.name : ClientType → Text
  | .user => "user"
  | .routerNat => "router_nat"
  | .routerSiteToSite => "router_site_to_site"

def clientTypes : List ClientType := [.user, .routerNat, .routerSiteToSite]

def normalizeClientType (clientType : Text) : Except Stop ClientType :=
  let value := strip (if clientType = [] then "user" else clientType)
  match clientTypes.find? fun t => t.name = value with
  | some t => .ok t
  | none => .error (.exit (.unknownClientType value))

def ipRangeContains (start stop a : Ipv4) : Bool := start ≤ a && a ≤ stop

def inPool (cfg : Settings) (clientType : ClientType) (a : Ipv4) : Bool :=
  match clientType with
  | .user => ipRangeContains cfg.userPoolStart cfg.userPoolEnd a
  | _ => ipRangeContains cfg.routerPoolStart cfg.routerPoolEnd a

def validateVpnIp (cfg : Settings) (ip : Text) (clientType : ClientType) : Except Stop Unit :=
  match Ipv4.ofText ip with
  | none => .error (.exit (.badVpnIp ip))
  | some a =>
    if cfg.tunnelCidr.contains a = false then .error (.exit (.outsideTunnel ip))
    else if a = cfg.serverTunnelIp then .error (.exit .serverIp)
    else if inPool cfg clientType a then .ok ()
    else .error (.exit (if clientType = .user then .outsideUserPool else .outsideRouterPool))

def validateRemoteLanCidr (cfg : Settings) (cidr : Text) : Except Stop Text :=
  match Ipv4Network.ofText cidr with
  | none => .error (.exit (.badCidr cidr))
  | some remote =>
    let blocked := cfg.tunnelCidr :: (cfg.centralLanCidrs ++ cfg.vipnetTargetCidrs ++ cfg.legacyCidrs)
    match blocked.find? remote.overlaps with
    | some other => .error (.exit (.overlapping remote.text other))
    | none => .ok remote.text

/-- `validate_client_network_plan`; the remote network it returns is empty for
a client without one. -/
def validateClientNetworkPlan (cfg : Settings) (clientType : ClientType) (vpnIp remoteLan : Text) :
    Except Stop Text :=
  match clientType with
  | .user => do
      if vpnIp ≠ [] then validateVpnIp cfg vpnIp .user
      if remoteLan ≠ [] then .error (.exit .lanOfUser) else .ok []
  | .routerNat => do
      if vpnIp = [] then .error (.exit .routerWithoutIp)
      validateVpnIp cfg vpnIp .routerNat
      if remoteLan ≠ [] then normalizeCidr remoteLan else .ok []
  | .routerSiteToSite => do
      if vpnIp = [] then .error (.exit .routerWithoutIp)
      validateVpnIp cfg vpnIp .routerSiteToSite
      if remoteLan = [] then .error (.exit .siteWithoutLan) else validateRemoteLanCidr cfg remoteLan

/-- `PROFILE_DESCRIPTIONS`, by its keys. -/
inductive Profile where
  | directum
  | directumHosts
  | directumDns
  | directum17
  | directum17Hosts
  | directum17Dns
  | vipnetOnly
  | vipnetOnlyDns
  | directumVipnet
  | directumVipnetDns
  | directum17Vipnet
  | directum17VipnetDns
  | vipnet
  | routerVipnet
  | lanFull
  | custom
  deriving DecidableEq

def Profile.name : Profile → Text
  | .directum => "directum"
  | .directumHosts => "directum_hosts"
  | .directumDns => "directum_dns"
  | .directum17 => "directum17"
  | .directum17Hosts => "directum17_hosts"
  | .directum17Dns => "directum17_dns"
  | .vipnetOnly => "vipnet_only"
  | .vipnetOnlyDns => "vipnet_only_dns"
  | .directumVipnet => "directum_vipnet"
  | .directumVipnetDns => "directum_vipnet_dns"
  | .directum17Vipnet => "directum17_vipnet"
  | .directum17VipnetDns => "directum17_vipnet_dns"
  | .vipnet => "vipnet"
  | .routerVipnet => "router_vipnet"
  | .lanFull => "lan_full"
  | .custom => "custom"

def profiles : List Profile :=
  [.directum, .directumHosts, .directumDns, .directum17, .directum17Hosts, .directum17Dns, .vipnetOnly,
    .vipnetOnlyDns, .directumVipnet, .directumVipnetDns, .directum17Vipnet, .directum17VipnetDns, .vipnet,
    .routerVipnet, .lanFull, .custom]

def validateProfile (profile : Text) : Except Stop Profile :=
  match profiles.find? fun p => p.name = profile with
  | some p => .ok p
  | none => .error (.exit (.unknownProfile profile))

def Profile.hosts : Profile → Bool
  | .directumHosts => true
  | .directum17Hosts => true
  | _ => false

def routeLine (net : Ipv4Network) : Text :=
  text "push \"route " ++ net.base.text ++ text " " ++ net.mask.text ++ "\""

/-- `route_line` on the text of a network, which `ip_network` reads again. -/
def routeLineOf (cidr : Text) : Except Stop Text :=
  match Ipv4Network.ofText cidr with
  | some net => .ok (routeLine net)
  | none => .error .raised

def ifconfigLine (ip : Text) : Text := text "ifconfig-push " ++ ip ++ " 255.255.255.0"

def irouteLine (net : Ipv4Network) : Text := text "iroute " ++ net.base.text ++ text " " ++ net.mask.text

def dnsOptions (cfg : Settings) : List Text :=
  [text "push \"dhcp-option DNS " ++ cfg.dnsIp.text ++ "\"",
    text "push \"dhcp-option DOMAIN " ++ cfg.dnsDomain ++ "\""]

inductive ProfilePart where
  | directum
  | directum17
  | dns
  | vipnetRoutes
  | lanRoutes
  deriving DecidableEq

/-- The branches of `profile_ccd_lines`. -/
def Profile.parts : Profile → List ProfilePart
  | .directum => [.directum]
  | .directumHosts => [.directum]
  | .directumDns => [.directum, .dns]
  | .directum17 => [.directum17]
  | .directum17Hosts => [.directum17]
  | .directum17Dns => [.directum17, .dns]
  | .vipnetOnly => [.vipnetRoutes]
  | .vipnetOnlyDns => [.dns, .vipnetRoutes]
  | .directumVipnet => [.directum, .vipnetRoutes]
  | .directumVipnetDns => [.directum, .dns, .vipnetRoutes]
  | .directum17Vipnet => [.directum17, .vipnetRoutes]
  | .directum17VipnetDns => [.directum17, .dns, .vipnetRoutes]
  | .vipnet => [.directum, .dns, .vipnetRoutes]
  | .routerVipnet => [.directum, .dns, .vipnetRoutes]
  | .lanFull => [.lanRoutes, .dns]
  | .custom => []

def hostRoute (a : Ipv4) : Text := routeLine (Ipv4Network.ofAddress a 32)

def lanNetworks : List Text := ["192.168.100.0/23", "10.83.1.0/24", "10.10.10.0/23"]

def partLines (cfg : Settings) : ProfilePart → Command (List Text)
  | .directum => return [hostRoute cfg.directumIp]
  | .directum17 => return [hostRoute cfg.directumIp, hostRoute cfg.extraDirectumIp]
  | .dns => return hostRoute cfg.dnsIp :: dnsOptions cfg
  | .vipnetRoutes => do
      let nets ← readVipnetNets cfg
      Prog.lift (nets.mapM routeLineOf)
  | .lanRoutes => Prog.lift (lanNetworks.mapM routeLineOf)

/-- The lines of the groups, one group after the other. -/
def partsLines (cfg : Settings) : List ProfilePart → Command (List Text)
  | [] => return []
  | part :: rest => do
      let lines ← partLines cfg part
      let more ← partsLines cfg rest
      return lines ++ more

def headLines (vpnIp : Text) (clientType : ClientType) (remoteLan : Text) : Except Stop (List Text) :=
  let ifconfig := if vpnIp = [] then [] else [ifconfigLine vpnIp]
  if clientType = .routerSiteToSite ∧ remoteLan ≠ [] then
    match Ipv4Network.ofText remoteLan with
    | some net => .ok (ifconfig ++ [irouteLine net])
    | none => .error .raised
  else .ok ifconfig

def profileCcdLines (cfg : Settings) (profile : Profile) (vpnIp : Text) (clientType : ClientType)
    (remoteLan : Text) : Command (List Text) := do
  let remoteLan ← Prog.lift (validateClientNetworkPlan cfg clientType vpnIp remoteLan)
  let front ← Prog.lift (headLines vpnIp clientType remoteLan)
  let routes ← partsLines cfg profile.parts
  return front ++ routes

def ccdText (lines : List Text) : Text := joinLines lines ++ [lineFeed]

def ccdContent (cfg : Settings) (profile : Profile) (vpnIp : Text) (clientType : ClientType)
    (remoteLan : Text) : Command Text := do
  let lines ← profileCcdLines cfg profile vpnIp clientType remoteLan
  return ccdText lines

def ccdContentFromNetworks (cfg : Settings) (cidrs : List Text) (vpnIp : Text) (dns : Bool) :
    Except Stop Text := do
  if vpnIp ≠ [] then validateVpnIp cfg vpnIp .user
  let selected ← uniqueCidrs cidrs
  let routes ← selected.mapM routeLineOf
  let ifconfig := if vpnIp = [] then [] else [ifconfigLine vpnIp]
  let dnsRoute := if dns ∧ hostCidr cfg.dnsIp ∉ selected then [hostRoute cfg.dnsIp] else []
  return ccdText (ifconfig ++ routes ++ dnsRoute ++ if dns then dnsOptions cfg else [])

/-- The answers of `ipaddress` on what is no IPv4 text: `ip_network` writes an
IPv6 network, and `ip_address` may find an IPv6 address. -/
structure Ipv6 where
  network : Text → Option Text
  isAddress : Text → Bool

def ipNetworkText (v6 : Ipv6) (ip mask : Text) : Option Text :=
  let t := ip ++ slash :: mask
  match Ipv4Network.ofText t with
  | some net => some net.text
  | none => v6.network t

/-- The next token without spaces and what stands behind it, if a space and then
the token do. -/
def nextToken (rest : Text) : Option (Text × Text) :=
  let afterSpace := rest.dropWhile CodePoint.isSpace
  let token := afterSpace.takeWhile fun c => !c.isSpace
  if afterSpace.length < rest.length ∧ token ≠ [] then some (token, afterSpace.drop token.length) else none

def matchIroute (line : Text) : Option (Text × Text) :=
  if (text "iroute").isPrefixOf line then
    match nextToken (line.drop 6) with
    | none => none
    | some (ip, rest) => (nextToken rest).map fun mask => (ip, mask.1)
  else none

/-- What stands in front of the last quotation mark. -/
def beforeLastQuote (token : Text) : Option Text :=
  if 34 ∈ token then some (token.reverse.dropWhile (· ≠ 34)).tail.reverse else none

/-- `push\s+"route\s+(\S+)\s+(\S+)"`, matched at the start of the line. -/
def matchRoute (line : Text) : Option (Text × Text) :=
  if (text "push").isPrefixOf line then
    let rest := line.drop 4
    let quoted := rest.dropWhile CodePoint.isSpace
    if quoted.length < rest.length ∧ (text "\"route").isPrefixOf quoted then
      match nextToken (quoted.drop 6) with
      | none => none
      | some (ip, rest) =>
        match nextToken rest with
        | none => none
        | some (token, _) =>
          match beforeLastQuote token with
          | none => none
          | some mask => if mask = [] then none else some (ip, mask)
    else none
  else none

/-- The answer of `parse_ccd`; the sets are lists without repetition. -/
structure ParsedCcd where
  routes : List Text
  iroutes : List Text
  dns : Bool
  vpnIp : Option Text

def networksIn (v6 : Ipv6) (pattern : Text → Option (Text × Text)) (lines : List Text) : List Text :=
  distinct (lines.filterMap fun line => (pattern line).bind fun found => ipNetworkText v6 found.1 found.2)

def parseCcd (v6 : Ipv6) (content : Text) : ParsedCcd :=
  let lines := (splitlines content).map strip
  { routes := networksIn v6 matchRoute lines
    iroutes := networksIn v6 matchIroute lines
    dns := lines.any fun line => contains "dhcp-option DNS" line
    vpnIp := parseCcdVpnIp content }

def parseCcdFile (v6 : Ipv6) (content : Option Text) : ParsedCcd :=
  match content with
  | none => ⟨[], [], false, none⟩
  | some content => parseCcd v6 content

/-- `infer_client_type_from_ccd`; comparing an IPv6 address with the pool raises. -/
def inferClientTypeFromCcd (cfg : Settings) (v6 : Ipv6) (parsed : ParsedCcd) : Except Stop ClientType :=
  if parsed.iroutes ≠ [] then .ok .routerSiteToSite
  else
    match parsed.vpnIp with
    | none => .ok .user
    | some ip =>
      match Ipv4.ofText ip with
      | some a => .ok (if ipRangeContains cfg.routerPoolStart cfg.routerPoolEnd a then .routerNat else .user)
      | none => if v6.isAddress ip then .error .raised else .ok .user

/-- `sorted(parsed.get("iroutes", []))[0] if parsed.get("iroutes") else None`. -/
def firstIroute (parsed : ParsedCcd) : Option Text :=
  (parsed.iroutes.insertionSort fun net other => Text.le net other).head?

/-- `infer_profile`, given the ViPNet networks of the catalogue. -/
def inferProfile (cfg : Settings) (parsed : ParsedCcd) (hasBat : Bool) (vipnets : List Text) : Text :=
  let hasVip := parsed.routes.any fun route => vipnets.contains route
  let hasD := parsed.routes.contains (hostCidr cfg.directumIp)
  let hasD17 := parsed.routes.contains (hostCidr cfg.extraDirectumIp)
  if lanNetworks.all fun net => parsed.routes.contains net then "lan_full"
  else if hasVip then
    if hasD17 then if parsed.dns then "directum17_vipnet_dns" else "directum17_vipnet"
    else if hasD then if parsed.dns then "vipnet" else "directum_vipnet"
    else if parsed.dns then "vipnet_only_dns" else "vipnet_only"
  else if hasD17 then
    if parsed.dns then "directum17_dns"
    else if hasBat then "directum17_hosts" else "directum17"
  else if hasD then
    if parsed.dns then "directum_dns" else if hasBat then "directum_hosts" else "directum"
  else if parsed.routes.contains (hostCidr cfg.dnsIp) && parsed.dns then "dns_only"
  else "unknown"

end WebOvpn.Vpn
