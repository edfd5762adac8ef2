/-
Resolver configuration: the policy, what the files of the three backends say,
and the configuration with the servers of the policy.
-/
import WebOvpn.Lib.ConfigParser
import WebOvpn.Lib.JsonText

namespace WebOvpn.Resolver

open Text
open ConfigParser (isChar Sections)

/-- An address as `ipaddress` knows it: its text, its version, and whether it is
no loopback, unspecified, multicast or link-local address. -/
structure Address where
  text : Text
  version : Nat
  isHost : Bool

/-- `ipaddress.ip_address`. `none` is a `ValueError`. -/
abbrev IpAddress := Text → Option Address

variable (ipAddress : IpAddress)

/-- The servers of `validate` from a place on. -/
def validateFrom (done : List Text) : List Text → Option (List Text)
  | [] => some done
  | item :: rest =>
    if item.any (isChar '%') then none
    else
      match ipAddress item with
      | none => none
      | some address => if !address.isHost || address.text ∈ done then none
        else validateFrom (done ++ [address.text]) rest

def validate (servers : List Text) : Option (List Text) :=
  if 1 ≤ servers.length ∧ servers.length ≤ 4 then validateFrom ipAddress [] servers else none

def words (line : Text) : List Text := (line.splitOnP CodePoint.isSpace).filter fun word => word ≠ []

/-- The name servers of lines, after those before them. -/
def resolversFrom (done : List Text) : List Text → Option (List Text)
  | [] => if done.isEmpty then none else some done
  | line :: rest =>
    match words (line.takeWhile fun c => !isChar '#' c) with
    | [] => resolversFrom done rest
    | first :: more =>
      if first = "nameserver" then
        match more with
        | [value] =>
          match ipAddress value with
          | none => none
          | some address => if address.text ∈ done then none
            else resolversFrom (done ++ [address.text]) rest
        | _ => none
      else resolversFrom done rest

def resolvers (data : Bytes) : Option (List Text) :=
  (decode data).bind fun content => resolversFrom ipAddress [] (splitlines content)

def shellValue (value : Text) : Option Text :=
  match value with
  | [] => none
  | c :: rest =>
    if isChar '"' c || isChar '\'' c then
      match rest.reverse with
      | [] => none
      | d :: inner => if d = c && !inner.any (fun e => e = c || isChar '\n' e) then some inner.reverse else none
    else if value.all fun e => e.isAlnum || isChar '_' e || isChar '.' e || isChar ':' e ||
      isChar '-' e then some value
    else none

def shellOptions (data : Bytes) : Option (List (Text × Text)) := do
  let content ← decode data
  (splitlines content).foldlM (fun options line => do
    let line := strip line
    if line.isEmpty ∨ line.head?.any (isChar '#') then return options
    let (name, value) ← splitAtFirst (isChar '=') line
    let value ← shellValue value
    if name.head?.any CodePoint.isUpper ∧ name.all (fun c => c.isUpper || c.isDigit || isChar '_' c) ∧
        name ∉ options.map Prod.fst then
      return options ++ [(name, value)]
    else none) []

/-- `configparser.ConfigParser(interpolation=None, strict=True)`. -/
def parser : ConfigParser.Setup := ⟨lower, "DEFAULT"⟩

def keyfile (data : Bytes) : Option Sections := (decode data).bind (ConfigParser.parseSections parser)

def familyServers (sections : Sections) (family : String) : Option (List Text) :=
  if text family ∈ sections.map Prod.fst then
    ((((sections.get? parser (text family) "dns").getD []).splitOn (CodePoint.ofChar ';')).filter
      fun value => value ≠ []).mapM fun value => (ipAddress value).map Address.text
  else none

/-- `persistent` of a key file. -/
def keyfileServers (sections : Sections) : Option (List Text) := do
  let ipv4 ← familyServers ipAddress sections "ipv4"
  let ipv6 ← familyServers ipAddress sections "ipv6"
  return ipv4 ++ ipv6

/-- `re.match(r'^\s*nameserver\s', line)`. -/
def isNameserver (line : Text) : Bool :=
  let rest := line.dropWhile CodePoint.isSpace
  (text "nameserver").isPrefixOf rest && (rest.drop 10).head?.any CodePoint.isSpace

def serverLines (newline : Text) (servers : List Text) : List Text :=
  servers.map fun server => text "nameserver " ++ server ++ newline

def replaceServers (newline : Text) (servers : List Text) : Bool → List Text → List Text × Bool
  | inserted, [] => ([], inserted)
  | inserted, line :: rest =>
    if isNameserver line then
      let (lines, found) := replaceServers newline servers true rest
      (if inserted then lines else serverLines newline servers ++ lines, found)
    else
      let (lines, found) := replaceServers newline servers inserted rest
      (line :: lines, found)

def joinServers (version : Nat) (servers : List Text) : Text :=
  (servers.filter fun server => (ipAddress server).any fun address =>
    address.version = version).flatMap fun server =>
    server ++ ";"

/-- `desired.get(section)`. -/
def desiredOptions (servers : List Text) (heading : Option Text) : List (Text × Text) :=
  if heading = some (text "ipv4") then [("dns", joinServers ipAddress 4 servers), ("ignore-auto-dns", "true")]
  else if heading = some (text "ipv6") then
    [("dns", joinServers ipAddress 6 servers), ("ignore-auto-dns", "true")]
  else []

def finishSection (newline : Text) (desired : List (Text × Text)) (seen : List Text) : List Text :=
  (desired.filter fun entry => entry.1 ∉ seen && (entry.1 ≠ text "dns" || !entry.2.isEmpty)).map fun entry =>
    entry.1 ++ text "=" ++ entry.2 ++ newline

/-- `re.fullmatch(r'\s*\[([^\]]+)\]\s*', line.strip())`. -/
def plainHeader (line : Text) : Option Text :=
  match strip line with
  | [] => none
  | c :: rest =>
    if isChar '[' c then
      match rest.reverse with
      | d :: header => if isChar ']' d && !header.isEmpty &&
        !header.any (isChar ']') then some header.reverse else none
      | [] => none
    else none

def replaceOptions (newline : Text) (servers : List Text) : Option Text → List Text →
    List Text → List Text
  | heading, seen, [] => finishSection newline (desiredOptions ipAddress servers heading) seen
  | heading, seen, line :: rest =>
    match plainHeader line with
    | some header =>
      finishSection newline (desiredOptions ipAddress servers heading) seen ++
        line :: replaceOptions newline servers (some header) [] rest
    | none =>
      let key := strip (line.takeWhile fun c => !isChar '=' c)
      match (desiredOptions ipAddress servers heading).lookup key with
      | some value =>
        (key ++ text "=" ++ value ++ newline) :: replaceOptions newline servers heading (key :: seen) rest
      | none => line :: replaceOptions newline servers heading seen rest

inductive Backend where
  | nmKeyfile
  | nmEtcnet
  | etcnet
  deriving DecidableEq

/-- `rewrite` of a file that exists, or of none. -/
def rewrite (backend : Backend) (content : Option Bytes) (servers : List Text) : Option Bytes := do
  let servers ← validate ipAddress servers
  match content with
  | none => utf8Bytes (serverLines (text "\n") servers).flatten
  | some data =>
    let content ← decode data
    let newline := if contains (text "\r\n") content then text "\r\n" else text "\n"
    if backend = .nmKeyfile then
      utf8Bytes (replaceOptions ipAddress newline servers none [] (keptLines content)).flatten
    else
      let (lines, inserted) := replaceServers newline servers false (keptLines content)
      if inserted then utf8Bytes lines.flatten else none

end WebOvpn.Resolver
