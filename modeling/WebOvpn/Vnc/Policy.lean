/-
The inspection of a workstation before its old restriction of VNC is retired:
whose the files and the tables are, and whether other rules stand in the way.
-/
import WebOvpn.Lib.JsonParse
import WebOvpn.Lib.JsonText
import WebOvpn.Vpn.ServerConf

namespace WebOvpn.Vnc

open Vpn (parseInt words)

/-- The codes of a `PolicyError`. -/
inductive PolicyCode where
  | ownershipUnverified
  | machineUnverified
  | observationUnverified
  | snapshotChanged
  | externalBlocker
  | listenerAuthenticationUnverified
  | backupUnverified
  | outcomeUnverified
  deriving DecidableEq

/-- Exceptions.  `caught` are those of the last handler of `apply_policy`:
`OSError`, `ValueError`, `TypeError`, `KeyError`, `AttributeError` and
`SubprocessError`. -/
inductive Exc where
  | policy (code : PolicyCode)
  | caught
  deriving DecidableEq

def invalid : Exc := .policy .ownershipUnverified

/-- What the interpreter computes: a digest, the equality of numbers of which one
is a float, and whether the float of a token is finite. -/
structure Runtime where
  sha256 : Bytes → Text
  floatEq : JVal → JVal → Bool
  isFinite : List Char → Bool

def table : Text := "alt_vnc_restrict"

def unitPath : Text := "/etc/systemd/system/alt-vnc-network-restrict.service"

def unitSha256 : Text := "0d9eb149a8a765cb8d115b94a77b5a6bcb5c856dbf202032ad7697aa0dd8bf86"

def helperSha256 : Text := "560b6a6b3f5aeaba2e2408e7db0783e6a9ad0eaf393161b03336caa719946a78"

def policy : JVal :=
  .obj [("port", .int 5900), ("scope", .str "direct"),
    ("authentication", .str "password_required")]

def jsonBytes (value : JVal) : Bytes := asciiBytes (dumps compact value)

variable (rt : Runtime)

def digest (value : JVal) : Text := rt.sha256 (jsonBytes value)

def policySha256 : Text := digest rt policy

/-- The value of a number that is no float. -/
def integerOf : JVal → Option Int
  | .bool b => some (if b then 1 else 0)
  | .int n => some n
  | _ => none

def isNumber : JVal → Bool
  | .bool _ | .int _ | .float _ => true
  | _ => false

mutual

/-- `a == b`. -/
def pyEq : JVal → JVal → Bool
  | .null, .null => true
  | .str a, .str b => a = b
  | .arr a, .arr b => pyEqItems a b
  | .obj a, .obj b => a.length = b.length && pyEqMembers a b
  | a, b =>
    match integerOf a, integerOf b with
    | some m, some n => m = n
    | _, _ => isNumber a && isNumber b && rt.floatEq a b

def pyEqItems : List JVal → List JVal → Bool
  | [], [] => true
  | a :: as, b :: bs => pyEq a b && pyEqItems as bs
  | _, _ => false

def pyEqMembers : List (Text × JVal) → List (Text × JVal) → Bool
  | [], _ => true
  | (key, a) :: rest, members =>
    (match members.lookup key with
      | some b => pyEq a b
      | none => false) && pyEqMembers rest members

end

mutual

/-- What `json.dumps` with `allow_nan=False` accepts. -/
def isFiniteJson : JVal → Bool
  | .float token => rt.isFinite token
  | .arr items => itemsFinite items
  | .obj members => membersFinite members
  | _ => true

def itemsFinite : List JVal → Bool
  | [] => true
  | value :: rest => isFiniteJson value && itemsFinite rest

def membersFinite : List (Text × JVal) → Bool
  | [] => true
  | (_, value) :: rest => isFiniteJson value && membersFinite rest

end

def get (members : List (Text × JVal)) (name : String) : JVal := Members.field members name

/-- A value that can be the key of a dictionary. -/
def isHashable : JVal → Bool
  | .arr _ | .obj _ => false
  | _ => true

/-- A file as `stat` and reading see it. -/
structure FileInfo where
  regular : Bool
  owned : Bool
  mode : Nat
  links : Nat
  data : Bytes
  deriving DecidableEq

/-- What is at a path.  `symlink` stands for a path of which some part is one. -/
inductive PathState where
  | absent
  | symlink
  | file (info : FileInfo)
  deriving DecidableEq

def ownedFile (path : PathState) (expected : Text) (modes : List Nat) : Except Exc Bool :=
  match path with
  | .symlink => .error invalid
  | .absent => .ok false
  | .file info =>
    if info.regular = false ∨ info.owned = false ∨ info.mode ∉ modes ∨ 65536 < info.data.length ∨
      info.links ≠ 1 then
      .error invalid
    else if rt.sha256 info.data ≠ expected then .error invalid
    else .ok true

def privateData (info : FileInfo) (limit : Nat) : Except Exc Bytes :=
  if info.regular = false ∨ info.owned = false ∨ info.mode ≠ 0o600 ∨ info.links ≠ 1 ∨
    limit < info.data.length then
    .error invalid
  else .ok info.data

/-- The entry of a list of rules: its kind and its members. -/
abbrev NftObject := Text × Members

def entryObject : JVal → Except Exc NftObject
  | .obj [(kind, .obj members)] => .ok (kind, members)
  | _ => .error invalid

def objects (document : JVal) : Except Exc (List NftObject) :=
  match document with
  | .obj [(key, .arr entries)] =>
    if key ≠ "nftables" ∨ 10000 < entries.length ∨ isFiniteJson rt document = false ∨
        2097152 < (encode spaced document).length then
      .error invalid
    else do
      let found ← entries.mapM entryObject
      return found.filter (·.1 ≠ "metainfo")
  | _ => .error invalid

def isLegacyObject (object : NftObject) : Bool :=
  get object.2 "table" = .str table || (object.1 = "table" && get object.2 "name" = .str table)

/-- The elements that a loop over a value visits. -/
def iterate : JVal → Except Exc (List JVal)
  | .arr items => .ok items
  | .obj members => .ok (members.map fun member => .str member.1)
  | .str s => .ok (s.map fun c => .str [c])
  | _ => .error .caught

/-- `type(n) is int and n >= 0`. -/
def isCount : JVal → Bool
  | .int n => 0 ≤ n
  | _ => false

def normalizeExpression (expression : JVal) : Except Exc JVal :=
  match expression with
  | .obj [(key, counter)] =>
    if key ≠ "counter" then .ok expression
    else
      match counter with
      | .obj members =>
        if members.length = 2 ∧ (members.lookup (text "packets")).any isCount ∧
            (members.lookup (text "bytes")).any isCount then
          .ok (.obj [("counter", .obj [])])
        else .error invalid
      | _ => .error invalid
  | _ => .ok expression

def normalize (object : NftObject) : Except Exc JVal :=
  let result := object.2.filter (·.1 ≠ text "handle")
  if object.1 = "rule" then do
    let expressions ← iterate ((memberOf object.2 "expr").getD (.arr []))
    let kept ← expressions.mapM normalizeExpression
    return .obj [(object.1, .obj (dictInsert result "expr" (.arr kept)))]
  else .ok (.obj [(object.1, .obj result)])

def expectedLegacy : List JVal :=
  let inet : Text × JVal := ("family", .str "inet")
  let input : Text × JVal := ("chain", .str "input")
  let inTable : Text × JVal := ("table", .str table)
  let key (name : String) : JVal := .obj [("meta", .obj [("key", .str (text name))])]
  [.obj [("table", .obj [inet, ("name", .str table)])],
    .obj [("chain", .obj [inet, inTable, ("name", .str "input"), ("type", .str "filter"),
      ("hook", .str "input"), ("prio", .int (-10)), ("policy", .str "accept")])],
    .obj [("rule", .obj [inet, inTable, input,
      ("comment", .str "VNC only through local SSH tunnel"),
      ("expr", .arr [
        .obj [("match", .obj [("op", .str "!="), ("left", key "iifname"),
          ("right", .str "lo")])],
        .obj [("match", .obj [("op", .str "=="),
          ("left", .obj [("payload", .obj [("protocol", .str "tcp"),
            ("field", .str "dport")])]),
          ("right", .int 5900)])],
        .obj [("counter", .obj [])],
        .obj [("reject", .obj [("type", .str "tcp reset")])]])])]]

/-- `type(right) is int and right != 5900`. -/
def isOtherPort : JVal → Bool
  | .int port => port ≠ 5900
  | _ => false

def matchIsNotVnc (found : Members) : Except Exc Bool :=
  let left := get found "left"
  let right := get found "right"
  if pyEq rt left (.obj [("meta", .obj [("key", .str "l4proto")])]) ∧ right = .str "udp" then
    .ok true
  else if pyEq rt left (.obj [("payload", .obj [("protocol", .str "tcp"),
      ("field", .str "dport")])]) ∧ isOtherPort right then
    .ok true
  else
    match left with
    | .obj members =>
      match memberOf members "payload" with
      | none => .ok false
      | some (.obj payload) => .ok (get payload "protocol" = .str "udp")
      | some _ => .error .caught
    | _ => .ok false

def notVnc : List JVal → Except Exc Bool
  | [] => .ok false
  | expression :: rest =>
    match expression with
    | .obj members =>
      match (memberOf members "match").getD (.obj []) with
      | .obj found =>
        if get found "op" ≠ .str "==" then notVnc rest
        else do
          if ← matchIsNotVnc rt found then return true else notVnc rest
      | _ => notVnc rest
    | _ => notVnc rest

abbrev ChainKey := JVal × JVal × JVal

/-- A key of a dictionary; a `TypeError` for a value without a hash. -/
def chainKey (value : Members) (name : String) : Except Exc ChainKey :=
  let key := (get value "family", get value "table", get value name)
  if isHashable key.1 ∧ isHashable key.2.1 ∧ isHashable key.2.2 then .ok key else .error .caught

/-- The chains with their keys and the rules with the keys of their chains; none
when two chains have one key. -/
def chainsAndRules : List NftObject → List (ChainKey × Members) → List (ChainKey × Members) →
    Except Exc (Option (List (ChainKey × Members) × List (ChainKey × Members)))
  | [], chains, rules => .ok (some (chains, rules))
  | (kind, value) :: rest, chains, rules =>
    if kind = "chain" then do
      let key ← chainKey value "name"
      if key ∈ chains.map Prod.fst then return none
      else chainsAndRules rest (chains ++ [(key, value)]) rules
    else if kind = "rule" then do
      let key ← chainKey value "chain"
      chainsAndRules rest chains (rules ++ [(key, value)])
    else chainsAndRules rest chains rules

/-- Every element passes, looked at up to the first that does not. -/
def allPass {α : Type} (passes : α → Except Exc Bool) : List α → Except Exc Bool
  | [] => .ok true
  | a :: rest => do
      if ← passes a then allPass passes rest else return false

def harmlessOperations : List Text :=
  ["match", "counter", "log", "accept", "return", "continue"]

/-- An expression of a rule that may concern the port; `target` looks at the
chain that a jump names. -/
def expressionClear (key : ChainKey) (target : ChainKey → Except Exc Bool) (expression : JVal) :
    Except Exc Bool :=
  match expression with
  | .obj [(operation, value)] =>
    if operation = "drop" ∨ operation = "reject" then .ok false
    else if operation = "jump" ∨ operation = "goto" then
      match value with
      | .obj [(name, destination)] =>
        if name ≠ "target" then .ok false
        else if isHashable destination then target (key.1, key.2.1, destination)
        else .error .caught
      | _ => .ok false
    else .ok (operation ∈ harmlessOperations)
  | _ => .ok false

/-- `clear`.  A chain is entered at most once on a path, so that as many turns as
there are chains are enough. -/
def chainClear (chains rules : List (ChainKey × Members)) : Nat → ChainKey → List ChainKey →
    Except Exc Bool
  | 0, _, _ => .ok false
  | turns + 1, key, ancestry =>
    if key ∈ ancestry ∨ key ∉ chains.map Prod.fst then .ok false
    else
      allPass (fun rule : ChainKey × Members =>
        match get rule.2 "expr" with
        | .arr expressions => do
            if ← notVnc rt expressions then return true
            else allPass (expressionClear key fun next => chainClear chains rules turns next (key :: ancestry)) expressions
        | _ => .ok false)
        (rules.filter (·.1 = key))

def externalClear (others : List NftObject) : Except Exc Bool := do
  match ← chainsAndRules others [] [] with
  | none => return false
  | some (chains, rules) =>
    allPass (fun chain : ChainKey × Members =>
      if get chain.2 "hook" = .str "input" then
        if get chain.2 "policy" ≠ .str "accept" then .ok false
        else chainClear rt chains rules (chains.length + 1) chain.1 []
      else .ok true) chains

structure Service where
  loadState : Text
  activeState : Text
  subState : Text
  unitFileState : Text
  mainPid : Int
  dropIns : List Text
  fragmentPath : Text

def splitProperty (line : Text) : Text × Text :=
  (line.takeWhile fun c => c ≠ '=', (line.dropWhile fun c => c ≠ CodePoint.ofChar '=').drop 1)

/-- `dict(line.split('=', 1) for line in output.splitlines() if '=' in line)`; the
last line of a name wins. -/
def propertiesOf (output : Text) : List (Text × Text) :=
  (((Text.splitlines output).filter fun line => CodePoint.ofChar '=' ∈ line).map splitProperty).reverse

def property (properties : List (Text × Text)) (name : String) : Option Text :=
  properties.lookup (text name)

/-- The service of an output, or the `KeyError` or `ValueError` of reading it. -/
def serviceOfProperties (properties : List (Text × Text)) : Except Exc Service :=
  match property properties "LoadState", property properties "ActiveState", property properties "SubState",
    property properties "MainPID" with
  | some loadState, some activeState, some subState, some mainPid =>
    match parseInt mainPid with
    | none => .error .caught
    | some pid =>
      .ok ⟨loadState, activeState, subState, (property properties "UnitFileState").getD [], pid,
        words ((property properties "DropInPaths").getD []), (property properties "FragmentPath").getD []⟩
  | _, _, _, _ => .error .caught

/-- The pass of `_collect` over the output of `systemctl show`. -/
def serviceOf (failed : Bool) (output : Text) : Except Exc Service :=
  let properties := propertiesOf output
  if failed ∧ property properties "LoadState" ≠ some (text "not-found") then
    .error (.policy .observationUnverified)
  else serviceOfProperties properties

/-- The result of `inspect_legacy`. -/
structure Legacy where
  ownedLegacy : Bool
  legacyTablePresent : Bool
  retirementRequired : Bool
  serviceDisabled : Bool
  externalPolicyClear : Bool
  deriving DecidableEq

/-- The checks on the service: whether its state is one that the unit, present or
absent, can have. -/
def serviceIsKnown (unit : Bool) (service : Service) : Bool :=
  if unit then
    service.loadState = "loaded" && service.fragmentPath = unitPath &&
      (service.unitFileState = "enabled" || service.unitFileState = "disabled") &&
      ((service.activeState = "inactive" && service.subState = "dead") ||
        (service.activeState = "active" && service.subState = "exited"))
  else
    service.loadState = "not-found" && service.fragmentPath = [] && service.unitFileState = [] &&
      service.activeState = text "inactive"

def inspectLegacyBody (unitFile helperFile : PathState) (document : JVal)
    (service : Service) : Except Exc Legacy := do
  let unit ← ownedFile rt unitFile unitSha256 [0o644, 0o444]
  let helper ← ownedFile rt helperFile helperSha256 [0o700, 0o755, 0o500, 0o555]
  if unit ≠ helper ∨ service.dropIns ≠ [] ∨ service.mainPid ≠ 0 ∨
    serviceIsKnown unit service = false then throw invalid
  else
    let found ← objects rt document
    let ours := found.filter isLegacyObject
    if ours.any (fun object => get object.2 "family" ≠ .str "inet") then throw invalid
    else
      let owned ← ours.mapM normalize
      if owned ≠ [] ∧ (unit = false ∨ pyEqItems rt owned expectedLegacy = false) then throw invalid
      else
        let disabled := !unit || (service.unitFileState = "disabled" && service.activeState = "inactive")
        let isClear ← externalClear rt (found.filter fun object => !isLegacyObject object)
        return ⟨unit, owned ≠ [], owned ≠ [] || !disabled, disabled, isClear⟩

def inspectLegacy (unitFile helperFile : PathState) (document : JVal) (service : Service) :
    Except Exc Legacy :=
  match inspectLegacyBody rt unitFile helperFile document service with
  | .error .caught => .error invalid
  | result => result

/-- The rules that are none of the legacy table, without handles and counts. -/
def othersOf (document : JVal) : Except Exc (List JVal) := do
  let found ← objects rt document
  (found.filter fun object => !isLegacyObject object).mapM normalize

/-- The lines of `ss`. -/
def listenerRows (failed : Bool) (listeners : Text) : Except Exc (List (List Text)) :=
  if failed ∨ 16384 < listeners.length then .error (.policy .observationUnverified)
  else
    let rows := ((Text.splitlines listeners).filter fun line => Text.strip line ≠ []).map words
    if 32 < rows.length ∨ rows.any (fun row =>
        row.length < 5 ∨ row.head? ≠ some (text "LISTEN") ∨ !Text.endswith ((row[3]?).getD []) ":5900") then
      .error (.policy .observationUnverified)
    else .ok rows

/-- `[0-9a-f]{8}(?:-[0-9a-f]{4}){3}-[0-9a-f]{12}`. -/
def uuidPattern : List (CodePoint → Bool) :=
  List.replicate 8 CodePoint.isLowerHex ++
    (List.replicate 3 (Text.literal "-" ++ List.replicate 4 CodePoint.isLowerHex)).flatten ++
    Text.literal "-" ++ List.replicate 12 CodePoint.isLowerHex

/-- `re.fullmatch(pattern, value)`; a `TypeError` for what is no text. -/
def matchesText (test : Text → Bool) : JVal → Except Exc Bool
  | .str s => .ok (test s)
  | _ => .error .caught

/-- The checks of `_marker` on what the file holds. -/
def markerIsValid (machineUuid : Text) (value : JVal) : Except Exc Bool :=
  match value with
  | .obj members =>
    if members.length = 6 ∧ (["schema_version", "kind", "machine_uuid", "policy_sha256", "source_sha256",
        "applied_boot_id"].all fun name => (memberOf members name).isSome) ∧
        get members "schema_version" = .int 1 ∧
        get members "kind" = .str "complete_workstation_direct_vnc" ∧
        get members "machine_uuid" = .str machineUuid ∧
        get members "policy_sha256" = .str (policySha256 rt) then do
      if ← matchesText Text.isSha256 (get members "source_sha256") then
        matchesText (Text.fullmatch uuidPattern) (get members "applied_boot_id")
      else return false
    else .ok false
  | _ => .ok false

structure Marker where
  sourceSha256 : JVal
  digest : Text

def markerOfData (machineUuid : Text) (data : Bytes) : Except Exc Marker :=
  match loads data with
  | .error _ => .error .caught
  | .ok value => do
      if ← markerIsValid rt machineUuid value then
        match value with
        | .obj members => return ⟨get members "source_sha256", rt.sha256 data⟩
        | _ => throw invalid
      else throw invalid

end WebOvpn.Vnc
