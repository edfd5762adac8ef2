/-
Facts about the paths through a router: what one collection asks of it, which
families of answers count as collected, and what is stored of them.
-/
import Mathlib.Data.List.Nodup
import WebOvpn.Lib.Text

namespace WebOvpn.PathFacts

/-- The keys of `COLLECT_PATHS` and of the snapshot. -/
inductive Key where
  | systemResource
  | identity
  | interfaces
  | addresses
  | routingRules
  | routes
  | arp
  | dhcpLeases
  | neighbors
  | bridgeHosts
  | bridgePorts
  | firewallAddressLists
  | firewallFilterRules
  | firewallNatRules
  | firewallMangleRules
  | ipsecPolicies
  | systemPackageUpdate
  | systemSchedulers
  | routerboard
  | updatePosture
  | routerRoutingRules
  deriving DecidableEq

def collectPaths : List Key :=
  [.systemResource, .identity, .interfaces, .addresses, .routingRules, .routes, .arp, .dhcpLeases, .neighbors,
    .bridgeHosts, .bridgePorts, .firewallAddressLists, .firewallFilterRules, .firewallNatRules,
      .firewallMangleRules,
    .ipsecPolicies, .systemPackageUpdate, .systemSchedulers, .routerboard]

def pathFactKeys : List Key :=
  [.routingRules, .firewallAddressLists, .firewallFilterRules, .firewallNatRules,
    .firewallMangleRules, .ipsecPolicies]

def pathFactOutcomeKeys : List (Key × Key) :=
  [(.routingRules, .routerRoutingRules), (.firewallAddressLists, .firewallAddressLists),
    (.firewallFilterRules, .firewallFilterRules), (.firewallNatRules, .firewallNatRules),
    (.firewallMangleRules, .firewallMangleRules), (.ipsecPolicies, .ipsecPolicies)]

/-- The properties of a row of RouterOS that the path facts are made of. -/
inductive Property where
  | dotId
  | id
  | chain
  | action
  | disabled
  | srcAddress
  | dstAddress
  | srcAddressList
  | dstAddressList
  | protocol
  | dstPort
  | inInterface
  | outInterface
  | connectionState
  | routingMark
  | comment
  | list
  | address
  | table
  deriving DecidableEq

abbrev Row := Property → Option Text

def Row.value (row : Row) (property : Property) : Text := (row property).getD []

def Row.key (row : Row) : Text := if row.value .dotId = [] then row.value .id else row.value .dotId

def parseBool : Option Text → Bool
  | none => false
  | some value =>
    [text "1", text "true", text "yes", text "on", text "enabled"].contains value.strip.lower

/-- A normalized row, as far as `save_path_facts` reads it. -/
inductive Fact where
  | firewall (id chain : Text) (disabled : Bool)
    (action srcAddress dstAddress protocol dstPort inInterface outInterface
      srcAddressList dstAddressList routingMark connectionState comment : Text)
  | routing (id : Text) (disabled : Bool) (action srcAddress dstAddress routingMark tableName comment : Text)
  | addressList (list address : Text) (disabled : Bool) (comment : Text)
  | ipsec (id : Text) (disabled : Bool) (action srcAddress dstAddress protocol comment : Text)
  deriving DecidableEq

/-- `row.get("id")` of a normalized row; address lists have none. -/
def Fact.key : Fact → Text
  | .firewall id .. => id
  | .routing id .. => id
  | .addressList .. => []
  | .ipsec id .. => id

def normalizeFirewallRule (row : Row) : Fact :=
  .firewall row.key (row.value .chain) (parseBool (row .disabled)) (row.value .action) (row.value .srcAddress)
    (row.value .dstAddress) (row.value .protocol) (row.value .dstPort) (row.value .inInterface)
      (row.value .outInterface)
    (row.value .srcAddressList) (row.value .dstAddressList) (row.value .routingMark) (row.value .connectionState)
    (row.value .comment)

def normalizeRoutingRule (row : Row) : Fact :=
  .routing row.key (parseBool (row .disabled)) (row.value .action) (row.value .srcAddress)
    (row.value .dstAddress)
    (row.value .routingMark) (row.value .table) (row.value .comment)

def normalizeAddressList (row : Row) : Fact :=
  .addressList (row.value .list) (row.value .address) (parseBool (row .disabled)) (row.value .comment)

def normalizeIpsecPolicy (row : Row) : Fact :=
  .ipsec row.key (parseBool (row .disabled)) (row.value .action) (row.value .srcAddress) (row.value .dstAddress)
    (row.value .protocol) (row.value .comment)

/-- The families of path facts, one table each. -/
inductive Family where
  | filterRules
  | natRules
  | mangleRules
  | routingRules
  | addressLists
  | ipsecPolicies
  deriving DecidableEq

/-- The families in the order of `save_path_facts`. -/
def Family.all : List Family :=
  [.filterRules, .natRules, .mangleRules, .routingRules, .addressLists, .ipsecPolicies]

/-- The key under which `save_path_facts` looks for the outcome and the rows of a family. -/
def Family.outcomeKey : Family → Key
  | .filterRules => .firewallFilterRules
  | .natRules => .firewallNatRules
  | .mangleRules => .firewallMangleRules
  | .routingRules => .routerRoutingRules
  | .addressLists => .firewallAddressLists
  | .ipsecPolicies => .ipsecPolicies

def Family.rawKey : Family → Key
  | .routingRules => .routingRules
  | family => family.outcomeKey

def Family.normalize : Family → Row → Fact
  | .filterRules | .natRules | .mangleRules => normalizeFirewallRule
  | .routingRules => normalizeRoutingRule
  | .addressLists => normalizeAddressList
  | .ipsecPolicies => normalizeIpsecPolicy

/-- The keys of the dictionary that `collect` returns. -/
def snapshotKeys : List Key :=
  [.systemResource, .identity, .interfaces, .routes, .arp, .dhcpLeases, .neighbors, .bridgeHosts, .bridgePorts,
    .firewallAddressLists, .firewallFilterRules, .firewallNatRules, .firewallMangleRules,
      .updatePosture, .addresses,
    .routerRoutingRules, .ipsecPolicies]

inductive Outcome where
  | success
  | failed
  deriving DecidableEq

abbrev Outcomes := List (Key × Outcome)

def Outcomes.get? (outcomes : Outcomes) (key : Key) : Option Outcome :=
  (outcomes.find? fun entry => entry.1 = key).map Prod.snd

/-- What `save_path_facts` is given of a snapshot. -/
structure Snapshot where
  rows : Family → List Fact
  outcomes : Outcomes

abbrev Answers := Key → Option (List Row)

def pathFactOutcomes (keys failed : List Key) : Outcomes :=
  (pathFactOutcomeKeys.filter fun entry => entry.1 ∈ keys ∨ entry.1 ∈ failed).map fun entry =>
    (entry.2, if entry.1 ∈ failed then .failed else .success)

def failedKeys (answers : Answers) : List Key :=
  collectPaths.filter fun key => answers key = none ∧ key ∈ pathFactKeys

/-- `collect`; `none` is the exception of a query that is not one for path facts. -/
def collect (answers : Answers) : Option Snapshot :=
  if collectPaths.any fun key => answers key = none ∧ key ∉ pathFactKeys then none
  else
    some {
      rows := fun family => ((answers family.rawKey).getD []).map family.normalize
      outcomes := pathFactOutcomes snapshotKeys (failedKeys answers) }

structure Stored where
  family : Family
  source : Nat
  ruleKey : Text
  position : Nat
  fact : Fact
  observedAt : Text
  collectorRunId : Nat

inductive RunStatus where
  | success
  | failed
  | partialSuccess
  deriving DecidableEq

/-- A row of `router_path_fact_runs`, whose id is its place. -/
structure FactRun where
  source : Nat
  startedAt : Text
  finishedAt : Text
  status : RunStatus
  capabilities : Outcomes

structure Database where
  runs : List FactRun
  stored : List Stored

def Database.rowsOf (db : Database) (family : Family) (source : Nat) : List Stored :=
  db.stored.filter fun row => row.family = family ∧ row.source = source

/-- `str` of a natural number. -/
def natText (n : Nat) : Text := (Nat.toDigits 10 n).map CodePoint.ofChar

def storedRow (family : Family) (source run : Nat) (observedAt : Text) (entry : Fact × Nat) : Stored :=
  ⟨family, source, if entry.1.key = [] then natText entry.2 else entry.1.key, entry.2, entry.1, observedAt, run⟩

def runStatus (outcomes : Outcomes) : RunStatus :=
  if outcomes ≠ [] ∧ outcomes.all fun entry => entry.2 = .success then .success
  else if outcomes.any fun entry => entry.2 = .success then .partialSuccess
  else .failed

/-- Rows are inserted one after another; `none` is the `IntegrityError` of a second
row with the same primary key. -/
def insertAll (stored : List Stored) : List Stored → Option (List Stored)
  | [] => some stored
  | row :: rest =>
    if stored.any fun old => old.family = row.family ∧ old.source = row.source ∧
      old.ruleKey = row.ruleKey then none
    else insertAll (stored ++ [row]) rest

def saveFamily (source run : Nat) (snapshot : Snapshot) (observedAt : Text) (stored : List Stored)
    (family : Family) :
    Option (List Stored) :=
  if snapshot.outcomes.get? family.outcomeKey = some .success then
    insertAll (stored.filter fun row => ¬(row.family = family ∧ row.source = source))
      ((snapshot.rows family).zipIdx.map (storedRow family source run observedAt))
  else some stored

/-- `save_path_facts`; `none` is an exception, after which the caller rolls back. -/
def savePathFacts (db : Database) (source : Nat) (snapshot : Snapshot) (observedAt : Text) :
    Option Database :=
  (Family.all.foldlM (saveFamily source db.runs.length snapshot observedAt) db.stored).map fun stored =>
    { runs := db.runs ++ [⟨source, observedAt, observedAt, runStatus snapshot.outcomes, snapshot.outcomes⟩]
      stored := stored }

def collectAndSave (db : Database) (source : Nat) (answers : Answers) (observedAt : Text) :
    Option Database :=
  (collect answers).bind fun snapshot => savePathFacts db source snapshot observedAt

end WebOvpn.PathFacts
