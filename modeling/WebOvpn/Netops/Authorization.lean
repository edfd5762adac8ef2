/-
The authorization of broker requests: the signed envelope, the digest of the
plan it names, and the table of used nonces.
-/
import WebOvpn.Lib.CalendarRoundTrip
import WebOvpn.Lib.JsonParse
import WebOvpn.Lib.JsonText
import WebOvpn.Netops.Commits

namespace WebOvpn.Netops

open Text

/-- The classes that a handler tells apart; `other` is any that derives from
none of them. -/
inductive ErrorClass where
  | protocol
  | value
  | runtime
  | type
  | overflow
  | os
  | other
  deriving DecidableEq

structure PyError where
  cls : ErrorClass
  message : Text

def protocolError (message : String) : PyError := ⟨.protocol, text message⟩

def valueError (message : String) : PyError := ⟨.value, text message⟩

inductive LibraryError where
  | digits
  | recursion
  | unhashable
  | surrogates
  | calendar
  deriving DecidableEq

def LibraryError.cls : LibraryError → ErrorClass
  | .digits => .value
  | .recursion => .runtime
  | .unhashable => .type
  | .surrogates => .value
  | .calendar => .overflow

/-- What the interpreter decides: the value of a float literal, how deep a
document may be nested, and the texts of its own exceptions. -/
structure Runtime where
  floatEquals : List Char → Int → Bool
  depthLimit : Nat
  message : LibraryError → Text

variable (rt : Runtime)

def Runtime.raised (e : LibraryError) : PyError := ⟨e.cls, rt.message e⟩

def Runtime.equalsInt (value : JVal) (n : Int) : Bool :=
  match value with
  | .int m => m == n
  | .bool b => (if b then 1 else 0) == n
  | .float token => rt.floatEquals token n
  | _ => false

/-- `raise` under a condition. -/
def failIf (c : Prop) [Decidable c] (e : PyError) : Except PyError Unit :=
  if c then .error e else .ok ()

/-- `ACTIONS`. -/
inductive BrokerAction where
  | create
  | inspect
  | approve
  | apply
  | verify
  | rollback
  | list
  | reconcile
  | status
  deriving DecidableEq

def BrokerAction.all : List BrokerAction :=
  [.create, .inspect, .approve, .apply, .verify, .rollback, .list, .reconcile, .status]

def BrokerAction.name : BrokerAction → String
  | .create => "plan.create"
  | .inspect => "plan.inspect"
  | .approve => "plan.approve"
  | .apply => "plan.apply"
  | .verify => "plan.verify"
  | .rollback => "plan.rollback"
  | .list => "policy.list"
  | .reconcile => "policy.reconcile"
  | .status => "status"

def inNames (value : JVal) (names : List String) : Except PyError Bool :=
  match value with
  | .arr _ => .error (rt.raised .unhashable)
  | .obj _ => .error (rt.raised .unhashable)
  | .str s => .ok (names.any fun name => s = text name)
  | _ => .ok false

/-- `set(mapping) == keys`. -/
def hasKeys (members : Members) (keys : List String) : Bool :=
  (members.all fun m => keys.any fun key => m.1 = text key) &&
    keys.all fun key => members.any fun m => m.1 = text key

/-- A string of `1` to `bound` characters. -/
def isShortText (value : JVal) (bound : Nat) : Bool :=
  match value with
  | .str s => 1 ≤ s.length && s.length ≤ bound
  | _ => false

def reconcileLimit (value : JVal) : Option Int :=
  match value with
  | .int n => if 1 ≤ n ∧ n ≤ 256 then some n else none
  | .bool b => if b then some 1 else none
  | _ => none

def isPlanKey (value : JVal) : Bool :=
  match value with
  | .str s => isPolicyKey s
  | _ => false

def validatePayload (action : BrokerAction) (payload : JVal) : Except PyError Members :=
  match payload with
  | .obj members =>
    match action with
    | .status | .list =>
      if members ≠ [] then
        .error (protocolError (action.name ++ " does not accept payload"))
      else .ok []
    | .inspect | .approve | .apply | .verify | .rollback =>
      if hasKeys members ["plan_key"] = false ∨ isPlanKey (Members.field members "plan_key") = false then
        .error (protocolError "invalid plan payload")
      else .ok [("plan_key", Members.field members "plan_key")]
    | .reconcile =>
      match reconcileLimit ((memberOf members "limit").getD (.int 64)) with
      | none => .error (protocolError "invalid reconcile payload")
      | some limit =>
        if (members.all fun m => m.1 = "limit") = false then
          .error (protocolError "invalid reconcile payload")
        else .ok [("limit", .int limit)]
    | .create =>
      match Members.field members "plan" with
      | .obj plan =>
        if hasKeys members ["plan"] = false then
          .error (protocolError "invalid plan-create payload")
        else if hasKeys plan ["subject_type", "subject_key", "desired_state", "reason"] = false then
          .error (protocolError "unsafe plan-create payload")
        else do
          let known ← inNames rt (Members.field plan "subject_type") ["asset", "user"]
          failIf (known = false ∨ isShortText (Members.field plan "subject_key") 240 = false)
            (protocolError "unsafe plan-create payload")
          let desired ← inNames rt (Members.field plan "desired_state") ["allow", "deny"]
          failIf (desired = false ∨ isShortText (Members.field plan "reason") 1000 = false)
            (protocolError "unsafe plan-create payload")
          return [("plan", .obj plan)]
      | _ => .error (protocolError "invalid plan-create payload")
  | _ => .error (protocolError "payload must be an object")

structure BrokerRequest where
  requestId : Text
  action : BrokerAction
  payload : Members
  authorization : Members
  signature : Text

/-- `[A-Za-z0-9_-]{16,256}`. -/
def isSignature (s : Text) : Bool :=
  16 ≤ s.length && s.length ≤ 256 && s.all fun c => c.isAlnum || c.val == 95 || c.val == 45

/-- What a handler returns: a document, or a value that `json.dumps` refuses. -/
inductive Document where
  | json (value : JVal)
  | unserializable
  deriving DecidableEq

end WebOvpn.Netops

namespace WebOvpn

open Op

namespace Netops

open Text

def jsonText (value : JVal) : Text := (dumps compact value).map CodePoint.ofChar

def sha256Text (message : Bytes) : Text := text "sha256:" ++ (Sha256.hexdigest message).val

def Operation.name : Operation → Text
  | .ensure => "ensure_address_list_entry"
  | .remove => "remove_address_list_entry"

def Desired.text : Desired → Text
  | .allow => WebOvpn.text "allow"
  | .deny => WebOvpn.text "deny"

def requestJson (request : Request) : JVal :=
  .obj [("address", .str request.address), ("asset_key", .str request.assetKey),
    ("policy_key", .str request.policyKey)]

/-- `desired_state_json`: a plan for a user names the asset it is enforced on. -/
def desiredState (plan : Plan) : JVal :=
  .obj ((text "internet_access", .str plan.desired.text) ::
    (match plan.subject.type with
      | .asset => []
      | .user => [(text "resolved_enforcement_asset_key", .str plan.assetKey)]) ++
    [(text "policy_key", .str plan.policyKey)])

def rollbackJson (plan : Plan) : JVal :=
  .obj [("steps", .arr (plan.rollback.map fun request =>
    .obj [("adapter", .str "mikrotik"), ("operation", .str request.operation.name),
      ("target_key", .str request.target), ("request", requestJson request)]))]

def digestBody (plan : Plan) : JVal :=
  .obj [("plan_key", .str plan.key), ("reason", .str plan.reason),
    ("subject_type", .str plan.subject.type.text), ("subject_key", .str plan.subject.key),
    ("operation_type", .str "internet_access_set"),
    ("desired_state_json", .str (jsonText (desiredState plan))),
    ("resolved_targets_json", .str plan.evidence.resolvedTargetsJson),
    ("context_evidence_hash", .str plan.evidence.contextEvidenceHash),
    ("precheck_json", .str plan.evidence.precheckJson),
    ("rollback_json", .str (jsonText (rollbackJson plan))),
    ("plan_basis_json", .str plan.evidence.planBasisJson),
    ("plan_basis_hash", .str plan.evidence.planBasisHash),
    ("plan_schema_version", .int plan.evidence.planSchemaVersion),
    ("authorization_version", .int plan.evidence.authorizationVersion),
    ("operation_version", .int plan.evidence.operationVersion),
    ("steps", .arr ((plan.steps.map PlanStep.request).zipIdx.map fun (request, i) =>
      .obj [("step_order", .int i), ("adapter", .str "mikrotik"),
        ("operation", .str request.operation.name), ("target_key", .str request.target),
        ("request_json", .str (jsonText (requestJson request)))]))]

def planDigest (plan : Plan) : Text := sha256Text (asciiBytes (dumps compact (digestBody plan)))

def BrokerAction.scope : BrokerAction → String
  | .create => "network.plan.create"
  | .inspect => "network.plan.read"
  | .approve => "network.plan.approve"
  | .apply => "network.plan.apply"
  | .verify => "network.plan.verify"
  | .rollback => "network.plan.rollback"
  | .list => "network.policy.read"
  | .reconcile => "network.policy.reconcile"
  | .status => "network.status.read"

def BrokerAction.namesNoPlan : BrokerAction → Bool
  | .status | .list | .reconcile | .inspect => true
  | _ => false

/-- The actions whose plan digest the server does not compare. -/
def BrokerAction.skipsDigest : BrokerAction → Bool
  | .create | .status | .list | .reconcile => true
  | _ => false

def baseFields : List String :=
  ["authorization_version", "action", "principal_type", "principal_id", "principal_name", "session_id",
    "authorization_id", "scopes", "issued_at", "expires_at", "nonce"]

def principalFields : List String :=
  ["principal_type", "principal_id", "principal_name", "session_id", "authorization_id", "nonce"]

def BrokerAction.extraFields (action : BrokerAction) : List String :=
  if action = .create then ["request_digest"]
  else if action.namesNoPlan then [] else ["plan_id", "plan_digest"]

def isPrincipal (value : JVal) : Bool :=
  match value with
  | .str s => Text.strip s ≠ [] && s.length ≤ 255
  | _ => false

def hasScope (action : BrokerAction) (value : JVal) : Bool :=
  match value with
  | .arr scopes =>
    (scopes.all fun scope => match scope with | .str _ => true | _ => false) &&
      scopes.any fun scope => scope = .str (text action.scope)
  | _ => false

def isText (value : JVal) : Bool :=
  match value with
  | .str _ => true
  | _ => false

variable (rt : Runtime)

def parseTime (value : JVal) : Except PyError Instant :=
  match value with
  | .str s =>
    match fromisoformat (s.flatMap fun c => if c.val = 90 then "+00:00" else [c]) with
    | none => .error (valueError "invalid authorization timestamp")
    | some d =>
      match d.offset with
      | none => .error (valueError "authorization timestamp needs timezone")
      | some offset =>
        if h : (d.utcMicros offset).toNat < 315537897600000000 ∧ 0 ≤ d.utcMicros offset then
          .ok ⟨(d.utcMicros offset).toNat, h.1⟩
        else .error (rt.raised .calendar)
  | _ => .error (valueError "invalid authorization timestamp")

/-- Fifteen minutes in microseconds. -/
def maxValidity : Nat := 900000000

/-- Thirty seconds in microseconds. -/
def clockSkew : Nat := 30000000

def requestDigest (payload : Members) : Except PyError Text :=
  match canonicalBytes (.obj payload) with
  | none => .error (rt.raised .surrogates)
  | some bytes => .ok (sha256Text bytes)

structure VerifiedAuthorization where
  principalType : JVal
  principalId : JVal
  principalName : JVal
  sessionId : JVal
  authorizationId : JVal
  nonce : JVal
  expiresAt : JVal

def checkBinding (action : BrokerAction) (envelope payload : Members) : Except PyError Unit :=
  if action = .create then do
    let digest ← requestDigest rt payload
    failIf (envelope.field "request_digest" ≠ .str digest)
      (valueError "authorization request digest mismatch")
  else
    failIf (action.namesNoPlan = false ∧ (envelope.field "plan_id" ≠ payload.field "plan_key" ∨
        isText (envelope.field "plan_digest") = false))
      (valueError "authorization plan binding mismatch")

def checkWindow (issuedAt expiresAt now : Instant) : Except PyError Unit :=
  if expiresAt ≤ issuedAt ∨ maxValidity < expiresAt.val - issuedAt.val then
    .error (valueError "authorization is expired or invalid")
  else if issuedAt.val < clockSkew then .error (rt.raised .calendar)
  else failIf (now.val < issuedAt.val - clockSkew ∨ expiresAt ≤ now)
    (valueError "authorization is expired or invalid")

/-- `verify_envelope`; `verifies` is the check of a signature with the key of
the peer. -/
def verifyEnvelope (verifies : Bytes → Text → Bool) (envelope : Members) (signature : Text)
    (action : BrokerAction) (payload : Members)
    (now : Instant) : Except PyError VerifiedAuthorization := do
  failIf (rt.equalsInt (envelope.field "authorization_version") 1 = false ∨
      envelope.field "action" ≠ .str (text action.name))
    (valueError "authorization action is invalid")
  failIf (hasKeys envelope (baseFields ++ action.extraFields) = false)
    (valueError "authorization envelope schema mismatch")
  failIf ((principalFields.all fun key => isPrincipal (envelope.field key)) = false)
    (valueError "authorization principal is invalid")
  failIf (hasScope action (envelope.field "scopes") = false)
    (valueError "authorization scope is missing")
  checkBinding rt action envelope payload
  let issuedAt ← parseTime rt (envelope.field "issued_at")
  let expiresAt ← parseTime rt (envelope.field "expires_at")
  checkWindow rt issuedAt expiresAt now
  match canonicalBytes (.obj envelope) with
  | none => .error (valueError "authorization signature is invalid")
  | some message =>
    failIf (verifies message signature = false) (valueError "authorization signature is invalid")
    return ⟨envelope.field "principal_type", envelope.field "principal_id",
      envelope.field "principal_name", envelope.field "session_id",
      envelope.field "authorization_id", envelope.field "nonce", envelope.field "expires_at"⟩

structure Peer where
  allowedActions : List BrokerAction
  verifies : Bytes → Text → Bool

structure Broker where
  control : Control
  nonces : List JVal

def planKeyOf (payload : Members) : Text :=
  match payload.field "plan_key" with
  | .str key => key
  | _ => []

def checkDigest (b : Broker) (request : BrokerRequest) : Except PyError Unit :=
  if request.action.skipsDigest then .ok ()
  else match b.control.plan? (planKeyOf request.payload) with
    | none => .error (valueError "change plan not found")
    | some plan =>
      failIf (request.authorization.field "plan_digest" ≠ .str (planDigest plan))
        (valueError "authorization plan digest mismatch")

def authorizeBrokerRequest (b : Broker) (request : BrokerRequest) (peer : Peer) (now : Instant) :
    Except PyError (VerifiedAuthorization × Broker) := do
  failIf (request.action ∉ peer.allowedActions)
    (valueError "peer is not allowed to perform this action")
  let verified ← verifyEnvelope rt peer.verifies request.authorization request.signature
    request.action request.payload now
  checkDigest b request
  failIf (verified.nonce ∈ b.nonces) (valueError "authorization nonce was replayed")
  return (verified, { b with nonces := verified.nonce :: b.nonces })

structure Resolved where
  assetKey : Text
  targets : List Target
  evidence : Evidence

/-- What a dispatch meets outside of the broker. -/
structure World where
  planKey : Text
  resolved : Option Resolved
  granted : Bool
  preflight : Preflight
  replies : List Reply
  finding : Finding
  probed : Bool
  turn : Nat → Turn

def subjectOf (plan : Members) : Option Subject :=
  match plan.field "subject_key" with
  | .str key =>
    if plan.field "subject_type" = .str "asset" then some ⟨.asset, key⟩
    else if plan.field "subject_type" = .str "user" then some ⟨.user, key⟩
    else none
  | _ => none

def desiredOf (plan : Members) : Option Desired :=
  if plan.field "desired_state" = .str "allow" then some .allow
  else if plan.field "desired_state" = .str "deny" then some .deny
  else none

def planInput (payload : Members) (world : World) : Option PlanInput :=
  match payload.field "plan" with
  | .obj plan => do
      let subject ← subjectOf plan
      let desired ← desiredOf plan
      let resolved ← world.resolved
      match Members.field plan "reason" with
      | .str reason =>
        some {
          key := world.planKey
          subject := subject
          desired := desired
          policyKey := internetPolicyKey subject
          assetKey := match subject.type with
            | .asset => subject.key
            | .user => resolved.assetKey
          reason := reason
          evidence := resolved.evidence
          targets := resolved.targets }
      | _ => none
  | _ => none

def dispatchOf (request : BrokerRequest) (world : World) : Option Dispatch :=
  match request.action with
  | .create => (planInput request.payload world).map .create
  | .approve => some (.approve (planKeyOf request.payload))
  | .apply => some (.apply (planKeyOf request.payload) world.granted world.preflight world.replies)
  | .verify => some (.verify (planKeyOf request.payload) world.finding)
  | .rollback =>
    some (.rollback (planKeyOf request.payload) world.granted world.replies world.probed)
  | .reconcile =>
    match request.payload.field "limit" with
    | .int limit => some (.reconcile limit.toNat world.turn)
    | _ => none
  | _ => none

def Plan.isFixed (plan : Plan) : Bool := plan.status ≠ .draft ∧ plan.status ≠ .validated

structure Exchange where
  request : BrokerRequest
  peer : Peer
  now : Instant
  world : World
  dies : Option Nat

def exchange (source : Text) (b : Broker) (e : Exchange) : Broker :=
  match authorizeBrokerRequest rt b e.request e.peer e.now with
  | .error _ => b
  | .ok (_, b') =>
    match dispatchOf e.request e.world with
    | none => b'
    | some d => { b' with control := stateAfter b'.control (Attempt.passed source ⟨d, e.dies⟩ b'.control) }

inductive Visit where
  | request (e : Exchange)
  | redraft (key reason : Text)

def visit (source : Text) (b : Broker) : Visit → Broker
  | .request e => exchange rt source b e
  | .redraft key reason => { b with control := (finish (updateDraftPlan key reason) b.control).2 }

end Netops

end WebOvpn
