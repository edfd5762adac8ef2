/-
An envelope for every action: signed inside its window it is accepted, except
for `plan.inspect`, whose envelope cannot carry the digest that is compared.
-/
import WebOvpn.Netops.Authorizing

namespace WebOvpn

open Op List

namespace Netops

open Text

variable {rt : Runtime} {key digest nonce signature : Text} {b b' : Broker} {action : BrokerAction}
  {raw : JVal} {payload envelope : Members} {peer : Peer} {issuedAt expiresAt now : Instant}
  {verified : VerifiedAuthorization}

def bindingFields (action : BrokerAction) (payload : Members) (digest : Text) : Members :=
  if action = .create then [("request_digest", .str digest)]
  else if action.namesNoPlan then []
  else [("plan_id", payload.field "plan_key"), ("plan_digest", .str digest)]

def envelopeFor (action : BrokerAction) (nonce : Text) (issuedAt expiresAt : Instant)
    (binding : Members) :
    Members :=
  [(text "authorization_version", .int 1), (text "action", .str (text action.name)),
    (text "principal_type", .str (text "web_user")), (text "principal_id", .str (text "1")),
    (text "principal_name", .str (text "operator")), (text "session_id", .str (text "session")),
    (text "authorization_id", .str (text "authorization")),
    (text "scopes", .arr [.str (text action.scope)]), (text "issued_at", .str issuedAt.isoformat),
    (text "expires_at", .str expiresAt.isoformat), (text "nonce", .str nonce)] ++ binding

theorem hasKeys_envelopeFor :
    hasKeys (envelopeFor action nonce issuedAt expiresAt (bindingFields action payload digest))
      (baseFields ++ action.extraFields) = true := by
  cases action <;> rfl

theorem isoformat_val_lt {c : CodePoint} (t : Instant) (hc : c ∈ t.isoformat) : c.val < 90 := by
  by_contra hlar
  have hmr : ∀ s : Text, (s.all fun c => c.val < 90) = true → c ∉ s := by
    intro s hs hmem
    exact hlar (of_decide_eq_true (all_eq_true.1 hs c hmem))
  apply t.isoformat_not_mem _ (hmr _ (by decide)) (hmr _ (by decide)) (hmr _ (by decide)) hc
  unfold CodePoint.isDigit
  simp only [Bool.and_eq_false_iff, decide_eq_false_iff_not]
  omega

theorem isEncodable_isoformat (t : Instant) : t.isoformat.isEncodable = true := by
  rw [isEncodable_iff]
  intro c hc
  have hsma := isoformat_val_lt t hc
  unfold CodePoint.isSurrogate
  simp only [Bool.and_eq_false_iff, decide_eq_false_iff_not]
  omega

theorem parseTime_isoformat (t : Instant) : parseTime rt (.str t.isoformat) = .ok t := by
  have hpl : (t.isoformat.flatMap fun c => if c.val = 90 then "+00:00" else [c]) = t.isoformat := by
    have hmr : ∀ c ∈ t.isoformat, (if c.val = 90 then text "+00:00" else [c]) = [c] := by
      intro c hc
      exact if_neg (isoformat_val_lt t hc).ne
    rw [flatMap_congr hmr]
    exact flatMap_singleton' _
  have hutc : Datetime.utcMicros ⟨t, some 0⟩ 0 = t.val := Int.sub_zero _
  unfold parseTime
  simp only [hpl, fromisoformat_isoformat, hutc, Int.toNat_natCast, Int.natCast_nonneg, and_true]
  rw [dif_pos t.isLt]

/-- The window of an envelope: not empty, of at most fifteen minutes, and begun
at most thirty seconds after now. -/
structure InWindow (issuedAt expiresAt now : Instant) : Prop where
  ordered : issuedAt < expiresAt
  short : expiresAt.val - issuedAt.val ≤ maxValidity
  begun : issuedAt.val ≤ now.val + clockSkew
  unexpired : now < expiresAt

theorem checkWindow_eq_ok (h : InWindow issuedAt expiresAt now) :
    checkWindow rt issuedAt expiresAt now = .ok () ↔ clockSkew ≤ issuedAt.val := by
  unfold checkWindow
  rw [if_neg]
  · split_ifs with hst
    · constructor
      · nofun
      · intro hlt
        exact absurd hst (not_lt.2 hlt)
    · rw [failIf_eq_ok]
      constructor
      · intro _
        exact not_lt.1 hst
      · rintro _ (hear | hex)
        · have hbg := h.begun
          omega
        · exact absurd h.unexpired (not_lt.2 hex)
  · rintro (hem | hln)
    · exact absurd h.ordered (not_lt.2 hem)
    · exact absurd h.short (not_le.2 hln)

theorem requestDigest_eq_ok : (∃ digest, requestDigest rt payload = .ok digest) ↔
    (JVal.obj payload).isEncodable = true := by
  rw [← canonicalBytes_isSome]
  unfold requestDigest
  cases canonicalBytes (.obj payload) with
  | none =>
    constructor
    · rintro ⟨_, h⟩
      cases h
    · intro h
      cases h
  | some bytes => exact ⟨fun _ => rfl, fun _ => ⟨_, rfl⟩⟩

theorem checkBinding_bindingFields (hdg : action = .create → requestDigest rt payload = .ok digest) :
    checkBinding rt action
      (envelopeFor action nonce issuedAt expiresAt (bindingFields action payload digest))
      payload = .ok () := by
  unfold checkBinding
  split_ifs with hcr
  · subst hcr
    apply bind_ok (hdg rfl)
    rw [failIf_eq_ok, not_not]
    rfl
  · rw [failIf_eq_ok]
    rintro ⟨hnm, hbin⟩
    have hfl : bindingFields action payload digest =
        [(text "plan_id", payload.field "plan_key"), (text "plan_digest", .str digest)] := by
      unfold bindingFields
      rw [if_neg hcr, hnm]
      rfl
    rw [hfl] at hbin
    rcases hbin with hpl | hdg
    · exact hpl rfl
    · cases hdg

theorem verified_envelopeFor {verifies : Bytes → Text → Bool} {sign : Bytes → Text}
    (hsig : ∀ message, verifies message (sign message) = true) (hwin : InWindow issuedAt expiresAt now)
    (hst : clockSkew ≤ issuedAt.val) (hnn : isPrincipal (.str nonce) = true)
    (hpl : nonce.isEncodable = true) (hdg : action = .create → requestDigest rt payload = .ok digest)
    (hfl : membersEncodable (bindingFields action payload digest) = true) :
    ∃ signature ∈ Set.range sign, Verified rt verifies
      (envelopeFor action nonce issuedAt expiresAt (bindingFields action payload digest))
        signature action
      payload issuedAt expiresAt now := by
  have hen : (JVal.obj
      (envelopeFor action nonce issuedAt expiresAt
        (bindingFields action payload digest))).isEncodable = true := by
    rw [JVal.isEncodable, membersEncodable_eq_all, envelopeFor, all_append, ← membersEncodable_eq_all,
      ← membersEncodable_eq_all, hfl, Bool.and_true]
    simp [membersEncodable, JVal.isEncodable, itemsEncodable, isEncodable_isoformat, hpl]
  rw [← canonicalBytes_isSome, Option.isSome_iff_exists] at hen
  obtain ⟨message, hms⟩ := hen
  exact ⟨sign message, ⟨message, rfl⟩, {
    version := rfl
    named := rfl
    keys := hasKeys_envelopeFor
    principals := by
      change (_ && (_ && (_ && (_ && (_ && (isPrincipal (.str nonce) && true)))))) = true
      rw [hnn]
      rfl
    scope := by
      change hasScope action (.arr [.str (text action.scope)]) = true
      simp [hasScope]
    binding := checkBinding_bindingFields hdg
    issued := parseTime_isoformat issuedAt
    expires := parseTime_isoformat expiresAt
    window := (checkWindow_eq_ok hwin).2 hst
    signed := ⟨message, hms, hsig message⟩ }⟩

theorem isEncodable_of_isPolicyKey (h : isPolicyKey key = true) : key.isEncodable = true := by
  cases key with
  | nil => cases h
  | cons c rest =>
    unfold isPolicyKey at h
    rw [Bool.and_eq_true, Bool.and_eq_true, all_eq_true] at h
    rw [isEncodable_iff]
    intro d hd
    have hch : isKeyChar d = true := by
      rcases mem_cons.1 hd with rfl | hd
      · unfold isKeyChar
        rw [h.1.1]
        rfl
      · exact h.2 d hd
    unfold isKeyChar CodePoint.isAlnum CodePoint.isUpper CodePoint.isLower CodePoint.isDigit at hch
    unfold CodePoint.isSurrogate
    simp only [Bool.or_eq_true, Bool.and_eq_true, decide_eq_true_eq, beq_iff_eq] at hch
    simp only [Bool.and_eq_false_iff, decide_eq_false_iff_not]
    omega

theorem validatePayload_planKey (h : validatePayload rt action raw = .ok payload)
    (hnam : action.skipsDigest = false) :
    ∃ key, payload = [(text "plan_key", .str key)] ∧ key.isEncodable = true := by
  cases raw with
  | obj members =>
    have hpla : (if hasKeys members ["plan_key"] = false ∨
      isPlanKey (Members.field members "plan_key") = false then
        Except.error (protocolError "invalid plan payload")
        else .ok [(text "plan_key", Members.field members "plan_key")]) = .ok payload := by
      cases action <;> first | exact h | cases hnam
    split_ifs at hpla with hkey
    cases hpla
    rw [not_or, Bool.not_eq_false, Bool.not_eq_false] at hkey
    cases hfie : Members.field members "plan_key" with
    | str key =>
      rw [hfie] at hkey
      exact ⟨key, rfl, isEncodable_of_isPolicyKey hkey.2⟩
    | _ =>
      rw [hfie] at hkey
      cases hkey.2
  | _ => cases h

theorem field_of_hasKeys {members : Members} {keys : List String} {name : String}
    (h : hasKeys members keys = true) (hnm : ∀ other ∈ keys, text other ≠ text name) :
    members.field name = .null := by
  unfold hasKeys at h
  rw [Bool.and_eq_true, all_eq_true] at h
  have hnn : members.lookup (text name) = none := by
    rw [List.lookup_eq_none_iff]
    intro m hm
    obtain ⟨other, hot, heq⟩ := any_eq_true.1 (h.1 m hm)
    rw [bne_iff_ne]
    intro hsm
    exact hnm other hot ((of_decide_eq_true heq).symm.trans hsm.symm)
  unfold Members.field memberOf
  rw [hnn]
  rfl

theorem isEncodable_sha256Text (message : Bytes) : (sha256Text message).isEncodable = true := by
  unfold sha256Text
  rw [isEncodable_append, isEncodable_text, Bool.true_and, isEncodable_iff]
  intro c hc
  have hhex : c.isLowerHex = true := by
    refine forall_of_fullmatch (q := fun c => c.isLowerHex = true) ?_ (Sha256.hexdigest message).property c hc
    intro p hp c hc
    rw [eq_of_mem_replicate hp] at hc
    exact hc
  unfold CodePoint.isLowerHex CodePoint.isDigit at hhex
  unfold CodePoint.isSurrogate
  simp only [Bool.or_eq_true, Bool.and_eq_true, decide_eq_true_eq] at hhex
  simp only [Bool.and_eq_false_iff, decide_eq_false_iff_not]
  omega

theorem isEncodable_requestDigest (h : requestDigest rt payload = .ok digest) :
    digest.isEncodable = true := by
  unfold requestDigest at h
  split at h
  · cases h
  · cases h
    exact isEncodable_sha256Text _

theorem bindingFields_encodable
    (hkey : (payload.field "plan_key").isEncodable = true ∨ action.skipsDigest = true)
    (hins : action ≠ .inspect) (hdg : digest.isEncodable = true) :
    membersEncodable (bindingFields action payload digest) = true := by
  unfold bindingFields
  split_ifs with hcr hnm
  · simp [membersEncodable, JVal.isEncodable, hdg]
  · rfl
  · have hen : (payload.field "plan_key").isEncodable = true := by
      apply hkey.resolve_right
      revert hcr hnm hins
      cases action <;> decide
    simp [membersEncodable, JVal.isEncodable, hen, hdg]

theorem authorize_ok {requestId : Text} {verified : VerifiedAuthorization}
    (hall : action ∈ peer.allowedActions)
    (hvr : verifyEnvelope rt peer.verifies envelope signature action payload now = .ok verified)
    (hdg : checkDigest b ⟨requestId, action, payload, envelope, signature⟩ = .ok ())
    (hun : verified.nonce ∉ b.nonces) :
    authorizeBrokerRequest rt b ⟨requestId, action, payload, envelope, signature⟩ peer now =
      .ok (verified, { b with nonces := verified.nonce :: b.nonces }) := by
  unfold authorizeBrokerRequest
  apply failIf_bind (not_not.2 hall)
  apply bind_ok hvr
  apply bind_ok hdg
  apply failIf_bind hun
  rfl

theorem authorize_verified {request : BrokerRequest}
    (h : authorizeBrokerRequest rt b request peer now = .ok (verified, b')) :
    (∃ issuedAt expiresAt,
      Verified rt peer.verifies request.authorization request.signature request.action
      request.payload issuedAt expiresAt now) ∧
      (request.action.skipsDigest = false →
        ∃ plan, b.control.plan? (planKeyOf request.payload) = some plan ∧
        request.authorization.field "plan_digest" = .str (planDigest plan)) := by
  have hdg := (authorize_eq_ok h).2.2
  unfold authorizeBrokerRequest at h
  obtain ⟨_, -, h⟩ := bind_eq_ok.1 h
  obtain ⟨_, hvr, -⟩ := bind_eq_ok.1 h
  exact ⟨(verifyEnvelope_eq_ok.1 hvr).1, hdg⟩

theorem exists_digest (hvl : validatePayload rt action raw = .ok payload)
    (hst : ∀ key, payload.field "plan_key" = .str key → ∃ plan, b.control.plan? key = some plan)
    (hins : action ≠ .inspect) (hpy : action = .create → (JVal.obj payload).isEncodable = true) :
    ∃ digest, (action = .create → requestDigest rt payload = .ok digest) ∧
      membersEncodable (bindingFields action payload digest) = true ∧
      ∀ requestId nonce issuedAt expiresAt signature, checkDigest b ⟨requestId, action, payload,
        envelopeFor action nonce issuedAt expiresAt (bindingFields action payload digest),
          signature⟩ = .ok () := by
  cases hsk : action.skipsDigest with
  | true =>
    have hdg : ∃ digest : Text, (action = .create → requestDigest rt payload = .ok digest) ∧
        digest.isEncodable = true := by
      by_cases hcr : action = .create
      · obtain ⟨digest, hdg⟩ := requestDigest_eq_ok.2 (hpy hcr)
        exact ⟨digest, fun _ => hdg, isEncodable_requestDigest hdg⟩
      · exact ⟨[], fun h => absurd h hcr, rfl⟩
    obtain ⟨digest, hcr, hpl⟩ := hdg
    refine ⟨digest, hcr, bindingFields_encodable (.inr hsk) hins hpl, ?_⟩
    intro _ _ _ _ _
    unfold checkDigest
    rw [hsk]
    rfl
  | false =>
    obtain ⟨key, rfl, hkey⟩ := validatePayload_planKey hvl hsk
    obtain ⟨plan, hpa⟩ := hst key rfl
    refine ⟨planDigest plan, ?_, bindingFields_encodable (.inl hkey) hins (isEncodable_sha256Text _), ?_⟩
    · rintro rfl
      cases hsk
    · intro requestId nonce issuedAt expiresAt signature
      have hsm : (envelopeFor action nonce issuedAt expiresAt
          (bindingFields action [(text "plan_key", .str key)] (planDigest plan))).field "plan_digest" =
          .str (planDigest plan) := by
        revert hsk hins
        cases action with
        | approve => exact fun _ _ => rfl
        | apply => exact fun _ _ => rfl
        | verify => exact fun _ _ => rfl
        | rollback => exact fun _ _ => rfl
        | inspect => exact fun h => absurd rfl h
        | _ => nofun
      unfold checkDigest
      rw [hsk, if_neg Bool.false_ne_true]
      have hst' : b.control.plan? (planKeyOf [(text "plan_key", .str key)]) = some plan := hpa
      rw [hst']
      exact failIf_eq_ok.2 (not_not.2 hsm)

theorem inspect_not_authorized {requestId : Text} :
    authorizeBrokerRequest rt b ⟨requestId, .inspect, payload, envelope, signature⟩ peer now ≠
      .ok (verified, b') := by
  intro h
  obtain ⟨⟨_, _, hvr⟩, hdg⟩ := authorize_verified h
  obtain ⟨plan, -, hfie⟩ := hdg rfl
  have hks : ∀ other ∈ baseFields ++ BrokerAction.inspect.extraFields, text other ≠ "plan_digest" := by
    decide
  rw [field_of_hasKeys hvr.keys hks] at hfie
  cases hfie

/-- Who may be authorized, what an authorization is good for, and that the
digest it names stays the digest of the plan. -/
theorem authorizable_iff (source requestId : Text) {sign : Bytes → Text}
    (hvl : validatePayload rt action raw = .ok payload)
    (hst : ∀ key, payload.field "plan_key" = .str key → ∃ plan, b.control.plan? key = some plan)
    (hall : action ∈ peer.allowedActions)
    (hsig : ∀ message, isSignature (sign message) = true ∧ peer.verifies message (sign message) = true)
    (hwin : InWindow issuedAt expiresAt now) (hnn : isPrincipal (.str nonce) = true)
    (hpl : nonce.isEncodable = true) (hun : .str nonce ∉ b.nonces) :
    ((∃ envelope signature verified b', isSignature signature = true ∧
        envelope.field "nonce" = .str nonce ∧ envelope.field "issued_at" = .str issuedAt.isoformat ∧
        envelope.field "expires_at" = .str expiresAt.isoformat ∧
        authorizeBrokerRequest rt b ⟨requestId, action, payload, envelope, signature⟩ peer now =
          .ok (verified, b')) ↔
      action ≠ .inspect ∧ (action = .create → (JVal.obj payload).isEncodable = true) ∧
        clockSkew ≤ issuedAt.val) ∧
    (∀ (b : Broker) (exchanges : List Exchange), (acceptedNonces rt source b exchanges).Nodup ∧
      ∀ nonce ∈ acceptedNonces rt source b exchanges, nonce ∉ b.nonces) ∧
    (∀ (b : Broker) (e : Exchange) verified b',
      authorizeBrokerRequest rt b e.request e.peer e.now = .ok (verified, b') →
      e.request.action ∈ [BrokerAction.approve, .apply, .verify, .rollback] →
      ∃ plan, b.control.plan? (planKeyOf e.request.payload) = some plan ∧
        e.request.authorization.field "plan_digest" = .str (planDigest plan)) ∧
    ∀ (b : Broker) (key : Text) (plan : Plan) (visits : List Visit), b.control.plan? key = some plan →
      plan.status ≠ .draft → plan.status ≠ .validated →
      ∃ plan', (run (visit rt source) b visits).control.plan? key = some plan' ∧
        planDigest plan' = planDigest plan := by
  refine ⟨?_, acceptedNonces_fresh, ?_, ?_⟩
  · constructor
    · rintro ⟨envelope, signature, verified, b', -, -, hissued, hex, h⟩
      obtain ⟨⟨issuedAt', expiresAt', hvr⟩, -⟩ := authorize_verified h
      have his : issuedAt' = issuedAt := by
        have hps := hvr.issued
        rw [hissued, parseTime_isoformat] at hps
        cases hps
        rfl
      have hexpi : expiresAt' = expiresAt := by
        have hps := hvr.expires
        rw [hex, parseTime_isoformat] at hps
        cases hps
        rfl
      subst his hexpi
      refine ⟨?_, ?_, (checkWindow_eq_ok hwin).1 hvr.window⟩
      · rintro rfl
        exact inspect_not_authorized h
      · rintro rfl
        obtain ⟨digest, hpy, -⟩ := bind_eq_ok.1 hvr.binding
        exact requestDigest_eq_ok.1 ⟨digest, hpy⟩
    · rintro ⟨hins, hpy, hsa⟩
      obtain ⟨digest, hcr, hfl, hdg⟩ := exists_digest hvl hst hins hpy
      obtain ⟨_, ⟨message, rfl⟩, hvr⟩ := verified_envelopeFor (fun m => (hsig m).2) hwin hsa
        hnn hpl hcr hfl
      have hac := authorize_ok hall (verifyEnvelope_eq_ok.2 ⟨⟨_, _, hvr⟩, rfl⟩)
        (hdg requestId nonce issuedAt expiresAt (sign message)) hun
      exact ⟨_, _, _, _, (hsig message).1, rfl, rfl, rfl, hac⟩
  · intro b e verified b' h hact
    apply (authorize_eq_ok h).2.2
    revert hact
    cases e.request.action <;> decide
  · intro b key plan visits hpa hdr hvali
    have hfix : plan.isFixed = true := decide_eq_true ⟨hdr, hvali⟩
    obtain ⟨plan', hpl', -, hdg⟩ := hasDigest_run visits ⟨plan, hpa, hfix, rfl⟩
    exact ⟨plan', hpl', hdg⟩

private def draft : Plan where
  key := "plan-1"
  subject := ⟨.asset, "ws-1"⟩
  desired := .deny
  policyKey := "internet.asset.ws-1"
  assetKey := "ws-1"
  reason := "request"
  evidence := default
  targets := []
  rollback := []
  status := .draft
  steps := []

private def broker : Broker := ⟨⟨[], [draft], []⟩, []⟩

private def python : Runtime := ⟨fun _ _ => false, 1000, fun _ => []⟩

private def signed : Text := "AAAAAAAAAAAAAAAA"

private def web : Peer := ⟨BrokerAction.all, fun _ signature => signature = signed⟩

private def planPayload : Members := [("plan_key", .str "plan-1")]

/-- The signed approval of a draft is authorized within its window. -/
theorem approve_authorizable : ∃ envelope signature verified b', isSignature signature = true ∧
    envelope.field "nonce" = .str "n-1" ∧
    envelope.field "issued_at" = .str (Instant.isoformat (60000000 : Instant)) ∧
    envelope.field "expires_at" = .str (Instant.isoformat (120000000 : Instant)) ∧
    authorizeBrokerRequest python broker ⟨"request", .approve, planPayload, envelope, signature⟩ web
      (90000000 : Instant) = .ok (verified, b') := by
  have hst : ∀ key, planPayload.field "plan_key" = .str key →
      ∃ plan, broker.control.plan? key = some plan := by
    intro key h
    change JVal.str "plan-1" = .str key at h
    cases h
    exact ⟨draft, rfl⟩
  have hvr : ∀ m, web.verifies m signed = true := fun _ => decide_eq_true (p := signed = signed) rfl
  have hlaw := @authorizable_iff python "n-1" broker .approve (.obj planPayload) planPayload web 60000000
    120000000 90000000 "control" "request" (fun _ => signed) rfl hst (by decide)
    (fun m => ⟨by decide, hvr m⟩) ⟨by decide, by decide, by decide, by decide⟩ (by decide)
    (by decide) (by decide)
  exact hlaw.1.2 ⟨by decide, by decide, by decide⟩

/-- An `inspect` of a stored plan has a valid payload and is refused all the same. -/
theorem inspect_never_authorized : validatePayload python .inspect (.obj planPayload) = .ok planPayload ∧
      (broker.control.plan? "plan-1").isSome = true ∧ ∀ envelope signature now verified b',
        authorizeBrokerRequest python broker ⟨"request", .inspect, planPayload, envelope, signature⟩ web
          now ≠ .ok (verified, b') :=
  ⟨rfl, rfl, fun _ _ _ _ _ => inspect_not_authorized⟩

end Netops

end WebOvpn
