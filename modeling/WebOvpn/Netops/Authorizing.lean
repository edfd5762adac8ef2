/-
What an authorization is good for: one request, and the plan that was signed.
-/
import WebOvpn.Netops.Authorization

namespace WebOvpn

open Op

namespace Netops

open Text

variable {rt : Runtime} {source key digest nonce signature : Text} {k : Point} {s t : Control}
    {plan plan' : Plan}
  {b b' : Broker} {e : Exchange} {action : BrokerAction} {raw : JVal} {payload envelope : Members}
  {peer : Peer} {issuedAt expiresAt now : Instant} {verified : VerifiedAuthorization}

theorem failIf_eq_ok {c : Prop} [Decidable c] {e : PyError} {u : Unit} : failIf c e = .ok u ↔ ¬ c := by
  unfold failIf
  split_ifs with h
  · exact ⟨nofun, fun hn => absurd h hn⟩
  · exact ⟨fun _ => h, fun _ => rfl⟩

theorem bind_ok {α β : Type} {x : Except PyError α} {f : α → Except PyError β} {a : α} {y : β}
    (hx : x = .ok a) (hf : f a = .ok y) : (x >>= f) = .ok y :=
  bind_eq_ok.2 ⟨a, hx, hf⟩

theorem failIf_bind {β : Type} {c : Prop} [Decidable c] {e : PyError}
    {f : Unit → Except PyError β} {y : β}
    (hc : ¬ c) (hf : f () = .ok y) : (failIf c e >>= f) = .ok y :=
  bind_ok (failIf_eq_ok.2 hc) hf

theorem digestBody_congr (hcn : plan'.contents = plan.contents)
    (hrq : plan'.steps.map PlanStep.request = plan.steps.map PlanStep.request) :
    digestBody plan' = digestBody plan := by
  cases plan
  cases plan'
  simp only [Plan.contents, Plan.mk.injEq] at hcn
  obtain ⟨rfl, rfl, rfl, rfl, rfl, rfl, rfl, rfl, rfl, -⟩ := hcn
  unfold digestBody
  rw [hrq]
  rfl

theorem Marks.planDigest_eq {f : Plan → Plan} (hf : Marks f) (plan : Plan) :
    planDigest (f plan) = planDigest plan := by
  unfold planDigest
  rw [digestBody_congr (hf.contents plan) (hf.requests plan)]

def Control.HasDigest (s : Control) (key digest : Text) : Prop :=
  ∃ plan, s.plan? key = some plan ∧ plan.isFixed = true ∧ planDigest plan = digest

/-- A write keeps the digest of a plan that is past its draft. -/
theorem Commit.hasDigest (h : Commit k s t) (hs : s.HasDigest key digest) : t.HasDigest key digest := by
  obtain ⟨plan, hpl, hfix, rfl⟩ := hs
  have hedi : ∀ {f : Plan → Plan} {other : Text}, Marks f → (other = key → (f plan).isFixed = true) →
      (s.editPlan other f).HasDigest key (planDigest plan) := by
    intro f other hf hke
    unfold Control.HasDigest
    rw [Control.plan?_editPlan_map hf.key, hpl, Option.map_some]
    refine ⟨_, rfl, ?_⟩
    rw [Control.key_of_plan? hpl]
    split_ifs with hkey
    · exact ⟨hke hkey.symm, hf.planDigest_eq plan⟩
    · exact ⟨hfix, rfl⟩
  cases h with
  | @created _ new hnn _ _ =>
    have hne : new.key ≠ key := by
      rintro rfl
      rw [hnn] at hpl
      cases hpl
    exact ⟨plan, (Control.plan?_append_of_ne hne s).trans hpl, hfix, rfl⟩
  | @stepAdded _ other request hdr =>
    have hne : key ≠ other := by
      rintro rfl
      unfold Control.status? at hdr
      rw [hpl, Option.map_some, Option.some.injEq] at hdr
      unfold Plan.isFixed at hfix
      rw [hdr] at hfix
      revert hfix
      decide
    have hke : (s.editPlan other (Plan.addStep request)).plan? key = s.plan? key :=
      Control.plan?_editPlan_of_ne (f := Plan.addStep request) (fun _ => rfl) hne
    exact ⟨plan, hke.trans hpl, hfix, rfl⟩
  | @transitioned _ other old target hold htg _ =>
    apply hedi (marks_withStatus target)
    rintro rfl
    unfold Control.status? at hold
    rw [hpl, Option.map_some, Option.some.injEq] at hold
    unfold Plan.isFixed at hfix ⊢
    rw [hold] at hfix
    change decide (target ≠ .draft ∧ target ≠ .validated) = true
    have hall : ∀ target ∈ planTransitions old, decide (target ≠ .draft ∧ target ≠ .validated) = true := by
      revert hfix
      cases old <;> decide
    exact hall target htg
  | stepMarked _ _ hf hst =>
    apply hedi hf
    intro _
    unfold Plan.isFixed
    rw [hst]
    exact hfix
  | _ => exact ⟨plan, hpl, hfix, rfl⟩

theorem authorize_eq_ok {request : BrokerRequest}
    (h : authorizeBrokerRequest rt b request peer now = .ok (verified, b')) :
    b' = { b with nonces := verified.nonce :: b.nonces } ∧ verified.nonce ∉ b.nonces ∧
      (request.action.skipsDigest = false → ∃ plan, b.control.plan? (planKeyOf request.payload) = some plan ∧
        request.authorization.field "plan_digest" = .str (planDigest plan)) := by
  unfold authorizeBrokerRequest at h
  obtain ⟨_, -, h⟩ := bind_eq_ok.1 h
  obtain ⟨verified', -, h⟩ := bind_eq_ok.1 h
  obtain ⟨_, hdg, h⟩ := bind_eq_ok.1 h
  obtain ⟨_, hnn, h⟩ := bind_eq_ok.1 h
  cases h
  refine ⟨rfl, failIf_eq_ok.1 hnn, ?_⟩
  intro hsk
  unfold checkDigest at hdg
  rw [hsk, if_neg Bool.false_ne_true] at hdg
  cases hpl : b.control.plan? (planKeyOf request.payload) with
  | none =>
    rw [hpl] at hdg
    cases hdg
  | some plan =>
    rw [hpl] at hdg
    exact ⟨plan, rfl, not_not.1 (failIf_eq_ok.1 hdg)⟩

/-- The digest of a plan past its draft is kept by every request. -/
theorem hasDigest_exchange (h : b.control.HasDigest key digest) :
    (exchange rt source b e).control.HasDigest key digest := by
  unfold exchange
  cases hau : authorizeBrokerRequest rt b e.request e.peer e.now with
  | error _ => exact h
  | ok result =>
    obtain ⟨verified, b'⟩ := result
    obtain ⟨rfl, -, -⟩ := authorize_eq_ok hau
    cases dispatchOf e.request e.world with
    | none => exact h
    | some d =>
      have htr := @Attempt.passed_trail source ⟨d, e.dies⟩ b.control
      refine htr.invariant (I := fun s => s.HasDigest key digest) h ?_
      rintro k s t hs ⟨hcm, -⟩
      exact hcm.hasDigest hs

structure Verified (rt : Runtime) (verifies : Bytes → Text → Bool) (envelope : Members)
    (signature : Text)
    (action : BrokerAction) (payload : Members) (issuedAt expiresAt now : Instant) : Prop where
  version : rt.equalsInt (envelope.field "authorization_version") 1 = true
  named : envelope.field "action" = .str (text action.name)
  keys : hasKeys envelope (baseFields ++ action.extraFields) = true
  principals : (principalFields.all fun key => isPrincipal (envelope.field key)) = true
  scope : hasScope action (envelope.field "scopes") = true
  binding : checkBinding rt action envelope payload = .ok ()
  issued : parseTime rt (envelope.field "issued_at") = .ok issuedAt
  expires : parseTime rt (envelope.field "expires_at") = .ok expiresAt
  window : checkWindow rt issuedAt expiresAt now = .ok ()
  signed : ∃ message, canonicalBytes (.obj envelope) = some message ∧ verifies message signature = true

theorem verifyEnvelope_eq_ok {verifies : Bytes → Text → Bool} :
    verifyEnvelope rt verifies envelope signature action payload now = .ok verified ↔
      (∃ issuedAt expiresAt,
        Verified rt verifies envelope signature action payload issuedAt expiresAt now) ∧
        verified = ⟨envelope.field "principal_type", envelope.field "principal_id",
          envelope.field "principal_name", envelope.field "session_id",
          envelope.field "authorization_id", envelope.field "nonce", envelope.field "expires_at"⟩ := by
  unfold verifyEnvelope
  constructor
  · intro h
    obtain ⟨_, hves, h⟩ := bind_eq_ok.1 h
    obtain ⟨_, hks, h⟩ := bind_eq_ok.1 h
    obtain ⟨_, hpr, h⟩ := bind_eq_ok.1 h
    obtain ⟨_, hsc, h⟩ := bind_eq_ok.1 h
    obtain ⟨_, hbin, h⟩ := bind_eq_ok.1 h
    obtain ⟨issuedAt, his, h⟩ := bind_eq_ok.1 h
    obtain ⟨expiresAt, hex, h⟩ := bind_eq_ok.1 h
    obtain ⟨_, hwin, h⟩ := bind_eq_ok.1 h
    rw [failIf_eq_ok, not_or, not_not, Bool.not_eq_false] at hves
    rw [failIf_eq_ok, Bool.not_eq_false] at hks hpr hsc
    cases hms : canonicalBytes (.obj envelope) with
    | none =>
      rw [hms] at h
      cases h
    | some message =>
      rw [hms] at h
      obtain ⟨_, hvr, h⟩ := bind_eq_ok.1 h
      rw [failIf_eq_ok, Bool.not_eq_false] at hvr
      cases h
      exact ⟨⟨issuedAt, expiresAt, hves.1, hves.2, hks, hpr, hsc, hbin, his,
        hex, hwin, message, hms, hvr⟩, rfl⟩
  · rintro ⟨⟨issuedAt, expiresAt, h⟩, rfl⟩
    obtain ⟨message, hms, hvr⟩ := h.signed
    apply failIf_bind
    · rw [not_or, not_not, Bool.not_eq_false]
      exact ⟨h.version, h.named⟩
    apply failIf_bind (by rw [h.keys]; decide)
    apply failIf_bind (by rw [h.principals]; decide)
    apply failIf_bind (by rw [h.scope]; decide)
    apply bind_ok h.binding
    apply bind_ok h.issued
    apply bind_ok h.expires
    apply bind_ok h.window
    rw [hms]
    apply failIf_bind (by rw [hvr]; decide)
    rfl

def acceptedNonces (rt : Runtime) (source : Text) : Broker → List Exchange → List JVal
  | _, [] => []
  | b, e :: rest =>
    let accepted :=
      match authorizeBrokerRequest rt b e.request e.peer e.now with
      | .error _ => []
      | .ok (verified, _) => [verified.nonce]
    accepted ++ acceptedNonces rt source (exchange rt source b e) rest

theorem acceptedNonces_fresh (b : Broker) (exchanges : List Exchange) :
    (acceptedNonces rt source b exchanges).Nodup ∧
      ∀ nonce ∈ acceptedNonces rt source b exchanges, nonce ∉ b.nonces := by
  induction exchanges generalizing b with
  | nil => exact ⟨List.nodup_nil, nofun⟩
  | cons e rest ih =>
    obtain ⟨hnd, hfr⟩ := ih (exchange rt source b e)
    rw [acceptedNonces]
    cases hau : authorizeBrokerRequest rt b e.request e.peer e.now with
    | error _ =>
      have hsm : exchange rt source b e = b := by
        unfold exchange
        rw [hau]
      rw [hsm] at hnd hfr ⊢
      exact ⟨hnd, hfr⟩
    | ok result =>
      obtain ⟨verified, b'⟩ := result
      obtain ⟨rfl, hun, -⟩ := authorize_eq_ok hau
      have hnonc : (exchange rt source b e).nonces = verified.nonce :: b.nonces := by
        unfold exchange
        rw [hau]
        simp only
        cases dispatchOf e.request e.world <;> rfl
      rw [hnonc] at hfr
      constructor
      · rw [List.singleton_append, List.nodup_cons]
        exact ⟨fun hmem => hfr _ hmem List.mem_cons_self, hnd⟩
      · intro nonce hnn
        rcases List.mem_cons.1 hnn with rfl | hmem
        · exact hun
        · exact fun huse => hfr nonce hmem (List.mem_cons_of_mem _ huse)

theorem updateDraftPlan_passes (other reason : Text) (hpl : s.plan? key = some plan)
    (hfix : plan.isFixed = true) :
    Passes (updateDraftPlan other reason) s (fun _ _ => True) fun _ t => t.plan? key = some plan := by
  unfold updateDraftPlan
  apply passes_look_bind
  · intro _ _
    exact hpl
  · intro found hfn
    apply passes_lift_bind
    · intro _ _
      exact hpl
    · intro _ hdr
      apply passes_lift_bind
      · intro _ _
        exact hpl
      · intro _ _
        have hne : key ≠ other := by
          rintro rfl
          unfold findPlan at hfn
          rw [hpl] at hfn
          cases hfn
          unfold Plan.isFixed at hfix
          rw [if_pos (of_decide_eq_true hfix)] at hdr
          cases hdr
        have hkp : (s.editPlan other fun plan => { plan with reason := reason }).plan? key = s.plan? key :=
          Control.plan?_editPlan_of_ne (f := fun plan => { plan with reason := reason }) (fun _ => rfl) hne
        exact passes_step trivial (hkp.trans hpl)

theorem hasDigest_visit (v : Visit) (h : b.control.HasDigest key digest) :
    (visit rt source b v).control.HasDigest key digest := by
  cases v with
  | request e => exact hasDigest_exchange h
  | redraft other reason =>
    obtain ⟨plan, hpl, hfix, hdg⟩ := h
    obtain ⟨_, -, -, hkp⟩ := updateDraftPlan_passes other reason hpl hfix []
    exact ⟨plan, hkp, hfix, hdg⟩

theorem hasDigest_run (visits : List Visit) (h : b.control.HasDigest key digest) :
    (run (visit rt source) b visits).control.HasDigest key digest :=
  run_keeps (P := fun b : Broker => b.control.HasDigest key digest) h fun _ v h => hasDigest_visit v h

end Netops

end WebOvpn
