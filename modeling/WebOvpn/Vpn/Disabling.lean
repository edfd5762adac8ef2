/-
What `revoke_cert` does to the index, and `disable_or_delete` as a whole: when a client is
cut off by it, and when it can be taken up again.
-/
import WebOvpn.Vpn.Clients

namespace WebOvpn

open Op

namespace Vpn

open Text

variable {easyrsa : Easyrsa} {client : Text} {s s' : State} {crl : List Text} {pki : Pki}

def State.withCrl (s : State) (crl : List Text) : State :=
  { s with pki := { s.pki with crl := some crl }, installedCrl := some crl }

/-- `revoke_cert` returns and leaves the second state. -/
inductive Revocation (easyrsa : Easyrsa) (client : Text) (s : State) : State → Prop
  | missing (hst : certStatus s.pki.index client = .missing) : Revocation easyrsa client s s
  | already {crl : List Text} (hst : certStatus s.pki.index client = .revoked)
      (hcr : easyrsa.genCrl s.pki.index = some crl) : Revocation easyrsa client s (s.withCrl crl)
  | now {pki : Pki} {crl : List Text} (hms : certStatus s.pki.index client ≠ .missing)
      (hrv : certStatus s.pki.index client ≠ .revoked)
      (hrevk : easyrsa.revoke client s.pki = some pki)
      (hcr : easyrsa.genCrl pki.index = some crl) :
      Revocation easyrsa client s (State.withCrl { s with pki := pki } crl)

/-- A state that `revoke_cert` passes on the way: it still has to write or
install the list, if anything. -/
structure Underway (s' d : State) : Prop where
  pki : { d.pki with crl := s'.pki.crl } = s'.pki
  files : d.files = s'.files
  archive : d.archive = s'.archive
  registry : d.registry = s'.registry
  kills : d.kills = s'.kills

def isRevocationPoint : Point → Prop
  | .revoked => True
  | .crlGenerated => True
  | .crlInstalled => True
  | _ => False

theorem Underway.withCrl (s : State) (crl : List Text) : Underway (s.withCrl crl) s :=
  ⟨rfl, rfl, rfl, rfl, rfl⟩

theorem updateCrl_passes (hcr : easyrsa.genCrl s.pki.index = some crl) : Passes (updateCrl easyrsa) s
      (fun k d => isRevocationPoint k ∧ Underway (s.withCrl crl) d)
      (fun r d => r = .ok () ∧ d = s.withCrl crl) := by
  refine passes_look_ok (by rw [hcr]) ?_
  apply passes_step_bind
  · exact ⟨trivial, rfl, rfl, rfl, rfl, rfl⟩
  · apply passes_look_bind
    · intro e he
      cases he
    · intro src hsrc
      cases hsrc
      apply passes_step
      · exact ⟨trivial, rfl, rfl, rfl, rfl, rfl⟩
      · exact ⟨rfl, rfl⟩

theorem updateCrl_fails (hcr : easyrsa.genCrl s.pki.index = none) :
    Passes (updateCrl easyrsa) s (fun _ _ => False) (fun r d => r = .error .commandFailed ∧ d = s) := by
  apply passes_look_bind
  · intro e he
    rw [hcr] at he
    cases he
    exact ⟨rfl, rfl⟩
  · intro found hfn
    rw [hcr] at hfn
    cases hfn

variable {before : CertStatus}

theorem revokeNow_passes (hrv : easyrsa.revoke client s.pki = some pki)
    (hcr : easyrsa.genCrl pki.index = some crl) : Passes (revokeNow easyrsa client before) s
      (fun k d => isRevocationPoint k ∧ Underway (State.withCrl { s with pki := pki } crl) d)
      (fun r d => (∃ a, r = .ok a) ∧ d = State.withCrl { s with pki := pki } crl) := by
  refine passes_look_ok (by rw [hrv]) ?_
  apply passes_step_bind
  · exact ⟨trivial, Underway.withCrl _ _⟩
  · apply Passes.bind_ok (updateCrl_passes hcr)
    rintro _ rfl
    refine passes_look_ok rfl ?_
    apply passes_pure
    exact ⟨⟨_, rfl⟩, rfl⟩

theorem passes_revokeCert {C : Point → State → Prop}
    {Q : Except VpnError RevokeResult → State → Prop} (hnm : isClientName client = true)
    (h : Passes (revokeByStatus easyrsa client (certStatus s.pki.index client)) s C Q) :
    Passes (revokeCert easyrsa client) s C Q := by
  apply passes_lift_bind
  · intro e he
    rw [hnm] at he
    cases he
  · intro _ _
    refine passes_look_ok rfl ?_
    exact h

theorem revokeByStatus_eq_revokeNow (hms : before ≠ .missing)
    (hrv : before ≠ .revoked) :
    revokeByStatus easyrsa client before = revokeNow easyrsa client before := by
  cases before with
  | missing => exact absurd rfl hms
  | revoked => exact absurd rfl hrv
  | _ => rfl

theorem Revocation.passes (hnm : isClientName client = true) (h : Revocation easyrsa client s s') :
    Passes (revokeCert easyrsa client) s
      (fun k d => isRevocationPoint k ∧ certStatus s.pki.index client ≠ .missing ∧ Underway s' d)
      (fun r d => (∃ a, r = .ok a) ∧ d = s') := by
  apply passes_revokeCert hnm
  cases h with
  | missing hst =>
    rw [hst]
    exact passes_pure ⟨⟨_, rfl⟩, rfl⟩
  | already hst hcr =>
    rw [hst]
    apply Passes.bind ((updateCrl_passes hcr).mono ?_ fun _ _ h => h)
    · rintro e d ⟨h, -⟩
      cases h
    · rintro _ d ⟨-, rfl⟩
      exact passes_pure ⟨⟨_, rfl⟩, rfl⟩
    · rintro k d ⟨hk, hd⟩
      exact ⟨hk, nofun, hd⟩
  | now hms hrv hrevk hcr =>
    rw [revokeByStatus_eq_revokeNow hms hrv]
    apply (revokeNow_passes hrevk hcr).mono
    · rintro k d ⟨hk, hd⟩
      exact ⟨hk, hms, hd⟩
    · intro r d h
      exact h

theorem revokeCert_refuses (hnm : isClientName client = true)
    (hms : certStatus s.pki.index client ≠ .missing)
    (hrevd : certStatus s.pki.index client ≠ .revoked) (hrv : easyrsa.revoke client s.pki = none) :
    Passes (revokeCert easyrsa client) s (fun _ _ => False)
      (fun r d => r = .error .commandFailed ∧ d = s) := by
  apply passes_revokeCert hnm
  rw [revokeByStatus_eq_revokeNow hms hrevd]
  apply passes_look_bind
  · intro e he
    rw [hrv] at he
    cases he
    exact ⟨rfl, rfl⟩
  · intro found hfn
    rw [hrv] at hfn
    cases hfn

theorem revokeNow_unlisted (hrv : easyrsa.revoke client s.pki = some pki)
    (hcr : easyrsa.genCrl pki.index = none) :
      Passes (revokeNow easyrsa client before) s (fun _ _ => True)
      (fun r _ => r = .error .commandFailed) := by
  refine passes_look_ok (by rw [hrv]) ?_
  apply passes_step_bind trivial
  apply Passes.bind ((updateCrl_fails hcr).mono (fun _ _ _ => trivial) fun _ _ h => h)
  · rintro e d ⟨h, -⟩
    cases h
    rfl
  · rintro _ d ⟨h, -⟩
    cases h

theorem exists_revocation {r : RevokeResult} (hnm : isClientName client = true)
    (hrt : (finish (revokeCert easyrsa client) s).1 = .ok r) : ∃ s', Revocation easyrsa client s s' := by
  by_cases hms : certStatus s.pki.index client = .missing
  · exact ⟨s, .missing hms⟩
  by_cases hrv : certStatus s.pki.index client = .revoked
  · cases hcr : easyrsa.genCrl s.pki.index with
    | some crl => exact ⟨_, .already hrv hcr⟩
    | none =>
      have hfi : Passes (revokeCert easyrsa client) s (fun _ _ => False)
          (fun r _ => r = .error .commandFailed) := by
        apply passes_revokeCert hnm
        rw [hrv]
        apply Passes.bind (updateCrl_fails hcr)
        · rintro e d ⟨h, -⟩
          cases h
          rfl
        · rintro _ d ⟨h, -⟩
          cases h
      have herr := hfi.finish
      rw [hrt] at herr
      cases herr
  cases hrevk : easyrsa.revoke client s.pki with
  | none =>
    have herr := (revokeCert_refuses hnm hms hrv hrevk).finish.1
    rw [hrt] at herr
    cases herr
  | some pki =>
    cases hcr : easyrsa.genCrl pki.index with
    | some crl => exact ⟨_, .now hms hrv hrevk hcr⟩
    | none =>
      have hfi : Passes (revokeCert easyrsa client) s (fun _ _ => True)
          (fun r _ => r = .error .commandFailed) := by
        apply passes_revokeCert hnm
        rw [revokeByStatus_eq_revokeNow hms hrv]
        exact revokeNow_unlisted hrevk hcr
      have herr := hfi.finish
      rw [hrt] at herr
      cases herr

open Text

variable {cfg : Config} {easyrsa : Easyrsa} {call : Call} {now : Text} {s s' : State}
  {purge : Bool} {artifact : Artifact}

theorem fileAway_of_none (h : s.files.lookup artifact = none) : fileAway purge s artifact = s := by
  unfold fileAway
  rw [h]

def State.filed (purge : Bool) (artifacts : List Artifact) (s : State) : State :=
  artifacts.foldl (fileAway purge) s

theorem fileAway_eq (purge : Bool) (s : State) (artifact : Artifact) :
    ∃ files archive, fileAway purge s artifact = { s with files := files, archive := archive } := by
  unfold fileAway
  split
  · exact ⟨_, _, rfl⟩
  · exact ⟨_, _, rfl⟩

theorem State.filed_eq (purge : Bool) (artifacts : List Artifact) (s : State) :
    ∃ files archive, s.filed purge artifacts = { s with files := files, archive := archive } := by
  induction artifacts generalizing s with
  | nil => exact ⟨_, _, rfl⟩
  | cons artifact rest ih =>
    obtain ⟨files, archive, h⟩ := fileAway_eq purge s artifact
    obtain ⟨files', archive', h'⟩ := ih (fileAway purge s artifact)
    refine ⟨files', archive', ?_⟩
    change (fileAway purge s artifact).filed purge rest = _
    rw [h', h]

section

variable (purge : Bool) (artifacts : List Artifact) (s : State)

theorem State.filed_pki : (s.filed purge artifacts).pki = s.pki := by
  obtain ⟨_, _, h⟩ := s.filed_eq purge artifacts
  rw [h]

theorem State.filed_installedCrl : (s.filed purge artifacts).installedCrl = s.installedCrl := by
  obtain ⟨_, _, h⟩ := s.filed_eq purge artifacts
  rw [h]

theorem State.filed_registry : (s.filed purge artifacts).registry = s.registry := by
  obtain ⟨_, _, h⟩ := s.filed_eq purge artifacts
  rw [h]

theorem State.filed_kills : (s.filed purge artifacts).kills = s.kills := by
  obtain ⟨_, _, h⟩ := s.filed_eq purge artifacts
  rw [h]

end

theorem archiveOne_passes (purge : Bool) (artifact : Artifact) (s : State) :
    Passes (archiveOne purge artifact) s (fun k d => k = .filed artifact ∧ d = fileAway purge s artifact)
      (fun r d => (∃ a, r = .ok a) ∧ d = fileAway purge s artifact) := by
  refine passes_look_ok rfl ?_
  cases hfl : s.files.lookup artifact with
  | none =>
    apply passes_pure
    exact ⟨⟨_, rfl⟩, (fileAway_of_none hfl).symm⟩
  | some content =>
    apply passes_step_bind
    · exact ⟨rfl, rfl⟩
    · apply passes_pure
      exact ⟨⟨_, rfl⟩, rfl⟩

def Filing (purge : Bool) (s : State) (k : Point) (d : State) : Prop :=
  ∃ done artifact rest, activeFiles = done ++ artifact :: rest ∧
    k = .filed artifact ∧ d = s.filed purge (done ++ [artifact])

theorem filing_passes (purge : Bool) (s : State) :
    Passes (forEach (archiveOne purge) activeFiles) s (Filing purge s)
      (fun r d => (∃ a, r = .ok a) ∧ d = s.filed purge activeFiles) := by
  have hst : ∃ done, activeFiles = done ++ activeFiles ∧ s = s.filed purge done :=
    ⟨[], rfl, rfl⟩
  -- the files archived so far are the first ones of the list
  have hlo := Passes.forEach (f := archiveOne purge) (C := Filing purge s)
    (I := fun rest _ d => ∃ done, activeFiles = done ++ rest ∧ d = s.filed purge done)
    (E := fun _ _ => False) (fun artifact rest results d h => ?_) [] hst
  · apply hlo.mono (fun _ _ h => h)
    intro r d h
    cases r with
    | error e => cases h
    | ok moved =>
      obtain ⟨done, hdn, rfl⟩ := h
      rw [List.append_nil] at hdn
      rw [hdn]
      exact ⟨⟨_, rfl⟩, rfl⟩
  · obtain ⟨done, hdn, rfl⟩ := h
    have hnx : fileAway purge (s.filed purge done) artifact = s.filed purge (done ++ [artifact]) := by
      unfold State.filed
      rw [List.foldl_append]
      rfl
    apply (archiveOne_passes purge artifact _).mono
    · rintro k d ⟨rfl, rfl⟩
      exact ⟨done, artifact, rest, hdn, rfl, hnx⟩
    · rintro r d ⟨⟨a, rfl⟩, rfl⟩
      refine ⟨done ++ [artifact], ?_, hnx⟩
      rw [hdn, List.append_assoc]
      rfl

def State.registered (cfg : Config) (call : Call) (now : Text) (s : State) : State :=
  { s with registry := upsertClient (newRow cfg call now none s) s.registry }

def State.killed (killActive : Bool) (s : State) : State :=
  if killActive then { s with kills := s.kills + 1 } else s

inductive Registering (cfg : Config) (call : Call) (now : Text) (s : State) : Point → State → Prop
  | row : Registering cfg call now s .rowWritten (s.registered cfg call now)
  | kill (hkill : call.killActive = true) :
      Registering cfg call now s .killAttempted ((s.registered cfg call now).killed true)

theorem register_passes (hrow : getClientRow call.client s.registry = none) :
    Passes (register cfg call now) s (Registering cfg call now s)
      (fun r d => r = .ok () ∧ d = (s.registered cfg call now).killed call.killActive) := by
  have hpr : rowProfile call.client s = .ok none := by
    unfold rowProfile
    rw [hrow]
  refine passes_look_ok hpr ?_
  refine passes_look_ok rfl ?_
  apply passes_step_bind .row
  change Passes (killSession call.killActive) (s.registered cfg call now) _ _
  cases hkil : call.killActive with
  | false => exact passes_pure ⟨rfl, rfl⟩
  | true =>
    rw [killSession, if_pos rfl]
    apply passes_step
    · exact .kill hkil
    · exact ⟨rfl, rfl⟩

theorem register_fails {row : ClientRow} (hrow : getClientRow call.client s.registry = some row) :
    Passes (register cfg call now) s (fun _ _ => False)
      (fun r d => r = .error .attributeError ∧ d = s) := by
  have hpr : rowProfile call.client s = .error .attributeError := by
    unfold rowProfile
    rw [hrow]
  apply passes_look_bind
  · intro e he
    rw [hpr] at he
    cases he
    exact ⟨rfl, rfl⟩
  · intro profile hfn
    rw [hpr] at hfn
    cases hfn

inductive Stage (cfg : Config) (call : Call) (now : Text) (s s' : State) : Point → State → Prop
  | revocation {k : Point} {d : State} (hpoint : isRevocationPoint k)
      (hmissing : certStatus s.pki.index call.client ≠ .missing) (h : Underway s' d) :
      Stage cfg call now s s' k d
  | filing {k : Point} {d : State} (h : Filing call.purge s' k d) : Stage cfg call now s s' k d
  | registering {k : Point} {d : State}
      (h : Registering cfg call now (s'.filed call.purge activeFiles) k d) :
      Stage cfg call now s s' k d

theorem Revocation.registry (h : Revocation easyrsa call.client s s') : s'.registry = s.registry := by
  cases h <;> rfl

theorem passes_disable {C : Point → State → Prop} {Q : Except VpnError DisableResult → State → Prop}
    (hnm : isClientName call.client = true) (h : Revocation easyrsa call.client s s')
    (hrv : ∀ k d, isRevocationPoint k → certStatus s.pki.index call.client ≠ .missing →
      Underway s' d → C k d) (hfl : ∀ k d, Filing call.purge s' k d → C k d)
    (hrg : Passes (register cfg call now) (s'.filed call.purge activeFiles) C fun r d =>
      match r with
      | .ok _ => ∀ a, Q (.ok a) d
      | .error e => Q (.error e) d) :
    Passes (disableOrDelete cfg easyrsa call now) s C Q := by
  apply passes_lift_bind
  · intro e he
    rw [hnm] at he
    cases he
  intro _ _
  apply Passes.bind ((h.passes hnm).mono (fun k d hd => hrv k d hd.1 hd.2.1 hd.2.2)
    fun _ _ hd => hd)
  · rintro e d ⟨⟨_, h⟩, -⟩
    cases h
  rintro revoke d ⟨-, rfl⟩
  apply Passes.bind ((filing_passes call.purge _).mono hfl fun _ _ hd => hd)
  · rintro e d ⟨⟨_, h⟩, -⟩
    cases h
  rintro moved d ⟨-, rfl⟩
  apply Passes.bind hrg
  · intro e d hd
    exact hd
  · intro _ d hd
    exact passes_pure (hd _)

def State.disabled (cfg : Config) (call : Call) (now : Text) (s' : State) : State :=
  ((s'.filed call.purge activeFiles).registered cfg call now).killed call.killActive

theorem disable_passes (hnm : isClientName call.client = true)
    (h : Revocation easyrsa call.client s s') (hrow : getClientRow call.client s.registry = none) :
    Passes (disableOrDelete cfg easyrsa call now) s (Stage cfg call now s s')
      (fun r d => (∃ a, r = .ok a) ∧ d = s'.disabled cfg call now) := by
  apply passes_disable hnm h
  · intro k d hk hms hd
    exact .revocation hk hms hd
  · intro k d hd
    exact .filing hd
  · have hrow' : getClientRow call.client (s'.filed call.purge activeFiles).registry = none := by
      rw [State.filed_registry, h.registry, hrow]
    apply (register_passes hrow').mono
    · intro k d hd
      exact .registering hd
    · rintro r d ⟨rfl, rfl⟩ a
      exact ⟨⟨a, rfl⟩, rfl⟩

theorem disable_stops {row : ClientRow} (hnm : isClientName call.client = true)
    (h : Revocation easyrsa call.client s s') (hrow : getClientRow call.client s.registry = some row) :
    Passes (disableOrDelete cfg easyrsa call now) s
      (fun k d => isRevocationPoint k ∧ Underway s' d ∨ Filing call.purge s' k d)
      (fun r d => r = .error .attributeError ∧ d = s'.filed call.purge activeFiles) := by
  apply passes_disable hnm h
  · intro k d hk _ hd
    exact .inl ⟨hk, hd⟩
  · intro k d hd
    exact .inr hd
  · have hrow' : getClientRow call.client (s'.filed call.purge activeFiles).registry = some row := by
      rw [State.filed_registry, h.registry, hrow]
    apply (register_fails hrow').mono
    · intro k d hd
      exact hd.elim
    · rintro r d ⟨rfl, rfl⟩
      exact ⟨rfl, rfl⟩

theorem disable_refuses (hnm : isClientName call.client = true)
    (hms : certStatus s.pki.index call.client ≠ .missing)
    (hrv : certStatus s.pki.index call.client ≠ .revoked)
    (hrevk : easyrsa.revoke call.client s.pki = none) :
    Passes (disableOrDelete cfg easyrsa call now) s (fun _ _ => False)
      (fun r d => r = .error .commandFailed ∧ d = s) := by
  apply passes_lift_bind
  · intro e he
    rw [hnm] at he
    cases he
  intro _ _
  apply Passes.bind (revokeCert_refuses hnm hms hrv hrevk)
  · rintro e d ⟨h, rfl⟩
    cases h
    exact ⟨rfl, rfl⟩
  · rintro _ d ⟨h, -⟩
    cases h

theorem disable_returns {r : DisableResult}
    (hrt : (finish (disableOrDelete cfg easyrsa call now) s).1 = .ok r) :
    ∃ s', Revocation easyrsa call.client s s' ∧
      (finish (disableOrDelete cfg easyrsa call now) s).2 = s'.disabled cfg call now := by
  obtain ⟨hnm, hbd⟩ := finish_raiseIf_bind_eq_ok hrt
  rw [Bool.not_eq_false] at hnm
  obtain ⟨_, hrv⟩ := finish_bind_eq_ok hbd
  obtain ⟨s', h⟩ := exists_revocation hnm hrv
  refine ⟨s', h, ?_⟩
  cases hrow : getClientRow call.client s.registry with
  | none => exact (disable_passes hnm h hrow).finish.2
  | some row =>
    have herr := (disable_stops hnm h hrow : Passes (disableOrDelete cfg easyrsa call now) s
      _ _).finish.1
    rw [hrt] at herr
    cases herr

/-- A valid entry of the client is in the index, and an `R` line that
`cert_status` takes for one of the client stands before every line by which it
would see that. -/
def Shadowed (client : Text) (lines : List Text) : Prop :=
  letter client lines = some (text "R") ∧ ∃ line ∈ lines, isOwnValid client line = true

theorem exists_isOwnValid_iff {client : Text} {lines : List Text} :
    (∃ line ∈ lines, isOwnValid client line = true) ↔
      ¬ ∀ line ∈ lines, isOwnValid client line = false := by
  simp

theorem Revocation.cuts_off_iff {client : Text} (hrs : easyrsa.Lawful)
    (h : Revocation easyrsa client s s') :
    (∀ line ∈ indexLines s'.pki.index, isOwnValid client line = false) ↔
      ¬ Shadowed client (indexLines s.pki.index) := by
  unfold Shadowed
  rw [exists_isOwnValid_iff]
  cases h with
  | missing hst =>
    unfold certStatus at hst
    split at hst
    · cases hst
    · rename_i content hidx
      rw [hidx]
      have hnn := not_isOwnValid_of_missing hst
      exact ⟨fun _ hsha => hsha.2 hnn, fun _ => hnn⟩
  | already hst hcr =>
    unfold certStatus at hst
    split at hst
    · cases hst
    · rename_i content hidx
      change (∀ line ∈ indexLines s.pki.index, _) ↔ _
      rw [hidx]
      change _ ↔ ¬ (letter client (splitlines content) = _ ∧ _)
      rw [statusIn_eq_revoked_iff.1 hst]
      change _ ↔ ¬ (_ ∧ ¬ ∀ line ∈ splitlines content, _)
      simp [indexLines]
  | @now pki crl hms hrv hrevk hcr =>
    obtain ⟨before, after, hbf, haf, hln⟩ := hrs.revokes _ _ _ hrevk
    have hnn := not_isOwnValid_of_revokes hln
    have hlt : letter client (splitlines before) ≠ some (text "R") := by
      rw [Ne, ← statusIn_eq_revoked_iff]
      unfold certStatus at hrv
      rw [hbf] at hrv
      exact hrv
    change (∀ line ∈ indexLines pki.index, _) ↔ _
    rw [haf, hbf]
    exact ⟨fun _ hsha => hlt hsha.1, fun _ => hnn⟩

theorem State.disabled_pki (cfg : Config) (call : Call) (now : Text) (s' : State) :
    (s'.disabled cfg call now).pki = s'.pki := by
  unfold State.disabled State.killed State.registered
  split_ifs <;> exact State.filed_pki _ _ _

/-- A call that returns has cut the client off unless a valid entry of it was
shadowed.  `cert_status` sees a valid entry of the client exactly when the
first line that decides is a `V` line, and looks at other entries than those of
the client exactly when one of them decides otherwise. -/
theorem disableOrDelete_cuts_off_iff (hrs : easyrsa.Lawful) (cfg : Config) (call : Call)
    (now : Text) (s : State) : ((∃ r, (finish (disableOrDelete cfg easyrsa call now) s).1 = .ok r) →
      ((∀ line ∈ indexLines (finish (disableOrDelete cfg easyrsa call now) s).2.pki.index,
          isOwnValid call.client line = false) ↔ ¬ Shadowed call.client (indexLines s.pki.index))) ∧
    (∀ (client : Text) (lines : List Text),
      (((∃ line ∈ lines, isOwnValid client line = true) → statusIn client lines = .valid) ↔
        ((∃ line ∈ lines, isOwnValid client line = true) → letter client lines = some (text "V"))) ∧
      (statusIn client lines = statusIn client (lines.filter (isOwn client)) ↔
        letter client lines = letter client (lines.filter (isOwn client)))) := by
  refine ⟨?_, ?_⟩
  · rintro ⟨r, hrt⟩
    obtain ⟨s', h, hend⟩ := disable_returns hrt
    rw [hend, State.disabled_pki]
    exact h.cuts_off_iff hrs
  · intro client lines
    refine ⟨?_, ?_⟩
    · rw [statusIn_eq_valid_iff]
    · exact statusIn_eq_statusIn_iff

/-- A line of the index, with the date, the serial number and the file that
Easy-RSA writes. -/
def entry (letter serial name : Text) : Text :=
  letter ++ tab :: text "330101Z" ++ tab :: tab :: serial ++ tab :: text "unknown" ++ tab ::
    text "/CN=" ++ name

def bob : Text := "bob"

def indexOf (lines : List Text) : Text := lines.flatMap fun line => line ++ [10]

/-- The certificates of two clients, one with a name that begins like the other. -/
def issuedPki : Pki where
  index := some (indexOf [entry "V" "01" bob, entry "V" "02" "bobby"])
  crl := none
  issued := [bob, "bobby"]
  keys := [bob, "bobby"]

def revokedPki : Pki where
  index := some (indexOf [entry "R" "01" bob, entry "V" "02" "bobby"])
  crl := none
  issued := ["bobby"]
  keys := [bob, "bobby"]

/-- Easy-RSA on the two certificates. -/
def sampleEasyrsa : Easyrsa where
  revoke name pki := if name = bob ∧ pki = issuedPki then some revokedPki else none
  genCrl index := some ((indexLines index).filter fun line => firstField line == "R")

theorem sampleEasyrsa_lawful : sampleEasyrsa.Lawful where
  revokes name pki pki' h := by
    change (if name = bob ∧ pki = issuedPki then some revokedPki else none) = _ at h
    split_ifs at h with hin
    cases h
    obtain ⟨rfl, rfl⟩ := hin
    refine ⟨_, _, rfl, rfl, ?_⟩
    have hbf : splitlines (indexOf [entry "V" "01" bob,
        entry "V" "02" "bobby"]) =
        [entry "V" "01" bob, entry "V" "02" "bobby"] := by
      decide
    have haf : splitlines (indexOf [entry "R" "01" bob,
        entry "V" "02" "bobby"]) =
        [entry "R" "01" bob, entry "V" "02" "bobby"] := by
      decide
    rw [hbf, haf]
    refine .cons ?_ (.cons ?_ .nil)
    · unfold Revokes
      rw [if_pos (by decide)]
      exact ⟨by decide, by decide⟩
    · unfold Revokes
      rw [if_neg (by decide)]
  again name pki pki' h crl := by
    change (if name = bob ∧ pki = issuedPki then some revokedPki else none) = _ at h
    split_ifs at h with hin
    cases h
    change (if name = bob ∧ { revokedPki with crl := crl } = issuedPki then some revokedPki
      else none) = none
    rw [if_neg]
    rintro ⟨-, hsm⟩
    have hidx := congrArg Pki.index hsm
    change revokedPki.index = issuedPki.index at hidx
    revert hidx
    decide

def sampleConfig : Config := ⟨"/out", "/mnt", "/ccd"⟩

def disableBob : Call := ⟨bob, .disable, false, "left", true⟩

def issuedState : State where
  pki := issuedPki
  installedCrl := none
  files := [(.ccd, []), (.ovpn, [])]
  archive := []
  registry := []
  kills := 0

/-- After the run no line of the index is a valid certificate of bob. -/
theorem disableOrDelete_cuts_off_bob : sampleEasyrsa.Lawful ∧
      ∀ line ∈ indexLines (finish (disableOrDelete sampleConfig sampleEasyrsa disableBob "t")
        issuedState).2.pki.index, isOwnValid bob line = false :=
  ⟨sampleEasyrsa_lawful, ((disableOrDelete_cuts_off_iff sampleEasyrsa_lawful sampleConfig disableBob "t"
    issuedState).1 ⟨⟨⟨.valid, [.revoked], some .revoked⟩, [.ccd, .ovpn]⟩, by decide⟩).2
    fun h => absurd h.1 (by decide)⟩

/-- The certificate of the client was revoked once and issued again. -/
def reissuedState : State :=
  { issuedState with
    pki := { issuedPki with
      index := some (indexOf [entry "R" "01" bob, entry "V" "02" bob]) } }

/-- The call returns, and the certificate stays valid: the line of the old one
answers for it. -/
theorem disableOrDelete_leaves_reissued : sampleEasyrsa.Lawful ∧
      (finish (disableOrDelete sampleConfig sampleEasyrsa disableBob "t") reissuedState).1 =
        .ok ⟨⟨.revoked, [.alreadyRevoked], none⟩, [.ccd, .ovpn]⟩ ∧
      ¬ ∀ line ∈ indexLines (finish (disableOrDelete sampleConfig sampleEasyrsa disableBob "t")
        reissuedState).2.pki.index, isOwnValid bob line = false := by
  refine ⟨sampleEasyrsa_lawful, by decide, ?_⟩
  intro h
  have hvl : isOwnValid bob (entry "V" "02" bob) = true := by decide
  have hln : entry "V" "02" bob ∈ indexLines (finish (disableOrDelete sampleConfig
      sampleEasyrsa disableBob "t") reissuedState).2.pki.index := by
    apply List.elem_iff.1
    decide
  rw [h _ hln] at hvl
  cases hvl

end Vpn

end WebOvpn
