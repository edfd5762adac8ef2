/-
What every run of the install-session system keeps about executions: their
binding, the transition table, single use and the authorization window.
-/
import WebOvpn.Install.SessionMoves
import WebOvpn.Lib.Sha256

namespace WebOvpn

open Repository ExecutionService

namespace Sample

def isoId : Text := text "alt-kworkstation-11" ++ ".4-install-x86_64"

def isoSha256 : Text :=
  Sha256.hexDigits 64 0x2529f98bca03a652709434a6a17cd4aac5df20c0793927abdf784e8f9388243a

def profile : JVal :=
  .obj [("profile_id", .str "standard-office"), ("profile_version", .int 1),
    ("target_release", .str "ALT KWorkstation 11.4"),
    ("iso", .obj [("id", .str isoId), ("sha256", .str isoSha256)]),
    ("firmware", .str "uefi"), ("architecture", .str "x86_64"),
    ("network", .str "dhcp"),
    ("disk", .obj [("mode", .str "exactly_one_eligible_internal"),
      ("minimum_bytes", .int 53687091200),
      ("wipe_mode", .str "whole_disk")]),
    ("layout", .obj [("filesystem", .str "btrfs"),
      ("swap_mib", .int 4096), ("btrfs_minimum_mib", .int 40960),
      ("grow", .bool true),
      ("subvolumes", .obj [("@", .str "/"), ("@home", .str "/home")]),
      ("encryption", .str "none"), ("raid", .str "none"),
      ("lvm", .str "none")]),
    ("package_set", .str "standard-office-v1")]

def inventory : JVal :=
  .obj [("schema_version", .int 1), ("agent", .obj [("version", .str "1"),
      ("boot_id", .str "boot"), ("build_id", .str "build"),
      ("iso_id", .str isoId),
      ("iso_sha256", .str isoSha256)]),
    ("machine", .obj [("dmi_uuid", .str "uuid"),
      ("manufacturer", .str "maker"), ("product_name", .str "pc"),
      ("serial_number", .str "1"), ("firmware", .str "uefi"),
      ("memory_bytes", .int 8589934592), ("cpu_arch", .str "x86_64")]),
    ("interfaces", .arr [.obj [("name", .str "eth0"),
      ("mac", .str "52:54:00:12:34:56"), ("addresses", .arr []),
      ("route_to_controller", .bool true)]]),
    ("disks", .arr [.obj [("type", .str "disk"),
      ("path", .str "/dev/sda"), ("removable", .bool false),
      ("size_bytes", .int 107374182400), ("model", .str "disk"),
      ("serial", .str "serial"), ("wwn", .null),
      ("filesystem_signatures", .arr [])]]),
    ("boot_media", .obj [("path", .str "/dev/sr0"),
      ("model", .str "iso"), ("serial", .null), ("wwn", .null)])]

def bigEndian (count value : Nat) : Bytes :=
  (List.range count).map fun i => UInt8.ofNat (value / 256 ^ (count - 1 - i))

def signingKey : Bytes :=
  bigEndian 32 0x000102030405060708090a0b0c0d0e0f101112131415161718191a1b1c1d1e1f

def verificationKey : Bytes :=
  bigEndian 32 0x03a107bff3ce10be1d70dd18e74bc09967e4d6309ba50d5f1ddc8664125531b8

def planDigest : Text :=
  Sha256.hexDigits 64 0xe7bbbe6bfbc2ae1b46628f34c6a122857d66fabab74c7a67ae6745451135e15e

def manifestDigest : Text :=
  Sha256.hexDigits 64 0x4a8db19991f71f42c6785031a2bfe09565ba3b7fb8ca168f19831777fc91c626

/-- The Ed25519 signatures of the messages signed below, by their digests. -/
def signatureOf (message : Bytes) : Bytes :=
  let digest := (Sha256.hexdigest message).val
  if digest = planDigest then
    bigEndian 64
      (0xcf1f4ebfc1136cf97c8dd24fa64dee2c8d4e25c693746a07c4dcd417911785d5 * 2 ^ 256 +
        0x072ffe0ceef459476767e14249b44cb15983cec8f66b10d453f05bac87c29e06)
  else if digest = manifestDigest then
    bigEndian 64
      (0x3acfd325224b46bc2d8cdd65dbb246c949d1e6f5724287967379e62e355d9a71 * 2 ^ 256 +
        0xf77d69938172325c27ad6a700c113e2802ca5d32783a365937d4d454887ff104)
  else []

def crypto : Crypto where
  sha256 := Sha256.hexdigest
  publicKey key := if key = signingKey then verificationKey else []
  sign key message := if key = signingKey then signatureOf message else []
  verify key message signature :=
    key == verificationKey && signature.length == 64 && signatureOf message == signature

def env : Env where
  crypto := crypto
  euid := 0
  profiles := [⟨"standard-office-v1.json", some (asciiBytes (dumps compact profile))⟩]
  autoinstallTemplate := ⟨"autoinstall.scm.template", some
    (text "($network_name " ++ text "$temporary_hostname " ++ text "$root_yescrypt_hash " ++
      "$admin_yescrypt_hash)")⟩
  vmProfileTemplate := ⟨"vm-profile.scm.template", some
    (text "($swap_kib " ++ "$btrfs_minimum_kib)")⟩
  signingPrivateKey := some signingKey
  signingPublicKey := some verificationKey
  secrets := some ⟨"$y$j9T$rootrootroot", "$y$j9T$adminadmin"⟩
  releaseArchives := some (.ok [1], .ok [2])
  unsynced _ := false

def sessionId : Text := text "install-20260730" ++ "T100000Z-0123abcd"

def nonce : Text := text "AAECAwQFBgcICQoL" ++ text "DA0ODxAREhMUFRY" ++ "XGBkaGxwdHh8"

/-- Minutes after ten o'clock on 30 July 2026. -/
def minute (n : Fin 60) : Instant :=
  ⟨63921002400000000 + n.val * 60000000, by omega⟩

def atMinute (n : Fin 60) (operation : Operation) : Step := ⟨env, fun _ => minute n, operation⟩

def create : Step :=
  atMinute 0 (.create ⟨inventory, "127.0.0.1", .str nonce, sessionId⟩)

def inventoryDigest : Text :=
  Sha256.hexDigits 64 0xae7d58986d08d01f7ba0730505d806b6d3f64dd2a910e125904c0085a42731b8

def fingerprint : Text :=
  text "sha256:" ++ Sha256.hexDigits 64
    0x1e6c05aa47a721182e21d44b2b4bb4f1371d71e02a46ed4b5795a254d1723526

def approve (n : Fin 60) : Step :=
  atMinute n (.approve sessionId ⟨.str inventoryDigest, .str fingerprint, .str "new desk"⟩)

def heartbeat : Step :=
  atMinute 2 (.heartbeat sessionId (some nonce)
    (.obj [("schema_version", .int 1), ("boot_id", .str "boot"),
      ("agent_version", .str "1"), ("sequence", .int 1),
      ("reported_stage", .str "preflight_ready"),
      ("sent_at", .str (minute 2).isoformat)]))

def cancelExecution : Step :=
  atMinute 1 (.cancelExecution sessionId (.str "stop"))

def authorize : Step :=
  atMinute 3 (.authorize sessionId ⟨.str planDigest, .str inventoryDigest, .str fingerprint,
    .str "/dev/sda", .str "new desk"⟩)

/-- A session from its creation to a started installer.  The authorization of
minute 3 ends in minute 18, the session in minute 31. -/
def installation : List Step :=
  [create, approve 1, heartbeat, authorize, atMinute 4 (.claim sessionId),
    atMinute 5 (.handoffStarted sessionId), atMinute 20 (.installerStarted sessionId)]

def session (steps : List Step) : Option Session := (sessionsAfter steps).lookup sessionId

/-- An approval after the session's expiry ends the session.  In the installation the
installer is started two minutes after the authorization has ended; a request after the
session's expiry ends the session, and the report of the installation is then refused.
A session whose execution was cancelled before it was authorized is still ended by an
approval after its expiry. -/
theorem sample_runs : ((session [create]).map fun a => (a.status.state, a.status.execution.isSome)) =
      some (.awaitingApproval, false) ∧
    ((session [create, approve 40]).map fun a => a.status.state) = some .expired ∧
    ((session [create, approve 40, atMinute 41 (.cancelSession sessionId (.str "stop"))]).map
      fun a => a.status.state) = some .cancelled ∧
    ((session [create, approve 1]).map fun a => a.status.execution.isSome) = some false ∧
    ((session installation).bind fun a => a.status.execution.map fun e =>
      (a.status.expiresAt, e.stateOf, e.timeOf .installerStartedAt, e.timeOf .expiresAt)) =
      some (minute 31, some .installerStarted, some (minute 20), some (minute 18)) ∧
    ((atMinute 41 (.postflightInstalled sessionId)).perform
      (sessionsAfter (installation ++ [atMinute 40 (.getStatus sessionId (some nonce))]))).1.isOk =
        false ∧
    ((session [create, cancelExecution]).bind fun a =>
      a.status.execution.map fun e => (a.status.state, e.stateOf)) =
        some (.awaitingApproval, some .cancelled) ∧
    ((approve 40).perform (sessionsAfter [create, cancelExecution])).1.isOk = false ∧
    ((session [create, cancelExecution, approve 40]).map fun a => a.status.state) =
      some .expired := by
  decide +kernel

theorem installation_execution : ∃ a e, (sessionsAfter installation).lookup sessionId = some a ∧
      a.status.execution = some e ∧ a.status.expiresAt = minute 31 ∧
        e.stateOf = some .installerStarted ∧
      e.timeOf .installerStartedAt = some (minute 20) ∧ e.timeOf .expiresAt = some (minute 18) := by
  obtain ⟨-, -, -, -, hins, -⟩ := sample_runs
  obtain ⟨a, ha, hex⟩ := Option.bind_eq_some_iff.1 hins
  obtain ⟨e, he, hfl⟩ := Option.map_eq_some_iff.1 hex
  simp only [Prod.mk.injEq] at hfl
  exact ⟨a, e, ha, he, hfl⟩

end Sample

variable {step : Step} {id : Text} {ok : Bool} {a b : Session} {s : Store}

/-- The record is unchanged or has taken an edge of the transition table. -/
def Execution.Advances (e e' : Execution) : Prop :=
  e' = e ∨ e.follows e' = true

variable {e e' : Execution} {f : ExecutionField} {first middle : List Step} {step' : Step}
    {updates : List (ExecutionField × JVal)}

theorem validateTransition_follows (hne : e ≠ e')
    (h : e.validateTransition e' = .ok ()) : e.follows e' = true := by
  simp only [Execution.validateTransition, bind_eq_ok, raiseWhen_eq_ok] at h
  obtain ⟨_, -, _, -, h⟩ := h
  simpa [hne] using h

theorem Move.execution_advances (h : Move step id ok a b) (he : a.status.execution = some e) :
    ∃ e', b.status.execution = some e' ∧ e.Advances e' := by
  cases h with
  | publish _ _ _ _ hex => exact ⟨e, hex.trans he, .inl rfl⟩
  | authorize _ _ hnn => simp [hnn] at he
  | cancelUnauthorized _ hnn => simp [hnn] at he
  | progress _ he₀ _ hpr hlaw =>
    cases he₀.symm.trans he
    exact ⟨_, rfl, .inr (validateTransition_follows hpr.ne hlaw)⟩
  | _ => exact ⟨e, he, .inl rfl⟩

theorem Move.authorized {sessionId : Text} {request : AuthorizeRequest}
    (h : Move step id true a b) (hop : step.operation = .authorize sessionId request)
    (htg : step.operation.Targets id) : a.status.execution = none ∧
      ∃ e, b.status.execution = some e := by
  have hrp : step.operation.isReport = true := by rw [hop]; rfl
  cases h with
  | bystander hot => exact absurd htg hot
  | authorize _ _ hnn => exact ⟨hnn, _, rfl⟩
  | cancel hcn => simp [hop] at hcn
  | progress _ _ _ hpr => cases hpr <;> simp_all
  | _ => simp_all

theorem Move.claimed {sessionId : Text} (h : Move step id true a b)
    (hop : step.operation = .claim sessionId) (htg : step.operation.Targets id) :
    ∃ e e', a.status.execution = some e ∧ e.stateOf = some .authorized ∧
      b.status.execution = some e' ∧ e'.stateOf = some .claimed := by
  have hrp : step.operation.isReport = true := by rw [hop]; rfl
  cases h with
  | bystander hot => exact absurd htg hot
  | authorize hau => simp [hop] at hau
  | cancel hcn => simp [hop] at hcn
  | progress _ he _ hpr =>
    cases hpr with
    | claim _ hst _ => exact ⟨_, _, he, hst, rfl, Execution.stateOf_set rfl⟩
    | _ => simp_all
  | _ => simp_all

/-- Edges of the table taken one after another. -/
def Execution.Descends : Execution → Execution → Prop :=
  Relation.ReflTransGen fun e e' => e.follows e' = true

theorem Execution.Advances.descends (h : e.Advances e') : e.Descends e' := by
  rcases h with rfl | h
  · exact .refl
  · exact .single h

theorem Execution.follows_edge (h : e.follows e' = true) :
    ∃ s s', e.stateOf = some s ∧ e'.stateOf = some s' ∧ s' ∈ s.next ∧ ∀ f, f ∉ s.mutable s' →
      e f = e' f := by
  unfold Execution.follows at h
  split at h
  next s s' hs hs' => exact ⟨s, s', hs, hs', by simpa using h⟩
  next => cases h

theorem ExecutionState.binding_not_mutable (s s' : ExecutionState) :
    ∀ f ∈ ExecutionField.binding, f ∉ s.mutable s' := by
  cases s <;> cases s' <;> decide

theorem Execution.Descends.binding (h : e.Descends e') (hf : f ∈ ExecutionField.binding) :
    e' f = e f := by
  induction h with
  | refl => rfl
  | tail _ hst ih =>
    obtain ⟨s, s', -, -, -, hsm⟩ := Execution.follows_edge hst
    exact (hsm f (ExecutionState.binding_not_mutable s s' f hf)).symm.trans ih

theorem Execution.Descends.terminal {s : ExecutionState}
    (h : e.Descends e') (hs : e.stateOf = some s) (htr : s.next = []) : e' = e := by
  induction h with
  | refl => rfl
  | tail _ hst ih =>
    subst ih
    obtain ⟨s', _, hs', -, hnx, -⟩ := Execution.follows_edge hst
    rw [hs, Option.some.injEq] at hs'
    rw [← hs', htr] at hnx
    cases hnx

theorem ExecutionState.authorized_not_mem_next (s : ExecutionState) :
    ExecutionState.authorized ∉ s.next := by
  cases s <;> decide

theorem Execution.Descends.not_authorized (h : e.Descends e')
    (hs : e.stateOf ≠ some .authorized) : e'.stateOf ≠ some .authorized := by
  induction h with
  | refl => exact hs
  | tail _ hst _ =>
    intro hau
    obtain ⟨s, s', -, hs', hnx, -⟩ := Execution.follows_edge hst
    rw [hau, Option.some.injEq] at hs'
    exact ExecutionState.authorized_not_mem_next s (hs' ▸ hnx)

theorem Store.after_move (hs : s.Valid) (step : Step) (ha : s.lookup id = some a) :
    ∃ b, (s.after step).lookup id = some b ∧ Moved step id (step.perform s).1 a b := by
  obtain ⟨ok, hen, hef⟩ := step.perform_effect hs
  obtain ⟨b, hb, hmv⟩ := hef.moves id a ha
  exact ⟨b, hb, ok, hen, hmv⟩

/-- A step that succeeds finds the session it is called for, and moves it. -/
theorem Step.Succeeds.move (h : step.Succeeds s) (hs : s.Valid) (ha : s.lookup id = some a) :
    ∃ b, (s.after step).lookup id = some b ∧ Move step id true a b := by
  obtain ⟨b, hb, ok, hen, hmv⟩ := Store.after_move hs step ha
  rw [h] at hen
  exact ⟨b, hb, hen.eq_true ▸ hmv⟩

theorem Step.Succeeds.found (h : step.Succeeds s) (hs : s.Valid) (htg : step.operation.Targets id) :
    ∃ a, s.lookup id = some a := by
  obtain ⟨ok, hen, hef⟩ := step.perform_effect hs
  rw [h] at hen
  exact hef.found hen.eq_true id htg

/-- Every stored execution of `s` has a descendant in `s'`. -/
def Store.ExecutionsDescend (s s' : Store) : Prop :=
  ∀ id a e, s.lookup id = some a → a.status.execution = some e →
    ∃ b e', s'.lookup id = some b ∧ b.status.execution = some e' ∧ e.Descends e'

theorem run_executionsDescend (hs : s.Valid) (steps : List Step) :
    s.ExecutionsDescend (run Store.after s steps) := by
  refine run_relates hs (fun s step hs => Store.after_valid hs step) ?_ ?_ ?_
  · exact fun s id a e ha he => ⟨a, e, ha, he, .refl⟩
  · intro s s' s'' h h' id a e ha he
    obtain ⟨b, e', hb, he', hds⟩ := h id a e ha he
    obtain ⟨c, e'', hc, he'', hds'⟩ := h' id b e' hb he'
    exact ⟨c, e'', hc, he'', hds.trans hds'⟩
  · intro s step hs id a e ha he
    obtain ⟨b, hb, _, -, hmv⟩ := Store.after_move hs step ha
    obtain ⟨e', he', had⟩ := hmv.execution_advances he
    exact ⟨b, e', hb, he', had.descends⟩

theorem sessionsAfter_append (first second : List Step) :
    sessionsAfter (first ++ second) = run Store.after (sessionsAfter first) second :=
  run_append _ _ _ _

theorem sessionsAfter_executionsDescend (first second : List Step) :
    (sessionsAfter first).ExecutionsDescend (sessionsAfter (first ++ second)) := by
  rw [sessionsAfter_append]
  exact run_executionsDescend (sessionsAfter_valid first) second

/-- The step is a call of `authorize` for the session. -/
def Step.Authorizes (step : Step) (id : Text) : Prop :=
  (∃ sessionId request, step.operation = .authorize sessionId request) ∧ step.operation.Targets id

def Step.Claims (step : Step) (id : Text) : Prop :=
  (∃ sessionId, step.operation = .claim sessionId) ∧ step.operation.Targets id

theorem moves_of_two_successes {step : Step}
    (htg : step.operation.Targets id) (hok : step.Succeeds (sessionsAfter first))
    (htg' : step'.operation.Targets id)
    (hok' : step'.Succeeds (sessionsAfter (first ++ step :: middle))) :
    ∃ a b c d, Move step id true a b ∧ Move step' id true c d ∧ ∀ e, b.status.execution = some e →
        ∃ e', c.status.execution = some e' ∧ e.Descends e' := by
  have hvl := sessionsAfter_valid first
  have hvl' := sessionsAfter_valid (first ++ step :: middle)
  obtain ⟨a, ha⟩ := hok.found hvl htg
  obtain ⟨b, hb, hmv⟩ := hok.move hvl ha
  obtain ⟨c, hc⟩ := hok'.found hvl' htg'
  obtain ⟨d, -, hmv'⟩ := hok'.move hvl' hc
  refine ⟨a, b, c, d, hmv, hmv', fun e he => ?_⟩
  have hst : (sessionsAfter (first ++ [step])).lookup id = some b := by
    rw [sessionsAfter_append]
    exact hb
  obtain ⟨c', e', hc', he', hds⟩ :=
    sessionsAfter_executionsDescend (first ++ [step]) middle id b e hst he
  rw [List.append_assoc, List.singleton_append, hc, Option.some.injEq] at hc'
  exact ⟨e', hc' ▸ he', hds⟩

theorem authorize_once {step : Step} (h : step.Authorizes id)
    (hok : step.Succeeds (sessionsAfter first))
    (h' : step'.Authorizes id) : ¬ step'.Succeeds (sessionsAfter (first ++ step :: middle)) := by
  intro hok'
  obtain ⟨⟨_, _, hop⟩, htg⟩ := h
  obtain ⟨⟨_, _, hop'⟩, htg'⟩ := h'
  obtain ⟨a, b, c, d, hmv, hmv', hlt⟩ :=
    moves_of_two_successes htg hok htg' hok'
  obtain ⟨-, e, he⟩ := hmv.authorized hop htg
  obtain ⟨e', he', -⟩ := hlt e he
  obtain ⟨hnn, -⟩ := hmv'.authorized hop' htg'
  rw [hnn] at he'
  cases he'

theorem claim_once {step : Step}
    (h : step.Claims id) (hok : step.Succeeds (sessionsAfter first)) (h' : step'.Claims id) :
    ¬ step'.Succeeds (sessionsAfter (first ++ step :: middle)) := by
  intro hok'
  obtain ⟨⟨_, hop⟩, htg⟩ := h
  obtain ⟨⟨_, hop'⟩, htg'⟩ := h'
  obtain ⟨a, b, c, d, hmv, hmv', hlt⟩ :=
    moves_of_two_successes htg hok htg' hok'
  obtain ⟨_, e, -, -, he, hcl⟩ := hmv.claimed hop htg
  obtain ⟨e', he', hds⟩ := hlt e he
  obtain ⟨e'', _, hsm, hau, -⟩ := hmv'.claimed hop' htg'
  cases hsm.symm.trans he'
  exact hds.not_authorized (by simp [hcl]) hau

def ExecutionExpires (step : Step) (before after : SessionStatus) : Prop :=
  ∃ e t, before.execution = some e ∧ (e.stateOf = some .authorized ∨ e.stateOf = some .claimed ∨
      e.stateOf = some .handoffStarted) ∧
    e.timeOf .expiresAt = some t ∧ t ≤ step.clock 0 ∧
    after = withExecution before (e.set [(.state, .str "expired"),
      (.expiredAt, .str (step.clock 0).isoformat)]) (step.clock 0)

theorem Move.refused (h : Move step id false a b) :
    b.status = a.status ∨ ExecutionExpires step a.status b.status ∨
      (a.status.state.isTerminal = false ∧ step.FindsExpired id a ∧
        ∃ now, b.status = a.status.expire now) := by
  cases h with
  | expire _ hlv hdue => exact .inr (.inr ⟨hlv, hdue, _, rfl⟩)
  | progress _ he _ hpr _ =>
    cases hpr with
    | expire hst ht hdue =>
      refine .inr (.inl ⟨_, _, he, ?_, ht, hdue, rfl⟩)
      simpa [canExpire, or_assoc] using hst
  | _ => exact .inl rfl

/-- Once a session carries an execution, no sequence of operations changes its
binding, removes it or moves it off the transition table; it is authorized and
claimed at most once; and an operation that raises changes a status only to end
an authorization past its window or a session past its expiry, or when it has
stored the new status and could not synchronize the directory. -/
theorem executions_follow_law : (∀ (first second : List Step) (id : Text) (a : Session) (e : Execution),
      (sessionsAfter first).lookup id = some a → a.status.execution = some e →
      ∃ b e', (sessionsAfter (first ++ second)).lookup id = some b ∧
        b.status.execution = some e' ∧ (∀ f ∈ ExecutionField.binding, e' f = e f) ∧
        ∀ s, e.stateOf = some s → s.next = [] → e' = e) ∧
    (∀ (steps : List Step) (step : Step) (id : Text) (a : Session) (e : Execution),
      (sessionsAfter steps).lookup id = some a → a.status.execution = some e →
      ∃ b e', ((sessionsAfter steps).after step).lookup id = some b ∧ b.status.execution = some e' ∧
        (e' = e ∨ ∃ s s', e.stateOf = some s ∧ e'.stateOf = some s' ∧ s' ∈ s.next)) ∧
    (∀ (first middle : List Step) (step step' : Step) (id : Text), step.Authorizes id →
      step.Succeeds (sessionsAfter first) → step'.Authorizes id →
      ¬ step'.Succeeds (sessionsAfter (first ++ step :: middle))) ∧
    (∀ (first middle : List Step) (step step' : Step) (id : Text), step.Claims id →
      step.Succeeds (sessionsAfter first) → step'.Claims id →
      ¬ step'.Succeeds (sessionsAfter (first ++ step :: middle))) ∧
    (∀ (steps : List Step) (step : Step) (id : Text) (a : Session),
      ¬ step.Succeeds (sessionsAfter steps) →
      (sessionsAfter steps).lookup id = some a →
        ∃ b, ((sessionsAfter steps).after step).lookup id = some b ∧
        (b.status = a.status ∨ ExecutionExpires step a.status b.status ∨
          (a.status.state.isTerminal = false ∧ step.FindsExpired id a ∧
            ∃ now, b.status = a.status.expire now) ∨
          ((step.perform (sessionsAfter steps)).1 = .error statusUncertain ∧
            (∃ id, step.env.unsynced id = true) ∧ Move step id true a b))) := by
  refine ⟨?_, ?_, fun _ _ _ _ _ => authorize_once, fun _ _ _ _ _ => claim_once, ?_⟩
  · intro first second id a e ha he
    obtain ⟨b, e', hb, he', hds⟩ :=
      sessionsAfter_executionsDescend first second id a e ha he
    exact ⟨b, e', hb, he', fun f hf => hds.binding hf,
      fun s hs htr => hds.terminal hs htr⟩
  · intro steps step id a e ha he
    obtain ⟨b, hb, _, -, hmv⟩ := Store.after_move (sessionsAfter_valid steps) step ha
    obtain ⟨e', he', had⟩ := hmv.execution_advances he
    refine ⟨b, e', hb, he', had.imp_right fun hfo => ?_⟩
    obtain ⟨s, s', hs, hs', hnx, -⟩ := Execution.follows_edge hfo
    exact ⟨s, s', hs, hs', hnx⟩
  · intro steps step id a hfl ha
    obtain ⟨b, hb, ok, hen, hmv⟩ := Store.after_move (sessionsAfter_valid steps) step ha
    refine ⟨b, hb, ?_⟩
    unfold Step.Succeeds at hfl
    cases hr : (step.perform (sessionsAfter steps)).1 with
    | ok _ => exact absurd hr hfl
    | error e =>
      rw [hr] at hen
      cases ok with
      | false => exact hmv.refused.imp_right fun h => h.imp_right .inl
      | true =>
        obtain ⟨rfl, hsyn⟩ := hen.eq_statusUncertain
        exact .inr (.inr (.inr ⟨rfl, hsyn, hmv⟩))

/-- A refused operation may change a status in which no execution has expired:
here a late approval ends a session whose execution was cancelled. -/
theorem refused_operation_changes_status :
    ¬ ∀ (steps : List Step) (step : Step) (id : Text) (a : Session)
      (e : Execution), ¬ step.Succeeds (sessionsAfter steps) →
        (sessionsAfter steps).lookup id = some a →
      a.status.execution = some e → ∃ b, ((sessionsAfter steps).after step).lookup id = some b ∧
        (b.status = a.status ∨ ExecutionExpires step a.status b.status) := by
  intro h
  obtain ⟨-, -, -, -, -, -, hcn, hfl, hex⟩ := Sample.sample_runs
  obtain ⟨a, ha, hst⟩ := Option.bind_eq_some_iff.1 hcn
  obtain ⟨e, he, hst⟩ := Option.map_eq_some_iff.1 hst
  obtain ⟨b', hb', hst'⟩ := Option.map_eq_some_iff.1 hex
  simp only [Prod.mk.injEq] at hst
  obtain ⟨b, hb, hcs⟩ := h [Sample.create, Sample.cancelExecution] (Sample.approve 40) Sample.sessionId a e
    (fun hok => by rw [hok] at hfl; cases hfl) ha he
  cases hb.symm.trans hb'
  rcases hcs with hsm | ⟨e', _, he', hlv, -⟩
  · rw [hsm, hst.1] at hst'
    cases hst'
  · cases he.symm.trans he'
    simp [hst.2] at hlv

/-- The execution stays within the window of its authorization, and that
within the lifetime of the published plan. -/
structure Session.InWindow (a : Session) (e : Execution) : Prop where
  accepted : ∀ f ∈ [ExecutionField.claimedAt, .handoffStartedAt], e f ≠ .null →
    ∃ c t, e.timeOf f = some c ∧ e.timeOf .expiresAt = some t ∧ c < t
  handedOff : e .installerStartedAt ≠ .null → e .handoffStartedAt ≠ .null
  bounded : e .expiresAt ≠ .null → a.status.state ≠ .awaitingApproval ∧
    ∃ t limit, e.timeOf .expiresAt = some t ∧ a.planExpiry = some limit ∧ t ≤ limit

theorem Execution.validate_of_transition
    (h : e.validateTransition e' = .ok ()) : e.validate = .ok () ∧ e'.validate = .ok () := by
  simp only [Execution.validateTransition, bind_eq_ok] at h
  obtain ⟨_, he, _, he', -⟩ := h
  exact ⟨he, he'⟩

theorem Execution.expiresAt_ne_null (hvl : e.validate = .ok ())
    (hst : e.stateOf ≠ some .cancelled) : e .expiresAt ≠ .null := by
  obtain ⟨state, _, hwl⟩ := Execution.validate_eq_ok.1 hvl
  rw [Execution.stateOf_eq_some.2 hwl.state] at hst
  have hpr := hwl.present (by simpa using hst)
  simpa using List.all_eq_true.1 hpr .expiresAt (by decide)

theorem Execution.handoffStartedAt_ne_null (hvl : e.validate = .ok ())
    (hst : e.stateOf = some .handoffStarted) : e .handoffStartedAt ≠ .null := by
  obtain ⟨state, _, hwl⟩ := Execution.validate_eq_ok.1 hvl
  rw [Execution.stateOf_eq_some.2 hwl.state, Option.some.injEq] at hst
  subst hst
  exact hwl.entered

theorem Execution.timeOf_set_isoformat {now : Instant}
    (h : updates.lookup f = some (.str now.isoformat)) :
    Execution.timeOf (e.set updates) f = some now := by
  refine Execution.timeOf_eq_some.2 ?_
  rw [Execution.set_of_lookup h, executionTimestamp_isoformat]

theorem Execution.timeOf_set_of_not_mem (h : updates.lookup f = none) :
    Execution.timeOf (e.set updates) f = e.timeOf f := by
  rw [Execution.timeOf, Execution.set_of_not_mem h, Execution.timeOf]

/-- A change of the record keeps the window when the stages it stamps are
within it. -/
theorem Session.InWindow.set
    (hwin : a.InWindow e) (now : Instant) (hst : b.status.state = a.status.state)
    (hpl : b.planExpiry = a.planExpiry) (hex : updates.lookup .expiresAt = none)
    (hsa : ∀ f ∈ [ExecutionField.claimedAt, .handoffStartedAt],
      updates.lookup f = none ∨ (updates.lookup f = some (.str now.isoformat) ∧
        ∃ t, e.timeOf .expiresAt = some t ∧ now < t))
    (hins : updates.lookup .installerStartedAt = none ∨ e .handoffStartedAt ≠ .null) :
    b.InWindow (e.set updates) where
  accepted := by
    intro f hf hset
    rw [Execution.timeOf_set_of_not_mem hex]
    rcases hsa f hf with hkp | ⟨hsm, t, ht, hlt⟩
    · rw [Execution.set_of_not_mem hkp] at hset
      rw [Execution.timeOf_set_of_not_mem hkp]
      exact hwin.accepted f hf hset
    · exact ⟨now, t, Execution.timeOf_set_isoformat hsm, ht, hlt⟩
  handedOff := by
    intro hset
    rcases hsa .handoffStartedAt (by decide) with hkp | ⟨hsm, -⟩
    · rw [Execution.set_of_not_mem hkp]
      rcases hins with hins | hhn
      · rw [Execution.set_of_not_mem hins] at hset
        exact hwin.handedOff hset
      · exact hhn
    · rw [Execution.set_of_lookup hsm]
      simp
  bounded := by
    rw [Execution.set_of_not_mem hex, Execution.timeOf_set_of_not_mem hex, hst, hpl]
    exact hwin.bounded

theorem Progress.inWindow (h : Progress step ok e e')
    (hlaw : e.validateTransition e' = .ok ()) (hwin : a.InWindow e)
    (hst : b.status.state = a.status.state) (hpl : b.planExpiry = a.planExpiry) : b.InWindow e' := by
  obtain ⟨hvl, -⟩ := Execution.validate_of_transition hlaw
  have hop (hlv : e.stateOf ≠ some .cancelled) :
      ∃ t, e.timeOf .expiresAt = some t := by
    obtain ⟨-, t, _, ht, -⟩ := hwin.bounded (Execution.expiresAt_ne_null hvl hlv)
    exact ⟨t, ht⟩
  cases h with
  | claim _ hau hbf =>
    obtain ⟨t, ht⟩ := hop (by simp [hau])
    refine hwin.set (step.clock 0) hst hpl rfl ?_ (.inl rfl)
    exact List.forall_mem_cons.2 ⟨.inr ⟨rfl, t, ht, hbf t ht⟩, by simp⟩
  | handoff _ hcl hbf =>
    obtain ⟨t, ht⟩ := hop (by simp [hcl])
    refine hwin.set (step.clock 0) hst hpl rfl ?_ (.inl rfl)
    exact List.forall_mem_cons.2 ⟨.inl rfl, List.forall_mem_singleton.2
      (.inr ⟨rfl, t, ht, hbf t ht⟩)⟩
  | installer _ hhn =>
    exact hwin.set (step.clock 0) hst hpl rfl (by simp)
      (.inr (Execution.handoffStartedAt_ne_null hvl hhn))
  | _ => exact hwin.set (step.clock 0) hst hpl rfl (by simp) (.inl rfl)

theorem Session.InWindow.congr (hwin : a.InWindow e)
    (hst : a.status.state ≠ .awaitingApproval → b.status.state ≠ .awaitingApproval)
    (hpl : b.planExpiry = a.planExpiry) : b.InWindow e where
  accepted := hwin.accepted
  handedOff := hwin.handedOff
  bounded := by
    intro hset
    obtain ⟨hpb, hlim⟩ := hwin.bounded hset
    exact ⟨hst hpb, hpl ▸ hlim⟩

theorem Session.InWindow.of_waiting (hwin : a.InWindow e)
    (hwi : a.status.state = .awaitingApproval) : b.InWindow e where
  accepted := hwin.accepted
  handedOff := hwin.handedOff
  bounded hset := absurd hwi (hwin.bounded hset).1

theorem Execution.validate_of_initial (h : e.validateInitial = .ok ()) : e.validate = .ok () := by
  simp only [Execution.validateInitial, bind_eq_ok] at h
  obtain ⟨_, hvl, -⟩ := h
  exact hvl

theorem Execution.unstamped_of_authorized (h : e.validate = .ok ())
    (hst : e.stateOf = some .authorized) :
    ∀ f ∈ ExecutionField.ordered, e f = .null := by
  obtain ⟨state, _, hwl⟩ := Execution.validate_eq_ok.1 h
  rw [Execution.stateOf_eq_some.2 hwl.state, Option.some.injEq] at hst
  subst hst
  exact fun f hf => hwl.reached f hf (by simp [ExecutionState.reached])

theorem Move.inWindow (h : Move step id ok a b)
    (hwin : ∀ e, a.status.execution = some e → a.InWindow e) :
    ∀ e, b.status.execution = some e → b.InWindow e := by
  cases h with
  | publish _ hwi _ _ hex =>
    intro e he
    exact (hwin e (hex ▸ he)).of_waiting hwi
  | draft hwi => exact fun e he => (hwin e he).of_waiting hwi
  | expire => exact fun e he => (hwin e he).congr (fun _ => by simp [SessionStatus.expire]) rfl
  | cancel =>
    exact fun e he => (hwin e he).congr
      (fun _ => by simp [ApprovalService.cancelledStatus]) rfl
  | authorize _ hpb _ hini hau ht hlim hle =>
    rintro e he
    cases he
    have hnul := Execution.unstamped_of_authorized
      (Execution.validate_of_initial hini) hau
    refine ⟨?_, ?_, fun _ => ⟨by simp [withExecution, hpb], _, _, ht, hlim, hle⟩⟩
    · simp [hnul .claimedAt (by decide), hnul .handoffStartedAt (by decide)]
    · simp [hnul .installerStartedAt (by decide)]
  | cancelUnauthorized =>
    rintro e he
    cases he
    exact ⟨by simp [cancelledBeforeAuthorization], by simp [cancelledBeforeAuthorization],
      by simp [cancelledBeforeAuthorization]⟩
  | progress _ he _ hpr hlaw =>
    rintro e' he'
    cases he'
    exact hpr.inWindow hlaw (hwin _ he) rfl rfl
  | _ => exact fun e he => (hwin e he).congr (fun h => h) rfl

/-- In every reachable state a claim and a handoff lie strictly before the end
of the authorization, an installer start follows a recorded handoff, and the
authorization ends no later than the published plan. -/
theorem executions_within_window (steps : List Step) (id : Text) (a : Session)
    (e : Execution) (ha : (sessionsAfter steps).lookup id = some a) (he : a.status.execution = some e) :
    (∀ f ∈ [ExecutionField.claimedAt, .handoffStartedAt], e f ≠ .null →
      ∃ c t, e.timeOf f = some c ∧ e.timeOf .expiresAt = some t ∧ c < t) ∧
    (e .installerStartedAt ≠ .null → e .handoffStartedAt ≠ .null) ∧ (e .expiresAt ≠ .null →
      ∃ t limit, e.timeOf .expiresAt = some t ∧ a.planExpiry = some limit ∧ t ≤ limit) := by
  have hwin := sessionsAfter_induct (P := fun a => ∀ e, a.status.execution = some e →
    a.InWindow e) (fun b hnn _ e he => by simp [hnn] at he)
    (fun _ _ _ _ _ hmv => hmv.inWindow) steps id a ha e he
  exact ⟨hwin.accepted, hwin.handedOff, fun hset => (hwin.bounded hset).2⟩

theorem Execution.ne_null_of_timeOf {t : Instant} (h : e.timeOf f = some t) : e f ≠ .null := by
  intro hnul
  rw [Execution.timeOf_of_null hnul] at h
  cases h

/-- The sample installation, whose installer starts after the authorization has ended. -/
theorem executions_within_window_installer : ∃ a e,
    (sessionsAfter Sample.installation).lookup Sample.sessionId = some a ∧
      a.status.execution = some e ∧ e .installerStartedAt ≠ .null ∧
      e .handoffStartedAt ≠ .null ∧ ∃ c t, e.timeOf .handoffStartedAt = some c ∧
        e.timeOf .expiresAt = some t ∧ c < t := by
  obtain ⟨a, e, ha, he, -, -, hst, -⟩ := Sample.installation_execution
  obtain ⟨hac, hhn, -⟩ :=
    executions_within_window Sample.installation Sample.sessionId a e ha he
  have hset := Execution.ne_null_of_timeOf hst
  exact ⟨a, e, ha, he, hset, hhn hset, hac _ (by decide) (hhn hset)⟩

/-- The start of an installer may be recorded after the authorization has
ended. -/
theorem installer_start_outside_window :
    ¬ ∀ (steps : List Step) (id : Text) (a : Session) (e : Execution),
      (sessionsAfter steps).lookup id = some a → a.status.execution = some e →
      ∀ f ∈ [ExecutionField.claimedAt, .handoffStartedAt, .installerStartedAt], e f ≠ .null →
        ∃ c t, e.timeOf f = some c ∧ e.timeOf .expiresAt = some t ∧ c < t := by
  intro h
  obtain ⟨a, e, ha, he, -, -, hst, hex⟩ := Sample.installation_execution
  obtain ⟨c, t, hc, ht, hlt⟩ := h Sample.installation Sample.sessionId a e ha he
    .installerStartedAt (by decide) (Execution.ne_null_of_timeOf hst)
  cases hst.symm.trans hc
  cases hex.symm.trans ht
  exact absurd hlt (by decide)

end WebOvpn
