/-
The records of the backup metadata: each parser reads an object field by field, and
reads what it has read again from the dictionary of the record.
-/
import WebOvpn.Backup.Manifest
import WebOvpn.Lib.JsonCodec

namespace WebOvpn.Backup

open JsonCodec List

section Parsers

variable {value : JVal} {context message : String} {s : Text}

theorem require_eq_ok {condition : Bool} {u : Unit} : require condition message = .ok u ↔
    condition = true := by
  unfold require
  cases condition with
  | true => exact ⟨fun _ => rfl, fun _ => rfl⟩
  | false => exact ⟨nofun, nofun⟩

theorem exactObject_eq_ok {keys : List Text} {members : List (Text × JVal)} :
    exactObject value keys context = .ok members ↔
      value = .obj members ∧ ∀ key, key ∈ members.map Prod.fst ↔ key ∈ keys := by
  cases value with
  | obj entries =>
    unfold exactObject
    dsimp only
    split_ifs with hks
    · constructor
      · intro h
        cases h
        exact ⟨rfl, fun key => ⟨hks.2 key, hks.1 key⟩⟩
      · rintro ⟨h, -⟩
        cases h
        rfl
    · constructor
      · nofun
      · rintro ⟨h, hsm⟩
        cases h
        exact absurd ⟨fun key => (hsm key).2, fun key => (hsm key).1⟩ hks
  | _ => exact ⟨nofun, nofun⟩

def Bounded (maximum : Nat) (s : Text) : Prop := s ≠ [] ∧ s.length ≤ maximum

instance (maximum : Nat) (s : Text) : Decidable (Bounded maximum s) :=
  inferInstanceAs (Decidable (_ ∧ _))

variable {maximum : Nat}

theorem string_eq_ok : string value context maximum = .ok s ↔ value = .str s ∧ Bounded maximum s := by
  cases value with
  | str other =>
    unfold string Bounded
    dsimp only
    rw [bind_eq_ok]
    simp only [require_eq_ok, decide_eq_true_eq, JVal.str.injEq]
    constructor
    · rintro ⟨_, hbd, h⟩
      cases h
      exact ⟨rfl, hbd⟩
    · rintro ⟨rfl, hbd⟩
      exact ⟨(), hbd, rfl⟩
  | _ => exact ⟨nofun, nofun⟩

theorem optionalString_eq_ok {o : Option Text} :
    optionalString value context maximum = .ok o ↔ value = optStr o ∧ ∀ s ∈ o, Bounded maximum s := by
  have hsm : (string value context maximum).map some = .ok o ↔ ∃ s, o = some s ∧ value = .str s ∧
    Bounded maximum s := by
    cases hst : string value context maximum with
    | error e =>
      constructor
      · nofun
      · rintro ⟨s, -, hs⟩
        rw [string_eq_ok.2 hs] at hst
        cases hst
    | ok s =>
      have hs := string_eq_ok.1 hst
      constructor
      · intro h
        cases h
        exact ⟨s, rfl, hs⟩
      · rintro ⟨t, rfl, ht, -⟩
        cases ht.symm.trans hs.1
        rfl
  cases value with
  | null =>
    constructor
    · intro h
      cases h
      exact ⟨rfl, nofun⟩
    · rintro ⟨h, -⟩
      cases o with
      | none => rfl
      | some s => cases h
  | str t =>
    apply hsm.trans
    constructor
    · rintro ⟨s, rfl, h, hbd⟩
      refine ⟨h, ?_⟩
      rintro _ ⟨⟩
      exact hbd
    · rintro ⟨h, hbd⟩
      cases o with
      | none => cases h
      | some s => exact ⟨s, rfl, h, hbd s rfl⟩
  | _ => exact ⟨nofun, fun h => by cases o with | none => cases h.1 | some s => cases h.1⟩

theorem integer_eq_ok {minimum n : Int} {maximum : Option Int} :
    integer value context minimum maximum = .ok n ↔ value = .int n ∧ minimum ≤ n ∧ ∀ most ∈ maximum,
      n ≤ most := by
  cases value with
  | int m =>
    unfold integer
    dsimp only
    simp only [bind_eq_ok, require_eq_ok, decide_eq_true_eq, JVal.int.injEq]
    constructor
    · rintro ⟨_, hla, _, hmos, h⟩
      cases h
      exact ⟨rfl, hla, hmos⟩
    · rintro ⟨rfl, hla, hmos⟩
      exact ⟨(), hla, (), hmos, rfl⟩
  | _ => exact ⟨nofun, nofun⟩

theorem boolean_eq_ok {b : Bool} : boolean value context = .ok b ↔ value = .bool b := by
  cases value with
  | bool c =>
    unfold boolean
    rw [Except.ok.injEq, JVal.bool.injEq]
  | _ => exact ⟨nofun, nofun⟩

theorem matched_eq_ok {matches_ : Text → Bool} :
    matched matches_ value context maximum message = .ok s ↔ value = .str s ∧ Bounded maximum s ∧
      matches_ s = true := by
  unfold matched
  simp only [bind_eq_ok, string_eq_ok, require_eq_ok]
  constructor
  · rintro ⟨t, ⟨rfl, hbd⟩, _, hmt, h⟩
    cases h
    exact ⟨rfl, hbd, hmt⟩
  · rintro ⟨rfl, hbd, hmt⟩
    exact ⟨s, ⟨rfl, hbd⟩, (), hmt, rfl⟩

/-- What `_utc_timestamp` takes. -/
def IsUtc (s : Text) : Prop := ∃ parsed, fromisoformat (withOffset s) = some parsed ∧
    parsed.offset = some 0

theorem utcTimestamp_eq_ok : utcTimestamp value context = .ok s ↔ value = .str s ∧
    Bounded 100 s ∧ IsUtc s := by
  unfold utcTimestamp IsUtc
  rw [bind_eq_ok]
  simp only [string_eq_ok]
  constructor
  · rintro ⟨t, ⟨rfl, hbd⟩, h⟩
    split at h
    · cases h
    · rename_i parsed hps
      simp only [bind_eq_ok, require_eq_ok, decide_eq_true_eq] at h
      obtain ⟨_, hutc, h⟩ := h
      cases h
      exact ⟨rfl, hbd, parsed, hps, hutc⟩
  · rintro ⟨rfl, hbd, parsed, hps, hutc⟩
    refine ⟨s, ⟨rfl, hbd⟩, ?_⟩
    rw [hps]
    dsimp only
    simp only [bind_eq_ok, require_eq_ok, decide_eq_true_eq]
    exact ⟨(), hutc, rfl⟩

theorem listOf_eq_ok {α : Type} {parse : Nat → JVal → Checked α} {admitted : Nat → Bool} {vs : List α} :
    listOf parse admitted message value = .ok vs ↔
      ∃ items, value = .arr items ∧ admitted items.length = true ∧
        parseEach parse 0 items = .ok vs := by
  cases value with
  | arr items =>
    unfold listOf
    dsimp only
    simp only [bind_eq_ok, require_eq_ok]
    constructor
    · rintro ⟨_, had, h⟩
      exact ⟨items, rfl, had, h⟩
    · rintro ⟨_, ⟨⟩, had, h⟩
      exact ⟨(), had, h⟩
  | _ => exact ⟨nofun, nofun⟩

end Parsers

section Lists

variable {α : Type} {parse : Nat → JVal → Checked α} {encode : α → JVal}

variable {vs : List α} {items : List JVal}

theorem parseEach_cons {index : Nat} {value : JVal} {rest : List JVal} :
    parseEach parse index (value :: rest) = .ok vs ↔
      ∃ v more, vs = v :: more ∧ parse index value = .ok v ∧
        parseEach parse (index + 1) rest = .ok more := by
  rw [parseEach]
  simp only [bind_eq_ok]
  constructor
  · rintro ⟨v, hv, more, hmr, h⟩
    cases h
    exact ⟨v, more, rfl, hv, hmr⟩
  · rintro ⟨v, more, rfl, hv, hmr⟩
    exact ⟨v, hv, more, hmr, rfl⟩

theorem length_parseEach : ∀ {index : Nat} {vs : List α}, parseEach parse index items = .ok vs →
    vs.length = items.length := by
  induction items with
  | nil =>
    intro index vs h
    cases h
    rfl
  | cons value rest ih =>
    intro index vs h
    obtain ⟨v, more, rfl, -, hmr⟩ := parseEach_cons.1 h
    rw [length_cons, length_cons, ih hmr]

theorem rewrites_parseEach (hst : ∀ index, Stable (parse index) encode) :
    ∀ {index : Nat} {vs : List α}, parseEach parse index items = .ok vs →
      (∀ value ∈ items, Loaded value) →
      (vs.map encode).map sortKeys = items.map sortKeys := by
  induction items with
  | nil =>
    intro index vs h _
    cases h
    rfl
  | cons value rest ih =>
    intro index vs h hla
    obtain ⟨v, more, rfl, hv, hmr⟩ := parseEach_cons.1 h
    rw [forall_mem_cons] at hla
    rw [map_cons, map_cons, map_cons, (hst index).rewrites _ _ hv hla.1, ih hmr hla.2]

theorem accepts_parseEach (hst : ∀ index, Stable (parse index) encode) :
    ∀ {index : Nat} {vs : List α}, parseEach parse index items = .ok vs →
      parseEach parse index (vs.map encode) = .ok vs := by
  induction items with
  | nil =>
    intro index vs h
    cases h
    rfl
  | cons value rest ih =>
    intro index vs h
    obtain ⟨v, more, rfl, hv, hmr⟩ := parseEach_cons.1 h
    exact parseEach_cons.2 ⟨v, more, rfl, (hst index).accepts _ _ hv, ih hmr⟩

/-- Items that are read from what they are written as. -/
theorem parseEach_map :
    ∀ {index : Nat}, (∀ k v, vs[k]? = some v → parse (index + k) (encode v) = .ok v) →
    parseEach parse index (vs.map encode) = .ok vs := by
  induction vs with
  | nil => exact fun _ => rfl
  | cons v rest ih =>
    intro index h
    refine parseEach_cons.2 ⟨v, rest, rfl, h 0 v rfl, ih fun k w hw => ?_⟩
    rw [Nat.add_assoc, Nat.add_comm 1]
    exact h (k + 1) w hw

theorem tells_parseEach (hcd : ∀ index, Codec (parse index) encode) :
    ∀ {index : Nat} {ws : List α}, parseEach parse index (vs.map encode) = .ok ws → ws = vs := by
  induction vs with
  | nil =>
    intro index ws h
    cases h
    rfl
  | cons v rest ih =>
    intro index ws h
    obtain ⟨w, more, rfl, hw, hmr⟩ := parseEach_cons.1 h
    rw [(hcd index).tells _ _ hw, ih hmr]

theorem listCodec (hcd : ∀ index, Codec (parse index) encode) (admitted : Nat → Bool)
    (message : String) :
    Codec (listOf parse admitted message) fun vs => .arr (vs.map encode) where
  rewrites := fun j vs h hla => by
    obtain ⟨items, rfl, -, hits⟩ := listOf_eq_ok.1 h
    unfold Loaded at hla
    rw [IsReadable, areReadable_iff] at hla
    rw [sortKeys, sortKeys, sortKeysItems_eq, sortKeysItems_eq,
      rewrites_parseEach (fun index => (hcd index).toStable) hits hla]
  accepts := fun j vs h => by
    obtain ⟨items, rfl, had, hits⟩ := listOf_eq_ok.1 h
    apply listOf_eq_ok.2
    refine ⟨_, rfl, ?_, accepts_parseEach (fun index => (hcd index).toStable) hits⟩
    rw [length_map, length_parseEach hits]
    exact had
  tells := fun vs ws h => by
    obtain ⟨items, hits, -, h⟩ := listOf_eq_ok.1 h
    cases hits
    exact tells_parseEach hcd h

end Lists

theorem str_injective : Function.Injective JVal.str := fun _ _ h => JVal.str.inj h

theorem matchedCodec (matches_ : Text → Bool) (context : String) (maximum : Nat) (message : String) :
    Codec (fun value => matched matches_ value context maximum message) JVal.str :=
  Codec.of_exact (fun _ _ h => (matched_eq_ok.1 h).1) str_injective

theorem checksCodec (context : String) : Codec (fun value => safeChecks value context) strings := by
  have hls := listCodec
    (fun _ => matchedCodec isSafeCheck context 100 (context ++ " contains an invalid check"))
    (· ≠ 0)
    (context ++ " must be a non-empty list")
  have hch : ∀ {value : JVal} {checks : List Text}, safeChecks value context = .ok checks ↔
      listOf (fun _ item =>
        matched isSafeCheck item context 100 (context ++ " contains an invalid check")) (· ≠ 0)
        (context ++ " must be a non-empty list") value = .ok checks ∧ checks.length ≤ 100 ∧ checks.Nodup := by
    intro value checks
    unfold safeChecks
    simp only [bind_eq_ok, require_eq_ok, decide_eq_true_eq]
    constructor
    · rintro ⟨other, hot, _, hbd, h⟩
      cases h
      exact ⟨hot, hbd⟩
    · rintro ⟨hlisted, hbd⟩
      exact ⟨checks, hlisted, (), hbd, rfl⟩
  refine ⟨⟨?_, ?_⟩, ?_⟩
  · intro j v h
    exact hls.rewrites j v (hch.1 h).1
  · intro j v h
    obtain ⟨hlisted, hbd⟩ := hch.1 h
    exact hch.2 ⟨hls.accepts j v hlisted, hbd⟩
  · intro v w h
    exact hls.tells v w (hch.1 h).1

def ControllerRecord.slots (controller : ControllerRecord) : List Slot :=
  [.plain "hostname" (.str controller.hostname), .plain "machine_id" (optStr controller.machineId),
    .plain "os_id" (.str controller.osId), .plain "os_version_id" (.str controller.osVersionId),
    .plain "os_pretty_name" (.str controller.osPrettyName),
    .plain "repository_commit" (optStr controller.repositoryCommit)]

structure ControllerRecord.Valid (controller : ControllerRecord) : Prop where
  hostname : Bounded 253 controller.hostname ∧ isSafeName controller.hostname = true
  machineId : ∀ s ∈ controller.machineId, Bounded 256 s
  osId : Bounded 100 controller.osId
  osVersionId : Bounded 100 controller.osVersionId
  osPrettyName : Bounded 500 controller.osPrettyName
  repositoryCommit : ∀ s ∈ controller.repositoryCommit, Bounded 256 s

attribute [ext] ControllerRecord UnitState SecretIdentity PathRecord ComponentRecord PreflightRecord
  BackupManifest
  VerificationEvidence RehearsalEvidence

theorem optStr_injective : Function.Injective optStr := by
  intro a b h
  cases a with
  | none =>
    cases b with
    | none => rfl
    | some t => cases h
  | some s =>
    cases b with
    | none => cases h
    | some t =>
      cases h
      rfl

variable {j : JVal} {index : Nat} {v : VerificationEvidence}

theorem parseController_eq_ok {v : ControllerRecord} : parseController j = .ok v ↔
    (∃ members, j = .obj members ∧ ReadsAs members v.slots) ∧ v.Valid := by
  unfold parseController
  simp only [bind_eq_ok, exactObject_eq_ok, matched_eq_ok, optionalString_eq_ok, string_eq_ok]
  constructor
  · rintro ⟨members, ⟨rfl, hks⟩, hostname, ⟨h1, c1⟩, machineId, ⟨h2, c2⟩, osId, ⟨h3, c3⟩, osVersionId, ⟨h4, c4⟩,
      osPrettyName, ⟨h5, c5⟩, repositoryCommit, ⟨h6, c6⟩, h⟩
    cases h
    refine ⟨⟨members, rfl, hks, ?_⟩, c1, c2, c3, c4, c5, c6⟩
    simp only [ControllerRecord.slots, forall_mem_cons]
    exact ⟨h1, h2, h3, h4, h5, h6, nofun⟩
  · rintro ⟨⟨members, rfl, hks, hrd⟩, hvl⟩
    simp only [ControllerRecord.slots, forall_mem_cons] at hrd
    obtain ⟨h1, h2, h3, h4, h5, h6, -⟩ := hrd
    exact ⟨members, ⟨rfl, hks⟩, _, ⟨h1, hvl.hostname⟩, _, ⟨h2, hvl.machineId⟩, _, ⟨h3, hvl.osId⟩, _,
      ⟨h4, hvl.osVersionId⟩, _, ⟨h5, hvl.osPrettyName⟩, _, ⟨h6, hvl.repositoryCommit⟩, rfl⟩

theorem controllerRecord :
    RecordCodec parseController ControllerRecord.toDict ControllerRecord.slots
    ControllerRecord.Valid
    controllerKeys where
  reads := fun _ _ => parseController_eq_ok
  faithful := fun v => by
    simp only [ControllerRecord.slots, forall_mem_cons, Slot.faithful_plain, true_and]
    exact nofun

theorem controllerCodec : Codec parseController ControllerRecord.toDict where
  toStable := controllerRecord.stable
  tells := fun v w h => by
    have hag := controllerRecord.agree h
    simp only [ControllerRecord.slots, forall₂_cons, Slot.plain, JVal.str.injEq, optStr_injective.eq_iff] at hag
    obtain ⟨h1, h2, h3, h4, h5, h6, -⟩ := hag
    symm
    ext1 <;> assumption

def UnitState.slots (unit : UnitState) : List Slot :=
  [.plain "name" (.str unit.name), .plain "load_state" (.str unit.loadState),
    .plain "enabled_state" (.str unit.enabledState), .plain "active_state" (.str unit.activeState),
    .plain "sub_state" (.str unit.subState), .plain "failed" (.bool unit.failed)]

structure UnitState.Valid (index : Nat) (unit : UnitState) : Prop where
  name : Bounded 200 unit.name ∧ managedUnits[index]? = some unit.name
  loadState : Bounded 32 unit.loadState
  enabledState : Bounded 32 unit.enabledState
  activeState : Bounded 32 unit.activeState
  subState : Bounded 100 unit.subState
  states : unit.loadState ∈ allowedLoadStates ∧ unit.enabledState ∈ allowedEnabledStates ∧
    unit.activeState ∈ allowedActiveStates ∧ isSafeName unit.subState = true ∧
    unit.failed = decide (unit.activeState = "failed")
  missing : unit.loadState = "not-found" → unit.enabledState = "not-found"

theorem parseUnit_eq_ok {v : UnitState} : parseUnit index j = .ok v ↔
    (∃ members, j = .obj members ∧ ReadsAs members v.slots) ∧ v.Valid index := by
  unfold parseUnit
  simp only [bind_eq_ok, exactObject_eq_ok, string_eq_ok, boolean_eq_ok, require_eq_ok, decide_eq_true_eq]
  constructor
  · rintro ⟨members, ⟨rfl, hks⟩, name, ⟨hnm, cname⟩, _, corder, loadState, ⟨hla, cload⟩, enabledState,
      ⟨hena, cenabled⟩, activeState, ⟨hact, cactive⟩, subState, ⟨hsub, csub⟩, failed, hfi, _,
        cstates, _, cmissing, h⟩
    cases h
    refine ⟨⟨members, rfl, hks, ?_⟩, ⟨cname, corder⟩, cload, cenabled, cactive, csub, cstates, cmissing⟩
    simp only [UnitState.slots, forall_mem_cons]
    exact ⟨hnm, hla, hena, hact, hsub, hfi, nofun⟩
  · rintro ⟨⟨members, rfl, hks, hrd⟩, hvl⟩
    simp only [UnitState.slots, forall_mem_cons] at hrd
    obtain ⟨hnm, hla, hena, hact, hsub, hfi, -⟩ := hrd
    exact ⟨members, ⟨rfl, hks⟩, _, ⟨hnm, hvl.name.1⟩, (), hvl.name.2, _, ⟨hla, hvl.loadState⟩, _,
      ⟨hena, hvl.enabledState⟩, _, ⟨hact, hvl.activeState⟩, _, ⟨hsub, hvl.subState⟩, _, hfi, (),
      hvl.states, (), hvl.missing, rfl⟩

theorem unitRecord (index : Nat) :
    RecordCodec (parseUnit index) UnitState.toDict UnitState.slots
      (UnitState.Valid index) unitKeys where
  reads := fun _ _ => parseUnit_eq_ok
  faithful := fun v => by
    simp only [UnitState.slots, forall_mem_cons, Slot.faithful_plain, true_and]
    exact nofun

theorem unitCodec (index : Nat) : Codec (parseUnit index) UnitState.toDict where
  toStable := (unitRecord index).stable
  tells := fun v w h => by
    have hag := (unitRecord index).agree h
    simp only [UnitState.slots, forall₂_cons, Slot.plain, JVal.str.injEq, JVal.bool.injEq] at hag
    obtain ⟨hnm, hla, hena, hact, hsub, hfi, -⟩ := hag
    symm
    ext1 <;> assumption

def SecretIdentity.slots (secret : SecretIdentity) : List Slot :=
  [.plain "path" (.str secret.path), .plain "kind" (.str secret.kind), .plain "uid" (.int secret.uid),
    .plain "gid" (.int secret.gid), .plain "owner" (.str secret.owner), .plain "group" (.str secret.group),
    .plain "mode" (.int secret.mode), .plain "size" (.int secret.size),
    .plain "identity" (.str secret.identity)]

/-- The bounds of `_integer`. -/
def Within (maximum : Option Int) (n : Int) : Prop := 0 ≤ n ∧ ∀ most ∈ maximum, n ≤ most

def IsAccount (s : Text) : Prop := Bounded 64 s ∧ isSafeAccount s = true

/-- What `_absolute_path` takes. -/
def IsAbsolute (s : Text) : Prop := Bounded 4096 s ∧ isSafeAbsolute s = true

instance (s : Text) : Decidable (IsAbsolute s) := inferInstanceAs (Decidable (_ ∧ _))

structure SecretIdentity.Valid (index : Nat) (secret : SecretIdentity) : Prop where
  kind : Bounded 64 secret.kind ∧ secretOrder[index]? = some secret.kind
  path : IsAbsolute secret.path ∧ secretPaths[index]? = some secret.path
  uid : Within none secret.uid
  gid : Within none secret.gid
  owner : IsAccount secret.owner
  group : IsAccount secret.group
  mode : Within (some maximumMode) secret.mode
  size : Within none secret.size
  identity : Bounded 500 secret.identity ∧ isIdentity secret.kind secret.identity = true

theorem parseSecret_eq_ok {v : SecretIdentity} : parseSecret index j = .ok v ↔
    (∃ members, j = .obj members ∧ ReadsAs members v.slots) ∧ v.Valid index := by
  unfold parseSecret absolutePath safeAccount
  simp only [bind_eq_ok, exactObject_eq_ok, string_eq_ok, matched_eq_ok, integer_eq_ok,
    require_eq_ok, decide_eq_true_eq]
  constructor
  · rintro ⟨members, ⟨rfl, hks⟩, kind, ⟨hkn, ckind⟩, _, corder, path, ⟨hpt, cpath⟩, _, cplace, uid,
      ⟨huid, cuid⟩, gid,
      ⟨hgid, cgid⟩, owner, ⟨hown, cowner⟩, group, ⟨hgr, cgroup⟩, mode, ⟨hmod, cmode⟩, size,
        ⟨hsz, csize⟩, identity,
      ⟨hide, cidentity⟩, _, cform, h⟩
    cases h
    refine ⟨⟨members, rfl, hks, ?_⟩, ⟨ckind, corder⟩, ⟨cpath, cplace⟩, cuid, cgid, cowner, cgroup,
      cmode, csize, cidentity,
      cform⟩
    simp only [SecretIdentity.slots, forall_mem_cons]
    exact ⟨hpt, hkn, huid, hgid, hown, hgr, hmod, hsz, hide, nofun⟩
  · rintro ⟨⟨members, rfl, hks, hrd⟩, hvl⟩
    simp only [SecretIdentity.slots, forall_mem_cons] at hrd
    obtain ⟨hpt, hkn, huid, hgid, hown, hgr, hmod, hsz, hide, -⟩ := hrd
    exact ⟨members, ⟨rfl, hks⟩, _, ⟨hkn, hvl.kind.1⟩, (), hvl.kind.2, _, ⟨hpt, hvl.path.1⟩, (), hvl.path.2,
      _, ⟨huid, hvl.uid⟩, _, ⟨hgid, hvl.gid⟩, _, ⟨hown, hvl.owner⟩, _, ⟨hgr, hvl.group⟩, _,
      ⟨hmod, hvl.mode⟩, _, ⟨hsz, hvl.size⟩, _, ⟨hide, hvl.identity.1⟩, (), hvl.identity.2, rfl⟩

theorem secretRecord (index : Nat) :
    RecordCodec (parseSecret index) SecretIdentity.toDict SecretIdentity.slots
      (SecretIdentity.Valid index) secretKeys where
  reads := fun _ _ => parseSecret_eq_ok
  faithful := fun v => by
    simp only [SecretIdentity.slots, forall_mem_cons, Slot.faithful_plain, true_and]
    exact nofun

theorem secretCodec (index : Nat) : Codec (parseSecret index) SecretIdentity.toDict where
  toStable := (secretRecord index).stable
  tells := fun v w h => by
    have hag := (secretRecord index).agree h
    simp only [SecretIdentity.slots, forall₂_cons, Slot.plain, JVal.str.injEq, JVal.int.injEq] at hag
    obtain ⟨hpt, hkn, huid, hgid, hown, hgr, hmod, hsz, hide, -⟩ := hag
    symm
    ext1 <;> assumption

theorem secretsCodec : Codec parseSecrets fun secrets => .arr (secrets.map SecretIdentity.toDict) :=
  listCodec secretCodec _ _

def PathRecord.slots (path : PathRecord) : List Slot :=
  [.plain "absolute_path" (.str path.absolutePath), .plain "present" (.bool path.present),
    .plain "uid" (optInt path.uid), .plain "gid" (optInt path.gid), .plain "owner" (optStr path.owner),
    .plain "group" (optStr path.group), .plain "mode" (optInt path.mode), .plain "kind" (.str path.kind)]

structure PathRecord.Present (path : PathRecord) : Prop where
  present : path.present = true
  kind : path.kind ≠ "absent"
  uid : ∃ n, path.uid = some n ∧ Within none n
  gid : ∃ n, path.gid = some n ∧ Within none n
  owner : ∃ s, path.owner = some s ∧ IsAccount s
  group : ∃ s, path.group = some s ∧ IsAccount s
  mode : ∃ n, path.mode = some n ∧ Within (some maximumMode) n

structure PathRecord.Absent (path : PathRecord) : Prop where
  present : path.present = false
  kind : path.kind = "absent"
  uid : path.uid = none
  gid : path.gid = none
  owner : path.owner = none
  group : path.group = none
  mode : path.mode = none

structure PathRecord.Valid (path : PathRecord) : Prop where
  absolutePath : IsAbsolute path.absolutePath
  kind : Bounded 32 path.kind ∧ path.kind ∈ allowedPathKinds
  metadata : path.Present ∨ path.Absent

theorem optInt_injective : Function.Injective optInt := by
  intro a b h
  cases a with
  | none =>
    cases b with
    | none => rfl
    | some n => cases h
  | some m =>
    cases b with
    | none => cases h
    | some n =>
      cases h
      rfl

theorem parsePath_eq_ok {v : PathRecord} : parsePath j = .ok v ↔
    (∃ members, j = .obj members ∧ ReadsAs members v.slots) ∧ v.Valid := by
  unfold parsePath absolutePath safeAccount
  simp only [bind_eq_ok, exactObject_eq_ok, string_eq_ok, matched_eq_ok, boolean_eq_ok,
    require_eq_ok, decide_eq_true_eq]
  constructor
  · rintro ⟨members, ⟨rfl, hks⟩, path, ⟨hpt, cpath⟩, present, hpr, kind, ⟨hkn, ckind⟩, _, callowed, h⟩
    cases present with
    | true =>
      simp only [if_true, bind_eq_ok, integer_eq_ok, matched_eq_ok, require_eq_ok, decide_eq_true_eq] at h
      obtain ⟨_, cabsent, uid, ⟨huid, cuid⟩, gid, ⟨hgid, cgid⟩, owner, ⟨hown, cowner⟩, group,
        ⟨hgr, cgroup⟩, mode,
        ⟨hmod, cmode⟩, h⟩ := h
      cases h
      refine ⟨⟨members, rfl, hks, ?_⟩, cpath, ⟨ckind, callowed⟩,
        .inl ⟨rfl, cabsent, ⟨uid, rfl, cuid⟩, ⟨gid, rfl, cgid⟩,
        ⟨owner, rfl, cowner⟩, ⟨group, rfl, cgroup⟩, mode, rfl, cmode⟩⟩
      simp only [PathRecord.slots, forall_mem_cons]
      exact ⟨hpt, hpr, huid, hgid, hown, hgr, hmod, hkn, nofun⟩
    | false =>
      simp only [Bool.false_eq_true, if_false, bind_eq_ok, require_eq_ok, decide_eq_true_eq,
        forall_mem_cons] at h
      obtain ⟨_, ⟨cabsent, huid, hgid, hown, hgr, hmod, -⟩, h⟩ := h
      cases h
      refine ⟨⟨members, rfl, hks, ?_⟩, cpath, ⟨ckind, callowed⟩, .inr ⟨rfl, cabsent, rfl, rfl, rfl, rfl, rfl⟩⟩
      simp only [PathRecord.slots, forall_mem_cons]
      exact ⟨hpt, hpr, huid, hgid, hown, hgr, hmod, hkn, nofun⟩
  · rintro ⟨⟨members, rfl, hks, hrd⟩, hvl⟩
    simp only [PathRecord.slots, forall_mem_cons] at hrd
    obtain ⟨hpt, hpr, huid, hgid, hown, hgr, hmod, hkn, -⟩ := hrd
    refine ⟨members, ⟨rfl, hks⟩, _, ⟨hpt, hvl.absolutePath⟩, _, hpr, _, ⟨hkn, hvl.kind.1⟩, (),
      hvl.kind.2, ?_⟩
    obtain ⟨path, present, uid, gid, owner, group, mode, kind⟩ := v
    rcases hvl.metadata with hmt | hmt
    · obtain ⟨rfl, cabsent, ⟨uid, rfl, cuid⟩, ⟨gid, rfl, cgid⟩, ⟨owner, rfl, cowner⟩,
        ⟨group, rfl, cgroup⟩, mode, rfl, cmode⟩ :=
        hmt
      simp only [if_true, bind_eq_ok, integer_eq_ok, matched_eq_ok, require_eq_ok, decide_eq_true_eq]
      exact ⟨(), cabsent, uid, ⟨huid, cuid⟩, gid, ⟨hgid, cgid⟩, owner, ⟨hown, cowner⟩, group,
        ⟨hgr, cgroup⟩, mode,
        ⟨hmod, cmode⟩, rfl⟩
    · obtain ⟨rfl, cabsent, rfl, rfl, rfl, rfl, rfl⟩ := hmt
      simp only [Bool.false_eq_true, if_false, bind_eq_ok, require_eq_ok, decide_eq_true_eq, forall_mem_cons]
      exact ⟨(), ⟨cabsent, huid, hgid, hown, hgr, hmod, nofun⟩, rfl⟩

theorem pathRecord :
    RecordCodec parsePath PathRecord.toDict PathRecord.slots PathRecord.Valid pathKeys where
  reads := fun _ _ => parsePath_eq_ok
  faithful := fun v => by
    simp only [PathRecord.slots, forall_mem_cons, Slot.faithful_plain, true_and]
    exact nofun

theorem pathCodec : Codec parsePath PathRecord.toDict where
  toStable := pathRecord.stable
  tells := fun v w h => by
    have hag := pathRecord.agree h
    simp only [PathRecord.slots, forall₂_cons, Slot.plain, JVal.str.injEq, JVal.bool.injEq,
      optStr_injective.eq_iff,
      optInt_injective.eq_iff] at hag
    obtain ⟨hpt, hpr, huid, hgid, hown, hgr, hmod, hkn, -⟩ := hag
    symm
    ext1 <;> assumption

def parsePaths : JVal → Checked (List PathRecord) :=
  listOf (fun _ => parsePath) (· ≠ 0) "Component paths are invalid"

def pathDicts (paths : List PathRecord) : JVal := .arr (paths.map PathRecord.toDict)

theorem pathsCodec : Codec parsePaths pathDicts := listCodec (fun _ => pathCodec) _ _

def ComponentRecord.slots (component : ComponentRecord) : List Slot :=
  [.plain "name" (.str component.name), .plain "filename" (.str component.filename),
    .plain "namespace" (.str component.namespace_), .plain "size_bytes" (.int component.sizeBytes),
    .plain "sha256" (.str component.sha256), .nested "paths" parsePaths pathDicts component.paths,
    .plain "archive_format" (.str component.archiveFormat)]

structure ComponentRecord.Valid (index : Nat) (component : ComponentRecord) : Prop where
  name : Bounded 64 component.name
  filename : Bounded 128 component.filename
  namespace_ : Bounded 128 component.namespace_
  identity : componentNames[index]? = some component.name ∧
    componentFilenames[index]? = some component.filename ∧
    componentNamespaces[index]? = some component.namespace_
  sizeBytes : Within none component.sizeBytes
  sha256 : Bounded 64 component.sha256 ∧ isSha256 component.sha256 = true
  paths : (component.paths.map PathRecord.absolutePath).Nodup
  archiveFormat : component.archiveFormat = "tar.zst"

theorem parseComponent_eq_ok {v : ComponentRecord} : parseComponent index j = .ok v ↔
    (∃ members, j = .obj members ∧ ReadsAs members v.slots) ∧ v.Valid index := by
  unfold parseComponent sha256Of
  simp only [bind_eq_ok, exactObject_eq_ok, string_eq_ok, matched_eq_ok, integer_eq_ok,
    require_eq_ok, decide_eq_true_eq]
  constructor
  · rintro ⟨members, ⟨rfl, hks⟩, name, ⟨hname, cname⟩, filename, ⟨hfl, cfilename⟩, namespace_,
      ⟨hnm, cnamespace⟩, _, cidentity, sizeBytes, ⟨hsz, csize⟩, digest, ⟨hdg, cdigest⟩, _, hfor, paths, hpt,
      _, cpaths, h⟩
    cases h
    refine ⟨⟨members, rfl, hks, ?_⟩, cname, cfilename, cnamespace, cidentity, csize, cdigest, cpaths, rfl⟩
    simp only [ComponentRecord.slots, forall_mem_cons]
    exact ⟨hname, hfl, hnm, hsz, hdg, hpt, hfor, nofun⟩
  · rintro ⟨⟨members, rfl, hks, hrd⟩, hvl⟩
    simp only [ComponentRecord.slots, forall_mem_cons] at hrd
    obtain ⟨hname, hfl, hnm, hsz, hdg, hpt, hfor, -⟩ := hrd
    obtain ⟨name, filename, namespace_, sizeBytes, digest, paths, format⟩ := v
    obtain ⟨cname, cfilename, cnamespace, cidentity, csize, cdigest, cpaths, rfl⟩ := hvl
    exact ⟨members, ⟨rfl, hks⟩, _, ⟨hname, cname⟩, _, ⟨hfl, cfilename⟩, _, ⟨hnm, cnamespace⟩, (), cidentity, _,
      ⟨hsz, csize⟩, _, ⟨hdg, cdigest⟩, (), hfor, _, hpt, (), cpaths, rfl⟩

theorem componentRecord (index : Nat) :
    RecordCodec (parseComponent index) ComponentRecord.toDict ComponentRecord.slots
    (ComponentRecord.Valid index) componentKeys where
  reads := fun _ _ => parseComponent_eq_ok
  faithful := fun v => by
    simp only [ComponentRecord.slots, forall_mem_cons, Slot.faithful_plain, true_and]
    exact ⟨Slot.faithful_nested pathsCodec.toStable _ _, nofun⟩

theorem componentCodec (index : Nat) : Codec (parseComponent index) ComponentRecord.toDict where
  toStable := (componentRecord index).stable
  tells := fun v w h => by
    have hag := (componentRecord index).agree h
    simp only [ComponentRecord.slots, forall₂_cons, Slot.plain, Slot.nested, JVal.str.injEq,
      JVal.int.injEq] at hag
    obtain ⟨hname, hfl, hnm, hsz, hdg, hpt, hfor, -⟩ := hag
    have hsm := (pathsCodec.tells _ _ hpt).symm
    symm
    ext1 <;> assumption

def PreflightRecord.slots (preflight : PreflightRecord) : List Slot :=
  [.plain "active_jobs_empty" (.bool preflight.activeJobsEmpty),
    .plain "transient_units_empty" (.bool preflight.transientUnitsEmpty),
    .plain "pending_registration_empty" (.bool preflight.pendingRegistrationEmpty),
    .plain "processor_inactive" (.bool preflight.processorInactive),
    .plain "secrets_valid" (.bool preflight.secretsValid), .plain "sources_safe" (.bool preflight.sourcesSafe),
    .plain "disk_space_sufficient" (.bool preflight.diskSpaceSufficient)]

def PreflightRecord.Valid (preflight : PreflightRecord) : Prop :=
  (preflight.activeJobsEmpty && preflight.transientUnitsEmpty && preflight.pendingRegistrationEmpty &&
    preflight.processorInactive && preflight.secretsValid && preflight.sourcesSafe &&
      preflight.diskSpaceSufficient) = true

theorem parsePreflight_eq_ok {v : PreflightRecord} : parsePreflight j = .ok v ↔
    (∃ members, j = .obj members ∧ ReadsAs members v.slots) ∧ v.Valid := by
  unfold parsePreflight
  simp only [bind_eq_ok, exactObject_eq_ok, boolean_eq_ok, require_eq_ok]
  constructor
  · rintro ⟨members, ⟨rfl, hks⟩, jobs, hjos, units, hun, pending, hpn, processor, hpr, secrets, hsc,
      sources, hsr, disk, hds, _, hall, h⟩
    cases h
    refine ⟨⟨members, rfl, hks, ?_⟩, hall⟩
    simp only [PreflightRecord.slots, forall_mem_cons]
    exact ⟨hjos, hun, hpn, hpr, hsc, hsr, hds, nofun⟩
  · rintro ⟨⟨members, rfl, hks, hrd⟩, hvl⟩
    simp only [PreflightRecord.slots, forall_mem_cons] at hrd
    obtain ⟨hjos, hun, hpn, hpr, hsc, hsr, hds, -⟩ := hrd
    exact ⟨members, ⟨rfl, hks⟩, _, hjos, _, hun, _, hpn, _, hpr, _, hsc, _, hsr, _, hds, (),
      hvl, rfl⟩

theorem preflightRecord :
    RecordCodec parsePreflight PreflightRecord.toDict PreflightRecord.slots PreflightRecord.Valid
    preflightKeys where
  reads := fun _ _ => parsePreflight_eq_ok
  faithful := fun v => by
    simp only [PreflightRecord.slots, forall_mem_cons, Slot.faithful_plain, true_and]
    exact nofun

theorem preflightCodec : Codec parsePreflight PreflightRecord.toDict where
  toStable := preflightRecord.stable
  tells := fun v w h => by
    have hag := preflightRecord.agree h
    simp only [PreflightRecord.slots, forall₂_cons, Slot.plain, JVal.bool.injEq] at hag
    obtain ⟨hjos, hun, hpn, hpr, hsc, hsr, hds, -⟩ := hag
    symm
    ext1 <;> assumption

def parseComponents : JVal → Checked (List ComponentRecord) :=
  listOf parseComponent (· = componentNames.length) "Manifest component count is invalid"

def parseUnits : JVal → Checked (List UnitState) :=
  listOf parseUnit (· ∈ [4, managedUnits.length]) "Manifest systemd unit count is invalid"

def componentDicts (components : List ComponentRecord) : JVal :=
  .arr (components.map ComponentRecord.toDict)

def unitDicts (units : List UnitState) : JVal := .arr (units.map UnitState.toDict)

def secretDicts (secrets : List SecretIdentity) : JVal := .arr (secrets.map SecretIdentity.toDict)

theorem componentsCodec : Codec parseComponents componentDicts := listCodec componentCodec _ _

theorem unitsCodec : Codec parseUnits unitDicts := listCodec unitCodec _ _

def BackupManifest.slots (manifest : BackupManifest) : List Slot :=
  [.plain "schema_version" (.int manifest.schemaVersion),
    .plain "utility_version" (.str manifest.utilityVersion),
    .plain "backup_id" (.str manifest.backupId), .plain "created_at" (.str manifest.createdAt),
    .nested "controller" parseController ControllerRecord.toDict manifest.controller,
    .nested "components" parseComponents componentDicts manifest.components,
    .nested "systemd_units" parseUnits unitDicts manifest.systemdUnits,
    .nested "secret_identities" parseSecrets secretDicts manifest.secretIdentities,
    .nested "preflight" parsePreflight PreflightRecord.toDict manifest.preflight,
    .plain "restore_order" (strings manifest.restoreOrder)]

def IsUtilityVersion (s : Text) : Prop := Bounded 32 s ∧ isVersion s = true

def IsBackup (s : Text) : Prop := Bounded 64 s ∧ isBackupId s = true

def IsTimestamp (s : Text) : Prop := Bounded 100 s ∧ IsUtc s

structure BackupManifest.Valid (manifest : BackupManifest) : Prop where
  positive : 1 ≤ manifest.schemaVersion ∧ ∀ most ∈ (none : Option Int), manifest.schemaVersion ≤ most
  schema : manifest.schemaVersion = Backup.schemaVersion
  utilityVersion : IsUtilityVersion manifest.utilityVersion
  backupId : IsBackup manifest.backupId
  createdAt : IsTimestamp manifest.createdAt
  restoreOrder : manifest.restoreOrder = componentNames

theorem manifestOf_eq_ok {v : BackupManifest} : manifestOf j = .ok v ↔
    (∃ members, j = .obj members ∧ ReadsAs members v.slots) ∧ v.Valid := by
  unfold manifestOf version backupId
  simp only [bind_eq_ok, exactObject_eq_ok, integer_eq_ok, matched_eq_ok, utcTimestamp_eq_ok,
    require_eq_ok, decide_eq_true_eq]
  constructor
  · rintro ⟨members, ⟨rfl, hks⟩, schema, ⟨hsc, cpositive⟩, _, cschema, utility, ⟨huti, cutility⟩,
      id, ⟨hid, cid⟩,
      created, ⟨hcr, ccreated⟩, controller, hcn, components, hcm, units, hun, secrets, hse,
      preflight, hpre, _, hord, h⟩
    cases h
    refine ⟨⟨members, rfl, hks, ?_⟩, cpositive, cschema, cutility, cid, ccreated, rfl⟩
    simp only [BackupManifest.slots, forall_mem_cons]
    exact ⟨hsc, huti, hid, hcr, hcn, hcm, hun, hse, hpre, hord, nofun⟩
  · rintro ⟨⟨members, rfl, hks, hrd⟩, hvl⟩
    simp only [BackupManifest.slots, forall_mem_cons] at hrd
    obtain ⟨hsc, huti, hid, hcr, hcn, hcm, hun, hse, hpre, hord, -⟩ := hrd
    obtain ⟨schema, utility, id, created, controller, components, units, secrets, preflight, order⟩ := v
    obtain ⟨cpositive, cschema, cutility, cid, ccreated, rfl⟩ := hvl
    exact ⟨members, ⟨rfl, hks⟩, _, ⟨hsc, cpositive⟩, (), cschema, _, ⟨huti, cutility⟩, _, ⟨hid, cid⟩, _,
      ⟨hcr, ccreated⟩, _, hcn, _, hcm, _, hun, _, hse, _, hpre, (), hord, rfl⟩

theorem manifestRecord :
    RecordCodec manifestOf BackupManifest.toDict BackupManifest.slots BackupManifest.Valid
    manifestKeys where
  reads := fun _ _ => manifestOf_eq_ok
  faithful := fun v => by
    simp only [BackupManifest.slots, forall_mem_cons, Slot.faithful_plain, true_and]
    exact ⟨Slot.faithful_nested controllerCodec.toStable _ _, Slot.faithful_nested componentsCodec.toStable _ _,
      Slot.faithful_nested unitsCodec.toStable _ _, Slot.faithful_nested secretsCodec.toStable _ _,
      Slot.faithful_nested preflightCodec.toStable _ _, nofun⟩

theorem strings_injective : Function.Injective strings := by
  intro a b h
  exact map_injective_iff.2 str_injective (JVal.arr.inj h)

theorem manifestCodec : Codec manifestOf BackupManifest.toDict where
  toStable := manifestRecord.stable
  tells := fun v w h => by
    have hag := manifestRecord.agree h
    simp only [BackupManifest.slots, forall₂_cons, Slot.plain, Slot.nested, JVal.str.injEq, JVal.int.injEq,
      strings_injective.eq_iff] at hag
    obtain ⟨hsh, huti, hid, hcr, hcn, hcm, hun, hsc, hpre, hord, -⟩ := hag
    have controllers := (controllerCodec.tells _ _ hcn).symm
    have components := (componentsCodec.tells _ _ hcm).symm
    have units := (unitsCodec.tells _ _ hun).symm
    have secrets := (secretsCodec.tells _ _ hsc).symm
    have preflights := (preflightCodec.tells _ _ hpre).symm
    symm
    ext1 <;> assumption

def hashDict (hashes : List (Text × Text)) : JVal :=
  .obj (hashes.map fun entry => (entry.1, .str entry.2))

def IsDigest (s : Text) : Prop := Bounded 64 s ∧ isSha256 s = true

def hashSlots (hashes : List (Text × Text)) : List Slot :=
  hashes.map fun entry => .plain entry.1 (.str entry.2)

theorem hashesOf_eq_ok {members : List (Text × JVal)} {names : List String} :
    ∀ {hashes : List (Text × Text)},
    hashesOf members names = .ok hashes ↔ hashes.map Prod.fst = texts names ∧
      ∀ entry ∈ hashes, valueOf members entry.1 = .str entry.2 ∧ IsDigest entry.2 := by
  induction names with
  | nil =>
    intro hashes
    constructor
    · intro h
      cases h
      exact ⟨rfl, nofun⟩
    · rintro ⟨h, -⟩
      rw [map_eq_nil_iff.1 h]
      rfl
  | cons name rest ih =>
    intro hashes
    rw [hashesOf]
    unfold sha256Of
    simp only [bind_eq_ok, matched_eq_ok, ih]
    constructor
    · rintro ⟨digest, ⟨hdg, cdigest⟩, more, ⟨hnm, hmr⟩, h⟩
      cases h
      refine ⟨?_, forall_mem_cons.2 ⟨⟨hdg, cdigest⟩, hmr⟩⟩
      rw [map_cons, hnm]
      rfl
    · rintro ⟨hnm, hmr⟩
      cases hashes with
      | nil => cases hnm
      | cons entry more =>
        obtain ⟨hname, hrs⟩ := List.cons.inj hnm
        rw [forall_mem_cons] at hmr
        obtain ⟨⟨hdg, cdigest⟩, hmr⟩ := hmr
        rw [hname] at hdg
        refine ⟨entry.2, ⟨hdg, cdigest⟩, more, ⟨hrs, hmr⟩, ?_⟩
        rw [← hname]
        rfl

theorem keys_hashSlots (hashes : List (Text × Text)) :
    (hashSlots hashes).map Slot.key = hashes.map Prod.fst := by
  unfold hashSlots
  rw [map_map]
  rfl

theorem written_hashSlots (hashes : List (Text × Text)) :
    hashDict hashes = .obj (written (hashSlots hashes)) := by
  unfold hashDict written hashSlots
  rw [map_map]
  rfl

theorem componentHashes_eq_ok {hashes : List (Text × Text)} : componentHashes j = .ok hashes ↔
    (∃ members, j = .obj members ∧ ReadsAs members (hashSlots hashes)) ∧
      hashes.map Prod.fst = componentFilenames ∧
      ∀ entry ∈ hashes, IsDigest entry.2 := by
  have hsl : ∀ {members : List (Text × JVal)},
    (∀ slot ∈ hashSlots hashes, slot.Reads (valueOf members slot.key)) ↔
      ∀ entry ∈ hashes, valueOf members entry.1 = .str entry.2 := by
    intro members
    unfold hashSlots
    exact forall_mem_map
  cases j with
  | obj members =>
    unfold componentHashes
    dsimp only
    constructor
    · intro h
      split_ifs at h with hks
      obtain ⟨hnm, hes⟩ := hashesOf_eq_ok.1 h
      refine ⟨⟨members, rfl, ?_, hsl.2 fun entry hen => (hes entry hen).1⟩, hnm,
        fun entry hen => (hes entry hen).2⟩
      intro key
      rw [keys_hashSlots, hnm]
      exact ⟨hks.2 key, hks.1 key⟩
    · rintro ⟨⟨members', ⟨⟩, hks, hrd⟩, hnm, hes⟩
      rw [keys_hashSlots, hnm] at hks
      rw [if_pos ⟨fun key => (hks key).2, fun key => (hks key).1⟩]
      exact hashesOf_eq_ok.2 ⟨hnm, fun entry hen => ⟨hsl.1 hrd entry hen, hes entry hen⟩⟩
  | _ => exact ⟨nofun, fun h => by obtain ⟨⟨_, h, -⟩, -⟩ := h; cases h⟩

theorem faithful_hashSlots (hashes : List (Text × Text)) :
    ∀ slot ∈ hashSlots hashes, slot.Faithful := by
  intro slot hsl
  obtain ⟨entry, -, rfl⟩ := mem_map.1 hsl
  exact Slot.faithful_plain _ _

theorem nodup_componentFilenames : componentFilenames.Nodup := by decide

theorem hashesStable : Stable componentHashes hashDict where
  rewrites := fun j hashes h hla => by
    obtain ⟨⟨members, rfl, hrd⟩, hnm, -⟩ := componentHashes_eq_ok.1 h
    rw [written_hashSlots]
    apply sortKeys_written _ (faithful_hashSlots hashes) hrd hla
    rw [keys_hashSlots, hnm]
    exact nodup_componentFilenames
  accepts := fun j hashes h => by
    obtain ⟨⟨members, rfl, hrd⟩, hnm, hen⟩ := componentHashes_eq_ok.1 h
    apply componentHashes_eq_ok.2
    refine ⟨⟨_, written_hashSlots hashes, readsAs_written ?_ (faithful_hashSlots hashes) hrd⟩, hnm, hen⟩
    rw [keys_hashSlots, hnm]
    exact nodup_componentFilenames

theorem hashes_perm {hashes hashes' : List (Text × Text)} (hdc : (hashes.map Prod.fst).Nodup)
    (h : componentHashes (hashDict hashes) = .ok hashes') : hashes'.Perm hashes := by
  obtain ⟨⟨members, hms, hks, hrd⟩, hnm, -⟩ := componentHashes_eq_ok.1 h
  rw [written_hashSlots] at hms
  cases hms
  have hnd : ((hashSlots hashes).map Slot.key).Nodup := by
    rw [keys_hashSlots]
    exact hdc
  have hdc' : (hashes'.map Prod.fst).Nodup := by
    rw [hnm]
    exact nodup_componentFilenames
  rw [keys_written, keys_hashSlots, keys_hashSlots] at hks
  have hv : ∀ entry ∈ hashes', ∀ other ∈ hashes, other.1 = entry.1 → other = entry := by
    intro entry hen other hot hname
    have hra := hrd (.plain entry.1 (.str entry.2)) (mem_map.2 ⟨entry, hen, rfl⟩)
    have hwr := valueOf_written hnd (mem_map.2 ⟨other, hot, rfl⟩)
    change valueOf _ entry.1 = _ at hra
    change valueOf _ other.1 = _ at hwr
    rw [hname, hra] at hwr
    exact Prod.ext hname (JVal.str.inj hwr).symm
  apply (perm_ext_iff_of_nodup (Nodup.of_map _ hdc') (Nodup.of_map _ hdc)).2
  intro entry
  constructor
  · intro hen
    obtain ⟨other, hot, hname⟩ := mem_map.1 ((hks entry.1).2 (mem_map_of_mem hen))
    rwa [← hv entry hen other hot hname]
  · intro hot
    obtain ⟨entry', hen, hname⟩ := mem_map.1 ((hks entry.1).1 (mem_map_of_mem hot))
    rwa [hv entry' hen entry hot hname.symm]

def VerificationEvidence.slots (evidence : VerificationEvidence) : List Slot :=
  [.plain "schema_version" (.int evidence.schemaVersion),
    .plain "utility_version" (.str evidence.utilityVersion),
    .plain "backup_id" (.str evidence.backupId), .plain "completed_at" (.str evidence.completedAt),
    .plain "manifest_sha256" (.str evidence.manifestSha256),
    .nested "component_hashes" Backup.componentHashes hashDict evidence.componentHashes,
    .nested "secret_identities" parseSecrets secretDicts evidence.secretIdentities,
    .nested "passed_checks" (fun value => safeChecks value "verification passed_checks") strings
      evidence.passedChecks,
    .plain "status" (.str evidence.status)]

structure VerificationEvidence.Valid (evidence : VerificationEvidence) : Prop where
  positive : 1 ≤ evidence.schemaVersion ∧ ∀ most ∈ (none : Option Int), evidence.schemaVersion ≤ most
  schema : evidence.schemaVersion = Backup.schemaVersion
  status : Bounded 16 evidence.status ∧ evidence.status = "ok"
  utilityVersion : IsUtilityVersion evidence.utilityVersion
  backupId : IsBackup evidence.backupId
  completedAt : IsTimestamp evidence.completedAt
  manifestSha256 : IsDigest evidence.manifestSha256

theorem verificationOf_eq_ok : verificationOf j = .ok v ↔
    (∃ members, j = .obj members ∧ ReadsAs members v.slots) ∧ v.Valid := by
  unfold verificationOf version backupId sha256Of
  simp only [bind_eq_ok, exactObject_eq_ok, integer_eq_ok, string_eq_ok, matched_eq_ok,
    utcTimestamp_eq_ok, require_eq_ok,
    decide_eq_true_eq]
  constructor
  · rintro ⟨members, ⟨rfl, hks⟩, schema, ⟨hsc, cpositive⟩, _, cschema, status, ⟨hst, cstatus⟩, _, cok, utility,
      ⟨huti, cutility⟩, id, ⟨hid, cid⟩, completed, ⟨hcm, ccompleted⟩, digest, ⟨hdg, cdigest⟩, hashes, hhs,
      secrets, hse, checks, hch, h⟩
    cases h
    refine ⟨⟨members, rfl, hks, ?_⟩, cpositive, cschema, ⟨cstatus, cok⟩, cutility, cid, ccompleted, cdigest⟩
    simp only [VerificationEvidence.slots, forall_mem_cons]
    exact ⟨hsc, huti, hid, hcm, hdg, hhs, hse, hch, hst, nofun⟩
  · rintro ⟨⟨members, rfl, hks, hrd⟩, hvl⟩
    simp only [VerificationEvidence.slots, forall_mem_cons] at hrd
    obtain ⟨hsc, huti, hid, hcm, hdg, hhs, hse, hch, hst, -⟩ := hrd
    exact ⟨members, ⟨rfl, hks⟩, _, ⟨hsc, hvl.positive⟩, (), hvl.schema, _, ⟨hst, hvl.status.1⟩, (),
      hvl.status.2, _, ⟨huti, hvl.utilityVersion⟩, _, ⟨hid, hvl.backupId⟩, _, ⟨hcm, hvl.completedAt⟩, _,
      ⟨hdg, hvl.manifestSha256⟩, _, hhs, _, hse, _, hch, rfl⟩

theorem verificationRecord :
    RecordCodec verificationOf VerificationEvidence.toDict VerificationEvidence.slots
    VerificationEvidence.Valid verificationKeys where
  reads := fun _ _ => verificationOf_eq_ok
  faithful := fun v => by
    simp only [VerificationEvidence.slots, forall_mem_cons, Slot.faithful_plain, true_and]
    exact ⟨Slot.faithful_nested hashesStable _ _, Slot.faithful_nested secretsCodec.toStable _ _,
      Slot.faithful_nested (checksCodec _).toStable _ _, nofun⟩

/-- Equality in Python: dictionaries have no order. -/
def VerificationEvidence.Same (v w : VerificationEvidence) : Prop :=
  v.componentHashes.Perm w.componentHashes ∧ v = { w with componentHashes := v.componentHashes }

theorem same_of_verificationOf {w : VerificationEvidence} (hdc : (v.componentHashes.map Prod.fst).Nodup)
    (h : verificationOf v.toDict = .ok w) : w.Same v := by
  have hag := verificationRecord.agree h
  simp only [VerificationEvidence.slots, forall₂_cons, Slot.plain, Slot.nested, JVal.str.injEq,
    JVal.int.injEq] at hag
  obtain ⟨hsc, huti, hid, hcm, hdg, hhs, hse, hch, hst, -⟩ := hag
  have secrets := secretsCodec.tells _ _ hse
  have checks := (checksCodec _).tells _ _ hch
  refine ⟨hashes_perm hdc hhs, ?_⟩
  cases v
  cases w
  simp only at hsc huti hid hcm hdg secrets checks hst
  subst hsc huti hid hcm hdg secrets checks hst
  rfl

theorem nodup_hashes_of_verificationOf (h : verificationOf j = .ok v) :
    (v.componentHashes.map Prod.fst).Nodup := by
  obtain ⟨⟨members, -, -, hrd⟩, -⟩ := verificationOf_eq_ok.1 h
  simp only [VerificationEvidence.slots, forall_mem_cons] at hrd
  obtain ⟨-, -, -, -, -, hhs, -⟩ := hrd
  rw [(componentHashes_eq_ok.1 hhs).2.1]
  exact nodup_componentFilenames

def RehearsalEvidence.slots (evidence : RehearsalEvidence) : List Slot :=
  [.plain "schema_version" (.int evidence.schemaVersion),
    .plain "utility_version" (.str evidence.utilityVersion),
    .plain "backup_id" (.str evidence.backupId), .plain "completed_at" (.str evidence.completedAt),
    .plain "manifest_sha256" (.str evidence.manifestSha256),
    .plain "verification_sha256" (.str evidence.verificationSha256),
    .nested "secret_identities" parseSecrets secretDicts evidence.secretIdentities,
    .nested "passed_checks" (fun value => safeChecks value "rehearsal passed_checks") strings
      evidence.passedChecks,
    .plain "status" (.str evidence.status)]

structure RehearsalEvidence.Valid (evidence : RehearsalEvidence) : Prop where
  positive : 1 ≤ evidence.schemaVersion ∧ ∀ most ∈ (none : Option Int), evidence.schemaVersion ≤ most
  schema : evidence.schemaVersion = Backup.schemaVersion
  status : Bounded 16 evidence.status ∧ evidence.status = "ok"
  utilityVersion : IsUtilityVersion evidence.utilityVersion
  backupId : IsBackup evidence.backupId
  completedAt : IsTimestamp evidence.completedAt
  manifestSha256 : IsDigest evidence.manifestSha256
  verificationSha256 : IsDigest evidence.verificationSha256

theorem rehearsalOf_eq_ok {v : RehearsalEvidence} : rehearsalOf j = .ok v ↔
    (∃ members, j = .obj members ∧ ReadsAs members v.slots) ∧ v.Valid := by
  unfold rehearsalOf version backupId sha256Of
  simp only [bind_eq_ok, exactObject_eq_ok, integer_eq_ok, string_eq_ok, matched_eq_ok,
    utcTimestamp_eq_ok, require_eq_ok,
    decide_eq_true_eq]
  constructor
  · rintro ⟨members, ⟨rfl, hks⟩, schema, ⟨hsc, cpositive⟩, _, cschema, status, ⟨hst, cstatus⟩, _, cok, utility,
      ⟨huti, cutility⟩, id, ⟨hid, cid⟩, completed, ⟨hcm, ccompleted⟩, digest, ⟨hdg, cdigest⟩, other,
      ⟨hot, cother⟩, secrets, hse, checks, hch, h⟩
    cases h
    refine ⟨⟨members, rfl, hks, ?_⟩, cpositive, cschema, ⟨cstatus, cok⟩, cutility, cid, ccompleted,
      cdigest, cother⟩
    simp only [RehearsalEvidence.slots, forall_mem_cons]
    exact ⟨hsc, huti, hid, hcm, hdg, hot, hse, hch, hst, nofun⟩
  · rintro ⟨⟨members, rfl, hks, hrd⟩, hvl⟩
    simp only [RehearsalEvidence.slots, forall_mem_cons] at hrd
    obtain ⟨hsc, huti, hid, hcm, hdg, hot, hse, hch, hst, -⟩ := hrd
    exact ⟨members, ⟨rfl, hks⟩, _, ⟨hsc, hvl.positive⟩, (), hvl.schema, _, ⟨hst, hvl.status.1⟩, (),
      hvl.status.2, _, ⟨huti, hvl.utilityVersion⟩, _, ⟨hid, hvl.backupId⟩, _, ⟨hcm, hvl.completedAt⟩, _,
      ⟨hdg, hvl.manifestSha256⟩, _, ⟨hot, hvl.verificationSha256⟩, _, hse, _, hch, rfl⟩

theorem rehearsalRecord :
    RecordCodec rehearsalOf RehearsalEvidence.toDict RehearsalEvidence.slots RehearsalEvidence.Valid
    rehearsalKeys where
  reads := fun _ _ => rehearsalOf_eq_ok
  faithful := fun v => by
    simp only [RehearsalEvidence.slots, forall_mem_cons, Slot.faithful_plain, true_and]
    exact ⟨Slot.faithful_nested secretsCodec.toStable _ _,
      Slot.faithful_nested (checksCodec _).toStable _ _, nofun⟩

theorem rehearsalCodec : Codec rehearsalOf RehearsalEvidence.toDict where
  toStable := rehearsalRecord.stable
  tells := fun v w h => by
    have hag := rehearsalRecord.agree h
    simp only [RehearsalEvidence.slots, forall₂_cons, Slot.plain, Slot.nested, JVal.str.injEq,
      JVal.int.injEq] at hag
    obtain ⟨hsh, huti, hid, hcm, hdg, hot, hsc, hch, hst, -⟩ := hag
    have secrets := (secretsCodec.tells _ _ hsc).symm
    have checks := ((checksCodec _).tells _ _ hch).symm
    symm
    ext1 <;> assumption

end WebOvpn.Backup
