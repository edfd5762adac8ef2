/-
The workflow of a workstation: the plan made from the registry and its validation, what an
accepted catalog guarantees, and the order of the components of a plan.
-/
import WebOvpn.Lib.Ipv6
import WebOvpn.Resolver.Configuration
import WebOvpn.Vnc.Policy
import WebOvpn.Workflow.Catalog

namespace WebOvpn.Workflow

open Text
open Vnc (pyEq)

variable (rt : Vnc.Runtime)

/-- `ipaddress.ip_address`, with the kinds of addresses that the policy refuses. -/
def ipAddress : Resolver.IpAddress := fun t =>
  (IpVersions.ofText t).map fun a =>
    { text := a.text, version := a.version
      isHost := !(a.isLoopback || a.isUnspecified || a.isMulticast || a.isLinkLocal) }

def finalDns (servers : JVal) : Option (List Text) :=
  (asTexts servers).bind (Resolver.validate ipAddress)

/-- The servers of `build_workflow_plan`'s argument. -/
def policyServers (policy : JVal) : Option (List Text) :=
  match policy with
  | .obj [(key, servers)] => if key = "servers" then finalDns servers else none
  | _ => none

/-- The phases, in the order of `BUDGETS`. -/
inductive Phase where
  | system
  | user
  | finalDns
  deriving DecidableEq

namespace Phase

def all : List Phase := [.system, .user, .finalDns]

def name : Phase → Text
  | .system => "system"
  | .user => "user"
  | .finalDns => "final_dns"

def budget : Phase → Int
  | .system => 21600
  | .user => 5400
  | .finalDns => 300

def priority : Phase → Nat
  | .system => 0
  | .user => 1
  | .finalDns => 2

end Phase

structure Plan where
  servers : List Text
  members : List (Text × Phase)
  deriving DecidableEq

namespace Plan

def componentIds (plan : Plan) (phase : Phase) : List Text :=
  (plan.members.filter fun member => member.2 = phase).map Prod.fst

/-- The phases one after another. -/
def flattened (plan : Plan) : List Text := Phase.all.flatMap plan.componentIds

def finalDnsPolicy (plan : Plan) : JVal := .obj [("servers", .arr (plan.servers.map .str))]

def policy (plan : Plan) : JVal := .obj [("final_dns", plan.finalDnsPolicy), ("vnc", Vnc.policy)]

/-- An element of `phases`. -/
def phaseJson (plan : Plan) (phase : Phase) : JVal :=
  .obj [("id", .str phase.name), ("component_ids", .arr ((plan.componentIds phase).map .str)),
    ("budget_seconds", .int phase.budget)]

def toJson (plan : Plan) : JVal :=
  .obj [("schema_version", .int 1), ("kind", .str "complete_workstation"),
    ("profile_id", .str fullProfile), ("policy", plan.policy),
    ("policy_sha256", .str (Vnc.digest rt plan.policy)), ("phases", .arr (Phase.all.map plan.phaseJson))]

end Plan

def isFullProfile (profile : JVal) : Bool :=
  item profile "id" = some (.str fullProfile) && item profile "workflow" = some (.str marker) &&
    item profile "version" = some (.int 1)

/-- The truth of a value. -/
def isTrue : JVal → Bool
  | .null => false
  | .bool b => b
  | .int n => n ≠ 0
  | .float token => !rt.floatEq (.float token) (.int 0)
  | .str s => !s.isEmpty
  | .arr items => !items.isEmpty
  | .obj members => !members.isEmpty

def recipeOf (component : JVal) : Option JVal :=
  (item component "verification").bind fun v => item v "recipe"

def phaseOf (component : JVal) : Option Phase := do
  let recipe ← recipeOf component
  let execution ← item component "execution"
  if recipe = .str "final_dns" then if hasItem execution "adapter" then none else some .finalDns
  else if isTrue rt (← item execution "requires_user_home") then if hasItem execution "adapter" then none else some .user
  else some .system

def memberOfComponent
    (component : JVal) :
    Option (Text × Phase) := do return (← idOf component, ← phaseOf rt component)

/-- `membership[id]`: the last component of the name counts. -/
def phaseOfId (members : List (Text × Phase)) (id : Text) : Option Phase := members.reverse.lookup id

def respectsPhases (members : List (Text × Phase)) (component : JVal) : Bool :=
  match (idOf component).bind (phaseOfId members), dependenciesOf component with
  | some phase, some dependencies =>
    dependencies.all fun d => (phaseOfId members d).any fun before => before.priority ≤ phase.priority
  | _, _ => false

/-- The conditions on the phases: one component in the last, some in the others,
and the first of all configures VNC. -/
def isPartition (registry : Registry) (plan : Plan) : Bool :=
  (plan.componentIds .finalDns).length = 1 && !(plan.componentIds .user).isEmpty &&
    match plan.componentIds .system with
    | [] => false
    | first :: _ => (registry.component first).bind recipeOf = some (.str "vnc_policy")

def sameIds (left right : List JVal) : Bool :=
  match left.mapM idOf, right.mapM idOf with
  | some a, some b => a.all (· ∈ b) && b.all (· ∈ a)
  | _, _ => false

def buildWorkflowPlan (registry : Registry) (policy : JVal) : Option Plan := do
  let servers ← policyServers policy
  let profile ← registry.profile fullProfile
  require (isFullProfile profile && !isTrue rt (← item profile "optional_components"))
  let ordered ← registry.ordered (← item profile "components") "alt-kworkstation-11"
  require (sameIds ordered registry.components)
  let plan : Plan := ⟨servers, ← ordered.mapM (memberOfComponent rt)⟩
  require (isPartition registry plan)
  require (ordered.all (respectsPhases plan.members))
  return plan

def validateWorkflowPlan (registry : Registry) (workflow : JVal) : Option Plan := do
  require (item workflow "schema_version" = some (.int 1))
  let expected ← buildWorkflowPlan rt registry (← item (← item workflow "policy") "final_dns")
  require (pyEq rt workflow (expected.toJson rt))
  return expected

/-- The identifiers of `archived_workflow`. -/
def isArchivedId : Text → Bool
  | [] => false
  | c :: rest =>
    c.isLower && rest.all (fun c => c.isLower || c.isDigit || isIdSeparator c) && rest.length ≤ 127

def isList : JVal → Bool
  | .arr _ => true
  | _ => false

def isDict : JVal → Bool
  | .obj _ => true
  | _ => false

def isArchivedComponent (component : JVal) : Bool :=
  (idOf component).any isArchivedId &&
    (match item component "version" with
      | some (.int version) => 1 ≤ version
      | _ => false) &&
    (item component "dependencies").any isList && (item component "execution").any isDict &&
    (item component "verification").any isDict

def archivedStep (mapping : List (Text × JVal)) (os : Text) (done : List Text × List JVal)
    (name : Text) :
    Option (List Text × List JVal) := do
  let component ← mapping.lookup name
  require (name ∉ done.1)
  require (← isIn os (← item component "supported_os"))
  require ((← dependenciesOf component).all (· ∈ done.1))
  require ((← item (← item component "execution") "requires_user_home") |> isBool)
  return (done.1 ++ [name], done.2 ++ [component])

def archivedRegistry (profile : JVal) (mapping : List (Text × JVal)) : Registry where
  profile := fun name => if name = fullProfile then some profile else none
  components := mapping.map Prod.snd
  component := fun name => mapping.lookup name
  ordered := fun names os => do return (← (← asTexts names).foldlM (archivedStep mapping os) ([], [])).2

def hasSha256 (payload : JVal) (name : String) : Bool := ((item payload name).bind asText).any isSha256

def archivedWorkflow (payload : JVal) : Option Plan := do
  require (item payload "engine_schema_version" = some (.int 2))
  let profile ← item payload "profile"
  require (isFullProfile profile)
  match ← item payload "components" with
  | .arr components => do
      require (1 ≤ components.length && components.length ≤ 256)
      require (hasSha256 payload "source_sha256" && hasSha256 payload "catalog_sha256")
      require (components.all isArchivedComponent)
      let ids ← components.mapM idOf
      require (decide ids.Nodup && item profile "components" = some (.arr (ids.map .str)))
      validateWorkflowPlan rt (archivedRegistry profile (ids.zip components)) (← item payload "workflow")
  | _ => none

open Schedule List Option

variable {roleFiles : RoleFiles} {rt : Vnc.Runtime} {catalog : Catalog} {plan : Plan}

theorem bind_require {α : Type} {condition : Bool} {rest : Unit → Option α} {result : α} :
    (require condition).bind rest = some result ↔ condition = true ∧ rest () = some result := by
  unfold require
  cases condition <;> simp

variable {value component : JVal} {isDeclared : JVal → Bool} {id : Text}

theorem asTexts_eq_some {names : List Text} : asTexts value = some names ↔
    value = .arr (names.map .str) := by
  have hits : ∀ items : List JVal, items.mapM asText = some names ↔ items = names.map .str := by
    intro items
    rw [mapM_eq_some_iff]
    induction items generalizing names with
    | nil =>
      rw [forall₂_nil_left_iff]
      cases names <;> simp
    | cons item rest ih =>
      rw [forall₂_cons_left_iff]
      constructor
      · rintro ⟨name, more, hnm, hmr, rfl⟩
        cases item <;> cases hnm
        rw [ih.1 hmr]
        rfl
      · intro h
        cases names with
        | nil => cases h
        | cons name more =>
          rw [map_cons] at h
          obtain ⟨rfl, hrs⟩ := List.cons.inj h
          exact ⟨name, more, rfl, ih.2 hrs, rfl⟩
  cases value with
  | arr items => simp [asTexts, hits]
  | _ => simp [asTexts]

theorem asText_eq_some {name : Text} : asText value = some name ↔ value = .str name := by
  cases value <;> simp [asText]

theorem exists_of_isText {pattern : Text → Bool} (h : isText pattern value = true) :
    ∃ name, value = .str name ∧ pattern name = true ∧ name.length ≤ 256 := by
  cases value with
  | str name =>
    simp only [isText, Bool.and_eq_true, decide_eq_true_eq] at h
    exact ⟨name, rfl, h.2, h.1.1.1.1.1.2⟩
  | _ => cases h

theorem exists_of_isIds {allowEmpty : Bool} (h : isIds allowEmpty value = true) :
    ∃ names : List Text, value = .arr (names.map .str) ∧ names.Nodup := by
  cases value with
  | arr items =>
    simp only [isIds, Bool.and_eq_true, decide_eq_true_eq, List.all_eq_true] at h
    obtain ⟨⟨-, hits⟩, hnd⟩ := h
    obtain ⟨names, rfl⟩ : ∃ names : List Text, items = names.map .str := by
      clear hnd
      induction items with
      | nil => exact ⟨[], rfl⟩
      | cons item rest ih =>
        obtain ⟨name, rfl, -, -⟩ := exists_of_isText (hits item mem_cons_self)
        obtain ⟨names, rfl⟩ := ih fun other hot => hits other (mem_cons_of_mem _ hot)
        exact ⟨name :: names, rfl⟩
    exact ⟨names, rfl, hnd.of_map _⟩
  | _ => cases h

/-- Declarations by their identifiers, each of which was accepted. -/
structure Declared (isDeclared : JVal → Bool) (entries : List (Text × JVal)) : Prop where
  nodup : (entries.map Prod.fst).Nodup
  named : ∀ entry ∈ entries, idOf entry.2 = some entry.1
  valid : ∀ entry ∈ entries, isDeclared entry.2 = true

theorem Declared.declare {done result : List (Text × JVal)} {declaration : JVal}
    (hdn : Declared isDeclared done) (h : declare isDeclared done declaration = some result) :
    Declared isDeclared result ∧ result.length = done.length + 1 := by
  unfold Workflow.declare at h
  by_cases hvl : isDeclared declaration = true
  · rw [if_pos hvl] at h
    cases hid : idOf declaration with
    | none => simp [hid] at h
    | some id =>
      simp only [hid] at h
      by_cases hold : id ∈ done.map Prod.fst
      · simp [hold] at h
      · rw [if_neg hold] at h
        cases Option.some.inj h
        refine ⟨⟨?_, ?_, ?_⟩, by simp⟩
        · rw [map_append, nodup_append]
          refine ⟨hdn.nodup, nodup_singleton _, ?_⟩
          intro a ha b hb heq
          cases mem_singleton.1 hb
          subst heq
          exact hold ha
        · intro entry hen
          rcases mem_append.1 hen with hen | hen
          · exact hdn.named entry hen
          · cases mem_singleton.1 hen
            exact hid
        · intro entry hen
          rcases mem_append.1 hen with hen | hen
          · exact hdn.valid entry hen
          · cases mem_singleton.1 hen
            exact hvl
  · rw [if_neg hvl] at h
    cases h

theorem declared_foldlM {declarations : List JVal} {done result : List (Text × JVal)}
    (hdn : Declared isDeclared done) (h : declarations.foldlM (declare isDeclared) done = some result) :
    Declared isDeclared result ∧ result.length = done.length + declarations.length := by
  induction declarations generalizing done with
  | nil =>
    cases Option.some.inj h
    exact ⟨hdn, rfl⟩
  | cons declaration rest ih =>
    rw [foldlM_cons] at h
    obtain ⟨middle, hfs, hrest⟩ := bind_eq_some_iff.1 h
    obtain ⟨hmid, hlen⟩ := hdn.declare hfs
    obtain ⟨hrs, htot⟩ := ih hmid hrest
    refine ⟨hrs, ?_⟩
    rw [htot, hlen, length_cons]
    omega

theorem Declared.nil (isDeclared : JVal → Bool) : Declared isDeclared [] := by
  constructor
  · exact nodup_nil
  · nofun
  · nofun

theorem Declared.of_lookup {entries : List (Text × JVal)} (h : Declared isDeclared entries)
    {declaration : JVal} (hlo : entries.lookup id = some declaration) :
    idOf declaration = some id ∧ isDeclared declaration = true := by
  have hmem := mem_of_lookup hlo
  exact ⟨h.named _ hmem, h.valid _ hmem⟩

/-- What the acceptance of a document says about its catalog. -/
structure Catalog.Accepted (roleFiles : RoleFiles) (catalog : Catalog) : Prop where
  components : ∃ artifacts, Declared (isComponent roleFiles artifacts) catalog.components
  profiles : Declared (isProfile catalog.components) catalog.profiles
  length_le : catalog.components.length ≤ 256

theorem length_of_declarations {name : String} {limit : Nat} {items : List JVal}
    (h : declarations value name limit = some items) : items.length ≤ limit := by
  unfold declarations at h
  split at h
  · split_ifs at h with hbd
    cases Option.some.inj h
    exact hbd.2
  · cases h

theorem accepted_of_load {document : JVal} (h : Catalog.load roleFiles document = some catalog) :
    catalog.Accepted roleFiles := by
  unfold Catalog.load at h
  simp only [bind_eq_bind] at h
  obtain ⟨-, h⟩ := bind_require.1 h
  obtain ⟨artifacts, -, h⟩ := bind_eq_some_iff.1 h
  obtain ⟨value, -, h⟩ := bind_eq_some_iff.1 h
  obtain ⟨-, h⟩ := bind_require.1 h
  obtain ⟨-, h⟩ := bind_require.1 h
  obtain ⟨-, h⟩ := bind_require.1 h
  obtain ⟨declared, hdc, h⟩ := bind_eq_some_iff.1 h
  obtain ⟨components, hcm, h⟩ := bind_eq_some_iff.1 h
  obtain ⟨-, h⟩ := bind_require.1 h
  obtain ⟨declaredProfiles, -, h⟩ := bind_eq_some_iff.1 h
  obtain ⟨profiles, hpr, h⟩ := bind_eq_some_iff.1 h
  cases Option.some.inj h
  obtain ⟨haccepted, hlen⟩ := declared_foldlM (Declared.nil _) hcm
  have hlim := length_of_declarations hdc
  simp only [length_nil, Nat.zero_add] at hlen
  refine ⟨⟨artifacts, haccepted⟩, (declared_foldlM (Declared.nil _) hpr).1, ?_⟩
  change components.length ≤ 256
  omega

structure IsSound (id : Text) (component : JVal) : Prop where
  named : idOf component = some id
  isId : isId id = true
  version : ∃ n, item component "version" = some (.int n) ∧ 1 ≤ n
  dependencies : ∃ ds : List Text, item component "dependencies" = some (.arr (ds.map .str))
  execution : ∃ members, item component "execution" = some (.obj members)
  verification : ∃ members, item component "verification" = some (.obj members)
  home : ∃ b, ((item component "execution").bind fun execution =>
    item execution "requires_user_home") = some (.bool b)

theorem exists_of_hasKeys {required optional : List String}
    (h : hasKeys value required optional = true) :
    ∃ members, value = .obj members := by
  cases value with
  | obj members => exact ⟨members, rfl⟩
  | _ => cases h

theorem eq_some_of_getD_obj {value : Option JVal} {members : Members}
    (h : value.getD .null = .obj members) :
    value = some (.obj members) := by
  cases value with
  | none => cases h
  | some v => exact congrArg some h

theorem isSound_of_isComponent {artifacts : Members} (hid : idOf component = some id)
    (h : isComponent roleFiles artifacts component = true) : IsSound id component := by
  unfold isComponent at h
  simp only [Bool.and_eq_true] at h
  obtain ⟨⟨⟨⟨⟨⟨⟨⟨⟨⟨⟨-, hnm⟩, hves⟩, -⟩, -⟩, -⟩, -⟩, hdep⟩, hex⟩, -⟩, hvr⟩, -⟩ := h
  have hidT : item component "id" = some (.str id) := by
    obtain ⟨value, hv, htx⟩ := bind_eq_some_iff.1 hid
    rw [hv, asText_eq_some.1 htx]
  unfold isExecution at hex
  simp only [Bool.and_eq_true] at hex
  obtain ⟨⟨⟨⟨⟨⟨⟨⟨⟨⟨hks, -⟩, -⟩, -⟩, -⟩, -⟩, -⟩, hhom⟩, -⟩, -⟩, -⟩ := hex
  unfold isVerification at hvr
  simp only [Bool.and_eq_true] at hvr
  obtain ⟨execution, hobj⟩ := exists_of_hasKeys hks
  obtain ⟨verification, hverif⟩ := exists_of_hasKeys hvr.1.1.1
  have hexec := eq_some_of_getD_obj hobj
  constructor
  · exact hid
  · rw [hidT, any_some] at hnm
    obtain ⟨name, hnm, hpt, -⟩ := exists_of_isText hnm
    cases hnm
    exact hpt
  · obtain ⟨value, hv, hrn⟩ := (Option.any_eq_true _ _).1 hves
    cases value with
    | int n =>
      simp only [isVersion, isIntIn, Bool.and_eq_true, decide_eq_true_eq] at hrn
      exact ⟨n, hv, hrn.1⟩
    | _ => cases hrn
  · obtain ⟨value, hv, hids⟩ := (Option.any_eq_true _ _).1 hdep
    obtain ⟨names, rfl, -⟩ := exists_of_isIds hids
    exact ⟨names, hv⟩
  · exact ⟨execution, hexec⟩
  · exact ⟨verification, eq_some_of_getD_obj hverif⟩
  · obtain ⟨value, hv, hboo⟩ := (Option.any_eq_true _ _).1 hhom
    rw [hexec]
    rw [hobj] at hv
    cases value with
    | bool b => exact ⟨b, hv⟩
    | _ => cases hboo

theorem Catalog.Accepted.isSound (h : catalog.Accepted roleFiles)
    (hlo : catalog.components.lookup id = some component) : IsSound id component := by
  obtain ⟨artifacts, hdc⟩ := h.components
  obtain ⟨hid, hvl⟩ := hdc.of_lookup hlo
  exact isSound_of_isComponent hid hvl

theorem IsSound.dependenciesOf (h : IsSound id component) :
    ∃ ds, dependenciesOf component = some ds := by
  obtain ⟨ds, hds⟩ := h.dependencies
  unfold Workflow.dependenciesOf
  rw [hds]
  exact ⟨ds, asTexts_eq_some.2 rfl⟩

theorem Catalog.dependencies_eq {ds : List Text}
    (hlo : catalog.components.lookup id = some component) (hds : dependenciesOf component = some ds) :
    catalog.dependencies id = ds := by
  unfold Catalog.dependencies depsOf known
  rw [hlo, bind_some, hds]
  rfl

structure Built (rt : Vnc.Runtime) (catalog : Catalog) (plan : Plan) (profile : JVal) (names : List Text)
    (found : List JVal) : Prop where
  declared : catalog.profiles.lookup fullProfile = some profile
  isFull : isFullProfile profile = true
  optional : ∃ value, item profile "optional_components" = some value ∧ isTrue rt value = false
  components : item profile "components" = some (.arr (names.map .str))
  closed : orderedIds catalog.components names = some names
  lookups : names.mapM (fun id => catalog.components.lookup id) = some found
  ordered : catalog.ordered (.arr (names.map .str)) "alt-kworkstation-11" = some found
  complete : sameIds found (catalog.components.map Prod.snd) = true
  members : found.mapM (memberOfComponent rt) = some plan.members
  partitioned : isPartition catalog.registry plan = true
  phases : found.all (respectsPhases plan.members) = true
  servers : ∃ policy, policyServers policy = some plan.servers

theorem built_of_build (haccepted : catalog.Accepted roleFiles) {policy : JVal}
    (h : buildWorkflowPlan rt catalog.registry policy = some plan) :
    policyServers policy = some plan.servers ∧ ∃ profile names found,
      Built rt catalog plan profile names found := by
  unfold buildWorkflowPlan at h
  simp only [bind_eq_bind] at h
  obtain ⟨servers, hsr, h⟩ := bind_eq_some_iff.1 h
  obtain ⟨profile, hpr, h⟩ := bind_eq_some_iff.1 h
  obtain ⟨optional, hopt, h⟩ := bind_eq_some_iff.1 h
  obtain ⟨hful, h⟩ := bind_require.1 h
  obtain ⟨value, hv, h⟩ := bind_eq_some_iff.1 h
  obtain ⟨components, hcm, h⟩ := bind_eq_some_iff.1 h
  obtain ⟨hall, h⟩ := bind_require.1 h
  obtain ⟨members, hms, h⟩ := bind_eq_some_iff.1 h
  obtain ⟨hpa, h⟩ := bind_require.1 h
  obtain ⟨hphs, h⟩ := bind_require.1 h
  cases Option.some.inj h
  simp only [Bool.and_eq_true, Bool.not_eq_true'] at hful
  have hvl := (haccepted.profiles.of_lookup hpr).2
  have hord := hcm
  change catalog.ordered value _ = some components at hord
  unfold Catalog.ordered at hord
  simp only [bind_eq_bind, bind_require] at hord
  obtain ⟨-, hord⟩ := hord
  obtain ⟨names, hnm, hord⟩ := bind_eq_some_iff.1 hord
  obtain ⟨ids, hids, hord⟩ := bind_eq_some_iff.1 hord
  obtain ⟨found, hfn, hord⟩ := bind_eq_some_iff.1 hord
  split_ifs at hord
  cases Option.some.inj hord
  have hvalu := asTexts_eq_some.1 hnm
  have hsl : orderedIds catalog.components names = some names := by
    unfold isProfile at hvl
    rw [hv] at hvl
    simp only [bind_some, hnm, getD_some, Bool.and_eq_true, decide_eq_true_eq] at hvl
    exact hvl.1.2
  rw [hsl] at hids
  cases Option.some.inj hids
  refine ⟨hsr, profile, names, components, ?_⟩
  constructor
  · exact hpr
  · exact hful.1
  · exact ⟨optional, hopt, hful.2⟩
  · rw [hv, hvalu]
  · exact hsl
  · exact hfn
  · rw [← hvalu]
    exact hcm
  · exact hall
  · exact hms
  · exact hpa
  · exact hphs
  · exact ⟨policy, hsr⟩

theorem mapM_bind_of {α β γ : Type} {f : α → Option β} {g : β → Option γ} {items : List α}
    {results : List β} {k : α → γ}
    (h : items.mapM f = some results) (hk : ∀ a b, f a = some b → g b = some (k a)) :
    results.mapM g = some (items.map k) := by
  rw [mapM_eq_some_iff] at h ⊢
  rw [forall₂_map_right_iff]
  exact h.flip.imp fun b a hab => hk a b hab

namespace Built

variable {profile : JVal} {names : List Text} {found : List JVal}

section

variable (h : Built rt catalog plan profile names found)
include h

theorem follows : Follows catalog.dependencies names :=
  (visited_closure h.closed).closed.follows

theorem nodup : names.Nodup := (visited_closure h.closed).closed.nodup

theorem mapM_idOf (haccepted : catalog.Accepted roleFiles) :
    found.mapM idOf = some names := by
  have hids := mapM_bind_of (k := id) h.lookups fun name component hlo => (haccepted.isSound hlo).named
  rwa [List.map_id] at hids

theorem map_members (haccepted : catalog.Accepted roleFiles) :
    plan.members.map Prod.fst = names := by
  have hids := h.mapM_idOf haccepted
  have hms := h.members
  rw [mapM_eq_some_iff] at hids hms
  clear h
  generalize plan.members = members at hms ⊢
  induction hms generalizing names with
  | nil =>
    cases hids
    rfl
  | cons hmem _ ih =>
    obtain ⟨name, more, hnm, hmr, rfl⟩ := forall₂_cons_left_iff.1 hids
    obtain ⟨id, hid, hrs⟩ := bind_eq_some_iff.1 hmem
    obtain ⟨phase, -, heq⟩ := bind_eq_some_iff.1 hrs
    cases Option.some.inj heq
    cases Option.some.inj (hid.symm.trans hnm)
    rw [map_cons, ih hmr]

end

theorem ids_eq (haccepted : catalog.Accepted roleFiles) :
    (catalog.components.map Prod.snd).mapM idOf = some catalog.ids := by
  obtain ⟨artifacts, hdc⟩ := haccepted.components
  rw [mapM_eq_some_iff]
  unfold Catalog.ids
  rw [forall₂_map_left_iff, forall₂_map_right_iff, forall₂_same]
  exact hdc.named

theorem nodup_ids (haccepted : catalog.Accepted roleFiles) : catalog.ids.Nodup := by
  obtain ⟨artifacts, hdc⟩ := haccepted.components
  exact hdc.nodup

theorem perm_ids (h : Built rt catalog plan profile names found)
    (haccepted : catalog.Accepted roleFiles) :
    names.Perm catalog.ids := by
  have hcpl := h.complete
  unfold sameIds at hcpl
  simp only [h.mapM_idOf haccepted, ids_eq haccepted, Bool.and_eq_true, List.all_eq_true,
    decide_eq_true_eq] at hcpl
  rw [perm_ext_iff_of_nodup h.nodup (nodup_ids haccepted)]
  intro id
  exact ⟨hcpl.1 id, hcpl.2 id⟩

theorem phaseOfId_of_mem {members : List (Text × Phase)} (hnd : (members.map Prod.fst).Nodup)
    {member : Text × Phase}
    (hmem : member ∈ members) : phaseOfId members member.1 = some member.2 := by
  unfold phaseOfId
  apply lookup_of_mem
  · rw [map_reverse, nodup_reverse]
    exact hnd
  · exact mem_reverse.2 hmem

theorem componentIds_eq (hnd : (plan.members.map Prod.fst).Nodup) (phase : Phase) :
    plan.componentIds phase = (plan.members.map Prod.fst).filter fun id =>
      phaseOfId plan.members id = some phase := by
  unfold Plan.componentIds
  rw [List.filter_map]
  apply congrArg
  apply filter_congr
  intro member hmem
  simp only [Function.comp_apply, phaseOfId_of_mem hnd hmem, Option.some.injEq]

theorem flattened_eq (hnd : (plan.members.map Prod.fst).Nodup) :
    plan.flattened = regroup (Phase.all.map some) (phaseOfId plan.members)
      (plan.members.map Prod.fst) := by
  unfold Plan.flattened regroup
  rw [flatMap_map]
  apply flatMap_congr
  intro phase _
  exact componentIds_eq hnd phase

theorem phase_isSome (h : Built rt catalog plan profile names found)
    (haccepted : catalog.Accepted roleFiles) {id : Text}
    (hid : id ∈ names) : ∃ phase, phaseOfId plan.members id = some phase := by
  have hnm := h.map_members haccepted
  rw [← hnm] at hid
  obtain ⟨member, hmem, rfl⟩ := List.mem_map.1 hid
  refine ⟨member.2, phaseOfId_of_mem ?_ hmem⟩
  rw [hnm]
  exact h.nodup

theorem mem_all (phase : Phase) : phase ∈ Phase.all := by
  cases phase <;> decide

section

variable (h : Built rt catalog plan profile names found) (haccepted : catalog.Accepted roleFiles)
include h haccepted

theorem priority_le {id d : Text}
    {phase before : Phase} (hid : id ∈ names) (hd : d ∈ catalog.dependencies id)
    (hph : phaseOfId plan.members id = some phase) (hbf : phaseOfId plan.members d = some before) :
    before.priority ≤ phase.priority := by
  have hlooku := h.lookups
  rw [mapM_eq_some_iff] at hlooku
  obtain ⟨component, hcm, hlo⟩ : ∃ component ∈ found, catalog.components.lookup id = some component := by
    clear h
    induction hlooku with
    | nil => cases hid
    | cons hlo _ ih =>
      rcases mem_cons.1 hid with rfl | hid
      · exact ⟨_, mem_cons_self, hlo⟩
      · obtain ⟨component, hmem, hcm⟩ := ih hid
        exact ⟨component, mem_cons_of_mem _ hmem, hcm⟩
  have hsn := haccepted.isSound hlo
  obtain ⟨ds, hds⟩ := hsn.dependenciesOf
  rw [Catalog.dependencies_eq hlo hds] at hd
  have hrs := List.all_eq_true.1 h.phases component hcm
  unfold respectsPhases at hrs
  rw [hsn.named, bind_some, hph, hds] at hrs
  have hall := List.all_eq_true.1 hrs d hd
  rw [hbf, any_some, decide_eq_true_eq] at hall
  exact hall

theorem follows_flattened :
    Follows catalog.dependencies plan.flattened := by
  have hnm := h.map_members haccepted
  rw [flattened_eq (by rw [hnm]; exact h.nodup), hnm]
  apply h.follows.regroup
  · intro id hid
    obtain ⟨phase, hph⟩ := h.phase_isSome haccepted hid
    rw [hph]
    exact List.mem_map_of_mem (mem_all phase)
  · rw [pairwise_map]
    have hord : Phase.all.Pairwise fun k l => k.priority < l.priority := by decide
    apply hord.imp
    intro k l hlt id hid d hd hk hl
    have := h.priority_le haccepted hid hd hk hl
    omega

theorem flattened_perm :
    plan.flattened.Perm catalog.ids := by
  have hnm := h.map_members haccepted
  apply Perm.trans _ (h.perm_ids haccepted)
  rw [flattened_eq (by rw [hnm]; exact h.nodup), hnm]
  rw [perm_ext_iff_of_nodup (nodup_regroup (by decide) h.nodup) h.nodup]
  intro id
  rw [mem_regroup]
  constructor
  · exact fun hid => hid.1
  · intro hid
    obtain ⟨phase, hph⟩ := h.phase_isSome haccepted hid
    rw [hph]
    exact ⟨hid, List.mem_map_of_mem (mem_all phase)⟩

end

end Built

end WebOvpn.Workflow
