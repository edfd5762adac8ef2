/-
The plan of a complete workstation is a schedule of the catalog, and its
validations agree with it.
-/
import WebOvpn.Lib.Sha256
import WebOvpn.Workflow.Policies

namespace WebOvpn.Workflow

open Text Schedule List Option
open Vnc (pyEq)

variable {roleFiles : RoleFiles} {rt : Vnc.Runtime} {catalog : Catalog} {plan : Plan}
variable {profile : JVal} {names : List Text} {found : List JVal}

variable {registry : Registry} {policy : JVal} {id : Text}

theorem buildWorkflowPlan_congr {other : JVal} (h : policyServers policy = policyServers other) :
    buildWorkflowPlan rt registry policy = buildWorkflowPlan rt registry other := by
  unfold buildWorkflowPlan
  rw [h]

theorem build_finalDnsPolicy (h : buildWorkflowPlan rt registry policy = some plan)
    (hsr : policyServers policy = some plan.servers) :
    buildWorkflowPlan rt registry plan.finalDnsPolicy = some plan := by
  rw [buildWorkflowPlan_congr ((policyServers_finalDnsPolicy hsr).trans hsr.symm)]
  exact h

theorem validate_eq_some_iff {workflow : JVal}
    (h : buildWorkflowPlan rt registry policy = some plan)
    (hsr : policyServers policy = some plan.servers)
    (hds : hasDistinctKeys workflow = true) : validateWorkflowPlan rt registry workflow = some plan ↔
      item workflow "schema_version" = some (.int 1) ∧ pyEq rt workflow (plan.toJson rt) = true := by
  unfold validateWorkflowPlan
  simp only [bind_eq_bind, bind_require, decide_eq_true_eq]
  constructor
  · rintro ⟨hsc, hrs⟩
    obtain ⟨policyValue, -, hrs⟩ := bind_eq_some_iff.1 hrs
    obtain ⟨servers, -, hrs⟩ := bind_eq_some_iff.1 hrs
    obtain ⟨expected, -, hrs⟩ := bind_eq_some_iff.1 hrs
    obtain ⟨heq, hrs⟩ := bind_require.1 hrs
    cases Option.some.inj hrs
    exact ⟨hsc, heq⟩
  · rintro ⟨hsc, heq⟩
    refine ⟨hsc, ?_⟩
    obtain ⟨policyValue, hpl, hpolic, hpoli⟩ :=
      item_of_pyEq hds heq (show List.lookup (text "policy") _ = some plan.policy from rfl)
    obtain ⟨servers, hfn, hfina, -⟩ :=
      item_of_pyEq hpoli hpolic (show List.lookup (text "final_dns") _ = some plan.finalDnsPolicy from rfl)
    rw [hpl, bind_some, hfn, bind_some, eq_finalDnsPolicy hfina,
      build_finalDnsPolicy h hsr, bind_some, bind_require]
    exact ⟨heq, rfl⟩

theorem build_of_validate {workflow : JVal} (h : validateWorkflowPlan rt registry workflow = some plan) :
    pyEq rt workflow (plan.toJson rt) = true ∧
      ∃ policy, buildWorkflowPlan rt registry policy = some plan := by
  unfold validateWorkflowPlan at h
  simp only [bind_eq_bind, bind_require] at h
  obtain ⟨-, h⟩ := h
  obtain ⟨policyValue, -, h⟩ := bind_eq_some_iff.1 h
  obtain ⟨servers, -, h⟩ := bind_eq_some_iff.1 h
  obtain ⟨expected, hbi, h⟩ := bind_eq_some_iff.1 h
  obtain ⟨heq, h⟩ := bind_require.1 h
  cases Option.some.inj h
  exact ⟨heq, servers, hbi⟩

theorem hasDistinctKeys_strs (names : List Text) : itemsDistinct (names.map .str) = true := by
  induction names with
  | nil => rfl
  | cons name rest ih => rw [map_cons, itemsDistinct, ih]; rfl

theorem hasDistinctKeys_toJson : hasDistinctKeys (plan.toJson rt) = true := by
  simp only [Plan.toJson, Plan.policy, Plan.finalDnsPolicy, Vnc.policy, Plan.phaseJson, Phase.all, map_cons,
    map_nil, hasDistinctKeys, membersDistinct, itemsDistinct, hasDistinctKeys_strs]
  rfl

theorem lookup_zip {components : List (Text × JVal)}
    (h : names.mapM (fun id => components.lookup id) = some found) (hid : id ∈ names) :
    (names.zip found).lookup id = components.lookup id := by
  rw [mapM_eq_some_iff] at h
  induction h with
  | nil => cases hid
  | @cons name component names found hlo _ ih =>
    rw [zip_cons_cons]
    by_cases heq : id = name
    · subst heq
      rw [lookup_cons_self, hlo]
    · rw [lookup_cons_of_ne heq]
      exact ih ((mem_cons.1 hid).resolve_left heq)

section

variable (h : Built rt catalog plan profile names found)
include h

theorem length_found : names.length = found.length :=
  (mapM_eq_some_iff.1 h.lookups).length_eq

theorem exists_lookup (hid : id ∈ names) :
    ∃ component ∈ found, catalog.components.lookup id = some component := by
  have hlo := mapM_eq_some_iff.1 h.lookups
  clear h
  induction hlo with
  | nil => cases hid
  | cons hlookup _ ih =>
    rcases mem_cons.1 hid with rfl | hid
    · exact ⟨_, mem_cons_self, hlookup⟩
    · obtain ⟨component, hmem, hcm⟩ := ih hid
      exact ⟨component, mem_cons_of_mem _ hmem, hcm⟩

theorem isIn_supported {component : JVal} (hcm : component ∈ found) :
    ∃ value, item component "supported_os" = some value ∧
      isIn "alt-kworkstation-11" value = some true := by
  have hord := h.ordered
  unfold Catalog.ordered at hord
  simp only [bind_eq_bind, bind_require] at hord
  obtain ⟨-, hord⟩ := hord
  obtain ⟨texts, -, hord⟩ := bind_eq_some_iff.1 hord
  obtain ⟨ids, -, hord⟩ := bind_eq_some_iff.1 hord
  obtain ⟨result, -, hord⟩ := bind_eq_some_iff.1 hord
  split_ifs at hord with hall
  cases Option.some.inj hord
  have hch := List.all_eq_true.1 hall component hcm
  cases hv : item component "supported_os" with
  | none => simp [hv] at hch
  | some value =>
    rw [hv, bind_some] at hch
    cases hin : isIn "alt-kworkstation-11" value with
    | none => simp [hin] at hch
    | some b =>
      rw [hin, getD_some] at hch
      exact ⟨value, rfl, by rw [hin, hch]⟩

section

variable (haccepted : catalog.Accepted roleFiles)
include haccepted

theorem foldlM_archivedStep {before rest : List Text} {seen components : List JVal}
    (hnm : names = before ++ rest)
    (hlooku : rest.Forall₂
      (fun id component => catalog.components.lookup id = some component) components) :
    rest.foldlM (archivedStep (names.zip found) "alt-kworkstation-11") (before, seen) =
      some (names, seen ++ components) := by
  induction hlooku generalizing before seen with
  | nil =>
    rw [append_nil] at hnm ⊢
    rw [hnm]
    rfl
  | @cons name component rest components hlo _ ih =>
    have hname : name ∈ names := by
      rw [hnm]
      exact mem_append_right _ mem_cons_self
    have hsn := haccepted.isSound hlo
    obtain ⟨kept, hkept, hkp⟩ := exists_lookup h hname
    cases Option.some.inj (hlo.symm.trans hkp)
    obtain ⟨value, hv, hin⟩ := isIn_supported h hkept
    obtain ⟨ds, hds⟩ := hsn.dependenciesOf
    obtain ⟨execution, hex⟩ := hsn.execution
    obtain ⟨b, hhom⟩ := hsn.home
    rw [hex, bind_some] at hhom
    have hfr : name ∉ before := by
      intro hmem
      have hnd := h.nodup
      rw [hnm] at hnd
      exact (nodup_append.1 hnd).2.2 name hmem name mem_cons_self rfl
    have hdn : ds.all (· ∈ before) = true := by
      rw [List.all_eq_true]
      intro d hd
      rw [decide_eq_true_eq]
      apply h.follows.mem_before hnm
      rw [Catalog.dependencies_eq hlo hds]
      exact hd
    have hst : archivedStep (names.zip found) "alt-kworkstation-11" (before, seen) name =
        some (before ++ [name], seen ++ [component]) := by
      unfold archivedStep
      simp only [lookup_zip h.lookups hname, hlo, hv, hin, hds, hex, hhom, hdn, hfr, require, isBool,
        bind_eq_bind, bind_some, not_false_eq_true, decide_true, if_true]
      rfl
    rw [foldlM_cons, hst]
    have hnx : names = (before ++ [name]) ++ rest := by
      rw [hnm, append_assoc]
      rfl
    have hmr := @ih (before ++ [name]) (seen ++ [component]) hnx
    rw [append_assoc] at hmr
    exact hmr

theorem archived_ordered :
    (archivedRegistry profile (names.zip found)).ordered (.arr (names.map .str)) "alt-kworkstation-11" =
      some found := by
  have hfl : names.foldlM (archivedStep (names.zip found) "alt-kworkstation-11") ([], []) =
    some (names, found) :=
    foldlM_archivedStep h haccepted rfl (mapM_eq_some_iff.1 h.lookups)
  unfold archivedRegistry
  simp only [asTexts_eq_some.2 rfl, bind_eq_bind, bind_some, hfl]
  rfl

theorem isPartition_archived (servers : List Text) :
    isPartition (archivedRegistry profile (names.zip found)) ⟨servers, plan.members⟩ =
      isPartition catalog.registry ⟨servers, plan.members⟩ := by
  unfold isPartition
  cases hsys : Plan.componentIds ⟨servers, plan.members⟩ .system with
  | nil => rfl
  | cons first rest =>
    have hfs : first ∈ names := by
      have hmem : first ∈ Plan.componentIds ⟨servers, plan.members⟩ .system := by
        rw [hsys]
        exact mem_cons_self
      unfold Plan.componentIds at hmem
      obtain ⟨member, hmemb, rfl⟩ := List.mem_map.1 hmem
      rw [← h.map_members haccepted]
      exact List.mem_map_of_mem (mem_filter.1 hmemb).1
    have hlo : (archivedRegistry profile (names.zip found)).component first = catalog.registry.component first :=
      lookup_zip h.lookups hfs
    simp only [hlo]

theorem build_archived (policy : JVal) :
    buildWorkflowPlan rt (archivedRegistry profile (names.zip found)) policy =
      buildWorkflowPlan rt catalog.registry policy := by
  obtain ⟨value, hopt, hfl⟩ := h.optional
  have hpr : (archivedRegistry profile (names.zip found)).profile fullProfile = some profile := by
    unfold archivedRegistry
    simp only [if_true]
  have hdc : catalog.registry.profile fullProfile = some profile := h.declared
  have hcat : catalog.registry.ordered (.arr (names.map .str)) "alt-kworkstation-11" = some found := h.ordered
  have hcm : (archivedRegistry profile (names.zip found)).components = found := by
    change (names.zip found).map Prod.snd = found
    exact map_snd_zip (length_found h).ge
  have hsm : sameIds found found = true := by
    unfold sameIds
    rw [h.mapM_idOf haccepted]
    simp
  have hall : sameIds found catalog.registry.components = true := h.complete
  unfold buildWorkflowPlan
  simp only [hpr, hdc, archived_ordered h haccepted, hcat, hcm, hsm, hall, h.components,
    h.members, bind_eq_bind, bind_some, isPartition_archived h haccepted]

end

end

theorem all_of_isIdTail {inner : Bool} (h : isIdTail inner id = true) :
    id.all (fun c => c.isLower || c.isDigit || isIdSeparator c) = true := by
  induction id generalizing inner with
  | nil => rfl
  | cons c rest ih =>
    unfold isIdTail at h
    rw [all_cons, Bool.and_eq_true]
    split_ifs at h with hwr
    · exact ⟨by rw [hwr, Bool.true_or], ih h⟩
    · simp only [Bool.and_eq_true] at h
      exact ⟨by rw [h.1.2, Bool.or_true], ih h.2⟩

/-- An identifier of the catalog can be retained when it has at most 128 signs. -/
theorem isArchivedId_iff (h : isId id = true) : isArchivedId id = true ↔ id.length ≤ 128 := by
  cases id with
  | nil => cases h
  | cons c rest =>
    unfold isId at h
    rw [Bool.and_eq_true] at h
    change (c.isLower && rest.all _ && decide (rest.length ≤ 127)) = true ↔ _
    rw [h.1, all_of_isIdTail h.2, Bool.true_and, Bool.true_and, decide_eq_true_eq, length_cons]
    omega

theorem isArchivedComponent_iff {component : JVal} (h : IsSound id component) :
    isArchivedComponent component = true ↔ id.length ≤ 128 := by
  obtain ⟨version, hves, hpos⟩ := h.version
  obtain ⟨ds, hds⟩ := h.dependencies
  obtain ⟨execution, hex⟩ := h.execution
  obtain ⟨verification, hvr⟩ := h.verification
  rw [← isArchivedId_iff h.isId]
  unfold isArchivedComponent
  simp [h.named, hves, hpos, hds, hex, hvr, isList, isDict]

theorem all_isArchivedComponent_iff (h : Built rt catalog plan profile names found)
    (haccepted : catalog.Accepted roleFiles) :
    found.all isArchivedComponent = true ↔ ∀ id ∈ names, id.length ≤ 128 := by
  have hlo := mapM_eq_some_iff.1 h.lookups
  rw [List.all_eq_true]
  clear h
  induction hlo with
  | nil => exact ⟨fun _ => nofun, fun _ => nofun⟩
  | cons hlookup _ ih =>
    rw [forall_mem_cons, forall_mem_cons]
    exact and_congr (isArchivedComponent_iff (haccepted.isSound hlookup)) ih

structure Declares (rt : Vnc.Runtime) (catalog : Catalog) (plan : Plan) (payload : JVal) : Prop where
  engine : item payload "engine_schema_version" = some (.int 2)
  profile : item payload "profile" = catalog.profiles.lookup fullProfile
  components : ∃ value found,
    (catalog.profiles.lookup fullProfile).bind (fun profile => item profile "components") =
    some value ∧
    catalog.ordered value "alt-kworkstation-11" = some found ∧ item payload "components" = some (.arr found)
  source : hasSha256 payload "source_sha256" = true
  registry : hasSha256 payload "catalog_sha256" = true
  workflow : item payload "workflow" = some (plan.toJson rt)

theorem archivedWorkflow_eq (h : Built rt catalog plan profile names found)
    (haccepted : catalog.Accepted roleFiles)
    {payload : JVal} (hdc : Declares rt catalog plan payload) : archivedWorkflow rt payload =
      if found.all isArchivedComponent then validateWorkflowPlan rt catalog.registry
        (plan.toJson rt) else none := by
  obtain ⟨value, others, hv, hord, hcm⟩ := hdc.components
  rw [h.declared, bind_some, h.components] at hv
  cases Option.some.inj hv
  rw [h.ordered] at hord
  cases Option.some.inj hord
  have hpo := hdc.profile
  rw [h.declared] at hpo
  have hlen : (1 ≤ found.length && found.length ≤ 256) = true := by
    rw [Bool.and_eq_true, decide_eq_true_eq, decide_eq_true_eq, ← length_found h,
      (h.perm_ids haccepted).length_eq]
    unfold Catalog.ids
    rw [length_map]
    refine ⟨?_, haccepted.length_le⟩
    have hpr := h.partitioned
    unfold isPartition at hpr
    rw [Bool.and_eq_true, Bool.and_eq_true, decide_eq_true_eq] at hpr
    have hone := hpr.1.1
    by_contra hzr
    have hem : catalog.components = [] := length_eq_zero_iff.1 (by omega)
    have hfl := h.flattened_perm haccepted
    unfold Catalog.ids at hfl
    rw [hem, map_nil, perm_nil] at hfl
    have hls : plan.componentIds .finalDns = [] := by
      rw [eq_nil_iff_forall_not_mem]
      intro id hid
      have hmem : id ∈ plan.flattened := mem_flatMap.2 ⟨.finalDns, by decide, hid⟩
      rw [hfl] at hmem
      cases hmem
    rw [hls] at hone
    cases hone
  have hrg : validateWorkflowPlan rt (archivedRegistry profile (names.zip found)) (plan.toJson rt) =
      validateWorkflowPlan rt catalog.registry (plan.toJson rt) := by
    unfold validateWorkflowPlan
    simp only [build_archived h haccepted]
  unfold archivedWorkflow
  simp only [hdc.engine, hpo, h.isFull, hcm, hlen, hdc.source, hdc.registry,
    hdc.workflow, h.mapM_idOf haccepted, h.nodup, h.components, hrg, require, bind_eq_bind,
    bind_some, decide_true, Bool.and_true, if_true]
  cases found.all isArchivedComponent <;> rfl

/-- What is asked of a plan built from a catalog: the phases list every component
once and after all it depends on, `validate_workflow_plan` accepts what is equal
to a built plan and nothing else, and the retained declarations are accepted. -/
structure IsSchedule (rt : Vnc.Runtime) (catalog : Catalog) (plan : Plan) : Prop where
  once : plan.flattened.Perm catalog.ids ∧ catalog.ids.Nodup
  ordered : ∀ before id after, plan.flattened = before ++ id :: after → ∀ d ∈ catalog.dependencies id, d ∈ before
  validated : ∀ workflow, hasDistinctKeys workflow = true →
    (validateWorkflowPlan rt catalog.registry workflow = some plan ↔
      item workflow "schema_version" = some (.int 1) ∧ pyEq rt workflow (plan.toJson rt) = true)
  built : ∀ workflow accepted, validateWorkflowPlan rt catalog.registry workflow = some accepted →
    pyEq rt workflow (accepted.toJson rt) = true ∧
      ∃ policy, buildWorkflowPlan rt catalog.registry policy = some accepted
  archived : ∀ payload, Declares rt catalog plan payload → archivedWorkflow rt payload = some plan

def payloadOf (rt : Vnc.Runtime) (plan : Plan) (profile : JVal) (found : List JVal) : JVal :=
  .obj [("engine_schema_version", .int 2), ("profile", profile), ("components", .arr found),
    ("source_sha256", .str (List.replicate 64 48)), ("catalog_sha256", .str (List.replicate 64 48)),
    ("workflow", plan.toJson rt)]

theorem declares_payloadOf (h : Built rt catalog plan profile names found) :
    Declares rt catalog plan (payloadOf rt plan profile found) := by
  constructor
  · rfl
  · rw [h.declared]
    rfl
  · refine ⟨_, found, ?_, h.ordered, rfl⟩
    rw [h.declared, bind_some, h.components]
  · rfl
  · rfl
  · rfl

theorem validate_toJson (hbi : buildWorkflowPlan rt catalog.registry policy = some plan)
    (hsr : policyServers policy = some plan.servers) :
    validateWorkflowPlan rt catalog.registry (plan.toJson rt) = some plan :=
  (validate_eq_some_iff hbi hsr hasDistinctKeys_toJson).2 ⟨rfl, pyEq_toJson⟩

theorem all_isArchivedComponent_iff_ids (h : Built rt catalog plan profile names found)
    (haccepted : catalog.Accepted roleFiles) :
    found.all isArchivedComponent = true ↔ ∀ id ∈ catalog.ids, id.length ≤ 128 := by
  rw [all_isArchivedComponent_iff h haccepted]
  simp only [(h.perm_ids haccepted).mem_iff]

theorem IsSchedule.length_le (hsc : IsSchedule rt catalog plan) {document : JVal}
    (hla : Catalog.load roleFiles document = some catalog)
    (hbi : buildWorkflowPlan rt catalog.registry policy = some plan) :
      ∀ id ∈ catalog.ids, id.length ≤ 128 := by
  have haccepted := accepted_of_load hla
  obtain ⟨-, profile, names, found, h⟩ := built_of_build haccepted hbi
  have har := hsc.archived _ (declares_payloadOf h)
  rw [archivedWorkflow_eq h haccepted (declares_payloadOf h)] at har
  split_ifs at har with hall
  exact (all_isArchivedComponent_iff_ids h haccepted).1 hall

/-- A plan that is built is a schedule of the catalog iff its ids fit in 128 characters. -/
theorem built_plan_isSchedule_iff {document policy : JVal}
    (hla : Catalog.load roleFiles document = some catalog)
    (hbi : buildWorkflowPlan rt catalog.registry policy = some plan) :
    IsSchedule rt catalog plan ↔ ∀ id ∈ catalog.ids, id.length ≤ 128 := by
  constructor
  · intro hsc
    exact hsc.length_le hla hbi
  · intro hlen
    have haccepted := accepted_of_load hla
    obtain ⟨hsr, profile, names, found, h⟩ := built_of_build haccepted hbi
    have hall := (all_isArchivedComponent_iff_ids h haccepted).2 hlen
    constructor
    · exact ⟨h.flattened_perm haccepted, Built.nodup_ids haccepted⟩
    · intro before id after heq
      exact (h.follows_flattened haccepted).mem_before heq
    · intro workflow hds
      exact validate_eq_some_iff hbi hsr hds
    · intro workflow accepted hvl
      exact build_of_validate hvl
    · intro payload hdc
      rw [archivedWorkflow_eq h haccepted hdc, if_pos hall]
      exact validate_toJson hbi hsr

def sampleComponent (id : Text) (home : Bool) (recipe : String) (dependencies : List Text) : JVal :=
  .obj [("id", .str id), ("version", .int 1), ("name", .str "n"),
    ("category", .str "system"), ("supported_os", .arr [.str "alt-kworkstation-11"]),
    ("dependencies", .arr (dependencies.map .str)),
    ("execution", .obj [("operation", .str "configure"), ("scope", .str "user"),
      ("requires_domain", .bool false), ("requires_user_home", .bool home),
      ("requires_reboot", .bool false), ("retry_policy", .str "guarded"), ("role", .str "r")]),
    ("preflight", .obj [("recipe", .str "system")]),
    ("verification", .obj [("recipe", .str (text recipe)), ("functional_verification_required", .bool false)])]

def sampleDocument (id : Text) : JVal :=
  .obj [("software_catalog", .obj [("a", .obj [("enabled", .bool true),
      ("source", .str "alt-repository"), ("executable", .str "/a"),
      ("packages", .arr [.str "a"])])]),
    ("setup_catalog", .obj [("schema_version", .int 1), ("version", .int 1),
      ("components", .arr [sampleComponent "vnc" false "vnc_policy" [],
        sampleComponent id true "krfb" ["vnc"], sampleComponent "dns" false "final_dns" [id]]),
      ("profiles", .arr [.obj [("id", .str fullProfile), ("version", .int 1), ("name", .str "n"),
        (text "components", .arr ([text "vnc", id, text "dns"].map .str)), (text "optional_components", .arr []),
        ("confirmation_policy", .str "sha256"), ("workflow", .str marker)]])])]

def sampleRuntime : Vnc.Runtime where
  sha256 data := (Sha256.hexdigest data).val
  floatEq := fun _ _ => false
  isFinite := fun _ => true

def samplePolicy : JVal := .obj [("servers", .arr [.str "192.0.2.53"])]

def sampleBuilt (document : JVal) : Option (Catalog × Plan) := do
  let catalog ← Catalog.load (fun _ => true) document
  return (catalog, ← buildWorkflowPlan sampleRuntime catalog.registry samplePolicy)

/-- An identifier that the catalog admits and the archive does not. -/
def longId : Text := List.replicate 129 97

theorem exists_of_sampleBuilt {document : JVal} {holds : Catalog → Bool}
    (h : (sampleBuilt document).any (fun built => holds built.1) = true) :
    ∃ catalog plan, Catalog.load (fun _ => true) document = some catalog ∧
      buildWorkflowPlan sampleRuntime catalog.registry samplePolicy = some plan ∧
        holds catalog = true := by
  obtain ⟨⟨catalog, plan⟩, hbi, hmem⟩ := (Option.any_eq_true _ _).1 h
  obtain ⟨catalog', hla, hbi⟩ := bind_eq_some_iff.1 hbi
  obtain ⟨plan', hbuild, heq⟩ := bind_eq_some_iff.1 hbi
  cases Option.some.inj heq
  exact ⟨catalog, plan, hla, hbuild, hmem⟩

/-- A catalog whose identifiers are short: the plan of it is one. -/
theorem sample_plan_isSchedule :
    ∃ catalog plan, Catalog.load (fun _ => true) (sampleDocument "desktop.krfb") = some catalog ∧
      buildWorkflowPlan sampleRuntime catalog.registry samplePolicy = some plan ∧
      IsSchedule sampleRuntime catalog plan := by
  obtain ⟨catalog, plan, hla, hbi, hlen⟩ := @exists_of_sampleBuilt (sampleDocument (text "desktop.krfb"))
    (fun catalog => catalog.ids.all fun id => id.length ≤ 128) (by decide +kernel)
  refine ⟨catalog, plan, hla, hbi, (built_plan_isSchedule_iff hla hbi).2 ?_⟩
  intro id hid
  exact of_decide_eq_true (all_eq_true.1 hlen id hid)

/-- An identifier of 129 letters is published and planned, but not retained. -/
theorem long_identifier_not_isSchedule :
    ∃ catalog plan, Catalog.load (fun _ => true) (sampleDocument longId) = some catalog ∧
      buildWorkflowPlan sampleRuntime catalog.registry samplePolicy = some plan ∧
      ¬ IsSchedule sampleRuntime catalog plan := by
  obtain ⟨catalog, plan, hla, hbi, hmem⟩ := @exists_of_sampleBuilt (sampleDocument longId)
    (fun catalog => longId ∈ catalog.ids) (by decide +kernel)
  refine ⟨catalog, plan, hla, hbi, ?_⟩
  intro hsc
  have hlen := hsc.length_le hla hbi longId (of_decide_eq_true hmem)
  unfold longId at hlen
  rw [length_replicate] at hlen
  omega

end WebOvpn.Workflow
