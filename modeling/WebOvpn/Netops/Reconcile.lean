/-
Reconciling the deny policies with the router: the missing entries of a policy
are added, and only then its stale ones are removed.
-/
import Mathlib.Data.List.Dedup
import Mathlib.Data.List.Sort
import WebOvpn.Netops.StoredPlans

namespace WebOvpn

open Op List

namespace Netops

open Text

/-- What comes of resolving the subject of a policy: an exception other than
`ValueError`, a `ValueError`, or an asset with its targets. -/
inductive Resolution where
  | raises
  | stale
  | resolved (assetKey : Text) (targets : List Target)
  deriving DecidableEq

/-- How the calls of the adapter for one policy end. -/
structure PolicyReplies where
  firstListing : Reply
  adds : List Reply
  secondListing : Reply
  removes : List Reply

inductive Verdict where
  | skipped
  | stale
  | reconciled
  deriving DecidableEq

def addressesOf (comment : Text) (list : AddressList) : List Text :=
  ((managedEntries list).filter fun row => row.comment = comment).map Entry.address

def sortedDifference (first second : List Text) : List Text :=
  ((first.filter fun address => address ∉ second).dedup).mergeSort Text.le

def policyRequests (source policyKey assetKey : Text) (operation : Operation) (addresses : List Text) :
    List Request :=
  addresses.map fun address => ⟨operation, source, address, policyKey, assetKey⟩

section

variable (source : Text)

/-- The guarded block of `reconcile_desired_policies`; false when it raised. -/
def replaceEntries (policyKey assetKey : Text) (expected : List Text) (replies : PolicyReplies) :
    Action Bool := do
  match ownershipComment policyKey assetKey with
  | .error _ => return false
  | .ok comment =>
    if replies.firstListing ≠ .fine then return false
    else
      let existing ← look fun s => .ok (addressesOf comment s.router)
      let added ← callRequests source (fun request => .denyAdded policyKey request.address) replies.adds
        (policyRequests source policyKey assetKey .ensure (sortedDifference expected existing))
      if added = false ∨ replies.secondListing ≠ .fine then return false
      else
        let verified ← look fun s => .ok (addressesOf comment s.router)
        if ¬ expected ⊆ verified then return false
        else
          callRequests source (fun request => .denyRemoved policyKey request.address) replies.removes
            (policyRequests source policyKey assetKey .remove (sortedDifference existing expected))

/-- One turn of the loop of `reconcile_desired_policies`.  The targets are of
one device; a device other than the adapter's fails in its first call. -/
def reconcilePolicy (policy : Policy) (policyKey : Text) (resolution : Resolution) (granted : Bool)
    (replies : PolicyReplies) : Action Verdict :=
  if policy.desired ≠ .deny then return .skipped
  else
    match resolution with
    | .raises => raise .device
    | .stale => return .stale
    | .resolved assetKey targets =>
      match (targets.map Target.source).dedup with
      | [device] => do
          raiseIf (granted = false) .locked
          if device ≠ source then return .stale
          else
            let replaced ← replaceEntries source policyKey assetKey (targets.map Target.address) replies
            return if replaced then .reconciled else .stale
      | _ => return .stale

structure Turn where
  resolution : Resolution
  granted : Bool
  replies : PolicyReplies

def policyKeyOf (s : Control) (policy : Policy) : Text :=
  match s.plan? policy.sourcePlan with
  | none => policy.sourcePlan
  | some plan => if plan.policyKey = [] then plan.key else plan.policyKey

/-- `reconcile_desired_policies`: the first policies in turn, each with the key
that was read at the start. -/
def reconcileDesiredPolicies (limit : Nat) (turn : Nat → Turn) : Action (List Verdict) := do
  raiseIf (limit < 1 ∨ 256 < limit) .value
  let policies ← look fun s => .ok ((s.policies.take limit).map fun policy => (policy, policyKeyOf s policy))
  forEach (fun item : (Policy × Text) × Nat =>
      reconcilePolicy source item.1.1 item.1.2 (turn item.2).resolution (turn item.2).granted
        (turn item.2).replies) policies.zipIdx

end

variable {source policyKey assetKey address comment : Text} {expected : List Text}
  {list list' : AddressList} {replies : PolicyReplies}

def policyPrefix (policyKey : Text) : Text := text "web_ovpn:policy:" ++ policyKey ++ ":asset:"

def isEnabled (row : Entry) : Bool :=
  [text "false", text "no", text "0", []].contains row.disabled.lower

def isLive (policyKey : Text) (row : Entry) : Bool :=
  isEnabled row && (policyPrefix policyKey).isPrefixOf row.comment

theorem ownershipText_managed (policyKey assetKey : Text) :
    (text "web_ovpn:").isPrefixOf (ownershipText policyKey assetKey) = true := by
  rw [ isPrefixOf_iff_prefix]
  refine ⟨text "policy:" ++ policyKey ++ text ":asset:" ++ assetKey, ?_⟩
  have hsp : "web_ovpn:policy:" = text "web_ovpn:" ++ "policy:" := by decide
  unfold ownershipText
  rw [hsp]
  simp only [append_assoc]

theorem isLive_newEntry (policyKey assetKey address : Text) :
    isLive policyKey (newEntry address (ownershipText policyKey assetKey)) = true := by
  unfold isLive
  rw [Bool.and_eq_true]
  constructor
  · change [text "false", text "no", text "0", []].contains (text "false").lower = true
    decide
  · exact isPrefixOf_iff_prefix.2 (prefix_append _ _)

theorem mem_addressesOf : address ∈ addressesOf (ownershipText policyKey assetKey) list ↔
      ∃ row ∈ rowsAt address list, row.comment = ownershipText policyKey assetKey := by
  unfold addressesOf managedEntries
  simp only [mem_map, mem_filter, decide_eq_true_eq, mem_rowsAt]
  constructor
  · rintro ⟨row, ⟨⟨hrow, -⟩, hcm⟩, rfl⟩
    exact ⟨row, ⟨hrow, rfl⟩, hcm⟩
  · rintro ⟨row, ⟨hrow, rfl⟩, hcm⟩
    exact ⟨row, ⟨⟨hrow, hcm ▸ ownershipText_managed policyKey assetKey⟩, hcm⟩, rfl⟩

theorem mem_sortedDifference {first second : List Text} :
    address ∈ sortedDifference first second ↔ address ∈ first ∧ address ∉ second := by
  unfold sortedDifference
  rw [mem_mergeSort, mem_dedup, mem_filter, decide_eq_true_eq]

theorem count_sortedDifference {first second : List Text} :
    (sortedDifference first second).count address =
      if address ∈ first ∧ address ∉ second then 1 else 0 := by
  have hnd : (sortedDifference first second).Nodup := by
    unfold sortedDifference
    exact (mergeSort_perm _ _).nodup_iff.2 (nodup_dedup _)
  split_ifs with h
  · exact count_eq_one_of_mem hnd (mem_sortedDifference.2 h)
  · exact count_eq_zero.2 fun hmem => h (mem_sortedDifference.1 hmem)

/-- From `list` on, entries of others are as they were, and no entry is gone
unless every expected address has one of the policy. -/
structure Safe (comment : Text) (expected : List Text) (list list' : AddressList) : Prop where
  others : (list'.filter fun row => row.comment ≠ comment) = list.filter fun row => row.comment ≠ comment
  removal : list.Sublist list' ∨ expected ⊆ addressesOf comment list'

theorem Safe.refl (comment : Text) (expected : List Text) (list : AddressList) :
    Safe comment expected list list :=
  ⟨rfl, .inl (Sublist.refl _)⟩

variable {operation : Operation} {written : AddressList} {addresses : List Text} {s : Control}

theorem filter_perform (h : perform operation address comment list = .ok (some written)) :
    (written.filter fun row => row.comment ≠ comment) = list.filter fun row =>
      row.comment ≠ comment := by
  unfold perform at h
  split at h
  · cases h
    rw [filter_append]
    simp [newEntry]
  · split_ifs at h
    cases h
  · cases h
  · rename_i row hfn
    split_ifs at h with hcm
    cases h
    obtain ⟨hrow, before, after, rfl, hbf⟩ := find?_eq_some_iff_append.1 hfn
    have hera : ((before ++ row :: after).eraseP fun row => row.address = address) = before ++ after := by
      rw [eraseP_append_right]
      · rw [eraseP_cons, hrow]
        rfl
      · intro other hot
        have hne := hbf other hot
        simpa using hne
    rw [hera, filter_append, filter_append, filter_cons_of_neg (by simpa using hcm)]

theorem sublist_ensure
    (h : perform .ensure address comment list = .ok (some written)) : list.Sublist written := by
  unfold perform at h
  cases hfn : list.find? fun row => row.address = address with
  | none =>
    simp only [hfn] at h
    cases h
    exact sublist_append_left _ _
  | some row =>
    simp only [hfn] at h
    split_ifs at h
    cases h

theorem policyRequests_check {request : Request}
    (h : request ∈ policyRequests source policyKey assetKey operation addresses)
    (hch : checkRequest source request = .ok comment) :
    request.operation = operation ∧ request.address ∈ addresses ∧
      comment = ownershipText policyKey assetKey := by
  obtain ⟨address, hadd, rfl⟩ := mem_map.1 h
  exact ⟨rfl, hadd, checkRequest_eq_ok hch⟩

def turnedRows (comment : Text) (expected : List Text) (list : AddressList) (address : Text) :
    AddressList :=
  if address ∈ expected then
    if address ∈ addressesOf comment list then rowsAt address list else [newEntry address comment]
  else
    if address ∈ addressesOf comment list then (rowsAt address list).tail else rowsAt address list

theorem rowsAt_policyRequests {calls : List Reply}
    (h : (callAll source calls (policyRequests source policyKey assetKey operation addresses) list).1 =
      true) : (∀ address ∈ addresses, Owned (ownershipText policyKey assetKey) (rowsAt address list)) ∧
      ∀ address, rowsAt address
          (callAll source calls (policyRequests source policyKey assetKey operation addresses) list).2 =
        (performRows operation address (ownershipText policyKey assetKey))^[addresses.count address]
          (rowsAt address list) := by
  have hun : Uniform source operation (ownershipText policyKey assetKey)
      (policyRequests source policyKey assetKey operation addresses) := by
    intro request hrq
    obtain ⟨comment, hch⟩ := checkRequest_of_callAll h request hrq
    obtain ⟨hop, -, rfl⟩ := policyRequests_check hrq hch
    exact ⟨hop, hch⟩
  obtain ⟨hown, hrs⟩ := rowsAt_of_callAll hun h
  constructor
  · intro address hadd
    exact hown _ (mem_map.2 ⟨address, hadd, rfl⟩)
  · intro address
    have hmap : (policyRequests source policyKey assetKey operation addresses).map Request.address =
        addresses := by
      unfold policyRequests
      rw [map_map]
      exact map_id _
    have hadd := hrs address
    rw [hmap] at hadd
    exact hadd

theorem rowsAt_of_turn {adds removes : List Reply}
    (hads : (callAll source adds (policyRequests source policyKey assetKey .ensure
      (sortedDifference expected (addressesOf (ownershipText policyKey assetKey) list))) list).1 = true)
    (hls' : list' = (callAll source adds (policyRequests source policyKey assetKey .ensure
      (sortedDifference expected (addressesOf (ownershipText policyKey assetKey) list))) list).2)
    (hremo : (callAll source removes (policyRequests source policyKey assetKey .remove
      (sortedDifference (addressesOf (ownershipText policyKey assetKey) list) expected)) list').1 = true)
    (address : Text) :
    rowsAt address (callAll source removes (policyRequests source policyKey assetKey .remove
        (sortedDifference (addressesOf (ownershipText policyKey assetKey) list) expected)) list').2 =
      turnedRows (ownershipText policyKey assetKey) expected list address := by
  obtain ⟨hown, hadd⟩ := rowsAt_policyRequests hads
  obtain ⟨-, hrem⟩ := rowsAt_policyRequests hremo
  rw [hrem address, hls', hadd address, count_sortedDifference, count_sortedDifference]
  unfold turnedRows
  by_cases hep : address ∈ expected
  · rw [if_pos hep]
    by_cases hex : address ∈ addressesOf (ownershipText policyKey assetKey) list
    · rw [if_pos hex, if_neg (by simp [hep]), if_neg (by simp [hex])]
      rfl
    · rw [if_neg hex, if_neg (by simp [hep]), if_pos ⟨hep, hex⟩]
      -- a first row would be one of the policy, which has none at this address
      have hem : rowsAt address list = [] := by
        have hfs := hown address (mem_sortedDifference.2 ⟨hep, hex⟩)
        cases hrs : rowsAt address list with
        | nil => rfl
        | cons row rest =>
          rw [hrs] at hfs
          refine absurd (mem_addressesOf.2 ⟨row, ?_, hfs row rfl⟩) hex
          rw [hrs]
          exact mem_cons_self
      rw [hem]
      rfl
  · rw [if_neg hep]
    by_cases hex : address ∈ addressesOf (ownershipText policyKey assetKey) list
    · rw [if_pos hex, if_pos ⟨hex, hep⟩, if_neg (by simp [hep])]
      rfl
    · rw [if_neg hex, if_neg (by simp [hex]), if_neg (by simp [hep])]
      rfl

theorem addressesOf_remove (hadd : address ∉ expected)
    (h : perform .remove address comment list = .ok (some written))
    (hex : expected ⊆ addressesOf (ownershipText policyKey assetKey) list) :
    expected ⊆ addressesOf (ownershipText policyKey assetKey) written := by
  intro other hot
  have hne : other ≠ address := by
    rintro rfl
    exact hadd hot
  have hrs := rowsAt_perform h other
  rw [if_neg hne] at hrs
  rw [mem_addressesOf]
  change ∃ row ∈ rowsAt other ((some written).getD list), _
  rw [hrs, ← mem_addressesOf]
  exact hex hot

theorem additions_pass {point : Request → Point} {adds : List Reply} (addresses : List Text) :
    Passes (callRequests source point adds
      (policyRequests source policyKey assetKey .ensure addresses)) s
      (fun _ d => Safe (ownershipText policyKey assetKey) expected s.router d.router)
      (fun r d => r = .ok (callAll source adds
          (policyRequests source policyKey assetKey .ensure addresses) s.router).1 ∧
        Safe (ownershipText policyKey assetKey) expected s.router d.router ∧
        d = { s with router := (callAll source adds
          (policyRequests source policyKey assetKey .ensure addresses) s.router).2 }) := by
  have hcl : Passes (callRequests source point adds
      (policyRequests source policyKey assetKey .ensure addresses)) s _ _ :=
    callRequests_passes (P := fun list =>
      (list.filter fun row => row.comment ≠ ownershipText policyKey assetKey) =
          (s.router.filter fun row => row.comment ≠ ownershipText policyKey assetKey) ∧
        s.router.Sublist list) ?_ ⟨rfl, Sublist.refl _⟩
  · apply hcl.mono
    · rintro k d ⟨-, ⟨hot, hsub⟩, -⟩
      exact ⟨hot, .inl hsub⟩
    · rintro r d ⟨hr, ⟨hot, hsub⟩, hd⟩
      exact ⟨hr, ⟨hot, .inl hsub⟩, hd⟩
  · rintro request hrq list comment written hch ⟨hot, hsub⟩ hpr
    obtain ⟨hop, -, rfl⟩ := policyRequests_check hrq hch
    rw [hop] at hpr
    exact ⟨(filter_perform hpr).trans hot, hsub.trans (sublist_ensure hpr)⟩

theorem removals_pass {point : Request → Point} {removes : List Reply}
    (hadd : ∀ address ∈ addresses, address ∉ expected)
    (hsaf : Safe (ownershipText policyKey assetKey) expected list s.router)
    (hex : expected ⊆ addressesOf (ownershipText policyKey assetKey) s.router) :
    Passes (callRequests source point removes
      (policyRequests source policyKey assetKey .remove addresses)) s
      (fun _ d => Safe (ownershipText policyKey assetKey) expected list d.router)
      (fun r d => r = .ok (callAll source removes
          (policyRequests source policyKey assetKey .remove addresses) s.router).1 ∧
        Safe (ownershipText policyKey assetKey) expected list d.router ∧
        d = { s with router := (callAll source removes
          (policyRequests source policyKey assetKey .remove addresses) s.router).2 }) := by
  have hcl : Passes (callRequests source point removes
      (policyRequests source policyKey assetKey .remove addresses)) s _ _ :=
    callRequests_passes (P := fun list' =>
      (list'.filter fun row => row.comment ≠ ownershipText policyKey assetKey) =
          (list.filter fun row => row.comment ≠ ownershipText policyKey assetKey) ∧
        expected ⊆ addressesOf (ownershipText policyKey assetKey) list') ?_ ⟨hsaf.others, hex⟩
  · apply hcl.mono
    · rintro k d ⟨-, ⟨hot, hkp⟩, -⟩
      exact ⟨hot, .inr hkp⟩
    · rintro r d ⟨hr, ⟨hot, hkp⟩, hd⟩
      exact ⟨hr, ⟨hot, .inr hkp⟩, hd⟩
  · rintro request hrq list' comment written hch ⟨hot, hkp⟩ hpr
    obtain ⟨hop, haddr, rfl⟩ := policyRequests_check hrq hch
    rw [hop] at hpr
    exact ⟨(filter_perform hpr).trans hot, addressesOf_remove (hadd _ haddr) hpr hkp⟩

theorem ownershipComment_eq_ok (h : ownershipComment policyKey assetKey = .ok comment) :
    comment = ownershipText policyKey assetKey := by
  unfold ownershipComment at h
  split_ifs at h
  cases h
  rfl

theorem replaceEntries_passes : Passes (replaceEntries source policyKey assetKey expected replies) s
      (fun _ d => Safe (ownershipText policyKey assetKey) expected s.router d.router)
      (fun r d => Safe (ownershipText policyKey assetKey) expected s.router d.router ∧
        (r = .ok true → ∀ address, rowsAt address d.router =
          turnedRows (ownershipText policyKey assetKey) expected s.router address)) := by
  have hst : ∀ d : Control, Safe (ownershipText policyKey assetKey) expected s.router d.router →
      Passes (pure false : Action Bool) d
        (fun _ d => Safe (ownershipText policyKey assetKey) expected s.router d.router)
        (fun r d => Safe (ownershipText policyKey assetKey) expected s.router d.router ∧
          (r = .ok true → ∀ address, rowsAt address d.router =
            turnedRows (ownershipText policyKey assetKey) expected s.router address)) := by
    intro d hd
    apply passes_pure
    exact ⟨hd, nofun⟩
  have href := Safe.refl (ownershipText policyKey assetKey) expected s.router
  unfold replaceEntries
  cases hcm : ownershipComment policyKey assetKey with
  | error e => exact hst s href
  | ok comment =>
    rw [ownershipComment_eq_ok hcm]
    simp only
    split_ifs with hls
    · exact hst s href
    apply passes_look_bind
    · intro e he
      cases he
    intro existing hex
    simp only [Except.ok.injEq] at hex
    apply Passes.bind (additions_pass _)
    · rintro e d ⟨he, -⟩
      cases he
    rintro added d ⟨hadd, hsaf, hd⟩
    simp only [Except.ok.injEq] at hadd
    split_ifs with hfi
    · exact hst d hsaf
    apply passes_look_bind
    · intro e he
      cases he
    intro verified hvr
    simp only [Except.ok.injEq] at hvr
    by_cases hpr : expected ⊆ verified
    swap
    · rw [if_pos hpr]
      exact hst d hsaf
    rw [if_neg (not_not.2 hpr)]
    rw [← hvr] at hpr
    have hsa : ∀ address ∈ sortedDifference existing expected, address ∉ expected :=
      fun address haddr => (mem_sortedDifference.1 haddr).2
    apply (removals_pass hsa hsaf hpr).mono (fun _ _ h => h)
    rintro r d' ⟨hr, hsaf', rfl⟩
    refine ⟨hsaf', ?_⟩
    intro hdn address
    rw [hr, Except.ok.injEq] at hdn
    have hads : (callAll source replies.adds (policyRequests source policyKey assetKey .ensure
        (sortedDifference expected existing)) s.router).1 = true := by
      rw [← hadd]
      by_contra hfl
      exact hfi (.inl (Bool.eq_false_iff.2 hfl))
    rw [← hex] at hads hdn ⊢
    refine rowsAt_of_turn hads ?_ hdn address
    rw [hd, hex]

/-- The enabled entries that carry the key of the policy are those at the
expected addresses. -/
def Exact (policyKey : Text) (expected : List Text) (list : AddressList) : Prop :=
  ∀ address, (∃ row ∈ list, row.address = address ∧ isLive policyKey row = true) ↔ address ∈ expected

/-- What the list must be like for a successful turn to be exact: at an
expected address where the policy has an entry for the asset, one of the policy
is enabled; at any other address no enabled one is left when the first of the
entries for the asset is taken away. -/
structure Replaceable (policyKey assetKey : Text) (expected : List Text)
    (list : AddressList) : Prop where
  kept : ∀ address ∈ expected, address ∈ addressesOf (ownershipText policyKey assetKey) list →
    ∃ row ∈ rowsAt address list, isLive policyKey row = true
  removed : ∀ address, address ∉ expected → address ∈ addressesOf (ownershipText policyKey assetKey) list →
    ∀ row ∈ (rowsAt address list).tail, isLive policyKey row = false
  foreign : ∀ address, address ∉ expected → address ∉ addressesOf (ownershipText policyKey assetKey) list →
    ∀ row ∈ rowsAt address list, isLive policyKey row = false

theorem exact_iff_rowsAt : Exact policyKey expected list ↔
      ∀ address, (∃ row ∈ rowsAt address list, isLive policyKey row = true) ↔ address ∈ expected := by
  unfold Exact
  simp only [mem_rowsAt, and_assoc]

theorem exact_iff_replaceable (h : ∀ address, rowsAt address list' =
      turnedRows (ownershipText policyKey assetKey) expected list address) :
    Exact policyKey expected list' ↔ Replaceable policyKey assetKey expected list := by
  rw [exact_iff_rowsAt]
  constructor
  · intro hexact
    refine ⟨?_, ?_, ?_⟩
    · intro address hex hei
      have hlv := (hexact address).2 hex
      rw [h address, turnedRows, if_pos hex, if_pos hei] at hlv
      exact hlv
    · intro address hex hei row hrow
      rw [Bool.eq_false_iff]
      intro hlv
      apply hex
      apply (hexact address).1
      rw [h address, turnedRows, if_neg hex, if_pos hei]
      exact ⟨row, hrow, hlv⟩
    · intro address hex hei row hrow
      rw [Bool.eq_false_iff]
      intro hlv
      apply hex
      apply (hexact address).1
      rw [h address, turnedRows, if_neg hex, if_neg hei]
      exact ⟨row, hrow, hlv⟩
  · intro hrp address
    rw [h address, turnedRows]
    by_cases hex : address ∈ expected
    · rw [if_pos hex]
      refine ⟨fun _ => hex, fun _ => ?_⟩
      split_ifs with hei
      · exact hrp.kept address hex hei
      · exact ⟨_, mem_singleton_self _, isLive_newEntry policyKey assetKey address⟩
    · rw [if_neg hex]
      refine ⟨?_, fun hmem => absurd hmem hex⟩
      rintro ⟨row, hrow, hlv⟩
      split_ifs at hrow with hei
      · rw [hrp.removed address hex hei row hrow] at hlv
        cases hlv
      · rw [hrp.foreign address hex hei row hrow] at hlv
        cases hlv

/-- The turn of one policy whose subject resolves to an asset and its targets:
wherever it is interrupted, entries of others are as they were and nothing is
removed before every expected address has its entry; and when the policy counts
as reconciled, its enabled entries are those at the expected addresses exactly
when the list was replaceable. -/
theorem reconcilePolicy_exact_iff (source policyKey assetKey : Text) (policy : Policy)
    (targets : List Target) (granted : Bool) (replies : PolicyReplies) (s : Control) :
    (∀ k d, (k, d) ∈ interruptions (reconcilePolicy source policy policyKey
        (.resolved assetKey targets) granted replies) s →
      Safe (ownershipText policyKey assetKey) (targets.map Target.address) s.router d.router) ∧
    ((finish (reconcilePolicy source policy policyKey (.resolved assetKey targets) granted replies)
        s).1 = .ok .reconciled →
      (Exact policyKey (targets.map Target.address) (finish (reconcilePolicy source policy policyKey
          (.resolved assetKey targets) granted replies) s).2.router ↔
        Replaceable policyKey assetKey (targets.map Target.address) s.router)) := by
  have href := Safe.refl (ownershipText policyKey assetKey) (targets.map Target.address) s.router
  have hps : Passes (reconcilePolicy source policy policyKey (.resolved assetKey targets) granted
      replies) s
      (fun _ d => Safe (ownershipText policyKey assetKey) (targets.map Target.address) s.router d.router)
      (fun r d => r = .ok .reconciled → ∀ address, rowsAt address d.router =
        turnedRows (ownershipText policyKey assetKey) (targets.map Target.address) s.router address) := by
    unfold reconcilePolicy
    split_ifs with hds
    · exact passes_pure nofun
    simp only
    split
    · rename_i device hdv
      apply passes_lift_bind
      · intro e _ hr
        cases hr
      intro _ _
      split_ifs with hsrc
      · exact passes_pure nofun
      apply Passes.bind replaceEntries_passes
      · intro e d _ hr
        cases hr
      rintro replaced d ⟨-, hrs⟩
      apply passes_pure
      intro hr
      cases replaced with
      | false => cases hr
      | true => exact hrs rfl
    · exact passes_pure nofun
  constructor
  · intro k d hcut
    rcases hps.interruptions hcut with ⟨-, rfl⟩ | ⟨_, -, hsaf⟩
    · exact href
    · exact hsaf
  · intro hrc
    exact exact_iff_replaceable (hps.finish hrc)

def userPolicy : Policy := ⟨⟨.user, "ann"⟩, .deny, "p1"⟩

def newTarget : Target := ⟨"r1", "10.0.0.5", "hq"⟩

def fineReplies : PolicyReplies := ⟨.fine, [], .fine, []⟩

def oldEntryOf (assetKey : Text) : Control :=
  ⟨[newEntry "10.0.0.4" (ownershipText "k1" assetKey)], [], []⟩

/-- The turn of the policy, which resolves to the asset `pc`. -/
def userTurn : Action Verdict :=
  reconcilePolicy "r1" userPolicy "k1" (.resolved "pc" [newTarget]) true fineReplies

/-- The entry of the old address is removed, that of the new one is there. -/
theorem userTurn_exact :
    Exact (text "k1") [text "10.0.0.5"] (finish userTurn (oldEntryOf (text "pc"))).2.router := by
  have hls : addressesOf (ownershipText (text "k1") (text "pc")) (oldEntryOf (text "pc")).router =
      [text "10.0.0.4"] := by decide
  apply ((reconcilePolicy_exact_iff (text "r1") (text "k1") (text "pc") userPolicy [newTarget] true
    fineReplies (oldEntryOf (text "pc"))).2 (by decide +kernel)).2
  refine ⟨?_, ?_, ?_⟩
  · intro address hep hex
    rw [hls, mem_singleton] at hex
    change address ∈ [text "10.0.0.5"] at hep
    rw [mem_singleton, hex] at hep
    have hne : text "10.0.0.4" ≠ text "10.0.0.5" := by decide
    exact absurd hep hne
  · intro address _ hex row hrow
    rw [hls, mem_singleton] at hex
    subst hex
    change row ∈ (rowsAt (text "10.0.0.4") [_]).tail at hrow
    simp [rowsAt, newEntry] at hrow
  · intro address _ hex row hrow
    rw [hls, mem_singleton] at hex
    obtain ⟨hmem, hadd⟩ := mem_rowsAt.1 hrow
    change row ∈ [newEntry (text "10.0.0.4") _] at hmem
    rw [mem_singleton] at hmem
    subst hmem
    exact absurd hadd.symm hex

/-- The user has moved from one asset to another: the policy is counted as
reconciled, and the address of the old asset stays blocked. -/
theorem userTurn_keeps_old_asset : (finish userTurn (oldEntryOf "old")).1 = .ok .reconciled ∧
      ¬ Exact "k1" ["10.0.0.5"] (finish userTurn (oldEntryOf "old")).2.router := by
  refine ⟨by decide +kernel, ?_⟩
  intro hexact
  have hlv : ∃ row ∈ (finish userTurn (oldEntryOf "old")).2.router,
      row.address = "10.0.0.4" ∧ isLive "k1" row = true := by
    refine ⟨newEntry "10.0.0.4" (ownershipText "k1" "old"), ?_, rfl, ?_⟩
    · apply elem_iff.1
      decide +kernel
    · exact isLive_newEntry "k1" "old" "10.0.0.4"
  have hex := (hexact "10.0.0.4").1 hlv
  revert hex
  decide

end Netops

end WebOvpn
