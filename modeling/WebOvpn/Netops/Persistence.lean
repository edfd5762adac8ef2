/-
The policy of a plan that was rolled back: it stays recorded, and the next
reconciliation adds its entries again.
-/
import WebOvpn.Netops.Recovery

namespace WebOvpn

open Op List

namespace Netops

open Text

variable {source key policyKey assetKey assetKey' : Text} {k : Point} {s t : Control} {plan : Plan}
  {points : List Point} {subject : Subject} {expected : List Text} {replies : PolicyReplies}

theorem isLowerHex_of_digest (digest : Sha256Hex) : ∀ c ∈ digest.val, c.isLowerHex = true := by
  have hdg : Text.fullmatch (List.replicate 64 CodePoint.isLowerHex) digest.val = true := digest.property
  intro c hc
  refine forall_of_fullmatch (q := fun c => c.isLowerHex = true) ?_ hdg c hc
  intro p hp c hc
  rw [eq_of_mem_replicate hp] at hc
  exact hc

theorem colon_not_mem_internetPolicyKey (subject : Subject) :
    (58 : CodePoint) ∉ internetPolicyKey subject := by
  unfold internetPolicyKey
  intro h
  rcases mem_append.1 h with h | h
  · revert h
    decide
  · have hhex := isLowerHex_of_digest _ 58 h
    revert hhex
    decide

theorem internetPolicyKey_ne_nil (subject : Subject) : internetPolicyKey subject ≠ [] := by
  unfold internetPolicyKey
  intro h
  have hpre := (append_eq_nil_iff.1 h).1
  revert hpre
  decide

variable {policyKey' : Text} {policy : Policy} {turn : Turn} {policies : List Policy}

/-- Comments of different policies are different. -/
theorem ownershipText_ne (hcl : (58 : CodePoint) ∉ policyKey)
    (hcl' : (58 : CodePoint) ∉ policyKey') (hne : policyKey ≠ policyKey') :
    ownershipText policyKey assetKey ≠ ownershipText policyKey' assetKey' := by
  intro h
  apply hne
  unfold ownershipText at h
  have hsep : text ":asset:" = 58 :: text "asset:" := by decide
  rw [append_assoc, append_assoc, append_assoc, append_assoc, append_cancel_left_eq,
    hsep, cons_append, cons_append] at h
  exact append_cons_left_inj hcl hcl' h

theorem addressesOf_filter {comment other : Text} (hne : comment ≠ other) (list : AddressList) :
    addressesOf comment (list.filter fun row => row.comment ≠ other) = addressesOf comment list := by
  unfold addressesOf managedEntries
  rw [filter_filter, filter_filter, filter_filter]
  congr 1
  apply filter_congr
  intro row _
  by_cases hrow : row.comment = comment
  · simp [hrow, hne]
  · simp [hrow]

theorem replaceEntries_points : Passes (replaceEntries source policyKey assetKey expected replies) s
      (fun k _ =>
        (∃ address ∈ sortedDifference expected (addressesOf (ownershipText policyKey assetKey) s.router),
          k = .denyAdded policyKey address) ∨ ∃ address, k = .denyRemoved policyKey address)
      fun _ _ => True := by
  have hmem : ∀ {operation addresses request},
      request ∈ policyRequests source policyKey assetKey operation addresses →
        request.address ∈ addresses := by
    intro operation addresses request h
    obtain ⟨address, hadd, rfl⟩ := mem_map.1 h
    exact hadd
  unfold replaceEntries
  cases hcm : ownershipComment policyKey assetKey with
  | error e => exact passes_pure trivial
  | ok comment =>
    rw [ownershipComment_eq_ok hcm]
    simp only
    split_ifs
    · exact passes_pure trivial
    apply passes_look_bind
    · intro e _
      trivial
    intro existing hex
    cases hex
    have hads : Passes (callRequests source (fun request => .denyAdded policyKey request.address)
        replies.adds (policyRequests source policyKey assetKey .ensure (sortedDifference expected
          (addressesOf (ownershipText policyKey assetKey) s.router)))) s _ _ :=
      callRequests_passes (P := fun _ => True) (fun _ _ _ _ _ _ _ _ => trivial) trivial
    apply (hads.mono _ fun _ _ h => h).bind
    · intro e d _
      trivial
    · intro added d _
      split_ifs
      · exact passes_pure trivial
      apply passes_look_bind
      · intro e _
        trivial
      intro verified _
      split_ifs
      · have hrem : Passes (callRequests source
            (fun request => .denyRemoved policyKey request.address) replies.removes
            (policyRequests source policyKey assetKey .remove (sortedDifference
              (addressesOf (ownershipText policyKey assetKey) s.router) expected))) d _ _ :=
          callRequests_passes (P := fun _ => True) (fun _ _ _ _ _ _ _ _ => trivial) trivial
        apply hrem.mono
        · rintro k d' ⟨⟨request, -, rfl⟩, -⟩
          exact .inr ⟨request.address, rfl⟩
        · intro _ _ _
          trivial
      · exact passes_pure trivial
    · rintro k d ⟨⟨request, hrq, rfl⟩, -⟩
      exact .inl ⟨request.address, hmem hrq, rfl⟩

def AddsNone (policyKey : Text) (k : Point) : Prop := ∀ address, k ≠ .denyAdded policyKey address

theorem otherTurn_passes (hcl : (58 : CodePoint) ∉ policyKey)
    (hcl' : (58 : CodePoint) ∉ policyKey') (hne : policyKey ≠ policyKey') :
    Passes (replaceEntries source policyKey' assetKey' expected replies) s
      (fun k _ => AddsNone policyKey k)
      fun _ d => ∀ assetKey, addressesOf (ownershipText policyKey assetKey) d.router =
        addressesOf (ownershipText policyKey assetKey) s.router := by
  apply (replaceEntries_points.and replaceEntries_passes).mono
  · rintro k d ⟨⟨_, -, rfl⟩ | ⟨_, rfl⟩, -⟩ address
    · intro h
      exact hne (Point.denyAdded.inj h).1.symm
    · nofun
  · rintro r d ⟨-, hsaf, -⟩ assetKey
    have hcm : ownershipText policyKey assetKey ≠ ownershipText policyKey' assetKey' :=
      ownershipText_ne hcl hcl' hne
    rw [← addressesOf_filter hcm d.router, hsaf.others, addressesOf_filter hcm]

theorem presentTurn_passes (hpr : expected ⊆ addressesOf (ownershipText policyKey assetKey) s.router) :
    Passes (replaceEntries source policyKey assetKey expected replies) s
      (fun k _ => AddsNone policyKey k) fun _ _ => True := by
  apply replaceEntries_points.mono
  · rintro k d (⟨address, hadd, rfl⟩ | ⟨_, rfl⟩) address'
    · obtain ⟨hms, hno⟩ := mem_sortedDifference.1 hadd
      exact absurd (hpr hms) hno
    · nofun
  · intro _ _ _
    trivial

/-- Nothing is to be added in the turn of a policy: its subject does not resolve
to addresses of the device, the device is locked or cannot be read, or every
address has its entry. -/
def Turn.Idle (source : Text) (list : AddressList) (policyKey : Text) (turn : Turn) : Prop :=
  match turn.resolution with
  | .resolved assetKey targets =>
    (targets.map Target.source).dedup ≠ [source] ∨ turn.granted = false ∨ turn.replies.firstListing ≠ .fine ∨
      targets.map Target.address ⊆ addressesOf (ownershipText policyKey assetKey) list
  | _ => True

theorem idleTurn_passes (hidle : policy.desired = .deny → turn.Idle source s.router policyKey) :
    Passes (reconcilePolicy source policy policyKey turn.resolution turn.granted turn.replies) s
      (fun k _ => AddsNone policyKey k) fun _ _ => True := by
  unfold reconcilePolicy
  split_ifs with hds
  · exact passes_pure trivial
  have htr := hidle (not_not.1 hds)
  unfold Turn.Idle at htr
  cases hrs : turn.resolution with
  | raises => exact passes_raise trivial
  | stale => exact passes_pure trivial
  | resolved assetKey targets =>
    rw [hrs] at htr
    simp only at htr ⊢
    split
    · rename_i device hdv
      apply passes_lift_bind
      · intro e _
        trivial
      intro _ hgra
      split_ifs with hsrc
      · exact passes_pure trivial
      rw [not_not] at hsrc
      rw [hdv, hsrc] at htr
      have hrp : Passes (replaceEntries source policyKey assetKey (targets.map Target.address)
          turn.replies) s (fun k _ => AddsNone policyKey k) fun _ _ => True := by
        rcases htr with hot | hlc | hls | hpr
        · exact absurd rfl hot
        · rw [hlc] at hgra
          cases hgra
        · unfold replaceEntries
          cases ownershipComment policyKey assetKey with
          | error e => exact passes_pure trivial
          | ok comment =>
            simp only
            rw [if_pos hls]
            exact passes_pure trivial
        · exact presentTurn_passes hpr
      apply hrp.bind
      · intro e d _
        trivial
      · intro replaced d _
        exact passes_pure trivial
    · exact passes_pure trivial

theorem otherPolicy_passes (hcl : (58 : CodePoint) ∉ policyKey) (hcl' : (58 : CodePoint) ∉ policyKey')
    (hne : policyKey ≠ policyKey') :
    Passes (reconcilePolicy source policy policyKey' turn.resolution turn.granted turn.replies) s
      (fun k _ => AddsNone policyKey k)
      fun _ d => ∀ assetKey, addressesOf (ownershipText policyKey assetKey) d.router =
        addressesOf (ownershipText policyKey assetKey) s.router := by
  unfold reconcilePolicy
  split_ifs
  · exact passes_pure fun _ => rfl
  cases turn.resolution with
  | raises => exact passes_raise fun _ => rfl
  | stale => exact passes_pure fun _ => rfl
  | resolved assetKey targets =>
    simp only
    split
    · apply passes_lift_bind
      · intro e _ _
        rfl
      intro _ _
      split_ifs
      · exact passes_pure fun _ => rfl
      apply (otherTurn_passes hcl hcl' hne).bind
      · intro e d hd
        exact hd
      · intro replaced d hd
        exact passes_pure hd
    · exact passes_pure fun _ => rfl

theorem Turn.Idle.of_addressesOf {list list' : AddressList}
    (h : ∀ assetKey, addressesOf (ownershipText policyKey assetKey) list' =
      addressesOf (ownershipText policyKey assetKey) list)
    (hidle : turn.Idle source list policyKey) : turn.Idle source list' policyKey := by
  unfold Turn.Idle at hidle ⊢
  cases hrs : turn.resolution with
  | resolved assetKey targets =>
    rw [hrs] at hidle
    simp only [h assetKey]
    exact hidle
  | _ => trivial

theorem reconcile_addsNone {limit : Nat} {turn : Nat → Turn} (hcl : (58 : CodePoint) ∉ policyKey)
    (hks : ∀ policy ∈ s.policies, (58 : CodePoint) ∉ policyKeyOf s policy)
    (hun : (s.policies.map (policyKeyOf s)).Nodup)
    (hidle : ∀ i policy, (s.policies.take limit)[i]? = some policy → policy.desired = .deny →
      policyKeyOf s policy = policyKey → (turn i).Idle source s.router policyKey) :
    Passes (reconcileDesiredPolicies source limit turn) s (fun k _ => AddsNone policyKey k)
      fun _ _ => True := by
  apply passes_lift_bind
  · intro e _
    trivial
  intro _ _
  apply passes_look_bind
  · intro e _
    trivial
  intro policies hpos
  rw [Except.ok.injEq] at hpos
  -- the turns still to come have different keys
  have hnd : (policies.zipIdx.map fun item => item.1.2).Nodup := by
    have hmap : (policies.zipIdx.map fun item : (Policy × Text) × Nat => item.1.2) =
        (s.policies.take limit).map (policyKeyOf s) := by
      change policies.zipIdx.map (Prod.snd ∘ Prod.fst) = _
      rw [← map_map, zipIdx_map_fst, ← hpos, map_map]
      rfl
    rw [hmap]
    exact hun.sublist ((take_sublist limit s.policies).map _)
  have hlo : Passes (forEach (fun item : (Policy × Text) × Nat =>
      reconcilePolicy source item.1.1 item.1.2 (turn item.2).resolution (turn item.2).granted
        (turn item.2).replies) policies.zipIdx) s (fun k _ => AddsNone policyKey k) _ :=
    Passes.forEach (I := fun rest _ d => (∃ done, policies.zipIdx = done ++ rest) ∧
      (policyKey ∈ rest.map (fun item => item.1.2) → ∀ assetKey,
        addressesOf (ownershipText policyKey assetKey) d.router =
          addressesOf (ownershipText policyKey assetKey) s.router))
      (E := fun _ _ => True) (fun item rest results d h => ?_) [] ⟨⟨[], rfl⟩, fun _ _ => rfl⟩
  · exact hlo.mono (fun _ _ h => h) fun _ _ _ => trivial
  obtain ⟨⟨done, hdn⟩, hsm⟩ := h
  obtain ⟨⟨policy, policyKey'⟩, i⟩ := item
  have hit : ((policy, policyKey'), i) ∈ policies.zipIdx := by
    rw [hdn]
    exact mem_append_right _ mem_cons_self
  rw [mk_mem_zipIdx_iff_getElem?, ← hpos, getElem?_map, Option.map_eq_some_iff] at hit
  obtain ⟨policy', hpl, heq⟩ := hit
  cases heq
  have hrs : ∃ done', policies.zipIdx = done' ++ rest := by
    refine ⟨done ++ [((policy, policyKeyOf s policy), i)], ?_⟩
    rw [hdn, append_assoc]
    rfl
  by_cases hkey : policyKeyOf s policy = policyKey
  · have hls : policyKey ∉ rest.map fun item => item.1.2 := by
      rw [hdn, map_append, map_cons] at hnd
      rw [← hkey]
      exact (nodup_cons.1 (nodup_append.1 hnd).2.1).1
    have htr : Passes (reconcilePolicy source policy (policyKeyOf s policy) (turn i).resolution
        (turn i).granted (turn i).replies) d (fun k _ => AddsNone (policyKeyOf s policy) k) _ :=
      idleTurn_passes fun hds => by
        rw [hkey]
        exact (hidle i policy hpl hds hkey).of_addressesOf (hsm (by rw [← hkey]; simp))
    rw [hkey] at htr ⊢
    apply htr.mono (fun _ _ h => h)
    intro r d' _
    cases r with
    | error e => trivial
    | ok verdict => exact ⟨hrs, fun hmem => absurd hmem hls⟩
  · have hmem : policy ∈ s.policies := mem_of_mem_take (mem_of_getElem? hpl)
    apply (otherPolicy_passes hcl (hks policy hmem) fun h => hkey h.symm).mono (fun _ _ h => h)
    intro r d' hd'
    cases r with
    | error e => trivial
    | ok verdict =>
      refine ⟨hrs, fun hmem assetKey => (hd' assetKey).trans (hsm ?_ assetKey)⟩
      exact mem_cons_of_mem _ hmem

theorem identity?_of_plan? (hpl : s.plan? key = some plan) : s.identity? key = some plan.identity := by
  unfold Control.identity?
  rw [hpl]
  rfl

/-- The policy of every plan is that of its subject, subjects have one policy
each, and every policy is that of its plan. -/
structure Rows (s : Control) : Prop where
  keys : ∀ key subject desired policyKey, s.identity? key = some (subject, desired, policyKey) →
    policyKey = internetPolicyKey subject
  subjects : (s.policies.map Policy.subject).Nodup
  sources : ∀ policy ∈ s.policies, ∃ policyKey,
    s.identity? policy.sourcePlan = some (policy.subject, policy.desired, policyKey)

theorem mem_of_mem_upsertPolicy {other : Policy}
    (h : other ∈ upsertPolicy policy policies) : other = policy ∨ other ∈ policies := by
  unfold upsertPolicy at h
  split_ifs at h
  · obtain ⟨row, hrow, heq⟩ := mem_map.1 h
    split_ifs at heq
    · exact .inl heq.symm
    · exact .inr (heq ▸ hrow)
  · rcases mem_append.1 h with h | h
    · exact .inr h
    · exact .inl (mem_singleton.1 h)

theorem nodup_upsertPolicy (h : (policies.map Policy.subject).Nodup) :
    ((upsertPolicy policy policies).map Policy.subject).Nodup := by
  unfold upsertPolicy
  split_ifs with hany
  · rw [map_map]
    have hsm : Policy.subject ∘ (fun other => if other.subject = policy.subject then policy else other) =
        Policy.subject := by
      funext other
      simp only [Function.comp_apply]
      split_ifs with heq
      · exact heq.symm
      · rfl
    rw [hsm]
    exact h
  · rw [map_append, map_singleton]
    apply Nodup.append h (nodup_singleton _)
    rw [disjoint_singleton]
    intro hmem
    obtain ⟨other, hot, hsub⟩ := mem_map.1 hmem
    apply hany
    exact any_eq_true.2 ⟨other, hot, by simpa using hsub⟩

theorem Rows.commit (h : Rows s) (hcm : Commit k s t) : Rows t := by
  refine ⟨?_, ?_, ?_⟩
  · intro key subject desired policyKey hide
    rcases hcm.identity? key with hsm | ⟨-, subject', desired', hnew⟩
    · exact h.keys key subject desired policyKey (hsm ▸ hide)
    · rw [hnew] at hide
      cases hide
      rfl
  · rcases hcm.policies with ⟨hpos, -⟩ | ⟨_, _, _, _, -, -, -, hpos⟩
    · rw [hpos]
      exact h.subjects
    · rw [hpos]
      exact nodup_upsertPolicy h.subjects
  · intro policy hpl
    have hold : policy ∈ s.policies → ∃ policyKey,
        t.identity? policy.sourcePlan = some (policy.subject, policy.desired, policyKey) := by
      intro hmem
      obtain ⟨policyKey, hide⟩ := h.sources policy hmem
      exact ⟨policyKey, hcm.identity?_kept hide⟩
    rcases hcm.policies with ⟨hpos, -⟩ | ⟨key, subject, desired, policyKey, -, -, hide, hpos⟩
    · exact hold (hpos ▸ hpl)
    · rw [hpos] at hpl
      rcases mem_of_mem_upsertPolicy hpl with rfl | hmem
      · exact ⟨policyKey, hcm.identity?_kept hide⟩
      · exact hold hmem

def LastRecorded (points : List Point) (s : Control) : Prop :=
  ∀ earlier later key subject desired policyKey, points = earlier ++ .policyRecorded key :: later →
    s.identity? key = some (subject, desired, policyKey) →
    (∀ key' subject' desired' policyKey', .policyRecorded key' ∈ later →
      s.identity? key' = some (subject', desired', policyKey') → subject' ≠ subject) →
    ⟨subject, desired, key⟩ ∈ s.policies

theorem lastRecorded_commit (hkp : RecordedKept points s) (h : LastRecorded points s)
    (hcm : Commit k s t) : LastRecorded (points ++ [k]) t := by
  intro earlier later key subject desired policyKey hpt hide hlt
  rcases eq_nil_or_concat later with rfl | ⟨later', last, rfl⟩
  · -- the policy is recorded by this write
    obtain ⟨-, hcos⟩ := append_inj' hpt rfl
    have hk := (List.cons.inj hcos).1
    rcases hcm.policies with ⟨-, hot⟩ |
      ⟨key', subject', desired', policyKey', hk', -, hide', hpos⟩
    · exact absurd hk (hot key)
    · rw [hk] at hk'
      cases hk'
      rw [hcm.identity?_kept hide'] at hide
      cases hide
      rw [hpos]
      exact mem_upsertPolicy _ _
  · rw [concat_eq_append, ← cons_append, ← append_assoc] at hpt
    obtain ⟨hbf, hls⟩ := append_inj' hpt rfl
    cases hls
    have hrc : Point.policyRecorded key ∈ points := by
      rw [hbf]
      exact mem_append_right _ mem_cons_self
    obtain ⟨subject', desired', policyKey', hide', -⟩ := hkp key hrc
    have hsm := hcm.identity?_kept hide'
    rw [hide] at hsm
    cases hsm
    have hst := h earlier later' key subject desired policyKey hbf hide' (by
      intro key' subject' desired' policyKey' hkey' hpl'
      exact hlt key' subject' desired' policyKey'
        (by rw [concat_eq_append]; exact mem_append_left _ hkey')
        (hcm.identity?_kept hpl'))
    rcases hcm.policies with ⟨hpos, -⟩ |
      ⟨key', subject', desired', policyKey', rfl, -, hide', hpos⟩
    · rw [hpos]
      exact hst
    · rw [hpos]
      apply mem_upsertPolicy_of_ne hst
      have hne := hlt key' subject' desired' policyKey'
        (by rw [concat_eq_append]; exact mem_append_right _ (mem_singleton_self _))
        (hcm.identity?_kept hide')
      exact fun h => hne h.symm

/-- What the law needs of the store and of the points passed. -/
structure PoliciesKept (points : List Point) (s : Control) : Prop where
  rows : Rows s
  recorded : RecordedKept points s
  last : LastRecorded points s

theorem policiesKept_run (source : Text) (router : AddressList) (attempts : List Attempt) :
    PoliciesKept (run (attempt source) (emptyJournal router) attempts).points
      (run (attempt source) (emptyJournal router) attempts).state := by
  apply run_commits (I := PoliciesKept)
  · refine ⟨⟨nofun, nodup_nil, nofun⟩, nofun, ?_⟩
    intro earlier later key _ _ _ hpt
    cases earlier <;> cases hpt
  · intro points k s t h hcm
    exact ⟨h.rows.commit hcm, recordedKept_commit h.recorded hcm,
      lastRecorded_commit h.recorded h.last hcm⟩

theorem Rows.policyKeyOf_eq (h : Rows s) (hpo : policy ∈ s.policies) :
    policyKeyOf s policy = internetPolicyKey policy.subject := by
  obtain ⟨policyKey, hide⟩ := h.sources policy hpo
  have hkey := h.keys _ _ _ _ hide
  unfold Control.identity? at hide
  unfold policyKeyOf
  cases hpl : s.plan? policy.sourcePlan with
  | none =>
    rw [hpl] at hide
    cases hide
  | some plan =>
    rw [hpl, Option.map_some, Option.some.injEq] at hide
    have hpoli : plan.policyKey = internetPolicyKey policy.subject :=
      (congrArg (fun identity => identity.2.2) hide).trans hkey
    simp only [hpoli]
    rw [if_neg (internetPolicyKey_ne_nil policy.subject)]

/-- A reconciliation adds nothing for the policies whose plan was rolled back,
and different subjects have different keys. -/
def Dispatch.SparesRolledBack (source : Text) (s : Control) : Dispatch → Prop
  | .reconcile limit turn =>
    (∀ policy ∈ s.policies, ∀ other ∈ s.policies,
      internetPolicyKey policy.subject = internetPolicyKey other.subject →
        policy.subject = other.subject) ∧
    ∀ i policy, (s.policies.take limit)[i]? = some policy → policy.desired = .deny →
      s.status? policy.sourcePlan = some .rolledBack →
        (turn i).Idle source s.router (policyKeyOf s policy)
  | _ => True

/-- In every run whose reconciliations spare the policies of plans that were
rolled back: once a verified plan is rolled back, and while no plan recorded
later is for its subject, no reconciliation adds an entry of its policy. -/
theorem rolledBack_stays_of_spared (source : Text) (router : AddressList) (attempts : List Attempt)
    (hspa : Along (attempt source) (fun j a => a.dispatch.SparesRolledBack source j.state)
      (emptyJournal router) attempts)
    (before after : List Attempt) (limit : Nat) (turn : Nat → Turn) (dies : Option Nat)
    (hatt : attempts = before ++ ⟨.reconcile limit turn, dies⟩ :: after) (key : Text) (plan : Plan)
    (hpa : (run (attempt source) (emptyJournal router) before).state.plan? key = some plan)
    (hst : plan.status = .rolledBack) (earlier later : List Point)
    (hpt : (run (attempt source) (emptyJournal router) before).points =
      earlier ++ .policyRecorded key :: later) (hlt : ∀ key' plan', .policyRecorded key' ∈ later →
      (run (attempt source) (emptyJournal router) before).state.plan? key' = some plan' →
        plan'.subject ≠ plan.subject) (address : Text) :
    .denyAdded plan.policyKey address ∉ (Attempt.passed source ⟨.reconcile limit turn, dies⟩
      (run (attempt source) (emptyJournal router) before).state).map Prod.fst := by
  subst hatt
  obtain ⟨hinj, hidle⟩ := hspa.middle
  have hkp := policiesKept_run source router before
  set j := run (attempt source) (emptyJournal router) before
  have hkey : plan.policyKey = internetPolicyKey plan.subject :=
    hkp.rows.keys _ _ _ _ (identity?_of_plan? hpa)
  have hrow : (⟨plan.subject, plan.desired, key⟩ : Policy) ∈ j.state.policies := by
    refine hkp.last earlier later key _ _ plan.policyKey hpt (identity?_of_plan? hpa) ?_
    intro key' subject' desired' policyKey' hkey' hide'
    unfold Control.identity? at hide'
    obtain ⟨plan', hpl', hsm⟩ := Option.map_eq_some_iff.1 hide'
    cases hsm
    exact hlt key' plan' hkey' hpl'
  have hrc : Passes (reconcileDesiredPolicies source limit turn) j.state
      (fun k _ => AddsNone plan.policyKey k) fun _ _ => True := by
    apply reconcile_addsNone
    · rw [hkey]
      exact colon_not_mem_internetPolicyKey plan.subject
    · intro policy hpl
      rw [hkp.rows.policyKeyOf_eq hpl]
      exact colon_not_mem_internetPolicyKey policy.subject
    · have hnd := hkp.rows.subjects
      have hone := (nodup_map_iff_inj_on (Nodup.of_map _ hnd)).1 hnd
      apply (nodup_map_iff_inj_on (Nodup.of_map _ hnd)).2
      intro policy hpl other hot hsm
      rw [hkp.rows.policyKeyOf_eq hpl, hkp.rows.policyKeyOf_eq hot] at hsm
      exact hone policy hpl other hot (hinj policy hpl other hot hsm)
    · intro i policy hpl hds hsm
      have hmem := mem_of_mem_take (mem_of_getElem? hpl)
      rw [hkp.rows.policyKeyOf_eq hmem, hkey] at hsm
      -- the policy is the one that the plan recorded
      have hsub := hinj policy hmem _ hrow hsm
      have heq : policy = ⟨plan.subject, plan.desired, key⟩ :=
        inj_on_of_nodup_map hkp.rows.subjects hmem hrow hsub
      have htr := hidle i policy hpl hds (by
        rw [heq, status?_of_plan? hpa, hst])
      rw [hkp.rows.policyKeyOf_eq hmem, hsm, ← hkey] at htr
      exact htr
  intro hadd
  obtain ⟨point, hmem, hpi⟩ := mem_map.1 hadd
  have hall : point ∈ (exec (dispatch source (.reconcile limit turn)) ⟨j.state, []⟩).2.points := by
    unfold Attempt.passed at hmem
    cases dies with
    | none => exact hmem
    | some n => exact mem_of_mem_take hmem
  have hdi : Passes (dispatch source (.reconcile limit turn)) j.state
      (fun k _ => AddsNone plan.policyKey k) fun _ _ => True := by
    apply hrc.bind
    · intro e d _
      trivial
    · intro _ d _
      exact passes_pure trivial
  obtain ⟨passed, hps, hnn, -⟩ := hdi []
  rw [hps, nil_append] at hall
  exact hnn _ hall address hpi

/-- The plan of the machine is verified and rolled back. -/
def undoneAttempts : List Attempt :=
  machineAttempts none ++
    [⟨.verify "p1" .fine, none⟩, ⟨.rollback "p1" true [] true, none⟩]

def reconcileWith (resolution : Resolution) : Attempt :=
  ⟨.reconcile 64 fun _ => ⟨resolution, true, fineReplies⟩, none⟩

theorem undoneAttempts_points :
    ∃ earlier, (run (attempt "r1") (emptyJournal []) undoneAttempts).points =
      earlier ++ .policyRecorded "p1" :: [.transitioned "p1" .rollingBack,
        .undone "p1", .stepMarked "p1", .transitioned "p1" .rolledBack] := by
  refine ⟨(run (attempt "r1") (emptyJournal []) undoneAttempts).points.take 10, ?_⟩
  decide +kernel

theorem undoneAttempts_spared :
    Along (attempt "r1") (fun j a => a.dispatch.SparesRolledBack "r1" j.state)
      (emptyJournal []) (undoneAttempts ++ [reconcileWith .stale]) := by
  refine ⟨trivial, trivial, trivial, trivial, trivial, ⟨?_, fun _ _ _ _ _ => trivial⟩, trivial⟩
  decide +kernel

/-- The machine is not blocked again while its identity is stale. -/
theorem rolledBack_stays_while_stale : .denyAdded (internetPolicyKey ⟨.asset, "pc"⟩) "10.0.0.5" ∉
      ((reconcileWith .stale).passed "r1"
        (run (attempt "r1") (emptyJournal []) undoneAttempts).state).map Prod.fst := by
  have hso : ((run (attempt "r1") (emptyJournal []) undoneAttempts).state.plan?
      "p1").map (fun plan => (plan.policyKey, plan.status)) =
        some (internetPolicyKey ⟨.asset, "pc"⟩, .rolledBack) := by decide +kernel
  obtain ⟨plan, hpl, hsm⟩ := Option.map_eq_some_iff.1 hso
  rw [Prod.mk.injEq] at hsm
  obtain ⟨earlier, hpt⟩ := undoneAttempts_points
  rw [← hsm.1]
  apply rolledBack_stays_of_spared "r1" [] (undoneAttempts ++ [reconcileWith .stale])
    undoneAttempts_spared undoneAttempts [] 64 _ none rfl "p1" plan hpl hsm.2 earlier _ hpt
  intro key' plan' hkey' _
  simp at hkey'

/-- The next reconciliation after the rollback blocks the machine again. -/
theorem reconcile_blocks_rolledBack :
    (run (attempt "r1") (emptyJournal []) undoneAttempts).state.status? "p1" =
        some .rolledBack ∧ (∃ earlier, (run (attempt "r1") (emptyJournal []) undoneAttempts).points =
        earlier ++ .policyRecorded "p1" :: [.transitioned "p1" .rollingBack,
          .undone "p1", .stepMarked "p1", .transitioned "p1" .rolledBack]) ∧
      .denyAdded (internetPolicyKey ⟨.asset, "pc"⟩) "10.0.0.5" ∈
        ((reconcileWith (.resolved "pc" [newTarget])).passed "r1"
          (run (attempt "r1") (emptyJournal []) undoneAttempts).state).map Prod.fst := by
  refine ⟨by decide +kernel, undoneAttempts_points, ?_⟩
  decide +kernel

end Netops

end WebOvpn
