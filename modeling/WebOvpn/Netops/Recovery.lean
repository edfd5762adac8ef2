/-
What a run of the control service can be recovered from: a crash may leave a
plan that is written to the router and cannot be rolled back, or a verified
plan without its policy.
-/
import WebOvpn.Netops.Commits

namespace WebOvpn

open Op List

namespace Netops

open Text

variable {source key : Text} {k : Point} {s t : Control} {plan : Plan} {old target : PlanStatus}
  {points : List Point} {j : Journal}

/-- The started statuses in which `rollback_plan` accepts a plan. -/
def isSettled (status : PlanStatus) : Bool :=
  [.applied, .verified, .failed, .rolledBack].contains status

theorem isSettled_next (hold : isSettled old = true) (htg : target ∈ planTransitions old)
    (hcn : target ≠ .cancelled) (hrl : target ≠ .rollingBack) : isSettled target = true := by
  have hall : ∀ target ∈ planTransitions old, target ≠ .cancelled → target ≠ .rollingBack →
      isSettled target = true := by
    revert hold
    cases old <;> decide
  exact hall target htg hcn hrl

/-- The row of the plan's subject is that of the plan, or of one recorded later. -/
def RecordedIn (points : List Point) (s : Control) (key : Text) : Prop :=
  ∃ subject desired policyKey, s.identity? key = some (subject, desired, policyKey) ∧
    ∃ policy ∈ s.policies, policy.subject = subject ∧
      (∃ policyKey', s.identity? policy.sourcePlan = some (subject, policy.desired, policyKey')) ∧
      (policy.sourcePlan = key ∨ [.policyRecorded key, .policyRecorded policy.sourcePlan] <+ points)

def RecordedKept (points : List Point) (s : Control) : Prop :=
  ∀ key, .policyRecorded key ∈ points → RecordedIn points s key

theorem mem_upsertPolicy (policy : Policy) (policies : List Policy) :
    policy ∈ upsertPolicy policy policies := by
  unfold upsertPolicy
  split_ifs with hany
  · obtain ⟨other, hot, hsub⟩ := any_eq_true.1 hany
    refine mem_map.2 ⟨other, hot, ?_⟩
    rw [if_pos (by simpa using hsub)]
  · exact mem_append_right _ (mem_singleton_self _)

theorem mem_upsertPolicy_of_ne {policy other : Policy} {policies : List Policy} (h : other ∈ policies)
    (hne : other.subject ≠ policy.subject) : other ∈ upsertPolicy policy policies := by
  unfold upsertPolicy
  split_ifs
  · refine mem_map.2 ⟨other, h, ?_⟩
    rw [if_neg hne]
  · exact mem_append_left _ h

theorem Commit.identity?_kept (h : Commit k s t) {identity : Subject × Desired × Text}
    (hide : s.identity? key = some identity) : t.identity? key = some identity := by
  rcases h.identity? key with hsm | ⟨hnn, -⟩
  · exact hsm.trans hide
  · rw [hnn] at hide
    cases hide

theorem recordedKept_commit (h : RecordedKept points s) (hcm : Commit k s t) :
    RecordedKept (points ++ [k]) t := by
  intro key hkey
  -- a row that stays is still that of the same recording
  have hst (hin : .policyRecorded key ∈ points)
      (hpos : ∀ policy ∈ s.policies, ∀ desired policyKey,
        s.identity? key = some (policy.subject, desired, policyKey) → policy ∈ t.policies ∨
          ∃ recorded desired' policyKey', k = .policyRecorded recorded ∧
            s.identity? recorded = some (policy.subject, desired', policyKey') ∧
            ⟨policy.subject, desired', recorded⟩ ∈ t.policies) :
      RecordedIn (points ++ [k]) t key := by
    obtain ⟨_, desired, policyKey, hide, policy, hpl, rfl, ⟨policyKey', hsrc⟩, hlt⟩ := h key hin
    refine ⟨_, desired, policyKey, hcm.identity?_kept hide, ?_⟩
    rcases hpos policy hpl desired policyKey hide with
      hmem | ⟨recorded, desired', policyKey'', rfl, hrc, hmem⟩
    · refine ⟨policy, hmem, rfl, ⟨policyKey', hcm.identity?_kept hsrc⟩, hlt.imp_right fun h => ?_⟩
      exact h.trans (sublist_append_left _ _)
    · refine ⟨_, hmem, rfl, ⟨policyKey'', hcm.identity?_kept hrc⟩, .inr ?_⟩
      exact (singleton_sublist.2 hin).append (.refl [Point.policyRecorded recorded])
  rcases hcm.policies with ⟨hpos, hot⟩ |
    ⟨recorded, subject', desired', policyKey', rfl, -, hrc, hpos⟩
  · rcases mem_append.1 hkey with hkey | hkey
    · exact hst hkey fun policy hpl _ _ _ => .inl (hpos ▸ hpl)
    · exact absurd (mem_singleton.1 hkey).symm (hot key)
  · rcases mem_append.1 hkey with hkey | hkey
    · refine hst hkey fun policy hpl _ _ _ => ?_
      rw [hpos]
      by_cases hsub : policy.subject = subject'
      · subst hsub
        exact .inr ⟨recorded, desired', policyKey', rfl, hrc, mem_upsertPolicy _ _⟩
      · exact .inl (mem_upsertPolicy_of_ne hpl hsub)
    · have hsm := Point.policyRecorded.inj (mem_singleton.1 hkey)
      subst hsm
      have hide := hcm.identity?_kept hrc
      exact ⟨subject', desired', policyKey', hide, _, hpos ▸ mem_upsertPolicy _ _, rfl,
        ⟨policyKey', hide⟩, .inl rfl⟩

/-- The process does not die in the middle: not between the first write of an
application and the transition that ends it, not in the rollback of a plan that
was written, and not between a verification and the record of its policy. -/
def Undisturbed (points passed : List Point) : Dispatch → Prop
  | .apply key _ _ _ => .applied key ∈ passed →
      ∀ k ∈ passed.getLast?, k ∉ [.transitioned key .applying, .applied key, .stepMarked key]
  | .rollback key _ _ _ => .applied key ∈ points →
      ∀ k ∈ passed.getLast?, k ∉ [.transitioned key .rollingBack, .undone key, .stepMarked key]
  | .verify key _ => ∀ k ∈ passed.getLast?, k ≠ .transitioned key .verified
  | _ => True

def Attempt.Undisturbed (source : Text) (j : Journal) (a : Attempt) : Prop :=
  Netops.Undisturbed j.points ((a.passed source j.state).map Prod.fst) a.dispatch

/-- What holds between undisturbed attempts: what was written can be rolled
back, and verified plans are recorded. -/
structure Recoverable (j : Journal) : Prop where
  settled : ∀ key, .applied key ∈ j.points →
    ∃ status, j.state.status? key = some status ∧ isSettled status = true
  recorded : ∀ key, j.state.status? key = some .verified → .policyRecorded key ∈ j.points

variable {E : Point → Prop} {passed : List (Point × Control)} {d : Dispatch}

section

variable (htrail : Trail (Step E) s passed t)
include htrail

/-- Writes of anything but a rollback keep a plan settled. -/
theorem settled_trail (hE : ¬ E (.transitioned key .rollingBack))
    (hs : ∃ status, s.status? key = some status ∧ isSettled status = true) :
    ∃ status, t.status? key = some status ∧ isSettled status = true := by
  apply htrail.invariant (I := fun s => ∃ status, s.status? key = some status ∧ isSettled status = true) hs
  rintro k s t ⟨status, hst, hset⟩ ⟨hcm, hk⟩
  rcases hcm.status? key with hsm | ⟨-, hnn, -⟩ |
    ⟨old, target, rfl, hold, htg, hcn, haf⟩
  · exact ⟨status, hsm.trans hst, hset⟩
  · rw [hnn] at hst
    cases hst
  · rw [hold, Option.some.injEq] at hst
    subst hst
    refine ⟨target, haf, isSettled_next hset htg hcn ?_⟩
    rintro rfl
    exact hE hk

theorem Trail.points_pass : ∀ k ∈ passed.map Prod.fst, E k := by
  induction htrail with
  | nil => nofun
  | cons hst _ ih =>
    intro k hk
    rcases mem_cons.1 hk with rfl | hk
    · exact hst.2
    · exact ih k hk

theorem status_of_last (hls : (passed.map Prod.fst).getLast? = some (.transitioned key target)) :
    t.status? key = some target := by
  obtain ⟨u, hcm, -⟩ := htrail.last hls
  exact hcm.status_after

end

theorem Dispatch.of_passes (key : Text) :
    (d.Passes (.applied key) → ∃ granted preflight replies, d = .apply key granted preflight replies) ∧
    (d.Passes (.transitioned key .rollingBack) →
      ∃ granted replies probed, d = .rollback key granted replies probed) ∧
    (d.Passes (.transitioned key .verified) → ∃ finding, d = .verify key finding) := by
  cases d with
  | create input => exact ⟨nofun, nofun, nofun⟩
  | apply key' granted preflight replies =>
    refine ⟨fun h => ⟨granted, preflight, replies, ?_⟩, ?_, ?_⟩
    · simp only [Dispatch.Passes, mem_cons, reduceCtorEq, Point.applied.injEq, not_mem_nil,
        or_false, false_or] at h
      rw [h]
    · simp [Dispatch.Passes]
    · simp [Dispatch.Passes]
  | verify key' finding =>
    refine ⟨by simp [Dispatch.Passes], by simp [Dispatch.Passes], fun h => ⟨finding, ?_⟩⟩
    simp only [Dispatch.Passes, mem_cons, reduceCtorEq, Point.transitioned.injEq, and_false, and_true,
      not_mem_nil, or_false, false_or] at h
    rw [h]
  | rollback key' granted replies probed =>
    refine ⟨by simp [Dispatch.Passes], fun h => ⟨granted, replies, probed, ?_⟩, by simp [Dispatch.Passes]⟩
    simp only [Dispatch.Passes, mem_cons, reduceCtorEq, Point.transitioned.injEq, and_false, and_true,
      not_mem_nil, or_false] at h
    rw [h]
  | _ => simp [Dispatch.Passes]

theorem settled_attempt (hj : Recoverable j) (a : Attempt) (ha : a.Undisturbed source j) (key : Text)
    (hkey : .applied key ∈ (attempt source j a).points) :
    ∃ status, (attempt source j a).state.status? key = some status ∧ isSettled status = true := by
  have htrail := @Attempt.passed_trail source a j.state
  have hps := Trail.points_pass htrail
  obtain ⟨hap, hrolls, -⟩ := Dispatch.of_passes (d := a.dispatch) key
  unfold Attempt.Undisturbed at ha
  by_cases hwr : .applied key ∈ (a.passed source j.state).map Prod.fst
  · -- the application has reached the transition that ends it
    obtain ⟨granted, preflight, replies, hd⟩ := hap (hps _ hwr)
    rw [hd] at ha hps
    obtain ⟨k, hls⟩ := getLast?_isSome.2 (ne_nil_of_mem hwr) |> Option.isSome_iff_exists.1
    have hmid := ha hwr k hls
    have hk := hps k (mem_of_getLast? hls)
    simp only [Dispatch.Passes, mem_cons, not_mem_nil, or_false] at hk hmid
    obtain rfl | rfl : k = .transitioned key .failed ∨ k = .transitioned key .applied := by tauto
    · exact ⟨_, status_of_last htrail hls, rfl⟩
    · exact ⟨_, status_of_last htrail hls, rfl⟩
  · have hbf : .applied key ∈ j.points := by
      rcases mem_append.1 hkey with h | h
      · exact h
      · exact absurd h hwr
    by_cases hrl : a.dispatch.Passes (.transitioned key .rollingBack)
    · obtain ⟨granted, replies, probed, hd⟩ := hrolls hrl
      rw [hd] at ha hps
      cases hls : ((a.passed source j.state).map Prod.fst).getLast? with
      | none =>
        have hnil := map_eq_nil_iff.1 (getLast?_eq_none_iff.1 hls)
        change ∃ status, (stateAfter j.state (a.passed source j.state)).status? key = some status ∧ _
        rw [hnil]
        exact hj.settled key hbf
      | some k =>
        have hmid := ha hbf k hls
        have hk := hps k (mem_of_getLast? hls)
        simp only [Dispatch.Passes, mem_cons, not_mem_nil, or_false] at hk hmid
        obtain rfl | rfl : k = .transitioned key .rolledBack ∨ k = .transitioned key .failed := by tauto
        · exact ⟨_, status_of_last htrail hls, rfl⟩
        · exact ⟨_, status_of_last htrail hls, rfl⟩
    · exact settled_trail htrail hrl (hj.settled key hbf)

theorem Dispatch.passes_of_verified (h : d.Passes (.transitioned key .verified)) (hk : d.Passes k) :
    k ∈ [.stepMarked key, .transitioned key .failed, .transitioned key .verified,
      .policyRecorded key] := by
  obtain ⟨finding, rfl⟩ := (Dispatch.of_passes key).2.2 h
  exact hk

theorem recorded_trail (htrail : Trail (Step d.Passes) s passed t)
    (hs : s.status? key = some .verified → .policyRecorded key ∈ points)
    (hvr : t.status? key = some .verified) : .policyRecorded key ∈ points ++ passed.map Prod.fst ∨
      (passed.map Prod.fst).getLast? = some (.transitioned key .verified) ∧
        d.Passes (.transitioned key .verified) := by
  have hke := @Trail.keeps _ _ _ _ _ _ (fun before s => s.status? key = some .verified →
    .policyRecorded key ∈ points ++ before ∨ before.getLast? = some (.transitioned key .verified) ∧
        d.Passes (.transitioned key .verified)) [] htrail
  refine hke ?_ ?_ hvr
  · intro hstart
    rw [append_nil]
    exact .inl (hs hstart)
  rintro before k s t hbf ⟨hcm, hk⟩ haf
  rw [getLast?_concat, ← append_assoc]
  rcases hcm.status? key with hsm | ⟨-, -, hdr⟩ | ⟨old, target, rfl, -, -, -, htg⟩
  · rw [hsm] at haf
    rcases hbf haf with hrc | ⟨-, hps⟩
    · exact .inl (mem_append_left _ hrc)
    -- the next point of the verification records the policy
    have hnx := Dispatch.passes_of_verified hps hk
    simp only [mem_cons, not_mem_nil, or_false] at hnx
    rcases hnx with rfl | rfl | rfl | rfl
    · obtain ⟨old, hold, hst⟩ := (hcm.status_before key).2.2.2 rfl
      rw [haf, Option.some.injEq] at hst
      subst hst
      have hnot : PlanStatus.verified ∉ [PlanStatus.applying, .applied, .rollingBack] := by decide
      exact absurd hold hnot
    · rw [← hsm, hcm.status_after] at haf
      cases haf
    · exact .inr ⟨rfl, hps⟩
    · exact .inl (mem_append_right _ (mem_singleton_self _))
  · rw [hdr] at haf
    cases haf
  · rw [htg, Option.some.injEq] at haf
    subst haf
    exact .inr ⟨rfl, hk⟩

theorem recoverable_attempt (hj : Recoverable j) (a : Attempt) (ha : a.Undisturbed source j) :
    Recoverable (attempt source j a) := by
  constructor
  · exact fun key hkey => settled_attempt hj a ha key hkey
  · intro key hvr
    have htrail := @Attempt.passed_trail source a j.state
    rcases recorded_trail htrail (hj.recorded key) hvr with hrc | ⟨hls, hps⟩
    · exact hrc
    · obtain ⟨finding, hd⟩ := (Dispatch.of_passes key).2.2 hps
      unfold Attempt.Undisturbed at ha
      rw [hd] at ha
      exact absurd rfl (ha _ hls)

theorem recoverable_run (router : AddressList) {attempts : List Attempt}
    (h : Along (attempt source) (fun j a => a.Undisturbed source j) (emptyJournal router) attempts) :
    Recoverable (run (attempt source) (emptyJournal router) attempts) := by
  apply run_keeps_along (P := Recoverable) _ h
  · intro j a hj ha
    exact recoverable_attempt hj a ha
  · exact ⟨nofun, nofun⟩

/-- In the states between the attempts of an undisturbed run: a rollback of what
an application has written is not refused for the status of the plan; the policy
of a verified plan's subject is its own or that of a plan recorded later; and `apply_plan`, with the
lock, leaves an approved plan of
one device applied or failed exactly when the preflight does not raise. -/
theorem recoverable_of_undisturbed (source : Text) (router : AddressList) (attempts : List Attempt)
    (h : Along (attempt source) (fun j a => a.Undisturbed source j) (emptyJournal router) attempts)
    (key : Text) (plan : Plan)
    (hpl : (run (attempt source) (emptyJournal router) attempts).state.plan? key = some plan) :
    (.applied key ∈ (run (attempt source) (emptyJournal router) attempts).points →
      ∀ granted replies probed, (finish (rollbackPlan source key granted replies probed)
        (run (attempt source) (emptyJournal router) attempts).state).1 ≠ .error .status) ∧
    (plan.status = .verified →
      ∃ policy ∈ (run (attempt source) (emptyJournal router) attempts).state.policies,
        policy.subject = plan.subject ∧
        (policy = ⟨plan.subject, plan.desired, key⟩ ∨ ∃ later,
          (run (attempt source) (emptyJournal router) attempts).state.plan? policy.sourcePlan =
            some later ∧
          policy = ⟨later.subject, later.desired, policy.sourcePlan⟩ ∧
          [.policyRecorded key, .policyRecorded policy.sourcePlan] <+
            (run (attempt source) (emptyJournal router) attempts).points)) ∧
    (plan.status = .approved → oneDevice plan.steps = true → ∀ preflight replies,
      ((finish (applyPlan source key true preflight replies)
          (run (attempt source) (emptyJournal router) attempts).state).2.status? key ∈
        [some .applied, some .failed] ↔ preflight ≠ .raises)) := by
  have hrc := recoverable_run router h
  have hrecd : RecordedKept _ (run (attempt source) (emptyJournal router) attempts).state :=
    run_commits nofun (fun _ _ _ _ hI hcm => recordedKept_commit hI hcm) attempts
  set j := run (attempt source) (emptyJournal router) attempts
  have hso := stored_of_plan? hpl
  refine ⟨?_, ?_, ?_⟩
  · intro hkey granted replies probed
    obtain ⟨status, hst, hset⟩ := hrc.settled key hkey
    rw [status?_of_plan? hpl, Option.some.injEq] at hst
    rw [hst] at hso
    have hbc : Passes (rollbackPlan source key granted replies probed) j.state _ _ :=
      rollbackPlan_passes hso
    apply hbc.finish.1
    unfold isSettled at hset
    exact contains_iff_mem.1 hset
  · intro hvr
    have hst := status?_of_plan? hpl
    rw [hvr] at hst
    obtain ⟨_, desired, policyKey, hide, policy, hpo, rfl, ⟨policyKey', hsrc⟩, hlt⟩ :=
      hrecd key (hrc.recorded key hst)
    obtain ⟨later, hlater, hsm⟩ := Option.map_eq_some_iff.1 hsrc
    obtain ⟨found, hfou, hsm'⟩ := Option.map_eq_some_iff.1 hide
    cases hpl.symm.trans hfou
    have hsub : plan.subject = policy.subject := congrArg Prod.fst hsm'
    have hsub' : later.subject = policy.subject := congrArg Prod.fst hsm
    have hds : later.desired = policy.desired := congrArg (fun identity => identity.2.1) hsm
    refine ⟨policy, hpo, hsub.symm, hlt.imp (fun hkey => ?_) fun haf => ?_⟩
    · rw [hkey, hpl, Option.some.injEq] at hlater
      rw [hsub, hlater, hds, ← hkey]
    · exact ⟨later, hlater, by rw [hsub', hds], haf⟩
  · intro hap hdv preflight replies
    have happly : Passes (applyPlan source key true preflight replies) j.state _ _ :=
      applyPlan_passes hpl hap
    have hend := happly.finish
    cases hrs : (finish (applyPlan source key true preflight replies) j.state).1 with
    | error e =>
      rw [hrs] at hend
      obtain ⟨hsm, hras⟩ := hend
      rw [hsm, status?_of_plan? hpl, hap, hras hdv rfl]
      decide
    | ok result =>
      rw [hrs] at hend
      obtain ⟨hpre, hlf, -⟩ := hend
      refine ⟨fun _ => hpre, fun _ => ?_⟩
      rcases hlf with ⟨stored, hst', hst, -⟩ | ⟨stored, hst', hst, -⟩
      · rw [status?_of_plan? hst', hst]
        decide
      · rw [status?_of_plan? hst', hst]
        decide

def machineInput : PlanInput where
  key := "p1"
  subject := ⟨.asset, "pc"⟩
  desired := .deny
  policyKey := []
  assetKey := "pc"
  reason := "r"
  evidence := default
  targets := [newTarget]

/-- The plan is created, approved and applied; `dies` cuts the application off. -/
def machineAttempts (dies : Option Nat) : List Attempt :=
  [⟨.create machineInput, none⟩, ⟨.approve "p1", none⟩, ⟨.apply "p1" true .unchanged [], dies⟩]

theorem machineAttempts_undisturbed :
    Along (attempt "r1") (fun j a => a.Undisturbed "r1" j) (emptyJournal [])
      (machineAttempts none) := by
  refine ⟨trivial, trivial, ?_, trivial⟩
  intro _ k hk
  revert k
  decide +kernel

/-- The plan of the sample run was applied, and its rollback is not refused. -/
theorem rollback_not_refused_after_apply : (finish (rollbackPlan "r1" "p1" true [] true)
      (run (attempt "r1") (emptyJournal []) (machineAttempts none)).state).1 ≠ .error .status := by
  have hsm : ((run (attempt "r1") (emptyJournal []) (machineAttempts none)).state.plan?
      "p1").isSome = true := by decide +kernel
  obtain ⟨plan, hpl⟩ := Option.isSome_iff_exists.1 hsm
  have hlaw := recoverable_of_undisturbed "r1" [] (machineAttempts none)
    machineAttempts_undisturbed "p1" plan hpl
  exact hlaw.1 (by decide +kernel) true [] true

/-- The machine stays blocked when the process dies after the entry was added:
the rollback is refused. -/
theorem rollback_refused_after_crash : .applied "p1" ∈ (run (attempt "r1") (emptyJournal [])
        (machineAttempts (some 2))).points ∧ (finish (rollbackPlan "r1" "p1" true [] true)
        (run (attempt "r1") (emptyJournal []) (machineAttempts (some 2))).state).1 =
          .error .status := by
  refine ⟨?_, ?_⟩ <;> decide +kernel

end Netops

end WebOvpn
