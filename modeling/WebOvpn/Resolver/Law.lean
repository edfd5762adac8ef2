/-
The law of the final name servers: a verified result is true, what others have
stored is not lost, and a claim is passed once.
-/
import WebOvpn.Resolver.Observed

namespace WebOvpn.Resolver

open Text List
open Op (Meets Stable)

variable {job : Job} {before : Option (Snapshot × Readings)} {bound : Bool}
    {first after : Snapshot} {w : World}
  {α : Type} {P : World → Prop}

theorem sameConnection_meets (hP : ∀ code w, P w → Fails before bound code w) (checkNetwork : Bool) :
    Meets P (sameConnection first after checkNetwork) (fun _ w => P w ∧ after.path = first.path)
      (Fails before bound) := by
  unfold sameConnection
  apply Meets.bind (Q := fun _ => P)
  · exact meets_require hP fun _ _ hw => hw
  intro _
  apply Meets.bind (Q := fun _ w => P w ∧ after.path = first.path)
  · apply meets_require hP
    intro w hsm hw
    rw [Bool.and_eq_true, decide_eq_true_eq] at hsm
    exact ⟨hw, hsm.1⟩
  intro _
  apply Meets.bind (Q := fun _ w => P w ∧ after.path = first.path)
  · exact meets_require (fun code w hw => hP code w hw.1) fun _ _ hw => hw
  intro _
  exact meets_require (fun code w hw => hP code w hw.1) fun _ _ hw => hw

theorem tryObserve_meets : Meets (Within before bound) (tryObserve job)
    (fun found w => Within before bound w ∧ ∀ value, found = some value →
      Observed job before bound value w)
    (Fails before bound) := by
  unfold tryObserve
  apply Meets.onError (E := Fails before bound)
  · apply observe_meets.bind
    intro snapshot
    apply Op.meets_pure
    intro w hw
    refine ⟨hw.1.1, ?_⟩
    rintro value ⟨⟩
    exact hw
  · intro code
    split
    · exact Op.meets_pure fun w hw => ⟨hw, nofun⟩
    · exact Op.meets_raise fun w hw => hw

/-- The observation is the last one, and it is what the loop waits for. -/
def Settled (job : Job) (before : Option (Snapshot × Readings)) (bound : Bool) (first : Snapshot)
    (servers persistent : List Text) (value : Snapshot) (w : World) : Prop :=
  Observed job before bound value w ∧ value.path = first.path ∧ isMatched first servers persistent value = true

theorem stable_settled {servers persistent : List Text} :
    Stable others (Settled job before bound first servers persistent after) :=
  fun w move h => ⟨stable_observed w move h.1, h.2⟩

theorem fails_settled {servers persistent : List Text} (code : DnsCode) (w : World)
    (h : Settled job before bound first servers persistent after w) : Fails before bound code w :=
      h.1.1.1

variable (servers persistent : List Text)

theorem settleRound_meets (progress : Progress) :
    Meets (Within before bound) (settleRound job first servers persistent progress)
      (fun progress w => Within before bound w ∧ ∀ value, progress.converged = some value →
        Settled job before bound first servers persistent value w) (Fails before bound) := by
  unfold settleRound
  apply tryObserve_meets.bind
  intro found
  cases found with
  | none =>
    apply Op.meets_pure
    intro w hw
    refine ⟨hw.1, ?_⟩
    unfold Progress.converged
    simp
  | some value =>
    apply Meets.bind (Q := fun _ w => Observed job before bound value w ∧ value.path = first.path)
    · have hfl : ∀ code w, Observed job before bound value w → Fails before bound code w := fun _ _ h => h.1.1
      apply (sameConnection_meets hfl false).pre
      exact fun w hw => hw.2 value rfl
    intro _
    apply Op.meets_pure
    intro w hw
    refine ⟨hw.1.1.1, ?_⟩
    intro found hfn
    unfold Progress.converged at hfn
    by_cases hmt : isMatched first servers persistent value = true
    · simp only [hmt, if_true] at hfn
      split at hfn <;> cases hfn
      exact ⟨hw.1, hw.2, hmt⟩
    · simp [hmt] at hfn

theorem settle_meets (attempts : Nat) (progress : Progress) :
    Meets (Within before bound) (settle job first servers persistent attempts progress)
      (Settled job before bound first servers persistent) (Fails before bound) := by
  induction attempts generalizing progress with
  | zero =>
    unfold settle
    apply (settleRound_meets servers persistent progress).bind
    intro progress
    cases hcn : progress.converged with
    | some value => exact Op.meets_pure fun w hw => hw.2 value rfl
    | none => exact Op.meets_raise fun w hw => hw.1
  | succ attempts ih =>
    unfold settle
    apply (settleRound_meets servers persistent progress).bind
    intro progress
    cases hcn : progress.converged with
    | some value => exact Op.meets_pure fun w hw => hw.2 value rfl
    | none =>
      apply Meets.bind (Q := fun _ => Within before bound)
      · exact steady_within.pass.pre fun w hw => hw.1
      exact fun _ => ih progress

theorem observeSettled_meets :
    Meets (Within before bound) (observeSettled job first servers persistent)
      (Settled job before bound first servers persistent) (Fails before bound) := by
  unfold observeSettled
  apply Meets.bind (Q := Settled job before bound first servers persistent)
  · apply (settle_meets servers persistent _ _).onError
    intro code
    apply Meets.bind (Q := fun _ => Within before bound)
    · exact steady_within.pass
    exact fun _ => Op.meets_raise fun w hw => hw
  intro value
  apply Meets.bind (Q := fun _ => Settled job before bound first servers persistent value)
  · exact meets_pass stable_settled fails_settled fun w hw => hw
  exact fun _ => Op.meets_pure fun w hw => hw

/-- At the last observation the persistent file was the rewritten one, with the
attributes that it had, and the servers were the requested ones. -/
structure IsApplied (job : Job) (before after : Snapshot) : Prop where
  path : after.path = before.path
  file : ∃ file, after.file = some file ∧
    rewrite job.ipAddress before.facts.backend (before.file.map File.data) job.request.servers = some file.data
  attributes : after.attributes = before.attributes
  servers : after.facts.servers = job.request.servers
  persistentServers : after.facts.persistentServers = job.request.servers

/-- At the last observation everything was as before. -/
structure IsRestored (job : Job) (before after : Snapshot) : Prop where
  path : after.path = before.path
  file : after.file.map File.data = before.file.map File.data
  servers : after.facts.servers = before.facts.servers
  networkSha256 : job.sha256 after.network = job.sha256 before.network
  network : (job.sha256 after.network = job.sha256 before.network → after.network = before.network) →
    after.network = before.network

/-- A relation between the first observation of the call and its last one, and
both are what was read. -/
def Between (job : Job) (relation : Snapshot → Snapshot → Prop) (w : World) : Prop :=
  ∃ first readings last, w.before = some (first, readings) ∧ Shown job first readings ∧
    w.observed = some last ∧ Shown job last w.readings ∧ relation first last

structure Outcome (job : Job) (result : Result) (w : World) : Prop where
  inv : Inv w
  applied : result.status = .appliedVerified → Between job (IsApplied job) w
  rolledBack : result.status = .rolledBackVerified → Between job (IsRestored job) w

theorem Between.congr {relation : Snapshot → Snapshot → Prop} {w' : World} (h : Between job relation w)
    (hbf : w'.before = w.before) (hra : w'.readings = w.readings) (hobs : w'.observed = w.observed) :
    Between job relation w' := by
  unfold Between
  rw [hbf, hra, hobs]
  exact h

theorem stable_outcome {result : Result} : Stable others (Outcome job result) := by
  intro w move h
  obtain ⟨hbf, -, hra, hobs⟩ := locals_others w move
  exact ⟨inv_others w move h.inv, fun hs => (h.applied hs).congr hbf hra hobs,
    fun hs => (h.rolledBack hs).congr hbf hra hobs⟩

theorem outcome_unverified (h : Inv w) (changed : Option Bool) (code : DnsCode) :
    Outcome job ⟨.outcomeUnverified, changed, code⟩ w := ⟨h, nofun, nofun⟩

section

variable {readings : Readings} {new : Bytes}

theorem replaceFile_meets (hsha : isPrivate first.path = false) :
    Meets (Within before bound) (replaceFile job first new) (fun _ => Within before bound)
      (Fails before bound) := by
  unfold replaceFile
  cases first.info with
  | some info => exact exchange_meets hsha _ _ _ _ _
  | none => exact publishAbsent_meets hsha _ _

theorem Steady.activate (hP : Steady before bound P) (rollback : Bool) :
    Meets P (activate first rollback) (fun _ => P) (Fails before bound) := by
  unfold Resolver.activate
  split
  · exact hP.pass
  · apply Meets.bind (Q := fun _ => P)
    · unfold reapplySettings
      split
      · exact hP.pass
      · exact hP.pass
    intro _
    apply hP.pass.bind
    exact fun _ => hP.pass

theorem Within.bind (h : Within before bound w) {changed : Bool} {info : Option Replacement}
    (hin : info.isSome = true) :
    Within before true { w with changed := changed, newInfo := info } :=
  ⟨⟨h.inv.shared, h.inv.held, h.inv.claimed, h.inv.once⟩, h.before_eq, fun _ => hin⟩

theorem length_of_validateFrom {done items servers : List Text}
    (h : validateFrom job.ipAddress done items = some servers) :
    servers.length = done.length + items.length := by
  induction items generalizing done with
  | nil =>
    cases h
    rfl
  | cons item items ih =>
    unfold validateFrom at h
    split at h
    · cases h
    · split at h
      · cases h
      · split at h
        · cases h
        · rw [ih h, length_append, length_singleton, length_cons]
          omega

theorem ne_nil_of_validate {items servers : List Text}
    (h : validate job.ipAddress items = some servers) :
    servers ≠ [] := by
  rintro rfl
  unfold validate at h
  split at h
  · have hlen := length_of_validateFrom h
    rw [length_nil] at hlen
    omega
  · cases h

theorem rewrite_none_ne_nil {backend : Backend} {servers : List Text} {data : Bytes}
    (h : rewrite job.ipAddress backend none servers = some data) : data ≠ [] := by
  unfold rewrite at h
  obtain ⟨checked, hch, hby⟩ := Option.bind_eq_some_iff.1 h
  cases checked with
  | nil => exact absurd rfl (ne_nil_of_validate hch)
  | cons server rest =>
    dsimp only at hby
    unfold utf8Bytes at hby
    split at hby
    · cases hby
    · cases hby
      unfold serverLines
      rw [map_cons, flatten_cons, append_assoc, append_assoc, flatMap_append]
      exact append_ne_nil_of_left_ne_nil (by decide) _

/-- The file that is rewritten was there, or there is something to write. -/
theorem info_isSome
    (hnew : rewrite job.ipAddress first.facts.backend
      (first.file.map File.data) job.request.servers = some new)
    (hsm : new = first.content) : first.info.isSome = true := by
  unfold Snapshot.info
  unfold Snapshot.content at hsm
  cases hfl : first.file with
  | some file => rfl
  | none =>
    rw [hfl] at hnew hsm
    exact absurd hsm (rewrite_none_ne_nil hnew)

theorem isApplied_cases {info : Option Replacement} (h : isApplied first after new info = true)
    (hin : info.isSome = true) :
    (∃ file, after.file = some file ∧ file.data = new) ∧ after.attributes = first.attributes := by
  unfold isApplied at h
  simp only [Bool.and_eq_true, decide_eq_true_eq] at h
  obtain ⟨⟨hcn, hatt⟩, hnd⟩ := h
  refine ⟨?_, hatt⟩
  cases hfl : after.file with
  | none =>
    obtain ⟨replacement, rfl⟩ := Option.isSome_iff_exists.1 hin
    rw [hfl] at hnd
    cases hnd
  | some file =>
    unfold Snapshot.content at hcn
    rw [hfl] at hcn
    exact ⟨file, rfl, hcn⟩

theorem change_meets (hfs : Shown job first readings)
    (hnew : rewrite job.ipAddress first.facts.backend
      (first.file.map File.data) job.request.servers = some new) :
    Meets (Within (some (first, readings)) false) (change job first new) (Outcome job)
      (Fails (some (first, readings)) false) := by
  unfold change
  apply Meets.bind (Q := fun _ w => Within (some (first, readings)) false w ∧
    (new = first.content → Within (some (first, readings)) true w))
  · apply Op.meets_assign
    intro w hw
    refine ⟨⟨⟨hw.inv.shared, hw.inv.held, hw.inv.claimed, hw.inv.once⟩, hw.before_eq, nofun⟩, ?_⟩
    intro hsm
    apply hw.bind
    rw [if_pos hsm]
    exact info_isSome hnew hsm
  intro _
  apply Meets.bind (Q := fun _ => Within (some (first, readings)) true)
  · apply meets_runIf
    · intro _
      apply Meets.bind (Q := fun _ => Within (some (first, readings)) false)
      · exact (replaceFile_meets hfs.shared).pre fun w hw => hw.1
      intro info
      apply Op.meets_assign
      exact fun w hw => hw.bind rfl
    · intro hsm w hw
      rw [decide_eq_false_iff_not, not_not] at hsm
      exact hw.2 hsm
  intro _
  have hst : Steady (some (first, readings)) true (Within (some (first, readings)) true) := steady_within
  apply Meets.mono (P := Within (some (first, readings)) true) (Q := Outcome job)
    (E := Fails (some (first, readings)) true)
  rotate_left
  · exact fun w hw => hw
  · exact fun _ w hw => hw
  · exact fun _ w hw => ⟨hw.inv, hw.before_eq, nofun⟩
  apply Meets.bind (Q := fun _ => Within (some (first, readings)) true)
  · exact Op.meets_view fun w hw => hw
  intro changed
  apply Meets.bind (Q := fun _ => Within (some (first, readings)) true)
  · exact meets_runIf (fun _ => hst.activate false) fun _ w hw => hw
  intro _
  apply (observeSettled_meets job.request.servers job.request.servers).bind
  intro after
  apply (sameConnection_meets fails_settled true).bind
  intro _
  apply Meets.assuming
  intro hpt
  apply Meets.bind (Q := fun info w => Settled job (some (first, readings)) true first job.request.servers
    job.request.servers after w ∧ info.isSome = true)
  · exact Op.meets_view fun w hw => ⟨hw, hw.1.1.1.bound_some rfl⟩
  intro info
  apply Meets.assuming
  intro hin
  apply Meets.bind (Q := fun _ w => Settled job (some (first, readings)) true first job.request.servers
    job.request.servers after w ∧ isApplied first after new info = true)
  · exact meets_require fails_settled fun w hap hw => ⟨hw, hap⟩
  intro _
  apply Meets.assuming
  intro hap
  apply Meets.bind (Q := fun _ w => Settled job (some (first, readings)) true first job.request.servers
    job.request.servers after w ∧ (after.facts.servers = job.request.servers ∧
      after.facts.persistentServers = job.request.servers))
  · apply meets_require fails_settled
    intro w hsr hw
    simp only [Bool.and_eq_true, decide_eq_true_eq] at hsr
    exact ⟨hw, hsr⟩
  intro _
  apply Meets.assuming
  intro hsr
  apply Meets.bind (Q := fun _ => Settled job (some (first, readings)) true first job.request.servers
    job.request.servers after)
  · exact meets_pass stable_settled fails_settled fun w hw => hw
  intro _
  apply Op.meets_pure
  intro w hw
  obtain ⟨⟨file, hfl, rfl⟩, hatt⟩ := isApplied_cases hap hin
  refine ⟨hw.1.1.1.inv, fun _ => ?_, nofun⟩
  refine ⟨first, readings, after, hw.1.1.1.before_eq, hfs, hw.1.2, hw.1.1.2, ?_⟩
  exact ⟨hpt, ⟨file, hfl, hnew⟩, hatt, hsr.1, hsr.2⟩

theorem restoreFile_meets (hsha : isPrivate first.path = false) (info : Replacement) :
    Meets (Within before bound) (restoreFile job first new info) (fun _ => Within before bound)
      (Fails before bound) := by
  unfold restoreFile
  cases first.file with
  | none => exact restoreAbsent_meets hsha _ _
  | some _ =>
    apply (exchange_meets hsha _ _ _ _ _).bind
    exact fun _ => Op.meets_pure fun w hw => hw

theorem undo_meets (hsha : isPrivate first.path = false) :
    Meets (Within before bound) (undo job first new) (fun _ => Within before bound)
      (Fails before bound) := by
  unfold undo
  apply Meets.bind (Q := fun _ => Within before bound)
  · exact meets_runIf (fun _ => steady_within.pass) fun _ w hw => hw
  intro _
  apply Meets.bind (Q := fun _ => Within before bound)
  · apply Op.meets_view
    intro w hw
    cases w.newInfo with
    | _ => exact hw
  intro info
  apply Meets.bind (Q := fun _ => Within before bound)
  · exact (observeWith_meets _).post fun _ w hw => hw.1
  intro current
  apply Meets.bind (Q := fun _ => Within before bound)
  · exact (sameConnection_meets steady_within.fails true).post fun _ w hw => hw.1
  intro _
  apply (steady_within.require _ _).bind
  intro _
  apply Meets.assuming
  intro _
  apply Meets.bind (Q := fun _ => Within before bound)
  · exact meets_runIf (fun _ => restoreFile_meets hsha info) fun _ w hw => hw
  intro _
  exact steady_within.activate true

theorem map_data_of_content {restored : Snapshot} (hpr : restored.file.isSome = first.file.isSome)
    (hcn : restored.content = first.content) :
      restored.file.map File.data = first.file.map File.data := by
  unfold Snapshot.content at hcn
  cases hrs : restored.file with
  | none =>
    cases hfl : first.file with
    | none => rfl
    | some file =>
      rw [hrs, hfl] at hpr
      cases hpr
  | some file =>
    cases hfl : first.file with
    | none =>
      rw [hrs, hfl] at hpr
      cases hpr
    | some original =>
      rw [hrs, hfl] at hcn
      exact congrArg some hcn

theorem rollback_meets (hfs : Shown job first readings) (code : DnsCode) :
    Meets (Within (some (first, readings)) bound) (rollback job first new code) (Outcome job)
      (Fails (some (first, readings)) bound) := by
  unfold rollback
  apply Meets.bind (Q := fun _ => Within (some (first, readings)) bound)
  · exact Op.meets_view fun w hw => hw
  intro changed
  apply Meets.bind (Q := fun _ => Within (some (first, readings)) bound)
  · exact meets_runIf (fun _ => undo_meets hfs.shared) fun _ w hw => hw
  intro _
  apply (observeSettled_meets first.facts.servers first.facts.persistentServers).bind
  intro restored
  apply Meets.bind (Q := fun _ w => Settled job (some (first, readings)) bound first first.facts.servers
    first.facts.persistentServers restored w ∧ isRestored first restored = true)
  · exact meets_require fails_settled fun w hrs hw => ⟨hw, hrs⟩
  intro _
  apply Meets.assuming
  intro hrs
  apply Meets.bind (Q := fun _ => Settled job (some (first, readings)) bound first first.facts.servers
    first.facts.persistentServers restored)
  · exact meets_pass stable_settled fails_settled fun w hw => hw
  intro _
  apply Op.meets_pure
  intro w hw
  unfold isRestored at hrs
  simp only [Bool.and_eq_true, decide_eq_true_eq] at hrs
  obtain ⟨⟨⟨hpr, hcn⟩, hsr⟩, hnet⟩ := hrs
  refine ⟨hw.1.1.1.inv, nofun, fun _ => ?_⟩
  have hdg : job.sha256 restored.network = job.sha256 first.network := by
    rw [← hw.1.1.2.networkSha256, ← hfs.networkSha256]
    exact hnet
  refine ⟨first, readings, restored, hw.1.1.1.before_eq, hfs, hw.1.2, hw.1.1.2, hw.2.1, ?_, hsr, hdg, ?_⟩
  · exact map_data_of_content hpr hcn
  · intro hinj
    exact hinj hdg

theorem changeOrRollback_meets (hfs : Shown job first readings)
    (hnew : rewrite job.ipAddress first.facts.backend
      (first.file.map File.data) job.request.servers = some new) :
    Meets (Within (some (first, readings)) false) (changeOrRollback job first new) (Outcome job)
      fun _ w => Inv w := by
  unfold changeOrRollback
  apply (change_meets hfs hnew).onError
  intro code
  apply Meets.bind (Q := Outcome job)
  · apply (rollback_meets hfs code).onError
    intro _
    exact Op.meets_pure fun w hw => outcome_unverified hw.inv _ _
  intro result
  apply Meets.bind (Q := fun _ => Outcome job result)
  · exact meets_pass stable_outcome (fun _ w hw => hw.inv) fun w hw => hw
  exact fun _ => Op.meets_pure fun w hw => hw

end

structure Claimed (job : Job) (before : Option (Snapshot × Readings)) (w : World) : Prop where
  within : Within before false w
  claimed : job.claimSha256 ∈ w.claims
  unpassed : job.claimSha256 ∉ w.passed

theorem requireUnclaimed_meets :
    Meets (Within before false) (requireUnclaimed job) (fun _ => Within before false)
    (Fails before false) := by
  apply Op.meets_own stable_within (steady_within.fails _)
  intro w hw
  dsimp only
  split
  · exact hw
  · exact hw

theorem makeClaim_meets : Meets (Within before false) (makeClaim job) (fun _ => Claimed job before)
    (Fails before false) := by
  apply Op.meets_own_cases stable_within (steady_within.fails _)
  · intro w _ w' hw h
    split at h
    · cases h
    · rename_i hfr
      cases h
      refine ⟨⟨⟨hw.inv.shared, hw.inv.held, ?_, hw.inv.once⟩, hw.before_eq, nofun⟩, mem_cons_self, ?_⟩
      · exact fun claim hps => mem_cons_of_mem _ (hw.inv.claimed hps)
      · exact fun hps => hfr (hw.inv.claimed hps)
  · intro w code w' hw h
    split at h
    · cases h
      exact hw
    · cases h

theorem writeRecords_meets : Meets (Within before false) writeRecords (fun _ => Within before false)
    (Fails before false) := by
  unfold writeRecords
  apply Meets.bind (Q := fun _ => Within before false)
  · exact Meets.forEach_keeps fun _ _ => steady_within.pass
  exact fun _ => Op.meets_pure fun w hw => hw

theorem applyLocked_meets {readings : Readings} (hfs : Shown job first readings) :
    Meets (Within (some (first, readings)) false) (applyLocked job first) (Outcome job) fun _ w =>
      Inv w := by
  have hfl (code : DnsCode) (w : World) (hw : Fails (some (first, readings)) false code w) : Inv w := hw.inv
  unfold applyLocked
  apply Meets.bind (Q := fun _ => Within (some (first, readings)) false)
  · exact requireUnclaimed_meets.mono (fun w hw => hw) (fun _ w hw => hw) hfl
  intro _
  apply Meets.bind (Q := fun _ => Claimed job (some (first, readings)))
  · exact makeClaim_meets.mono (fun w hw => hw) (fun _ w hw => hw) hfl
  intro _
  apply Meets.bind (Q := fun _ => Within (some (first, readings)) false)
  · apply Op.meets_assign
    intro w hw
    refine ⟨⟨hw.within.inv.shared, hw.within.inv.held, ?_, ?_⟩, hw.within.before_eq, nofun⟩
    · exact cons_subset.2 ⟨hw.claimed, hw.within.inv.claimed⟩
    · exact nodup_cons.2 ⟨hw.unpassed, hw.within.inv.once⟩
  intro _
  apply Meets.bind (Q := fun _ => Within (some (first, readings)) false)
  · exact writeRecords_meets.mono (fun w hw => hw) (fun _ w hw => hw) hfl
  intro _
  apply Meets.bind (Q := fun _ => Within (some (first, readings)) false)
  · exact steady_within.pass.mono (fun w hw => hw) (fun _ w hw => hw) hfl
  intro _
  apply Meets.bind (Q := fun _ => Within (some (first, readings)) false)
  · exact observe_meets.mono (fun w hw => hw) (fun _ w hw => hw.1.1) hfl
  intro fresh
  apply Meets.bind (Q := fun _ => Within (some (first, readings)) false)
  · exact meets_require (fun _ w hw => hw.inv) fun w _ hw => hw
  intro _
  apply Meets.bind (Q := fun new w => Within (some (first, readings)) false w ∧
    rewrite job.ipAddress first.facts.backend (first.file.map File.data) job.request.servers = some new)
  · exact meets_definite (fun _ w hw => hw.inv) fun new w hnew hw => ⟨hw, hnew⟩
  intro new
  apply Meets.assuming
  intro hnew
  apply (changeOrRollback_meets hfs hnew).bind
  intro result
  apply Meets.bind (Q := fun _ => Outcome job result)
  · exact meets_pass stable_outcome (fun _ w hw => hw.inv) fun w hw => hw
  exact fun _ => Op.meets_pure fun w hw => hw

/-- A call ends with a result that is true. -/
theorem apply_meets : Meets (Within none false) (apply job) (Outcome job) fun _ _ => False := by
  have hfl (code : DnsCode) (w : World) (hw : Fails none false code w) : Inv w := hw.inv
  unfold apply
  apply Meets.onError (E := fun _ w => Inv w)
  · apply Meets.bind (Q := fun _ => Within none false)
    · exact meets_require (fun _ w hw => hw.inv) fun w _ hw => hw
    intro _
    apply Meets.bind (Q := fun _ => Within none false)
    · exact meets_require (fun _ w hw => hw.inv) fun w _ hw => hw
    intro _
    apply Meets.bind (Q := fun _ => Within none false)
    · exact requireUnclaimed_meets.mono (fun w hw => hw) (fun _ w hw => hw) hfl
    intro _
    apply Meets.bind (Q := fun first w => ∃ readings, Within (some (first, readings)) false w ∧
      Shown job first readings)
    · unfold observeBefore
      apply Meets.bind (Q := Observed job none false)
      · exact observe_meets.mono (fun w hw => hw) (fun _ w hw => hw) hfl
      intro first
      apply Meets.bind (Q := fun _ w => ∃ readings, Within (some (first, readings)) false w ∧
        Shown job first readings)
      · apply Op.meets_assign
        intro w hw
        have hinv := hw.1.1.inv
        exact ⟨w.readings, ⟨⟨hinv.shared, hinv.held, hinv.claimed, hinv.once⟩, rfl, nofun⟩, hw.1.2⟩
      exact fun _ => Op.meets_pure fun w hw => hw
    intro first
    apply Meets.exists
    intro readings
    apply Meets.assuming
    intro hfs
    apply Meets.bind (Q := fun _ => Within (some (first, readings)) false)
    · exact meets_require (fun _ w hw => hw.inv) fun w _ hw => hw
    intro _
    apply Meets.bind (Q := fun _ => Within (some (first, readings)) false)
    · exact steady_within.pass.mono (fun w hw => hw) (fun _ w hw => hw) fun _ w hw => hw.inv
    intro _
    exact applyLocked_meets hfs
  · intro code
    apply Meets.bind (Q := fun _ w => Inv w)
    · exact Op.meets_view fun w hw => hw
    exact fun _ => Op.meets_pure fun w hw => outcome_unverified hw _ _

/-- A workstation before any call. All files in it are somebody else's. -/
def World.initial (folder : Folder Text File.node) (status : Status) (claims : List Text) : World where
  folder := folder
  theirs := folder.entries.filter fun entry => !isPrivate entry.1
  status := status
  claims := claims
  passed := []
  readings := ⟨fun _ => none, fun _ => none, none⟩
  before := none
  observed := none
  changed := false
  newInfo := none

def World.begin (w : World) : World :=
  { w with
    readings := ⟨fun _ => none, fun _ => none, none⟩
    before := none
    observed := none
    changed := false
    newInfo := none }

/-- A call of `apply` among the moves of others. -/
def call (job : Job) (w : World) (turns : List (Turn Move)) : Except DnsCode Result × World :=
  ((Op.exec (apply job) ⟨w.begin, turns⟩).1, (Op.exec (apply job) ⟨w.begin, turns⟩).2.state)

def afterCalls (w : World) (calls : List (Job × List (Turn Move))) : World :=
  calls.foldl (fun w entry => (call entry.1 w entry.2).2) w

theorem initial_inv (folder : Folder Text File.node) (status : Status) (claims : List Text) :
    Inv (World.initial folder status claims) where
  shared entry hen := by simpa using (mem_filter.1 hen).2
  held entry hen := .inl (Folder.get_eq_some_iff.2 (mem_filter.1 hen).1)
  claimed := nil_subset _
  once := nodup_nil

theorem call_outcome (h : Inv w) (job : Job) (turns : List (Turn Move)) :
    ∃ result, (call job w turns).1 = .ok result ∧ Outcome job result (call job w turns).2 := by
  have hbg : Within none false w.begin := ⟨⟨h.shared, h.held, h.claimed, h.once⟩, rfl, nofun⟩
  have hmee := @apply_meets job ⟨w.begin, turns⟩ hbg
  unfold Op.Holds at hmee
  unfold call
  dsimp only
  cases hrs : (Op.exec (apply job) ⟨w.begin, turns⟩).1 with
  | ok result =>
    rw [hrs] at hmee
    exact ⟨result, rfl, hmee⟩
  | error code =>
    rw [hrs] at hmee
    exact hmee.elim

theorem afterCalls_inv (h : Inv w) (calls : List (Job × List (Turn Move))) :
    Inv (afterCalls w calls) := by
  induction calls generalizing w with
  | nil => exact h
  | cons entry calls ih =>
    apply ih
    obtain ⟨_, -, hou⟩ := call_outcome h entry.1 entry.2
    exact hou.inv

/-- **A verified result is true, and nobody's bytes are lost.** -/
theorem final_dns_is_honest (folder : Folder Text File.node) (status : Status) (claims : List Text)
    (earlier : List (Job × List (Turn Move))) (job : Job) (turns : List (Turn Move)) :
    ∃ result, (call job (afterCalls (World.initial folder status claims) earlier) turns).1 = .ok result ∧
      (result.status = .appliedVerified →
        Between job (IsApplied job)
          (call job (afterCalls (World.initial folder status claims) earlier) turns).2) ∧
      (result.status = .rolledBackVerified →
        Between job (IsRestored job)
          (call job (afterCalls (World.initial folder status claims) earlier) turns).2) ∧
      (∀ entry ∈ (call job (afterCalls (World.initial folder status claims) earlier) turns).2.theirs,
        Held (call job (afterCalls (World.initial folder status claims) earlier) turns).2.folder entry) ∧
      (call job (afterCalls (World.initial folder status claims) earlier) turns).2.passed.Nodup ∧
      (call job (afterCalls (World.initial folder status claims) earlier) turns).2.passed ⊆
        (call job (afterCalls (World.initial folder status claims) earlier) turns).2.claims := by
  have hinv := afterCalls_inv (initial_inv folder status claims) earlier
  obtain ⟨result, hrs, hou⟩ := call_outcome hinv job turns
  exact ⟨result, hrs, hou.applied, hou.rolledBack, hou.inv.held, hou.inv.once,
    hou.inv.claimed⟩

end WebOvpn.Resolver
