/-
What a run of calls publishes, and that it publishes it once, wherever the calls
are cut off.
-/
import WebOvpn.Setup.Closing

namespace WebOvpn

open Op List

namespace Setup

variable {rules : SetupRules} {root root' : Root} {id : Text} {job : SetupJob} {point : SetupPoint}

/-- Whether the root has what a publication leaves: a file of its own, or a status
that says the job is claimed.  The other publications leave neither. -/
def Root.tells (root : Root) : SetupPoint → Option Bool
  | .planBurned sha256 => some (root.claims.lookup sha256).isSome
  | .reserved id => some (root.reservations.lookup id).isSome
  | .jobPublished id => some (root.jobs.lookup id).isSome
  | .reviewPublished old => some (root.reviews.lookup old).isSome
  | .jobClaimed id => some ((root.jobs.lookup id).any fun job => job.status.claimed)
  | .systemPublished id => some (root.systemResults.lookup id).isSome
  | .ticketPublished id phase => some (root.tickets.lookup (id, phase)).isSome
  | .claimPublished id phase => some (root.phaseClaims.lookup (id, phase)).isSome
  | .resultPublished id phase => some (root.results.lookup (id, phase)).isSome
  | .transitioned _ | .phaseAdmitted _ _ | .statusPublished _ | .started _ _ => none

theorem isSome_lookup_concat {κ α : Type} [BEq κ] [LawfulBEq κ] [DecidableEq κ]
    (entries : List (κ × α)) (k key : κ) (a : α) :
    ((entries ++ [(k, a)]).lookup key).isSome = ((entries.lookup key).isSome || decide (key = k)) := by
  by_cases h : key = k
  · subst h
    cases hfr : entries.lookup key with
    | none => simp [lookup_concat_self hfr]
    | some b => simp [lookup_concat_of_some hfr]
  · simp [lookup_concat_of_ne h, h]

/-- A status says of its own job alone whether it is claimed. -/
theorem tells_setStatus (hst : root.jobs.lookup id = some job) (status : SetupStatus)
    (other : SetupPoint) :
    (setStatus id status root).tells other =
      if other = .jobClaimed id then some status.claimed else root.tells other := by
  cases other with
  | jobClaimed key =>
    simp only [Root.tells, lookup_setStatus, SetupPoint.jobClaimed.injEq]
    split_ifs with h
    · rw [hst]
      rfl
    · rfl
  | jobPublished key =>
    simp only [Root.tells, lookup_setStatus, reduceCtorEq, if_false]
    split_ifs with h
    · rw [h, hst]
      rfl
    · rfl
  | _ => rfl

theorem map_tells_of_none (hnn : root.tells point = none) (other : SetupPoint) :
    ((root.tells other).map fun there => there || decide (other = point)) = root.tells other := by
  by_cases h : other = point
  · subst h
    rw [hnn]
    rfl
  · simp [h]

/-- A status that says the same of the claim tells nothing new. -/
theorem tells_setStatus_same (hst : root.jobs.lookup id = some job) (status : SetupStatus)
    (hcl : status.claimed = job.status.claimed) (hnn : root.tells point = none) (other : SetupPoint) :
    (setStatus id status root).tells other =
      (root.tells other).map fun there => there || decide (other = point) := by
  rw [tells_setStatus hst, map_tells_of_none hnn]
  split_ifs with hsl
  · subst hsl
    simp [Root.tells, hst, hcl]
  · rfl

/-- A move publishes what the root does not have yet, and that alone. -/
theorem Move.tells (h : Move rules root point root') : root.tells point ≠ some true ∧
    ∀ other, root'.tells other = (root.tells other).map fun there => there ||
      decide (other = point) := by
  cases h with
  | jobClaimed hjob hque hunc hvl =>
    refine ⟨by simp [Root.tells, hjob.stored, hunc], fun other => ?_⟩
    rw [tells_setStatus hjob.stored]
    split_ifs with hsl
    · subst hsl
      simp [Root.tells, SetupStatus.moved]
    · simp [hsl]
  | transitioned hjob hcl hworkf hst hvl =>
    exact ⟨(Option.some_ne_none _).symm, tells_setStatus_same hjob.stored _ rfl rfl⟩
  | advanced hwr hse hmt hvl =>
    have hnn : root.tells point = none := by cases hse <;> rfl
    exact ⟨by rw [hnn]; exact (Option.some_ne_none _).symm, tells_setStatus_same hwr.has.stored _ rfl hnn⟩
  | phaseAdmitted hwr hque =>
    exact ⟨(Option.some_ne_none _).symm, fun other => (map_tells_of_none rfl other).symm⟩
  | @jobPublished root new env prior hcm hrs hfr hseq had =>
    refine ⟨by simp [Root.tells, Root.addClaim, Root.addReservation, hfr], fun other => ?_⟩
    cases other with
    | jobPublished key =>
      simp [Root.tells, Root.addJob, isSome_lookup_concat, Root.addClaim, Root.addReservation]
    | jobClaimed key =>
      -- a new job is not claimed
      suffices hsm : (((root.jobs ++ [(new.id.val, new.job)]).lookup key).any fun job => job.status.claimed) =
          (root.jobs.lookup key).any fun job => job.status.claimed by
        simpa [Root.tells, Root.addJob, Root.addClaim, Root.addReservation] using hsm
      by_cases hkey : key = new.id.val
      · rw [hkey, lookup_concat_self hfr, hfr]
        rfl
      · rw [lookup_concat_of_ne hkey]
    | _ => simp [Root.tells, Root.addJob]
  | _ =>
    refine ⟨by simp [Root.tells, Root.addClaim, *], fun other => ?_⟩
    cases other <;>
      simp [Root.tells, Root.addClaim, Root.addReservation, Root.addReview, Root.addSystemResult,
        Root.addTicket, Root.addPhaseClaim, Root.addResult, isSome_lookup_concat]

/-- Over every run of calls that may be cut off anywhere, each file was published
once where the root has it and never where not, and a job was claimed once where
its status says so. -/
theorem published_once (rules : SetupRules) (steps : List Attempt) (point : SetupPoint) :
    ((run (attempt rules) .empty steps).root.tells point).all fun there =>
      (run (attempt rules) .empty steps).points.count point == there.toNat := by
  have hkp : Kept rules fun points root => (root.tells point).all fun there =>
    points.count point == there.toNat := by
    intro points root passed root' h hmv
    obtain ⟨hnew, hnx⟩ := hmv.tells
    rw [hnx point, count_append, count_singleton]
    by_cases hpi : point = passed
    · subst hpi
      cases htel : root.tells point with
      | none => rfl
      | some there =>
        rw [htel] at h hnew
        cases there with
        | true => exact absurd rfl hnew
        | false => simpa using h
    · have hne : (passed == point) = false := beq_eq_false_iff_ne.2 (Ne.symm hpi)
      simpa [hpi, hne] using h
  apply hkp.run
  cases point <;> rfl

end Setup

end WebOvpn
