/-
What the resolution of an attachment depends on: the candidates, but not the order
in which they were found.
-/
import WebOvpn.Netctl.AttachmentLog

namespace WebOvpn.Attachments

open List

variable {candidates candidates' : List Candidate} {candidate other : Candidate}

/-- The tuple that `_candidate_order` makes. -/
def Candidate.sortKey (candidate : Candidate) : Int ×ₗ Nat ×ₗ Int ×ₗ Nat ×ₗ Text ×ₗ Text :=
  toLex (-(candidate.score.val : Int), toLex (if candidate.candidateClass = .direct then 0 else 1,
    toLex (-candidate.topologyDepth.elim (-1) fun depth => (depth : Int), toLex (candidate.switchSourceId,
      toLex (candidate.portKey, candidate.vlanKey)))))

theorem isBefore_iff : candidate.isBefore other = true ↔ candidate.sortKey ≤ other.sortKey := by
  unfold Candidate.isBefore Candidate.sortKey
  apply ite_iff_toLex_le
  · rw [ne_eq, Fin.ext_iff]
    omega
  · rw [decide_eq_true_eq, Fin.lt_def]
    omega
  apply ite_iff_toLex_le Iff.rfl decide_eq_true_iff
  apply ite_iff_toLex_le
  · exact Int.neg_inj.not.symm
  · rw [decide_eq_true_eq]
    exact Int.neg_lt_neg_iff.symm
  apply ite_iff_toLex_le Iff.rfl decide_eq_true_iff
  rw [Prod.Lex.toLex_le_toLex, ← Text.le_iff]
  split_ifs with hpr
  · rw [Text.le_iff]
    exact ⟨fun h => .inl (lt_of_le_of_ne h hpr), fun h => (h.resolve_right fun h => hpr h.1).le⟩
  · have hpr := not_not.1 hpr
    exact ⟨fun h => .inr ⟨hpr, h⟩, fun h => (h.resolve_left fun h => h.ne hpr).2⟩

/-- The candidates as `resolve_attachment` goes through them. -/
def ordered (candidates : List Candidate) : List Candidate := candidates.mergeSort Candidate.isBefore

theorem ordered_perm (candidates : List Candidate) : (ordered candidates).Perm candidates :=
  mergeSort_perm ..

theorem ordered_pairwise (candidates : List Candidate) :
    (ordered candidates).Pairwise fun a b => a.sortKey ≤ b.sortKey := by
  have hsr : (ordered candidates).Pairwise fun a b => a.isBefore b = true := by
    apply pairwise_mergeSort
    · intro a b c hab hbc
      exact isBefore_iff.2 ((isBefore_iff.1 hab).trans (isBefore_iff.1 hbc))
    · intro a b
      rw [Bool.or_eq_true, isBefore_iff, isBefore_iff]
      exact le_total _ _
  exact hsr.imp isBefore_iff.1

theorem keys_ordered (h : candidates.Perm candidates') :
    (ordered candidates).map Candidate.sortKey = (ordered candidates').map Candidate.sortKey := by
  have hpr := ((ordered_perm candidates).trans (h.trans (ordered_perm candidates').symm)).map Candidate.sortKey
  have hsr := pairwise_map.2 (ordered_pairwise candidates)
  have hsr' := pairwise_map.2 (ordered_pairwise candidates')
  apply hpr.eq_of_pairwise _ hsr hsr'
  intro a b _ _ hab hba
  exact le_antisymm hab hba

theorem score_eq_of_sortKey (h : candidate.sortKey = other.sortKey) : candidate.score = other.score := by
  have hsc := (Prod.mk.inj (toLex_inj.1 h)).1
  exact Fin.ext (Int.ofNat_inj.1 (Int.neg_inj.1 hsc))

theorem score_le_of_sortKey (h : candidate.sortKey ≤ other.sortKey) : other.score ≤ candidate.score := by
  rcases Prod.Lex.toLex_le_toLex.1 h with hlt | ⟨heq, -⟩
  · rw [Fin.le_def]
    dsimp only at hlt
    omega
  · rw [Fin.le_def]
    dsimp only at heq
    omega

structure Leads (candidates : List Candidate) (candidate : Candidate) : Prop where
  mem : candidate ∈ candidates
  direct : candidate.candidateClass = .direct
  enough : 75 ≤ candidate.score.val
  ahead : ∀ other ∈ candidates, other ≠ candidate → other.score.val + 15 ≤ candidate.score.val

theorem Leads.eq (h : Leads candidates candidate) (h' : Leads candidates other) : other = candidate := by
  by_contra hne
  have hahe := h.ahead other h'.mem hne
  have hahe' := h'.ahead candidate h.mem (Ne.symm hne)
  omega

theorem Leads.of_mem (h : Leads candidates candidate)
    (hmem : ∀ other, other ∈ candidates ↔ other ∈ candidates') :
    Leads candidates' candidate :=
  ⟨(hmem _).1 h.mem, h.direct, h.enough, fun other hot => h.ahead other ((hmem other).2 hot)⟩

theorem foldl_max_le {scores : List Int} {first bound : Int} :
    scores.foldl max first ≤ bound ↔ first ≤ bound ∧ ∀ score ∈ scores, score ≤ bound := by
  induction scores generalizing first with
  | nil => simp
  | cons score scores ih =>
    rw [foldl_cons, ih, forall_mem_cons, max_le_iff, and_assoc]

theorem margin_iff (hmem : candidate ∈ candidates) (hdir : candidate.candidateClass = .direct) :
    (75 ≤ candidate.score.val ∧
      15 ≤ (candidate.score : Int) - ((candidates.filter fun other => other ≠ candidate).map
      fun other => (other.score : Int)).foldl max (-100)) ↔ Leads candidates candidate := by
  have hle : ∀ next : Int, 15 ≤ (candidate.score : Int) - next ↔ next ≤ (candidate.score : Int) - 15 := by
    intro next
    omega
  rw [hle, foldl_max_le, forall_mem_map]
  simp only [mem_filter, decide_eq_true_eq, and_imp]
  constructor
  · rintro ⟨heno, -, hahe⟩
    refine ⟨hmem, hdir, heno, ?_⟩
    intro other hot hne
    have := hahe other hot hne
    omega
  · rintro ⟨-, -, heno, hahe⟩
    refine ⟨heno, by omega, ?_⟩
    intro other hot hne
    have := hahe other hot hne
    omega

theorem find_direct_of_leads (h : Leads candidates candidate) :
    (ordered candidates).find? (fun candidate => candidate.candidateClass = .direct) =
      some candidate := by
  have hmem : candidate ∈ ordered candidates := (ordered_perm candidates).mem_iff.2 h.mem
  have hsm : ((ordered candidates).find? fun candidate => candidate.candidateClass = .direct).isSome = true :=
    find?_isSome.2 ⟨candidate, hmem, decide_eq_true h.direct⟩
  obtain ⟨found, hfn⟩ := Option.isSome_iff_exists.1 hsm
  obtain ⟨before, after, heq, hbf⟩ := (find?_eq_some_iff_append.1 hfn).2
  rw [hfn]
  by_contra hne
  have hne : candidate ≠ found := fun h => hne (congrArg some h.symm)
  rw [heq] at hmem
  have haf : candidate ∈ after := by
    rcases mem_append.1 hmem with hmem | hmem
    · have hnot := hbf candidate hmem
      simp [h.direct] at hnot
    · exact (mem_cons.1 hmem).resolve_left hne
  have hsr := ordered_pairwise candidates
  rw [heq] at hsr
  have hkey := (pairwise_cons.1 (pairwise_append.1 hsr).2.1).1 candidate haf
  have hsc := score_le_of_sortKey hkey
  have hahe := h.ahead found ((ordered_perm candidates).mem_iff.1 (mem_of_find?_eq_some hfn)) hne.symm
  rw [Fin.le_def] at hsc
  omega

def topScore (candidates : List Candidate) : Nat :=
  (ordered candidates).head?.elim 0 fun first => first.score

/-- The four outcomes: nothing was found, uplinks alone, a candidate that leads, or none that does. -/
inductive Outcome (candidates : List Candidate) : Resolution → Prop where
  | unresolved (hnn : candidates = []) : Outcome candidates ⟨.unresolved, none, 0, []⟩
  | uplinkOnly (hsm : candidates ≠ []) (hupl : ∀ candidate ∈ candidates, candidate.candidateClass = .uplink) :
      Outcome candidates ⟨.uplinkOnly, none, min 60 (topScore candidates), ordered candidates⟩
  | confirmed (candidate : Candidate) (hla : Leads candidates candidate) :
      Outcome candidates ⟨.confirmed, some candidate, candidate.score, ordered candidates⟩
  | ambiguous (hot : ∃ candidate ∈ candidates, candidate.candidateClass ≠ .uplink)
      (hnn : ∀ candidate, ¬ Leads candidates candidate) :
      Outcome candidates ⟨.ambiguous, none, min 60 (topScore candidates), ordered candidates⟩

theorem resolveAttachment_outcome (candidates : List Candidate) :
    Outcome candidates (resolveAttachment candidates) := by
  have hmem : ∀ candidate, candidate ∈ ordered candidates ↔ candidate ∈ candidates :=
    fun _ => (ordered_perm candidates).mem_iff
  have hla : ∀ candidate, Leads (ordered candidates) candidate ↔ Leads candidates candidate :=
    fun _ => ⟨fun h => h.of_mem hmem, fun h => h.of_mem fun other => (hmem other).symm⟩
  have htop : topScore candidates = (ordered candidates).head?.elim 0 fun first => (first.score : Nat) := rfl
  have hfn := @find_direct_of_leads candidates
  unfold resolveAttachment
  dsimp only
  split
  · rename_i hnil
    change ordered candidates = [] at hnil
    exact .unresolved (Perm.nil_eq (hnil ▸ ordered_perm candidates)).symm
  · rename_i first rest hord
    change ordered candidates = first :: rest at hord
    have hfs : (first.score : Nat) = topScore candidates := by
      rw [htop, hord]
      rfl
    change Outcome candidates (if ((ordered candidates).all _) = true then _ else _)
    rw [hfs]
    split
    · rename_i hall
      apply Outcome.uplinkOnly
      · exact ne_nil_of_mem ((hmem first).1 (hord ▸ mem_cons_self))
      · intro candidate hcn
        exact of_decide_eq_true (all_eq_true.1 hall candidate ((hmem candidate).2 hcn))
    · rename_i hall
      have hot : ∃ candidate ∈ candidates, candidate.candidateClass ≠ .uplink := by
        by_contra hnot
        apply hall
        apply all_eq_true.2
        intro candidate hcn
        apply decide_eq_true
        by_contra hne
        exact hnot ⟨candidate, (hmem candidate).1 hcn, hne⟩
      split
      · rename_i highest hhg
        change (ordered candidates).find? _ = some highest at hhg
        have hdir : highest.candidateClass = .direct := by simpa using find?_some hhg
        have hmr := margin_iff (mem_of_find?_eq_some hhg) hdir
        split
        · rename_i h
          exact .confirmed highest ((hla highest).1 (hmr.1 h))
        · rename_i h
          apply Outcome.ambiguous hot
          intro candidate hcn
          rw [hfn hcn] at hhg
          cases hhg
          exact h (hmr.2 ((hla highest).2 hcn))
      · rename_i hnn
        change (ordered candidates).find? _ = none at hnn
        apply Outcome.ambiguous hot
        intro candidate hcn
        rw [hfn hcn] at hnn
        cases hnn

theorem selected_eq_some_iff :
    (resolveAttachment candidates).selected = some candidate ↔ Leads candidates candidate := by
  have hot := resolveAttachment_outcome candidates
  generalize resolveAttachment candidates = resolution at hot
  cases hot with
  | unresolved hnn =>
    subst hnn
    exact iff_of_false nofun fun h => not_mem_nil h.mem
  | uplinkOnly hsm hupl =>
    apply iff_of_false nofun
    intro h
    have := (hupl candidate h.mem).symm.trans h.direct
    cases this
  | confirmed first hla =>
    constructor
    · intro h
      cases h
      exact hla
    · intro h
      exact congrArg some (h.eq hla)
  | ambiguous _ hnn => exact iff_of_false nofun (hnn candidate)

theorem topScore_perm (h : candidates.Perm candidates') :
    topScore candidates = topScore candidates' := by
  have hks := congrArg List.head? (keys_ordered h)
  rw [head?_map, head?_map] at hks
  unfold topScore
  cases hfs : (ordered candidates).head? with
  | none =>
    rw [hfs, Option.map_none, eq_comm, Option.map_eq_none_iff] at hks
    rw [hks]
  | some first =>
    rw [hfs, Option.map_some, eq_comm, Option.map_eq_some_iff] at hks
    obtain ⟨first', hfs', hkey⟩ := hks
    rw [hfs']
    exact congrArg Fin.val (score_eq_of_sortKey hkey).symm

/-- Two resolutions that differ at most in the order of alternatives that are alike. -/
structure SameUpToTies (resolution resolution' : Resolution) : Prop where
  status : resolution.status = resolution'.status
  selected : resolution.selected = resolution'.selected
  confidence : resolution.confidence = resolution'.confidence
  perm : resolution.alternatives.Perm resolution'.alternatives
  keys : resolution.alternatives.map Candidate.sortKey = resolution'.alternatives.map Candidate.sortKey

theorem resolveAttachment_perm (h : candidates.Perm candidates') :
    SameUpToTies (resolveAttachment candidates) (resolveAttachment candidates') := by
  have hla : ∀ candidate, Leads candidates candidate ↔ Leads candidates' candidate :=
    fun _ => ⟨fun leads => leads.of_mem fun _ => h.mem_iff, fun leads => leads.of_mem fun _ => h.symm.mem_iff⟩
  have hpr := (ordered_perm candidates).trans (h.trans (ordered_perm candidates').symm)
  have hou := resolveAttachment_outcome candidates
  have hot' := resolveAttachment_outcome candidates'
  generalize resolveAttachment candidates = resolution at hou
  generalize resolveAttachment candidates' = resolution' at hot'
  have htop := topScore_perm h
  cases hou with
  | unresolved hnn =>
    subst hnn
    have hnil := h.nil_eq
    subst hnil
    cases hot' with
    | unresolved => exact ⟨rfl, rfl, rfl, .refl _, rfl⟩
    | uplinkOnly hsm => exact absurd rfl hsm
    | confirmed candidate leads => cases leads.mem
    | ambiguous hot =>
      obtain ⟨candidate, hmem, -⟩ := hot
      cases hmem
  | uplinkOnly hsm hupl =>
    cases hot' with
    | unresolved hnn =>
      subst hnn
      exact absurd h.eq_nil hsm
    | uplinkOnly => exact ⟨rfl, rfl, congrArg (min 60) htop, hpr, keys_ordered h⟩
    | confirmed candidate leads =>
      have := (hupl candidate (h.mem_iff.2 leads.mem)).symm.trans leads.direct
      cases this
    | ambiguous hot =>
      obtain ⟨candidate, hmem, hne⟩ := hot
      exact absurd (hupl candidate (h.mem_iff.2 hmem)) hne
  | confirmed candidate leads =>
    have leads' := (hla candidate).1 leads
    cases hot' with
    | unresolved hnn =>
      subst hnn
      cases leads'.mem
    | uplinkOnly hsm hupl =>
      have := (hupl candidate leads'.mem).symm.trans leads'.direct
      cases this
    | confirmed other leadsOther =>
      have heq := leads'.eq leadsOther
      subst heq
      exact ⟨rfl, rfl, rfl, hpr, keys_ordered h⟩
    | ambiguous _ hnn => exact absurd leads' (hnn candidate)
  | ambiguous hot hnn =>
    obtain ⟨candidate, hmem, hne⟩ := hot
    cases hot' with
    | unresolved hnil =>
      subst hnil
      cases h.eq_nil
      cases hmem
    | uplinkOnly _ hupl => exact absurd (hupl candidate (h.mem_iff.1 hmem)) hne
    | confirmed other leads => exact absurd ((hla other).2 leads) (hnn other)
    | ambiguous => exact ⟨rfl, rfl, congrArg (min 60) htop, hpr, keys_ordered h⟩

def Candidate.location (candidate : Candidate) : Nat × Text × Text :=
  (candidate.switchSourceId, candidate.portKey, candidate.vlanKey)

theorem location_eq_of_sortKey (h : candidate.sortKey = other.sortKey) :
    candidate.location = other.location := by
  have hpl := (Prod.mk.inj (toLex_inj.1 (Prod.mk.inj (toLex_inj.1 (Prod.mk.inj (toLex_inj.1 h)).2)).2)).2
  obtain ⟨hswi, hrs⟩ := Prod.mk.inj (toLex_inj.1 hpl)
  obtain ⟨hpr, hvl⟩ := Prod.mk.inj (toLex_inj.1 hrs)
  unfold Candidate.location
  rw [hswi, hpr, hvl]

theorem SameUpToTies.eq {resolution resolution' : Resolution} (h : SameUpToTies resolution resolution')
    (hkey : ∀ a ∈ resolution.alternatives, ∀ b ∈ resolution.alternatives,
      a.location = b.location → a = b) :
    resolution = resolution' := by
  have halt : resolution.alternatives = resolution'.alternatives := by
    apply eq_of_map_eq _ h.keys
    intro a ha b hb hsm
    exact hkey a ha b (h.perm.mem_iff.2 hb) (location_eq_of_sortKey hsm)
  obtain ⟨status, selected, confidence, alternatives⟩ := resolution
  obtain ⟨status', selected', confidence', alternatives'⟩ := resolution'
  obtain ⟨rfl, rfl, rfl, -, -⟩ := h
  exact congrArg _ halt

theorem mem_alternatives {resolution : Resolution} (hot : Outcome candidates resolution) :
    candidate ∈ resolution.alternatives ↔ candidate ∈ candidates := by
  have hmem : candidate ∈ ordered candidates ↔ candidate ∈ candidates := (ordered_perm candidates).mem_iff
  cases hot with
  | unresolved hnn =>
    subst hnn
    exact Iff.rfl
  | _ => exact hmem

def Resolution.ConfirmedAt (resolution : Resolution) (location : Nat × Text × Text) : Prop :=
  resolution.status = .confirmed ∧ ∃ candidate, resolution.selected = some candidate ∧
    candidate.location = location

theorem confirmedAt_iff {location : Nat × Text × Text} :
    (resolveAttachment candidates).ConfirmedAt location ↔
      ∃ candidate, Leads candidates candidate ∧ candidate.location = location := by
  unfold Resolution.ConfirmedAt
  rw [confirmed_iff]
  constructor
  · rintro ⟨-, candidate, hsl, hlc⟩
    exact ⟨candidate, selected_eq_some_iff.1 hsl, hlc⟩
  · rintro ⟨candidate, hla, hlc⟩
    have hsl := selected_eq_some_iff.2 hla
    exact ⟨Option.isSome_of_eq_some hsl, candidate, hsl, hlc⟩

/-- The order of the candidates shows at most in the order of alternatives that are alike.  The
attachment is confirmed at a location if and only if a direct candidate there reaches the threshold
and leads every other candidate by the margin; with one candidate for each location, these are the
candidates of the other locations. -/
theorem resolveAttachment_order_free (candidates : List Candidate) :
    (∀ candidates', candidates.Perm candidates' →
      SameUpToTies (resolveAttachment candidates) (resolveAttachment candidates')) ∧
    (∀ location, (resolveAttachment candidates).ConfirmedAt location ↔
      ∃ candidate ∈ candidates, candidate.candidateClass = .direct ∧ candidate.location = location ∧
        75 ≤ candidate.score.val ∧
        ∀ other ∈ candidates, other ≠ candidate → other.score.val + 15 ≤ candidate.score.val) ∧
    ((∀ a ∈ candidates, ∀ b ∈ candidates, a.location = b.location → a = b) →
      (∀ candidates', candidates.Perm candidates' →
        resolveAttachment candidates = resolveAttachment candidates') ∧
      ∀ location, (resolveAttachment candidates).ConfirmedAt location ↔
        ∃ candidate ∈ candidates, candidate.candidateClass = .direct ∧ candidate.location = location ∧
          75 ≤ candidate.score.val ∧
          ∀ other ∈ candidates, other.location ≠ location →
            other.score.val + 15 ≤ candidate.score.val) := by
  refine ⟨fun candidates' => resolveAttachment_perm, ?_, ?_⟩
  · intro location
    rw [confirmedAt_iff]
    constructor
    · rintro ⟨candidate, ⟨hmem, hdir, heno, hahe⟩, hlc⟩
      exact ⟨candidate, hmem, hdir, hlc, heno, hahe⟩
    · rintro ⟨candidate, hmem, hdir, hlc, heno, hahe⟩
      exact ⟨candidate, ⟨hmem, hdir, heno, hahe⟩, hlc⟩
  · intro hun
    constructor
    · intro candidates' hpr
      apply (resolveAttachment_perm hpr).eq
      have hmem :=
        fun candidate =>
        @mem_alternatives candidates candidate _ (resolveAttachment_outcome candidates)
      intro a ha b hb
      exact hun a ((hmem a).1 ha) b ((hmem b).1 hb)
    · intro location
      rw [confirmedAt_iff]
      constructor
      · rintro ⟨candidate, ⟨hmem, hdir, heno, hahe⟩, rfl⟩
        refine ⟨candidate, hmem, hdir, rfl, heno, ?_⟩
        intro other hot hne
        exact hahe other hot fun heq => hne (congrArg Candidate.location heq)
      · rintro ⟨candidate, hmem, hdir, rfl, heno, hahe⟩
        refine ⟨candidate, ⟨hmem, hdir, heno, ?_⟩, rfl⟩
        intro other hot hne
        exact hahe other hot fun heq => hne (hun other hot candidate hmem heq)

def sampleTie (vlanKey observedAt : Text) : Candidate :=
  ⟨1, 1, 10, "p", vlanKey, none, .direct, none, 85, observedAt, [], []⟩

/-- Two candidates for one location that were observed at different times are left in the order in
which they were given, and stand in each other's way. -/
theorem alike_candidates_rival :
    (¬ ∀ candidates', [sampleTie [] "a", sampleTie [] "b"].Perm candidates' →
      resolveAttachment [sampleTie [] "a", sampleTie [] "b"] = resolveAttachment candidates') ∧
    (∀ a ∈ [sampleTie [] (text "a"), sampleTie [] (text "b")], a.location = (10, text "p", []) ∧
      75 ≤ a.score.val) ∧
    ¬ (resolveAttachment [sampleTie [] "a", sampleTie [] "b"]).ConfirmedAt (10, "p", []) := by
  have hsr : ∀ a b, a.isBefore b = true → ordered [a, b] = [a, b] := by
    intro a b hab
    apply mergeSort_of_pairwise
    exact pairwise_pair.2 hab
  have hne : sampleTie [] "a" ≠ sampleTie [] "b" := by decide
  have hmem : sampleTie [] "b" ∈ [sampleTie [] "a", sampleTie [] "b"] := by simp
  have hnot : ∀ candidate, ¬ Leads [sampleTie [] "a", sampleTie [] "b"] candidate := by
    intro candidate hla
    rcases mem_cons.1 hla.mem with rfl | hcn
    · have := hla.ahead _ hmem hne.symm
      exact absurd this (by decide)
    · rw [mem_singleton] at hcn
      subst hcn
      have := hla.ahead _ mem_cons_self hne
      exact absurd this (by decide)
  refine ⟨?_, by decide, ?_⟩
  · intro h
    have hsm := congrArg Resolution.alternatives (h _ (Perm.swap ..))
    have halt : ∀ a b, a.isBefore b = true → a.candidateClass = .direct →
        (resolveAttachment [a, b]).alternatives = ordered [a, b] := by
      intro a b _ _
      have hot := resolveAttachment_outcome [a, b]
      generalize resolveAttachment [a, b] = resolution at hot
      cases hot with
      | unresolved hnn => cases hnn
      | _ => rfl
    rw [halt _ _ (by decide) rfl, halt _ _ (by decide) rfl, hsr _ _ (by decide),
      hsr _ _ (by decide)] at hsm
    exact hne (List.cons.inj hsm).1
  · rw [confirmedAt_iff]
    rintro ⟨candidate, hla, -⟩
    exact hnot candidate hla

end WebOvpn.Attachments
