/-
The device type that the evidence about an asset tells: the best item of every
signal, the scores and the tiers of the types, and the gates of the decision.
-/
import Mathlib.Algebra.Order.BigOperators.Group.Finset
import WebOvpn.Lib.Keyed
import WebOvpn.Lib.Sorted

namespace WebOvpn.FingerprintEngine

open List

/-- `SUPPORTED_DEVICE_TYPES` without `unknown`. -/
inductive CandidateType where
  | pc | phone | server | network | camera | printer | noise
  deriving DecidableEq

def CandidateType.name : CandidateType → Text
  | pc => "pc"
  | phone => "phone"
  | server => "server"
  | network => "network"
  | camera => "camera"
  | printer => "printer"
  | noise => "noise"

structure FingerprintEvidence where
  provider : Text
  signal : Text
  candidateType : CandidateType
  weight : Nat
  summary : Text
  hasWeight : 1 ≤ weight ∧ weight ≤ 100
  deriving DecidableEq

structure AssetFingerprint where
  /-- `none` is `unknown`. -/
  deviceType : Option CandidateType
  confidence : Nat
  evidence : List FingerprintEvidence
  alternatives : List (CandidateType × Nat)

/-- The place of `_tier` in `_TIER_RANK`. -/
def tierRank (weight : Nat) : Nat := if 80 ≤ weight then 2 else if 30 ≤ weight then 1 else 0

namespace FingerprintEvidence

variable (item : FingerprintEvidence)

def order : Int ×ₗ Int ×ₗ Text ×ₗ Text ×ₗ Text ×ₗ Text :=
  toLex (-(tierRank item.weight : Int), toLex (-(item.weight : Int), toLex (item.candidateType.name,
    toLex (item.provider, toLex (item.signal, item.summary)))))

def source : Text × Text := (item.provider, item.signal)

def key : CandidateType × Text × Text := (item.candidateType, item.source)

def preference : Int ×ₗ Nat ×ₗ Text :=
  toLex (-(item.weight : Int), toLex (item.summary.length, item.summary))

end FingerprintEvidence

/-- One turn of the loop that fills `by_signal`. -/
def gather (bySignal : Keyed FingerprintEvidence.key) (item : FingerprintEvidence) :
    Keyed FingerprintEvidence.key :=
  match bySignal.find item.key with
  | none => bySignal.put item
  | some current => if item.preference < current.preference then bySignal.put item else bySignal

def normalized (evidence : List FingerprintEvidence) : List FingerprintEvidence :=
  sortedBy FingerprintEvidence.order (evidence.foldl gather .empty).rows

def ofType (evidence : List FingerprintEvidence) (candidate : CandidateType) :
    List FingerprintEvidence :=
  evidence.filter fun item => item.candidateType = candidate

def topTier (items : List FingerprintEvidence) : Int :=
  (items.map fun item => (tierRank item.weight : Int)).foldr max (-1)

/-- The keys of `scores`. -/
def types (items : List FingerprintEvidence) : List CandidateType := (items.map (·.candidateType)).dedup

section

variable (scores : CandidateType → Nat) (tiers : CandidateType → Int)

def candidateRank (candidate : CandidateType) : Int ×ₗ Int ×ₗ Text :=
  toLex (-tiers candidate, toLex (-(scores candidate : Int), candidate.name))

def secondScore (top : CandidateType) (others : List CandidateType) : Nat :=
  ((others.filter fun other => tiers other = tiers top).map scores).foldr max 0

/-- The end of `classify_evidence`, from the capped scores and the tiers on. -/
def judge (items : List FingerprintEvidence) : AssetFingerprint :=
  match sortedBy (candidateRank scores tiers) (types items) with
  | [] => ⟨none, 0, [], []⟩
  | top :: others =>
    if 60 ≤ scores top ∧
      secondScore scores tiers top others + 15 ≤ scores top then ⟨some top, scores top, items, []⟩
    else ⟨none, scores top, items, (top :: others).map fun candidate => (candidate, scores candidate)⟩

end

def classifyEvidence (evidence : List FingerprintEvidence) : AssetFingerprint :=
  let items := normalized evidence
  judge (fun candidate => min 100 ((ofType items candidate).map FingerprintEvidence.weight).sum)
    (fun candidate => topTier (ofType items candidate)) items

def greatest (items : List FingerprintEvidence) (source : Text × Text) : Nat :=
  ((items.filter fun item => item.source = source).map FingerprintEvidence.weight).foldr max 0

def total (items : List FingerprintEvidence) : Nat :=
  ∑ source ∈ (items.map FingerprintEvidence.source).toFinset, greatest items source

def score (evidence : List FingerprintEvidence) (candidate : CandidateType) : Nat :=
  min 100 (total (ofType evidence candidate))

def tier (evidence : List FingerprintEvidence) (candidate : CandidateType) : Int :=
  topTier (ofType evidence candidate)

variable {evidence evidence' more items items' : List FingerprintEvidence}
    {item other : FingerprintEvidence}
  {candidate : CandidateType}

theorem name_injective : Function.Injective CandidateType.name := by
  intro a b
  cases a <;> cases b <;> decide

theorem eq_of_preference (hkey : item.key = other.key) (h : item.preference = other.preference) :
    item = other := by
  cases item
  cases other
  simp only [FingerprintEvidence.key, FingerprintEvidence.source, Prod.mk.injEq] at hkey
  simp only [FingerprintEvidence.preference, EmbeddingLike.apply_eq_iff_eq, Prod.mk.injEq, neg_inj,
    Int.natCast_inj] at h
  simp only [hkey, h]

theorem weight_le (h : item.preference ≤ other.preference) : other.weight ≤ item.weight := by
  have := (Prod.Lex.toLex_le_toLex'.1 h).1
  simpa using this

theorem tierRank_mono {m n : Nat} (h : m ≤ n) : tierRank m ≤ tierRank n := by
  unfold tierRank
  grind

structure Keeps (seen kept : List FingerprintEvidence) : Prop where
  nodup : (kept.map FingerprintEvidence.key).Nodup
  mem : ∀ item ∈ kept, item ∈ seen
  best : ∀ other ∈ seen, ∃ item ∈ kept, item.key = other.key ∧ item.preference ≤ other.preference

theorem Keeps.put {seen : List FingerprintEvidence} {kept : Keyed FingerprintEvidence.key}
    (h : Keeps seen kept.rows)
    (hbt : ∀ current ∈ kept.rows, current.key = item.key → item.preference ≤ current.preference) :
    Keeps (seen ++ [item]) (kept.put item).rows := by
  refine ⟨(kept.put item).unique, by grind [Keyed.mem_put, h.mem], fun other hot => ?_⟩
  have hit : item ∈ (kept.put item).rows := Keyed.mem_put.2 (.inl rfl)
  rcases mem_append.1 hot with hot | hot
  · obtain ⟨best, hbs, hsm, hle⟩ := h.best other hot
    by_cases hkey : best.key = item.key
    · exact ⟨item, hit, hkey.symm.trans hsm, (hbt best hbs hkey).trans hle⟩
    · exact ⟨best, Keyed.mem_put.2 (.inr ⟨hbs, hkey⟩), hsm, hle⟩
  · exact ⟨item, hit, by simp_all⟩

theorem keeps_foldl (evidence : List FingerprintEvidence) :
    Keeps evidence (evidence.foldl gather .empty).rows := by
  induction evidence using List.reverseRecOn with
  | nil => exact ⟨nodup_nil, by simp [Keyed.empty], by simp⟩
  | append_singleton evidence item ih =>
    rw [foldl_append, foldl_cons, foldl_nil, gather]
    split
    next hnn => exact ih.put fun current hcur hkey => absurd hkey (Keyed.find_eq_none_iff.1 hnn current hcur)
    next current hsm =>
      have hfn := Keyed.find_eq_some_iff.1 hsm
      split
      next hlt =>
        refine ih.put fun other hot hkey => ?_
        rw [inj_on_of_nodup_map ih.nodup hot hfn.1 (hkey.trans hfn.2.symm)]
        exact hlt.le
      next hle =>
        refine ⟨ih.nodup, by grind [ih.mem], fun other hot => ?_⟩
        rcases mem_append.1 hot with hot | hot
        · exact ih.best other hot
        · exact ⟨current, hfn.1, by simp_all⟩

theorem keeps_normalized (evidence : List FingerprintEvidence) :
    Keeps evidence (normalized evidence) where
  nodup := ((sortedBy_perm _ _).map _).nodup_iff.2 (keeps_foldl evidence).nodup
  mem := by simpa [normalized] using (keeps_foldl evidence).mem
  best := by simpa [normalized] using (keeps_foldl evidence).best

theorem Keeps.mem_iff {seen kept : List FingerprintEvidence} (h : Keeps seen kept) : item ∈ kept ↔
    item ∈ seen ∧ ∀ other ∈ seen, other.key = item.key → item.preference ≤ other.preference := by
  constructor
  · intro hit
    refine ⟨h.mem item hit, fun other hot hkey => ?_⟩
    obtain ⟨best, hbs, hsm, hle⟩ := h.best other hot
    rwa [← inj_on_of_nodup_map h.nodup hbs hit (hsm.trans hkey)]
  · rintro ⟨hit, hla⟩
    obtain ⟨best, hbs, hsm, hle⟩ := h.best item hit
    rwa [← eq_of_preference hsm (le_antisymm hle (hla best (h.mem best hbs) hsm))]

theorem order_injective (h : item.order = other.order) : item = other := by
  simp only [FingerprintEvidence.order, toLex_inj, Prod.mk.injEq] at h
  obtain ⟨-, hwei, hnm, hpr, hsig, hsum⟩ := h
  refine eq_of_preference ?_ (by simp [FingerprintEvidence.preference, hwei, hsum])
  simp [FingerprintEvidence.key, FingerprintEvidence.source, name_injective hnm, hpr, hsig]

theorem normalized_congr (h : ∀ item, item ∈ evidence ↔ item ∈ evidence') :
    normalized evidence = normalized evidence' := by
  refine sortedBy_eq_of_perm (fun _ _ _ _ => order_injective) ?_
  refine (perm_ext_iff_of_nodup (.of_map _ (keeps_foldl evidence).nodup)
    (.of_map _ (keeps_foldl evidence').nodup)).2 ?_
  intro item
  simp only [(keeps_foldl _).mem_iff, h]

theorem foldr_max_le_iff {κ : Type} [LinearOrder κ] {least bound : κ} {ranks : List κ} :
    ranks.foldr max least ≤ bound ↔ least ≤ bound ∧ ∀ rank ∈ ranks, rank ≤ bound := by
  induction ranks with
  | nil => simp
  | cons rank ranks ih => simp [ih, and_left_comm]

theorem topTier_le_iff {bound : Int} :
    topTier items ≤ bound ↔ -1 ≤ bound ∧ ∀ item ∈ items, (tierRank item.weight : Int) ≤ bound := by
  simp [topTier, foldr_max_le_iff]

theorem greatest_le_iff {source : Text × Text} {bound : Nat} :
    greatest items source ≤ bound ↔ ∀ item ∈ items, item.source = source → item.weight ≤ bound := by
  simp only [greatest, foldr_max_le_iff, forall_mem_map]
  simp

theorem secondScore_le_iff {scores : CandidateType → Nat} {tiers : CandidateType → Int}
    {top : CandidateType}
    {others : List CandidateType} {bound : Nat} : secondScore scores tiers top others ≤ bound ↔
      ∀ other ∈ others, tiers other = tiers top → scores other ≤ bound := by
  simp only [secondScore, foldr_max_le_iff, forall_mem_map]
  simp

theorem mem_types : candidate ∈ types items ↔ ∃ item ∈ items, item.candidateType = candidate := by
  simp [types]

theorem mem_ofType :
    item ∈ ofType evidence candidate ↔ item ∈ evidence ∧ item.candidateType = candidate := by
  simp [ofType]

theorem topTier_normalized (candidate : CandidateType) :
    topTier (ofType (normalized evidence) candidate) = tier evidence candidate := by
  have hke := keeps_normalized evidence
  refine eq_of_forall_ge_iff fun bound => ?_
  simp only [tier, topTier_le_iff, mem_ofType, and_imp]
  refine and_congr_right fun _ => ⟨fun h item hit hty => ?_, fun h item hit => h item (hke.mem item hit)⟩
  obtain ⟨best, hbs, hkey, hle⟩ := hke.best item hit
  have hmon := tierRank_mono (weight_le hle)
  have := h best hbs ((Prod.mk.inj hkey).1.trans hty)
  omega

theorem sum_normalized (candidate : CandidateType) :
    ((ofType (normalized evidence) candidate).map FingerprintEvidence.weight).sum =
    total (ofType evidence candidate) := by
  have hke := keeps_normalized evidence
  have hnd : ((ofType (normalized evidence) candidate).map FingerprintEvidence.source).Nodup := by
    refine Nodup.map_on ?_ ((Nodup.of_map _ hke.nodup).filter _)
    intro a ha b hb hsrc
    rw [mem_ofType] at ha hb
    exact inj_on_of_nodup_map hke.nodup ha.1 hb.1 (Prod.ext (ha.2.trans hb.2.symm) hsrc)
  have hsr : ((ofType evidence candidate).map FingerprintEvidence.source).toFinset =
      ((ofType (normalized evidence) candidate).map FingerprintEvidence.source).toFinset := by
    ext source
    simp only [mem_toFinset, mem_map, mem_ofType]
    constructor
    · rintro ⟨item, ⟨hit, hty⟩, rfl⟩
      obtain ⟨best, hbs, hkey, -⟩ := hke.best item hit
      exact ⟨best, ⟨hbs, (Prod.mk.inj hkey).1.trans hty⟩, (Prod.mk.inj hkey).2⟩
    · rintro ⟨item, ⟨hit, hty⟩, rfl⟩
      exact ⟨item, ⟨hke.mem item hit, hty⟩, rfl⟩
  rw [total, hsr, sum_toFinset _ hnd, map_map]
  congr 1
  refine map_congr_left fun item hit => ?_
  rw [mem_ofType] at hit
  refine le_antisymm ?_ (greatest_le_iff.2 fun other hot hsrc => ?_)
  · exact greatest_le_iff.1 le_rfl item (mem_ofType.2 ⟨hke.mem item hit.1, hit.2⟩) rfl
  · rw [mem_ofType] at hot
    exact weight_le ((hke.mem_iff.1 hit.1).2 other hot.1 (Prod.ext (hot.2.trans hit.2.symm) hsrc))

theorem classifyEvidence_eq (evidence : List FingerprintEvidence) :
    classifyEvidence evidence = judge (score evidence) (tier evidence) (normalized evidence) := by
  simp only [classifyEvidence, sum_normalized, topTier_normalized]
  rfl

structure Wins (scores : CandidateType → Nat) (tiers : CandidateType → Int)
    (candidate : CandidateType) : Prop where
  enough : 60 ≤ scores candidate
  margin : ∀ other, other ≠ candidate → tiers other = tiers candidate → scores other + 15 ≤ scores candidate
  highest : ∀ other, tiers other ≤ tiers candidate

theorem judge_spec {scores : CandidateType → Nat} {tiers : CandidateType → Int}
    (hsc : ∀ other, other ∉ types items → scores other = 0)
    (htiers : ∀ other, other ∉ types items →
      ∀ held ∈ types items, tiers other < tiers held) :
    ((judge scores tiers items).deviceType = some candidate ↔ Wins scores tiers candidate) ∧
      ((judge scores tiers items).deviceType = some candidate →
        (judge scores tiers items).confidence = scores candidate) := by
  have hmem : ∀ other, other ∈ sortedBy (candidateRank scores tiers) (types items) ↔
      other ∈ types items := by simp
  have hsr := sortedBy_pairwise (candidateRank scores tiers) (types items)
  have hnd : (sortedBy (candidateRank scores tiers) (types items)).Nodup :=
    (sortedBy_perm _ _).nodup_iff.2 (nodup_dedup _)
  rw [judge]
  generalize sortedBy (candidateRank scores tiers) (types items) = ranked at *
  cases ranked with
  | nil =>
    refine ⟨⟨nofun, fun h => ?_⟩, nofun⟩
    have := hsc candidate (by simp [← hmem])
    have := h.enough
    omega
  | cons top others =>
    have hla : ∀ other ∈ others, tiers other ≤ tiers top ∧
      (tiers other = tiers top → scores other ≤ scores top) := by
      intro other hot
      have := Prod.Lex.toLex_le_toLex.1 (rel_of_pairwise_cons hsr hot)
      simp only [Prod.Lex.toLex_le_toLex] at this
      omega
    have hrs : ∀ other, other ≠ top → other ∈ others ∨ scores other = 0 ∧ tiers other < tiers top := by
      intro other hne
      by_cases hot : other ∈ top :: others
      · simp_all
      · rw [hmem] at hot
        exact .inr ⟨hsc other hot, htiers other hot top ((hmem top).1 mem_cons_self)⟩
    have hun (h : Wins scores tiers candidate) : top = candidate := by
      by_contra hne
      have := h.enough
      have := h.highest top
      have := h.margin top hne
      rcases hrs candidate (Ne.symm hne) with hot | hot
      · have := hla candidate hot
        omega
      · omega
    have hwis : Wins scores tiers top ↔ 60 ≤ scores top ∧
        secondScore scores tiers top others + 15 ≤ scores top := by
      constructor
      · intro h
        have heno := h.enough
        have hsn : secondScore scores tiers top others ≤ scores top - 15 := by
          refine secondScore_le_iff.2 ?_
          intro other hot htie
          have := h.margin other (fun heq => (nodup_cons.1 hnd).1 (heq ▸ hot)) htie
          omega
        omega
      · rintro ⟨heno, hmr⟩
        have hsn := secondScore_le_iff.1 (le_refl (secondScore scores tiers top others))
        refine ⟨heno, fun other hne htie => ?_, fun other => ?_⟩
        · rcases hrs other hne with hot | hot
          · have := hsn other hot htie
            omega
          · omega
        · by_cases hne : other = top
          · rw [hne]
          · rcases hrs other hne with hot | hot
            · exact (hla other hot).1
            · exact hot.2.le
    dsimp only
    split_ifs with hdc
    · refine ⟨⟨?_, fun h => congrArg some (hun h)⟩, ?_⟩
      · rintro ⟨⟩
        exact hwis.2 hdc
      · rintro ⟨⟩
        rfl
    · refine ⟨⟨nofun, fun h => absurd (hwis.1 ?_) hdc⟩, nofun⟩
      rwa [hun h]

theorem occurs_iff : candidate ∈ types (normalized evidence) ↔
    ofType evidence candidate ≠ [] := by
  have hke := keeps_normalized evidence
  rw [← isEmpty_eq_false_iff, isEmpty_eq_false_iff_exists_mem]
  simp only [mem_types, mem_ofType]
  constructor
  · rintro ⟨item, hit, hty⟩
    exact ⟨item, hke.mem item hit, hty⟩
  · rintro ⟨item, hit, hty⟩
    obtain ⟨best, hbs, hkey, -⟩ := hke.best item hit
    exact ⟨best, hbs, (Prod.mk.inj hkey).1.trans hty⟩

theorem classifyEvidence_spec (evidence : List FingerprintEvidence) (candidate : CandidateType) :
    ((classifyEvidence evidence).deviceType = some candidate ↔
      Wins (score evidence) (tier evidence) candidate) ∧
      ((classifyEvidence evidence).deviceType = some candidate →
        (classifyEvidence evidence).confidence = score evidence candidate) := by
  rw [classifyEvidence_eq]
  refine judge_spec (fun other hot => ?_) fun other hot held hhl => ?_
  · simp_all [occurs_iff, score, total]
  · obtain ⟨item, hit⟩ := exists_mem_of_ne_nil _ (occurs_iff.1 hhl)
    have := (topTier_le_iff.1 (le_refl (tier evidence held))).2 item hit
    have : tier evidence other = -1 := by simp_all [occurs_iff, tier, topTier]
    omega

theorem total_mono (h : items ⊆ items') : total items ≤ total items' := by
  refine (Finset.sum_le_sum fun source _ => ?_).trans (Finset.sum_le_sum_of_subset ?_)
  · exact greatest_le_iff.2 fun item hit => greatest_le_iff.1 le_rfl item (h hit)
  · intro source
    simp only [mem_toFinset, mem_map]
    rintro ⟨item, hit, rfl⟩
    exact ⟨item, h hit, rfl⟩

theorem topTier_mono (h : items ⊆ items') : topTier items ≤ topTier items' := by
  obtain ⟨hla, hits⟩ := topTier_le_iff.1 (le_refl (topTier items'))
  exact topTier_le_iff.2 ⟨hla, fun item hit => hits item (h hit)⟩

theorem append_of_ne (evidence : List FingerprintEvidence) (candidate : CandidateType)
    (h : ∀ item ∈ more, item.candidateType ≠ candidate) :
    score (evidence ++ more) candidate = score evidence candidate ∧
      tier (evidence ++ more) candidate = tier evidence candidate := by
  have hsm : ofType (evidence ++ more) candidate = ofType evidence candidate := by simpa [ofType] using h
  simp only [score, tier, hsm, and_self]

theorem Wins.append_own (h : Wins (score evidence) (tier evidence) candidate)
    (hmr : ∀ item ∈ more, item.candidateType = candidate) :
    Wins (score (evidence ++ more)) (tier (evidence ++ more)) candidate ∧
      score evidence candidate ≤ score (evidence ++ more) candidate := by
  have hsub : ofType evidence candidate ⊆ ofType (evidence ++ more) candidate := by simp [ofType]
  have hsc : score evidence candidate ≤ score (evidence ++ more) candidate := min_le_min_left _ (total_mono hsub)
  have htie : tier evidence candidate ≤ tier (evidence ++ more) candidate := topTier_mono hsub
  have hsm (other) (hne : other ≠ candidate) := append_of_ne evidence other
    fun item hit heq => hne (heq.symm.trans (hmr item hit))
  refine ⟨⟨h.enough.trans hsc, fun other hne heq => ?_, fun other => ?_⟩, hsc⟩
  · have hhg := h.highest other
    have hma := h.margin other hne
    have := hsm other hne
    omega
  · by_cases hne : other = candidate
    · rw [hne]
    · exact (hsm other hne).2.le.trans ((h.highest other).trans htie)

theorem Wins.append_others (h : Wins (score evidence) (tier evidence) candidate)
    (hmr : ∀ item ∈ more, item.candidateType ≠ candidate ∧
      tier (evidence ++ more) item.candidateType < tier (evidence ++ more) candidate) :
    Wins (score (evidence ++ more)) (tier (evidence ++ more)) candidate ∧
      score (evidence ++ more) candidate = score evidence candidate := by
  have hown := append_of_ne evidence candidate fun item hit => (hmr item hit).1
  have hot : ∀ other, tier (evidence ++ more) other < tier (evidence ++ more) candidate ∨
      score (evidence ++ more) other = score evidence other ∧
        tier (evidence ++ more) other = tier evidence other := by
    intro other
    by_cases hadd : ∃ item ∈ more, item.candidateType = other
    · obtain ⟨item, hit, rfl⟩ := hadd
      exact .inl (hmr item hit).2
    · exact .inr (append_of_ne evidence other fun item hit heq => hadd ⟨item, hit, heq⟩)
  refine ⟨⟨hown.1.ge.trans' h.enough, fun other hne heq => ?_, fun other => ?_⟩, hown.1⟩
  · have hma := h.margin other hne
    have := hot other
    omega
  · have hhg := h.highest other
    have := hot other
    omega

/-- The decision depends on the set of the evidence only, is the one winning candidate, and
more evidence for it, or weaker evidence for others, does not change it. -/
theorem classification_stable (evidence : List FingerprintEvidence) :
    (∀ evidence', (∀ item, item ∈ evidence' ↔ item ∈ evidence) →
      classifyEvidence evidence' = classifyEvidence evidence) ∧
      ∀ candidate,
        ((classifyEvidence evidence).deviceType = some candidate ↔
          Wins (score evidence) (tier evidence) candidate) ∧
        ((classifyEvidence evidence).deviceType = some candidate →
          (∀ more, (∀ item ∈ more, item.candidateType = candidate) →
            (classifyEvidence (evidence ++ more)).deviceType = some candidate ∧
              (classifyEvidence evidence).confidence ≤
                (classifyEvidence (evidence ++ more)).confidence) ∧
          ∀ more, (∀ item ∈ more, item.candidateType ≠ candidate ∧
              tier (evidence ++ more) item.candidateType < tier (evidence ++ more) candidate) →
            (classifyEvidence (evidence ++ more)).deviceType = some candidate ∧
              (classifyEvidence (evidence ++ more)).confidence =
                (classifyEvidence evidence).confidence) := by
  refine ⟨fun evidence' h => ?_, fun candidate => ⟨(classifyEvidence_spec evidence candidate).1, fun hdc => ?_⟩⟩
  · simp only [classifyEvidence, normalized_congr h]
  have hsp := fun evidence => classifyEvidence_spec evidence candidate
  have hwis := (hsp evidence).1.1 hdc
  refine ⟨fun more hmr => ?_, fun more hmr => ?_⟩
  · obtain ⟨hsti, hsc⟩ := hwis.append_own hmr
    have hnx := (hsp (evidence ++ more)).1.2 hsti
    exact ⟨hnx, by rwa [(hsp _).2 hdc, (hsp _).2 hnx]⟩
  · obtain ⟨hsti, hsc⟩ := hwis.append_others hmr
    have hnx := (hsp (evidence ++ more)).1.2 hsti
    exact ⟨hnx, by rwa [(hsp _).2 hdc, (hsp _).2 hnx]⟩

end WebOvpn.FingerprintEngine
