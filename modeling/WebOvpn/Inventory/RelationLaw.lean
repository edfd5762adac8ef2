/-
Relations follow the evidence: a key has one confirmed card, a refresh offers
the cards that carry the address, and ended rows stay as they are.
-/
import Mathlib.Data.List.Dedup
import WebOvpn.Lib.Rows
import WebOvpn.Lib.Run
import WebOvpn.Inventory.Relations

namespace WebOvpn.Inventory

open List

variable {s s' s'' : Relations} {r r' : Relation} {o : Observed} {asset key key' : Text}
    {now : Instant} {i j : Nat}
  {f : Relation → Relation} {e : RelationError}

theorem Relation.isConfirmed_iff : r.isConfirmed = true ↔ r.status = .confirmed ∧
    r.isActive = true := by
  unfold Relation.isConfirmed
  rw [decide_eq_true_iff]

theorem Relation.isCandidate_iff : r.isCandidate = true ↔ r.status = .candidate ∧
    r.isActive = true := by
  unfold Relation.isCandidate
  rw [decide_eq_true_iff]

theorem Relation.of_iff : r.of asset key = true ↔ r.asset = asset ∧ r.key = key := by
  unfold Relation.of
  rw [decide_eq_true_iff]

theorem Relation.clashes_iff : r.clashes r' = true ↔
    r.isConfirmed = true ∧ r'.isConfirmed = true ∧ r.key = r'.key ∨
      r.isCandidate = true ∧ r'.isCandidate = true ∧ r.asset = r'.asset ∧ r.key = r'.key := by
  unfold Relation.clashes
  simp only [Bool.or_eq_true, Bool.and_eq_true, decide_eq_true_eq, and_assoc, Relation.of_iff]

theorem Relation.clashes_symm (h : r.clashes r' = true) : r'.clashes r = true := by
  rw [Relation.clashes_iff] at h ⊢
  rcases h with ⟨hr, hr', hkey⟩ | ⟨hr, hr', hass, hkey⟩
  · exact .inl ⟨hr', hr, hkey.symm⟩
  · exact .inr ⟨hr', hr, hass.symm, hkey.symm⟩

theorem Relation.clashes_comm (r r' : Relation) : r.clashes r' = r'.clashes r :=
  Bool.eq_iff_iff.2 ⟨Relation.clashes_symm, Relation.clashes_symm⟩

/-- The row is still there: of the same pair, and as it was if it had ended. -/
def Relation.Continues (r r' : Relation) : Prop :=
  r'.asset = r.asset ∧ r'.key = r.key ∧ (r.isActive = false → r' = r)

theorem Relation.continues_refl (r : Relation) : r.Continues r := ⟨rfl, rfl, fun _ => rfl⟩

theorem Relation.Continues.trans {a b d : Relation} (h : a.Continues b) (h' : b.Continues d) :
    a.Continues d := by
  refine ⟨h'.1.trans h.1, h'.2.1.trans h.2.1, ?_⟩
  intro hend
  obtain rfl := h.2.2 hend
  exact h'.2.2 hend

theorem Relation.continues_of_active (hass : r'.asset = r.asset) (hkey : r'.key = r.key)
    (hact : r.isActive = true) : r.Continues r' := by
  refine ⟨hass, hkey, ?_⟩
  intro hend
  rw [hact] at hend
  cases hend

theorem Relations.isConsistent_iff : s.isConsistent = true ↔
    Unclashed Relation.clashes s.rows ∧ ∀ r ∈ s.rows, r.isActive = true → s.isLive r.asset = true := by
  unfold Relations.isConsistent
  rw [Bool.decide_and, Bool.and_eq_true, decide_eq_true_iff, decide_eq_true_iff,
    pairwise_iff_unclashed Relation.clashes_comm]

theorem Relations.flush_eq_ok (h : s.flush = .ok s') : s' = s ∧ s.isConsistent = true := by
  unfold Relations.flush at h
  split_ifs at h with hs
  exact ⟨(Except.ok.inj h).symm, hs⟩

def Relations.Undecided (s : Relations) : Prop :=
  ∀ r ∈ s.rows, r.isActive = true → r.status = .candidate ∨ r.status = .confirmed

def Relations.Extends (s s' : Relations) : Prop := Grows Relation.Continues s.rows s'.rows

theorem Relations.extends_refl (s : Relations) : s.Extends s :=
  grows_refl Relation.continues_refl s.rows

theorem Relations.Extends.trans (h : s.Extends s') (h' : s'.Extends s'') : s.Extends s'' :=
  Grows.trans (fun _ _ _ => Relation.Continues.trans) h h'

/-- What holds of the store between the transactions. -/
structure Relations.Sound (s : Relations) : Prop where
  consistent : s.isConsistent = true
  undecided : s.Undecided

theorem Relations.mem_rowsOf : r ∈ s.rowsOf key ↔ r ∈ s.rows ∧ r.key = key ∧
    s.isLive r.asset = true := by
  unfold Relations.rowsOf
  rw [mem_filter, Bool.and_eq_true, decide_eq_true_iff]

theorem Relations.mem_rowsOf_of_active (hs : s.Sound) (hr : r ∈ s.rows) (hkey : r.key = key)
    (hact : r.isActive = true) : r ∈ s.rowsOf key :=
  Relations.mem_rowsOf.2 ⟨hr, hkey, (Relations.isConsistent_iff.1 hs.consistent).2 r hr hact⟩

theorem Relations.declines_iff {material : RelationMaterial} : s.declines asset key material = true ↔
    ∃ r ∈ s.rowsOf key, r.asset = asset ∧ (r.status = .rejected ∨ r.status = .ended) ∧
      r.material = some material := by
  unfold Relations.declines
  simp only [any_eq_true, Bool.and_eq_true, Bool.or_eq_true, decide_eq_true_eq, and_assoc]

theorem Relations.isLive_of_mem_cardIds (h : asset ∈ s.cardIds key) : s.isLive asset = true := by
  unfold Relations.cardIds at h
  rw [mem_insertionSort, mem_dedup] at h
  obtain ⟨card, hcard, rfl⟩ := mem_map.1 h
  obtain ⟨hmem, hcr⟩ := mem_filter.1 hcard
  rw [Bool.and_eq_true] at hcr
  unfold Relations.isLive
  rw [any_eq_true]
  refine ⟨card, hmem, ?_⟩
  rw [Bool.and_eq_true, decide_eq_true_iff]
  exact ⟨rfl, hcr.1⟩

theorem Relations.cardIds_nodup (s : Relations) (key : Text) : (s.cardIds key).Nodup :=
  (perm_insertionSort _ _).nodup_iff.2 (nodup_dedup _)

def Relations.confirmedKey (s : Relations) (key : Text) : Prop :=
  ∃ r ∈ s.rows, r.isConfirmed = true ∧ r.key = key

def Relations.offers (s : Relations) (asset key : Text) : Prop :=
  ∃ r ∈ s.rows, r.isCandidate = true ∧ r.of asset key = true

section Turn

variable {observation : Observation}

theorem Relations.see_cases (s : Relations) (o : Observed) (key : Text) (observation : Observation)
    (r : Relation) :
    (s.see o key observation r).asset = r.asset ∧ (s.see o key observation r).key = r.key ∧
      (s.see o key observation r).status = r.status ∧ (s.see o key observation r).endedAt = r.endedAt ∧
      (r.isActive = false ∨ r.key ≠ key → s.see o key observation r = r) := by
  unfold Relations.see
  by_cases hse : r.key = key ∧ s.isLive r.asset = true ∧ r.isActive = true
  · rw [if_pos hse]
    refine ⟨rfl, rfl, rfl, rfl, ?_⟩
    rintro (hend | hkey)
    · rw [hse.2.2] at hend
      cases hend
    · exact absurd hse.1 hkey
  · rw [if_neg hse]
    exact ⟨rfl, rfl, rfl, rfl, fun _ => rfl⟩

theorem Relations.see_continues (r : Relation) : r.Continues (s.see o key observation r) := by
  obtain ⟨hass, hkey, -, -, hsm⟩ := s.see_cases o key observation r
  exact ⟨hass, hkey, fun hend => hsm (.inl hend)⟩

theorem Relations.see_isActive (r : Relation) : (s.see o key observation r).isActive = r.isActive := by
  unfold Relation.isActive
  rw [(s.see_cases o key observation r).2.2.2.1]

theorem Relations.see_isConfirmed (r : Relation) :
    (s.see o key observation r).isConfirmed = r.isConfirmed := by
  rw [Bool.eq_iff_iff, Relation.isConfirmed_iff, Relation.isConfirmed_iff, Relations.see_isActive,
    (s.see_cases o key observation r).2.2.1]

theorem Relations.see_isCandidate (r : Relation) :
    (s.see o key observation r).isCandidate = r.isCandidate := by
  rw [Bool.eq_iff_iff, Relation.isCandidate_iff, Relation.isCandidate_iff, Relations.see_isActive,
    (s.see_cases o key observation r).2.2.1]

theorem Relations.see_clashes {r r' : Relation}
    (h : (s.see o key observation r).clashes (s.see o key observation r') = true) :
      r.clashes r' = true := by
  obtain ⟨hass, hkey, -⟩ := s.see_cases o key observation r
  obtain ⟨hass', hkey', -⟩ := s.see_cases o key observation r'
  rw [Relation.clashes_iff] at h ⊢
  rw [Relations.see_isConfirmed, Relations.see_isConfirmed, Relations.see_isCandidate,
    Relations.see_isCandidate,
    hass, hass', hkey, hkey'] at h
  exact h

theorem Relations.mem_fresh : asset ∈ s.fresh key ↔ asset ∈ s.cardIds key ∧
    s.declines asset key (s.material key) = false ∧
    ∀ r ∈ s.rowsOf key, r.asset = asset → r.isActive = false := by
  unfold Relations.fresh
  simp only [mem_filter, Bool.and_eq_true, Bool.not_eq_true', any_eq_false, decide_eq_true_eq, not_and,
    Bool.not_eq_true]

theorem Relations.seen_consistent (hs : s.isConsistent = true) :
    ({ s with rows := s.rows.map (s.see o key observation) } : Relations).isConsistent = true := by
  rw [Relations.isConsistent_iff] at hs ⊢
  refine ⟨hs.1.map fun r r' => Relations.see_clashes, ?_⟩
  intro r' hr' hact
  obtain ⟨r, hr, rfl⟩ := mem_map.1 hr'
  rw [Relations.see_isActive] at hact
  rw [(s.see_cases o key observation r).1]
  exact hs.2 r hr hact

theorem Relations.candidates_unclashed (assets : List Text) (hnd : assets.Nodup) :
    Unclashed Relation.clashes (assets.map (s.candidateFor o key observation)) := by
  rw [← pairwise_iff_unclashed Relation.clashes_comm, pairwise_map]
  apply hnd.imp
  intro a b hne
  rw [← Bool.not_eq_true, Relation.clashes_iff]
  rintro (⟨hcn, -⟩ | ⟨-, -, hass, -⟩)
  · cases (Relation.isConfirmed_iff.1 hcn).1
  · exact hne hass

theorem Relations.offered_consistent (hs : s.Sound) :
    ({ s with rows := s.rows.map (s.see o key observation) ++
      (s.fresh key).map (s.candidateFor o key observation) } : Relations).isConsistent = true := by
  have hse : ({ s with rows := s.rows.map (s.see o key observation) } : Relations).isConsistent = true :=
    Relations.seen_consistent hs.consistent
  obtain ⟨hunc, hlv⟩ := Relations.isConsistent_iff.1 hse
  rw [Relations.isConsistent_iff]
  constructor
  · apply hunc.append Relation.clashes_comm
    · exact Relations.candidates_unclashed _ ((s.cardIds_nodup key).filter _)
    · intro r hr r' hr'
      obtain ⟨asset, hass, rfl⟩ := mem_map.1 hr
      obtain ⟨old, hold, rfl⟩ := mem_map.1 hr'
      obtain ⟨hsm, hkey, -⟩ := s.see_cases o key observation old
      rw [← Bool.not_eq_true, Relation.clashes_iff]
      rintro (⟨hco, -⟩ | ⟨-, hcn, hpi⟩)
      · cases (Relation.isConfirmed_iff.1 hco).1
      · rw [Relations.see_isCandidate] at hcn
        have hact := (Relation.isCandidate_iff.1 hcn).2
        have hmem : old ∈ s.rowsOf key :=
          Relations.mem_rowsOf_of_active hs hold (hkey.symm.trans hpi.2.symm) hact
        rw [(Relations.mem_fresh.1 hass).2.2 old hmem (hsm.symm.trans hpi.1.symm)] at hact
        cases hact
  · intro r hr hact
    rcases mem_append.1 hr with hold | hnew
    · exact hlv r hold hact
    · obtain ⟨asset, hass, rfl⟩ := mem_map.1 hnew
      exact Relations.isLive_of_mem_cardIds (Relations.mem_fresh.1 hass).1

theorem refreshKey_cases (o : Observed) (s : Relations) (key : Text) :
    observationsOf o.rank o.hosts key = [] ∧ refreshKey o s key = s ∨
    ∃ observation, observationsOf o.rank o.hosts key ≠ [] ∧
      ((s.rowsOf key).any Relation.isConfirmed = true ∧
          refreshKey o s key = { s with rows := s.rows.map (s.see o key observation) } ∨
        (s.rowsOf key).any Relation.isConfirmed = false ∧ refreshKey o s key = { s with
            rows := s.rows.map (s.see o key observation) ++
              (s.fresh key).map (s.candidateFor o key observation) }) := by
  unfold refreshKey
  cases hobs : observationsOf o.rank o.hosts key with
  | nil => exact .inl ⟨rfl, rfl⟩
  | cons observation rest =>
    refine .inr ⟨observation, cons_ne_nil _ _, ?_⟩
    cases hcn : (s.rowsOf key).any Relation.isConfirmed with
    | true => exact .inl ⟨rfl, rfl⟩
    | false => exact .inr ⟨rfl, rfl⟩

theorem refreshKey_cards (o : Observed) (s : Relations) (key : Text) :
    (refreshKey o s key).cards = s.cards := by
  rcases refreshKey_cases o s key with ⟨-, h⟩ | ⟨observation, -, ⟨-, h⟩ | ⟨-, h⟩⟩ <;> rw [h]

theorem refreshKey_extends (o : Observed) (s : Relations) (key : Text) :
    s.Extends (refreshKey o s key) := by
  have hse : ∀ observation, Grows Relation.Continues s.rows (s.rows.map (s.see o key observation)) := by
    intro observation
    exact grows_map fun r => Relations.see_continues r
  rcases refreshKey_cases o s key with ⟨-, h⟩ | ⟨observation, -, ⟨-, h⟩ | ⟨-, h⟩⟩
  · rw [h]
    exact s.extends_refl
  · rw [h]
    exact hse observation
  · rw [h]
    exact (hse observation).trans (fun _ _ _ => Relation.Continues.trans)
      (grows_append Relation.continues_refl _ _)

theorem refreshKey_sound (hs : s.Sound) : (refreshKey o s key).Sound := by
  have hund : ∀ observation, ∀ r ∈ s.rows.map (s.see o key observation), r.isActive = true →
      r.status = .candidate ∨ r.status = .confirmed := by
    intro observation r hr hact
    obtain ⟨old, hold, rfl⟩ := mem_map.1 hr
    rw [Relations.see_isActive] at hact
    rw [(s.see_cases o key observation old).2.2.1]
    exact hs.undecided old hold hact
  rcases refreshKey_cases o s key with ⟨-, h⟩ | ⟨observation, -, ⟨-, h⟩ | ⟨-, h⟩⟩
  · rw [h]
    exact hs
  · rw [h]
    exact ⟨Relations.seen_consistent hs.consistent, hund observation⟩
  · rw [h]
    refine ⟨Relations.offered_consistent hs, ?_⟩
    intro r hr hact
    rcases mem_append.1 hr with hold | hnew
    · exact hund observation r hold hact
    · obtain ⟨asset, -, rfl⟩ := mem_map.1 hnew
      exact .inl rfl

theorem refreshKey_mem (hr : r.isActive = false ∨ r.key ≠ key) : r ∈ (refreshKey o s key).rows ↔
    r ∈ s.rows := by
  have hse : ∀ observation, r ∈ s.rows.map (s.see o key observation) ↔ r ∈ s.rows := by
    intro observation
    rw [mem_map]
    constructor
    · rintro ⟨old, hold, rfl⟩
      have hold' : old.isActive = false ∨ old.key ≠ key := by
        rw [Relations.see_isActive, (s.see_cases o key observation old).2.1] at hr
        exact hr
      rw [(s.see_cases o key observation old).2.2.2.2 hold']
      exact hold
    · intro hmem
      exact ⟨r, hmem, (s.see_cases o key observation r).2.2.2.2 hr⟩
  rcases refreshKey_cases o s key with ⟨-, h⟩ | ⟨observation, -, ⟨-, h⟩ | ⟨-, h⟩⟩
  · rw [h]
  · rw [h]
    exact hse observation
  · rw [h]
    change r ∈ _ ++ _ ↔ _
    rw [mem_append, hse observation]
    constructor
    · rintro (hold | hnew)
      · exact hold
      · obtain ⟨asset, -, rfl⟩ := mem_map.1 hnew
        rcases hr with hend | hkey
        · cases hend
        · exact absurd rfl hkey
    · exact .inl

/-- A turn of an unconfirmed key offers the cards that carry the address and
have not declined it, beside those that it was offered to before. -/
theorem refreshKey_offers (hs : s.Sound) (hkey : observationsOf o.rank o.hosts key ≠ [])
    (hnn : ¬ s.confirmedKey key) : (refreshKey o s key).offers asset key ↔
      s.offers asset key ∨ asset ∈ s.cardIds key ∧ s.declines asset key (s.material key) = false := by
  have hrs : (s.rowsOf key).any Relation.isConfirmed = false := by
    rw [any_eq_false]
    intro r hr hcn
    obtain ⟨hmem, hrke, -⟩ := Relations.mem_rowsOf.1 hr
    exact hnn ⟨r, hmem, hcn, hrke⟩
  rcases refreshKey_cases o s key with ⟨hem, -⟩ | ⟨observation, -, ⟨hcn, -⟩ | ⟨-, h⟩⟩
  · exact absurd hem hkey
  · rw [hrs] at hcn
    cases hcn
  rw [h]
  constructor
  · rintro ⟨r, hr, hca, hpi⟩
    rcases mem_append.1 hr with hold | hnew
    · obtain ⟨old, hmem, rfl⟩ := mem_map.1 hold
      obtain ⟨hass, hrke, -⟩ := s.see_cases o key observation old
      rw [Relations.see_isCandidate] at hca
      rw [Relation.of_iff, hass, hrke, ← Relation.of_iff] at hpi
      exact .inl ⟨old, hmem, hca, hpi⟩
    · obtain ⟨asset', hfr, rfl⟩ := mem_map.1 hnew
      obtain rfl : asset' = asset := (Relation.of_iff.1 hpi).1
      obtain ⟨hcr, hdc, -⟩ := Relations.mem_fresh.1 hfr
      exact .inr ⟨hcr, hdc⟩
  · intro hoff
    by_cases hbf : s.offers asset key
    · obtain ⟨r, hr, hca, hpi⟩ := hbf
      obtain ⟨hass, hrke, -⟩ := s.see_cases o key observation r
      refine ⟨s.see o key observation r, mem_append_left _ (mem_map_of_mem hr), ?_, ?_⟩
      · rw [Relations.see_isCandidate]
        exact hca
      · rw [Relation.of_iff, hass, hrke, ← Relation.of_iff]
        exact hpi
    · obtain ⟨hcr, hdc⟩ := hoff.resolve_left hbf
      have hfr : asset ∈ s.fresh key := by
        rw [Relations.mem_fresh]
        refine ⟨hcr, hdc, ?_⟩
        intro r hr hass
        obtain ⟨hmem, hrke, -⟩ := Relations.mem_rowsOf.1 hr
        rw [← Bool.not_eq_true]
        intro hact
        -- an active row of the pair is a candidate, or it confirms the key
        rcases hs.undecided r hmem hact with hst | hst
        · exact hbf ⟨r, hmem, Relation.isCandidate_iff.2 ⟨hst, hact⟩, Relation.of_iff.2 ⟨hass, hrke⟩⟩
        · exact hnn ⟨r, hmem, Relation.isConfirmed_iff.2 ⟨hst, hact⟩, hrke⟩
      refine ⟨s.candidateFor o key observation asset, mem_append_right _ (mem_map_of_mem hfr), rfl, ?_⟩
      exact Relation.of_iff.2 ⟨rfl, rfl⟩

end Turn

def Relations.Agree (key : Text) (s s' : Relations) : Prop :=
  s'.cards = s.cards ∧ ∀ r, r.key = key → (r ∈ s'.rows ↔ r ∈ s.rows)

section

variable (h : Relations.Agree key s s')
include h

theorem Relations.Agree.trans (h' : Relations.Agree key s' s'') :
    Relations.Agree key s s'' :=
  ⟨h'.1.trans h.1, fun r hr => (h'.2 r hr).trans (h.2 r hr)⟩

theorem Relations.Agree.cardIds_eq (key' : Text) : s'.cardIds key' = s.cardIds key' := by
  unfold Relations.cardIds
  rw [h.1]

theorem Relations.Agree.offers_iff : s'.offers asset key ↔ s.offers asset key := by
  unfold Relations.offers
  constructor
  · rintro ⟨r, hr, hcn, hpi⟩
    exact ⟨r, (h.2 r (Relation.of_iff.1 hpi).2).1 hr, hcn, hpi⟩
  · rintro ⟨r, hr, hcn, hpi⟩
    exact ⟨r, (h.2 r (Relation.of_iff.1 hpi).2).2 hr, hcn, hpi⟩

theorem Relations.Agree.confirmedKey_iff : s'.confirmedKey key ↔ s.confirmedKey key := by
  unfold Relations.confirmedKey
  constructor
  · rintro ⟨r, hr, hcn, hkey⟩
    exact ⟨r, (h.2 r hkey).1 hr, hcn, hkey⟩
  · rintro ⟨r, hr, hcn, hkey⟩
    exact ⟨r, (h.2 r hkey).2 hr, hcn, hkey⟩

end

theorem Relations.declines_eq {material : RelationMaterial} (hs : s.Sound) (hs' : s'.Sound)
    (hcr : s'.cards = s.cards)
    (hrs : ∀ r, r.isActive = false → r.key = key → (r ∈ s'.rows ↔ r ∈ s.rows)) :
    s'.declines asset key material = s.declines asset key material := by
  have hina : ∀ {t : Relations} {r : Relation}, t.Sound → r ∈ t.rows →
      r.status = .rejected ∨ r.status = .ended → r.isActive = false := by
    intro t r ht hr hst
    rw [← Bool.not_eq_true]
    intro hact
    rcases ht.undecided r hr hact with hcn | hco
    · rw [hcn] at hst
      rcases hst with h | h <;> cases h
    · rw [hco] at hst
      rcases hst with h | h <;> cases h
  have hlv : ∀ asset, s'.isLive asset = s.isLive asset := by
    intro asset
    unfold Relations.isLive
    rw [hcr]
  rw [Bool.eq_iff_iff, Relations.declines_iff, Relations.declines_iff]
  constructor
  · rintro ⟨r, hr, hass, hst, hmt⟩
    obtain ⟨hmem, hkey, hrli⟩ := Relations.mem_rowsOf.1 hr
    rw [hlv] at hrli
    have hmem' := (hrs r (hina hs' hmem hst) hkey).1 hmem
    exact ⟨r, Relations.mem_rowsOf.2 ⟨hmem', hkey, hrli⟩, hass, hst, hmt⟩
  · rintro ⟨r, hr, hass, hst, hmt⟩
    obtain ⟨hmem, hkey, hrli⟩ := Relations.mem_rowsOf.1 hr
    rw [← hlv] at hrli
    have hmem' := (hrs r (hina hs hmem hst) hkey).2 hmem
    exact ⟨r, Relations.mem_rowsOf.2 ⟨hmem', hkey, hrli⟩, hass, hst, hmt⟩

theorem refreshKey_agree (hne : key ≠ key') : Relations.Agree key s (refreshKey o s key') := by
  refine ⟨refreshKey_cards o s key', ?_⟩
  intro r hr
  exact refreshKey_mem (.inr (hr.trans_ne hne))

theorem refresh_agree {keys : List Text} (hkey : key ∉ keys) :
    Relations.Agree key s (keys.foldl (refreshKey o) s) := by
  induction keys generalizing s with
  | nil => exact ⟨rfl, fun _ _ => Iff.rfl⟩
  | cons key' rest ih =>
    rw [mem_cons, not_or] at hkey
    exact (refreshKey_agree hkey.1).trans (ih hkey.2)

variable (keys : List Text)

theorem refresh_sound (hs : s.Sound) : (keys.foldl (refreshKey o) s).Sound :=
  run_keeps (P := Relations.Sound) hs fun _ _ h => refreshKey_sound h

theorem refresh_extends (hs : s.Sound) : s.Extends (keys.foldl (refreshKey o) s) :=
  run_relates (I := Relations.Sound) hs (fun _ _ h => refreshKey_sound h) Relations.extends_refl
    (fun _ _ _ h h' => h.trans h') fun s key _ => refreshKey_extends o s key

variable {hosts : List Observation} {claimed : Bool} {reason : Text}

theorem mem_identityKeys : key ∈ identityKeys hosts ↔ ∃ host ∈ hosts, stableKey host = some key := by
  unfold identityKeys
  rw [mem_reverse, mem_dedup, mem_reverse, mem_filterMap]

variable {rank : Observation → Observation → Bool}

theorem mem_observationsOf {host : Observation} :
    host ∈ observationsOf rank hosts key ↔ host ∈ hosts ∧ stableKey host = some key := by
  unfold observationsOf
  simp only [mem_mergeSort, mem_reverse, mem_dedup, mem_filter, decide_eq_true_eq]

theorem observationsOf_ne_nil :
    observationsOf rank hosts key ≠ [] ↔ key ∈ identityKeys hosts := by
  rw [mem_identityKeys]
  constructor
  · intro h
    obtain ⟨host, hhs⟩ := exists_mem_of_ne_nil _ h
    exact ⟨host, mem_observationsOf.1 hhs⟩
  · rintro ⟨host, hhs⟩
    exact ne_nil_of_mem (mem_observationsOf.2 hhs)

theorem refreshCandidates_eq_ok (hs : s.Sound) (o : Observed) :
    refreshCandidates s o = .ok ((identityKeys o.hosts).foldl (refreshKey o) s) := by
  unfold refreshCandidates Relations.flush
  rw [if_pos (refresh_sound _ hs).consistent]

theorem refresh_cards (s : Relations) : (keys.foldl (refreshKey o) s).cards = s.cards :=
  run_keeps (P := fun t : Relations => t.cards = s.cards) rfl fun t key h => (refreshKey_cards o t key).trans h

theorem refresh_mem (hr : r.isActive = false) : r ∈ (keys.foldl (refreshKey o) s).rows ↔ r ∈ s.rows :=
  run_keeps (P := fun t : Relations => r ∈ t.rows ↔ r ∈ s.rows) Iff.rfl fun _ _ h =>
    (refreshKey_mem (.inl hr)).trans h

/-- A refresh offers an unconfirmed key that it contains to the cards that
carry the address and have not declined it, beside the former candidates. -/
theorem refresh_offers {keys : List Text} (hs : s.Sound) (hnd : keys.Nodup) (hmem : key ∈ keys)
    (hkey : observationsOf o.rank o.hosts key ≠ []) (hnn : ¬ s.confirmedKey key) :
    (keys.foldl (refreshKey o) s).offers asset key ↔
      s.offers asset key ∨ asset ∈ s.cardIds key ∧ s.declines asset key (s.material key) = false := by
  obtain ⟨before, after, rfl⟩ := append_of_mem hmem
  obtain ⟨hbf, haf⟩ : key ∉ before ∧ key ∉ after := by
    rw [nodup_middle, nodup_cons, mem_append, not_or] at hnd
    exact hnd.1
  rw [List.foldl_append, foldl_cons]
  -- only the turn of the key itself changes its rows
  set t := before.foldl (refreshKey o) s
  have ht : t.Sound := refresh_sound before hs
  have hag : Relations.Agree key s t := refresh_agree hbf
  have hdc : t.declines asset key (s.material key) = s.declines asset key (s.material key) :=
    Relations.declines_eq hs ht hag.1 fun r _ hr => hag.2 r hr
  have hmt : t.material key = s.material key := by
    unfold Relations.material
    rw [hag.cardIds_eq]
  rw [(refresh_agree haf).offers_iff, refreshKey_offers ht hkey (hag.confirmedKey_iff.not.2 hnn),
    hag.offers_iff, hag.cardIds_eq, hmt, hdc]

/-- The active candidates of the key are the cards that carry its address,
less those that declined it with the same material. -/
def Relations.Follows (s : Relations) (key : Text) : Prop :=
  ∀ asset, s.offers asset key ↔ asset ∈ s.cardIds key ∧ s.declines asset key (s.material key) = false

/-- No candidate of the key has lost the address, or declined it with the
material that the key has now. -/
def Relations.UpToDate (s : Relations) (key : Text) : Prop :=
  ∀ asset, s.offers asset key → asset ∈ s.cardIds key ∧ s.declines asset key (s.material key) = false

theorem refreshCandidates_follows (hs : s.Sound) (hkey : key ∈ identityKeys o.hosts)
    (hnn : ¬ s.confirmedKey key) :
    ∃ s', refreshCandidates s o = .ok s' ∧ (s'.Follows key ↔ s.UpToDate key) := by
  refine ⟨_, refreshCandidates_eq_ok hs o, ?_⟩
  set s' := (identityKeys o.hosts).foldl (refreshKey o) s
  have hcr : s'.cards = s.cards := refresh_cards _ s
  have hcard : s'.cardIds key = s.cardIds key := by
    unfold Relations.cardIds
    rw [hcr]
  have hmt : s'.material key = s.material key := by
    unfold Relations.material
    rw [hcard]
  have hdc : ∀ asset, s'.declines asset key (s.material key) = s.declines asset key (s.material key) := by
    intro asset
    exact Relations.declines_eq hs (refresh_sound _ hs) hcr fun r hr _ => refresh_mem _ hr
  have hoff : ∀ asset, s'.offers asset key ↔
      s.offers asset key ∨ asset ∈ s.cardIds key ∧ s.declines asset key (s.material key) = false := by
    intro asset
    exact refresh_offers hs (nodup_reverse.2 (nodup_dedup _)) hkey (observationsOf_ne_nil.2 hkey) hnn
  unfold Relations.Follows Relations.UpToDate
  simp only [hoff, hcard, hmt, hdc, or_iff_right_iff_imp]

theorem Relations.extends_modify (h : ∀ r, s.rows[i]? = some r → r.Continues (f r)) :
    s.Extends { s with rows := s.rows.modify i f } :=
  grows_modify Relation.continues_refl h

theorem Relations.undecided_modify (hs : s.Undecided)
    (h : ∀ r, s.rows[i]? = some r → (f r).isActive = true → (f r).status = .candidate ∨
      (f r).status = .confirmed) :
    ({ s with rows := s.rows.modify i f } : Relations).Undecided := by
  intro r hr hact
  rcases mem_modify_cases hr with hold | ⟨old, hold, rfl⟩
  · exact hs r hold hact
  · exact h old hold hact

/-- What a successful transaction does: the store is sound and continues the
history. -/
def Relations.Next (s s' : Relations) : Prop := s'.Sound ∧ s.Extends s'

theorem Relations.next_flush (h : s'.flush = .ok s'') (hund : s'.Undecided) (hex : s.Extends s') :
    s.Next s'' := by
  obtain ⟨rfl, hcos⟩ := Relations.flush_eq_ok h
  exact ⟨⟨hcos, hund⟩, hex⟩

theorem Relations.next_refl (hs : s.Sound) : s.Next s := ⟨hs, s.extends_refl⟩

theorem confirm_cases {reconsider : Bool}
    (h : confirm s key asset claimed reason o reconsider = .ok s') :
    key ∈ identityKeys o.hosts ∧ (s.cardIds key).length ≤ 1 ∧ (s' = s ∨ ∃ observation,
        (∃ i r, s.rows[i]? = some r ∧ r.isCandidate = true ∧
          ({ s with rows := s.rows.modify i (s.confirmed o key observation) } : Relations).flush =
            .ok s') ∨
        ∃ r, ({ s with rows := s.rows ++ [s.confirmed o key observation r] } : Relations).flush = .ok s') := by
  unfold confirm at h
  cases hobs : observationsOf o.rank o.hosts key with
  | nil =>
    rw [hobs] at h
    cases h
  | cons observation rest =>
    rw [hobs] at h
    have hkey : key ∈ identityKeys o.hosts := by
      have hne : observationsOf o.rank o.hosts key ≠ [] := by
        rw [hobs]
        exact cons_ne_nil _ _
      exact observationsOf_ne_nil.1 hne
    change (if key ∈ o.conflicts then _ else _) = _ at h
    by_cases hcn : key ∈ o.conflicts
    · rw [if_pos hcn] at h
      cases h
    rw [if_neg hcn] at h
    by_cases hcl : 1 < (s.cardIds key).length
    · rw [if_pos hcl] at h
      cases h
    rw [if_neg hcl] at h
    refine ⟨hkey, Nat.le_of_not_lt hcl, ?_⟩
    split at h
    · split_ifs at h
      exact .inl (Except.ok.inj h).symm
    · split at h
      · cases h
      split at h
      · cases h
      split at h
      · cases h
      refine .inr ⟨observation, ?_⟩
      split at h
      · next i hfn =>
          obtain ⟨hi, hpi, -⟩ := findIdx?_eq_some_iff_getElem.1 hfn
          rw [Bool.and_eq_true] at hpi
          exact .inl ⟨i, s.rows[i], getElem?_eq_getElem hi, hpi.2, h⟩
      · split at h
        · cases h
        exact .inr ⟨_, h⟩

theorem confirm_next {reconsider : Bool} (hs : s.Sound)
    (h : confirm s key asset claimed reason o reconsider = .ok s') : s.Next s' := by
  obtain ⟨-, -, rfl | ⟨observation, ⟨i, r, hr, hcn, hflu⟩ | ⟨r, hflu⟩⟩⟩ := confirm_cases h
  · exact Relations.next_refl hs
  · apply Relations.next_flush hflu
    · exact Relations.undecided_modify hs.undecided fun _ _ _ => .inr rfl
    · apply Relations.extends_modify
      intro old hold
      rw [hr] at hold
      cases hold
      exact Relation.continues_of_active rfl rfl (Relation.isCandidate_iff.1 hcn).2
  · apply Relations.next_flush hflu
    · intro r' hr' hact
      rcases mem_append.1 hr' with hold | hnew
      · exact hs.undecided r' hold hact
      · rw [mem_singleton] at hnew
        exact .inr (by rw [hnew]; rfl)
    · exact grows_append Relation.continues_refl _ _

theorem endRelation_next {id : Nat} {reject : Bool} (hs : s.Sound)
    (h : endRelation s id claimed reason reject now = .ok s') : s.Next s' := by
  unfold endRelation at h
  split at h
  · cases h
  split at h
  · cases h
  · next r hr =>
      by_cases hend : r.isActive = false
      · rw [if_pos hend] at h
        cases h
        exact Relations.next_refl hs
      rw [if_neg hend] at h
      split at h
      · cases h
      split at h
      · cases h
      split at h
      · cases h
      apply Relations.next_flush h
      · apply Relations.undecided_modify hs.undecided
        intro old _ hact
        cases hact
      · apply Relations.extends_modify
        intro old hold
        rw [hr] at hold
        cases hold
        exact Relation.continues_of_active rfl rfl (Bool.not_eq_false _ ▸ hend)

theorem Relation.endWithCard_cases (r : Relation) (asset : Text) (now : Instant) :
    r.endWithCard asset now = r ∨ r.isActive = true ∧
      r.endWithCard asset now = r.finish .ended now := by
  unfold Relation.endWithCard
  split_ifs with h
  · exact .inr ⟨h.2, rfl⟩
  · exact .inl rfl

theorem result_next {c : RelationCall} (hs : s.Sound) (h : c.result s = .ok s') : s.Next s' := by
  cases c with
  | refresh o =>
    obtain rfl := Except.ok.inj ((refreshCandidates_eq_ok hs o).symm.trans h)
    exact ⟨refresh_sound _ hs, refresh_extends _ hs⟩
  | confirm key asset claimed reason o reconsider => exact confirm_next hs h
  | finish id claimed reason reject now => exact endRelation_next hs h
  | create asset macs =>
    change (if _ then _ else _) = _ at h
    split_ifs at h
    exact Relations.next_flush h hs.undecided s.extends_refl
  | delete asset now =>
    apply Relations.next_flush h
    · intro r' hr' hact
      obtain ⟨r, hr, rfl⟩ := mem_map.1 hr'
      rcases r.endWithCard_cases asset now with hsm | ⟨-, hend⟩
      · rw [hsm] at hact ⊢
        exact hs.undecided r hr hact
      · rw [hend] at hact
        cases hact
    · apply grows_map
      intro r
      rcases r.endWithCard_cases asset now with hsm | ⟨hact, hend⟩
      · rw [hsm]
        exact r.continues_refl
      · rw [hend]
        exact Relation.continues_of_active rfl rfl hact
  | _ => exact Relations.next_flush h hs.undecided s.extends_refl

theorem relate_next (hs : s.Sound) (c : RelationCall) : s.Next (relate s c) := by
  unfold relate
  cases hrs : c.result s with
  | error e => exact Relations.next_refl hs
  | ok s' => exact result_next hs hrs

theorem sound_run (calls : List RelationCall) (hs : s.Sound) : (run relate s calls).Sound :=
  run_keeps (P := Relations.Sound) hs fun _ c h => (relate_next h c).1

theorem relations_extend (calls : List RelationCall) (hs : s.Sound) : s.Extends (run relate s calls) :=
  run_relates (I := Relations.Sound) hs (fun _ c h => (relate_next h c).1) Relations.extends_refl
    (fun _ _ _ h h' => h.trans h') fun _ c h => (relate_next h c).2

theorem noRelations_sound : noRelations.Sound := by
  refine ⟨rfl, ?_⟩
  intro r hr
  cases hr

/-- In every run a key has one confirmed card at most, ended rows stay as they
are, a confirmation is of a key that was observed and that one card at most
carries, and a refresh makes the candidates of an unconfirmed key follow the
evidence exactly when none of them has lost it. -/
theorem relations_follow_evidence (calls : List RelationCall) :
    (∀ (i j : Nat) (r r' : Relation), (run relate noRelations calls).rows[i]? = some r →
      (run relate noRelations calls).rows[j]? = some r' → r.isConfirmed = true → r'.isConfirmed = true →
      r.key = r'.key → i = j) ∧
    (∀ (o : Observed) (key : Text), key ∈ identityKeys o.hosts →
      ¬ (run relate noRelations calls).confirmedKey key →
      ∃ s', refreshCandidates (run relate noRelations calls) o = .ok s' ∧
        (s'.Follows key ↔ (run relate noRelations calls).UpToDate key)) ∧
    (∀ (later : List RelationCall) (i : Nat) (r : Relation),
      (run relate noRelations calls).rows[i]? = some r →
      r.isActive = false → (run relate noRelations (calls ++ later)).rows[i]? = some r) ∧
    ∀ (key asset : Text) (claimed : Bool) (reason : Text) (o : Observed) (reconsider : Bool)
      (s' : Relations),
      confirm (run relate noRelations calls) key asset claimed reason o reconsider = .ok s' →
      key ∈ identityKeys o.hosts ∧ ((run relate noRelations calls).cardIds key).length ≤ 1 := by
  have hs := sound_run calls noRelations_sound
  refine ⟨?_, ?_, ?_, ?_⟩
  · intro i j r r' hi hj hr hr' hkey
    by_contra hne
    have hcl := (Relations.isConsistent_iff.1 hs.consistent).1 i j r r' hi hj hne
    rw [← Bool.not_eq_true, Relation.clashes_iff] at hcl
    exact hcl (.inl ⟨hr, hr', hkey⟩)
  · intro o key hkey hnn
    exact refreshCandidates_follows hs hkey hnn
  · intro later i r hi hend
    rw [run_append]
    obtain ⟨r', hr', -, -, hsm⟩ := relations_extend later hs i r hi
    rw [hr', hsm hend]
  · intro key asset claimed reason o reconsider s' h
    obtain ⟨hkey, hlen, -⟩ := confirm_cases h
    exact ⟨hkey, hlen⟩

def movedMac : Text := "02:00:00:00:00:10"

def movedKey : Text := "mac:02:00:00:00:00:10"

def movedHost : Observed := {
  rank := fun _ _ => true
  hosts := [⟨movedKey, movedMac, none, none, none, none, none⟩]
  snapshotId := 1
  observedAt := 0
  conflicts := [] }

def strayed : List RelationCall :=
  [.create "card" [movedMac], .refresh movedHost, .setMacs "card" []]

/-- A candidate is kept although no card has the MAC that it was found by. -/
theorem strayed_candidate_kept : movedKey ∈ identityKeys movedHost.hosts ∧
      (run relate noRelations strayed).rows.all (fun r => !r.isConfirmed) = true ∧
      (run relate noRelations (strayed ++ [.refresh movedHost])).cardIds movedKey = [] ∧
      (run relate noRelations (strayed ++ [.refresh movedHost])).rows.map
        (fun r => (r.asset, r.isCandidate)) =
        [(text "card", true)] := by
  decide +kernel

end WebOvpn.Inventory
