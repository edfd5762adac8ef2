/-
Bindings stay one-to-one: every call keeps the unique indexes, so that none of
them fails in the database, and ended rows stay as they are.
-/
import Mathlib.Data.List.Dedup
import Mathlib.Data.List.ProdSigma
import WebOvpn.Lib.Rows
import WebOvpn.Lib.Run
import WebOvpn.Inventory.Bindings

namespace WebOvpn.Inventory

open List

variable {s s' s'' : Store} {r r' : Binding} {pair : Text × Text} {asset device : Text}
    {now : Instant} {i j id : Nat}
  {status : BindingStatus} {f : Binding → Binding} {c : Call}

theorem isConfirmed_iff : r.isConfirmed = true ↔ r.status = .confirmed ∧ r.isActive = true := by
  unfold Binding.isConfirmed
  rw [decide_eq_true_iff]

theorem isCandidate_iff :
    r.isCandidate pair = true ↔ r.status = .candidate ∧ r.isActive = true ∧ r.pair = pair := by
  unfold Binding.isCandidate Binding.pair
  rw [decide_eq_true_iff]

theorem clashes_iff : r.clashes r' = true ↔
    r.isConfirmed = true ∧ r'.isConfirmed = true ∧ (r.asset = r'.asset ∨ r.device = r'.device) ∨
      r.isCandidate r'.pair = true ∧ r'.isCandidate r.pair = true := by
  unfold Binding.clashes
  simp only [Bool.or_eq_true, Bool.and_eq_true, decide_eq_true_eq, and_assoc]

theorem clashes_symm (h : r.clashes r' = true) : r'.clashes r = true := by
  rw [clashes_iff] at h ⊢
  rcases h with ⟨hr, hr', hsha⟩ | ⟨hr, hr'⟩
  · exact .inl ⟨hr', hr, hsha.imp Eq.symm Eq.symm⟩
  · exact .inr ⟨hr', hr⟩

theorem clashes_comm (r r' : Binding) : r.clashes r' = r'.clashes r :=
  Bool.eq_iff_iff.2 ⟨clashes_symm, clashes_symm⟩

theorem isActive_of_clashes (h : r.clashes r' = true) : r.isActive = true := by
  rcases clashes_iff.1 h with ⟨hcn, -, -⟩ | ⟨hca, -⟩
  · exact (isConfirmed_iff.1 hcn).2
  · exact (isCandidate_iff.1 hca).2.1

theorem clashes_of_inactive (h : r.isActive = false) : r.clashes r' = false := by
  rw [← Bool.not_eq_true]
  intro hcl
  rw [isActive_of_clashes hcl] at h
  cases h

theorem isConsistent_iff : s.isConsistent = true ↔
    Unclashed Binding.clashes s.rows ∧ ∀ r ∈ s.rows, r.isActive = true →
      (s.card? r.asset).isSome = true := by
  unfold Store.isConsistent
  rw [Bool.decide_and, Bool.and_eq_true, decide_eq_true_iff, decide_eq_true_iff,
    pairwise_iff_unclashed clashes_comm]

theorem unclashed_singleton (r : Binding) : Unclashed Binding.clashes [r] := by
  intro i j a b hi hj hne
  have hi' := (List.getElem?_eq_some_iff.1 hi).1
  have hj' := (List.getElem?_eq_some_iff.1 hj).1
  rw [length_singleton] at hi' hj'
  omega

theorem consistent_append (hs : s.isConsistent = true) (hcl : ∀ r' ∈ s.rows, r.clashes r' = false)
    (hlv : (s.card? r.asset).isSome = true) :
    ({ s with rows := s.rows ++ [r] } : Store).isConsistent = true := by
  rw [isConsistent_iff] at hs ⊢
  constructor
  · apply hs.1.append clashes_comm (unclashed_singleton r)
    intro a ha
    rw [mem_singleton] at ha
    rw [ha]
    exact hcl
  · intro r' hr' hact
    rcases mem_append.1 hr' with hmem | hmem
    · exact hs.2 r' hmem hact
    · rw [mem_singleton] at hmem
      rw [hmem]
      exact hlv

theorem consistent_edit (hs : s.isConsistent = true)
    (hcl : ∀ r, s.rows[id]? = some r → ∀ j r', s.rows[j]? = some r' → j ≠ id → (f r).clashes r' = false)
    (hlv : ∀ r, s.rows[id]? = some r → (f r).isActive = true → (s.card? (f r).asset).isSome = true) :
    (s.edit id f).isConsistent = true := by
  rw [isConsistent_iff] at hs ⊢
  refine ⟨hs.1.modify clashes_comm hcl, ?_⟩
  intro r hr hact
  rcases mem_modify_cases hr with hmem | ⟨old, hold, rfl⟩
  · exact hs.2 r hmem hact
  · exact hlv old hold hact

theorem consistent_map (hs : s.isConsistent = true)
    (hcl : ∀ r r', (f r).clashes (f r') = true → r.clashes r' = true)
    (hlv : ∀ r, (f r).isActive = true → r.isActive = true ∧ (f r).asset = r.asset) :
    ({ s with rows := s.rows.map f } : Store).isConsistent = true := by
  rw [isConsistent_iff] at hs ⊢
  refine ⟨hs.1.map hcl, ?_⟩
  intro r' hr' hact
  obtain ⟨r, hr, rfl⟩ := mem_map.1 hr'
  obtain ⟨hact', hass⟩ := hlv r hact
  have hcr := hs.2 r hr hact'
  rw [← hass] at hcr
  exact hcr

def Binding.Continues (r r' : Binding) : Prop :=
  r'.pair = r.pair ∧ (r.isActive = false → r'.endedAt = r.endedAt ∧ r'.status = r.status)

theorem continues_refl (r : Binding) : r.Continues r := ⟨rfl, fun _ => ⟨rfl, rfl⟩⟩

theorem Binding.Continues.trans {a b d : Binding} (h : a.Continues b) (h' : b.Continues d) :
    a.Continues d := by
  refine ⟨h'.1.trans h.1, ?_⟩
  intro hend
  obtain ⟨htm, hst⟩ := h.2 hend
  have hend' : b.isActive = false := by
    unfold Binding.isActive at hend ⊢
    rw [htm]
    exact hend
  exact ⟨(h'.2 hend').1.trans htm, (h'.2 hend').2.trans hst⟩

def Extends (s s' : Store) : Prop := Grows Binding.Continues s.rows s'.rows

theorem extends_refl (s : Store) : Extends s s := grows_refl continues_refl s.rows

theorem Extends.trans (h : Extends s s') (h' : Extends s' s'') : Extends s s'' :=
  Grows.trans (fun _ _ _ => Binding.Continues.trans) h h'

theorem extends_append (s : Store) (r : Binding) : Extends s { s with rows := s.rows ++ [r] } :=
  grows_append continues_refl s.rows [r]

theorem extends_edit (h : ∀ r, s.rows[id]? = some r → r.Continues (f r)) : Extends s (s.edit id f) :=
  grows_modify continues_refl h

theorem extends_map (h : ∀ r : Binding, r.Continues (f r)) :
    Extends s { s with rows := s.rows.map f } :=
  grows_map h

theorem continues_of_active (hpi : r'.pair = r.pair) (hact : r.isActive = true) : r.Continues r' := by
  refine ⟨hpi, ?_⟩
  intro hend
  rw [hact] at hend
  cases hend

/-- A call commits a state that satisfies the indexes and continues the
history, or it is refused by its own checks. -/
def Keeps (s : Store) (x : Except BindingError Store) : Prop :=
  match x with
  | .ok s' => s'.isConsistent = true ∧ Extends s s'
  | .error e => e ≠ .integrity

theorem keeps_flush (hs : s'.isConsistent = true) (hex : Extends s s') : Keeps s (flush s') := by
  unfold flush
  rw [if_pos hs]
  exact ⟨hs, hex⟩

theorem keeps_bind {α : Type} {x : Except BindingError α} {g : α → Except BindingError Store}
    (herr : ∀ e, x = .error e → e ≠ .integrity) (hok : ∀ a, x = .ok a → Keeps s (g a)) :
      Keeps s (x >>= g) := by
  cases x with
  | error e => exact herr e rfl
  | ok a => exact hok a rfl

theorem keeps_flush_bind {g : Store → Except BindingError Store} (hs : s'.isConsistent = true)
    (hg : Keeps s (g s')) : Keeps s (flush s' >>= g) := by
  unfold flush
  rw [if_pos hs]
  exact hg

variable {e : BindingError}

theorem pc_error (h : s.pc asset = .error e) : e ≠ .integrity := by
  unfold Store.pc at h
  rintro rfl
  split at h
  · cases h
  · split_ifs at h
    cases h

theorem pc_ok {card : Card} (h : s.pc asset = .ok card) : (s.card? asset).isSome = true := by
  unfold Store.pc at h
  split at h
  · cases h
  · next hcr =>
      rw [hcr]
      rfl

theorem binding_error (h : s.binding asset id status = .error e) : e ≠ .integrity := by
  unfold Store.binding at h
  cases hpc : s.pc asset with
  | error e' =>
    rw [hpc] at h
    cases h
    exact pc_error hpc
  | ok card =>
    rw [hpc] at h
    rintro rfl
    dsimp only [bind, Except.bind] at h
    split at h
    · cases h
    · split_ifs at h <;> cases h

theorem binding_ok (h : s.binding asset id status = .ok r) :
    (s.card? asset).isSome = true ∧ s.rows[id]? = some r ∧ r.asset = asset ∧ r.status = status ∧
      r.isActive = true := by
  unfold Store.binding at h
  cases hpc : s.pc asset with
  | error e' =>
    rw [hpc] at h
    cases h
  | ok card =>
    rw [hpc] at h
    dsimp only [bind, Except.bind] at h
    split at h
    · cases h
    · next found hfn =>
        split_ifs at h with hass heli
        cases h
        rw [not_or, not_not, Bool.not_eq_false] at heli
        exact ⟨pc_ok hpc, hfn, not_not.1 hass, heli⟩

theorem unique_error {apart : Option Nat} (h : s.unique asset device apart = .error e) :
    e ≠ .integrity := by
  unfold Store.unique at h
  split_ifs at h
  cases h
  decide

theorem unique_ok {apart : Option Nat} (h : s.unique asset device apart = .ok ())
    (hi : s.rows[i]? = some r)
    (hap : some i ≠ apart) (hcn : r.isConfirmed = true) : r.asset ≠ asset ∧ r.device ≠ device := by
  unfold Store.unique at h
  split_ifs at h with hnn
  rw [Bool.not_eq_true, any_eq_false] at hnn
  have hrow := hnn (r, i) (mem_zipIdx_iff_getElem?.2 hi)
  simp only [Bool.and_eq_true, Bool.or_eq_true, decide_eq_true_eq, not_and, not_not] at hrow
  constructor
  · intro hass
    exact hap (hrow ⟨hcn, .inl hass⟩)
  · intro hdv
    exact hap (hrow ⟨hcn, .inr hdv⟩)

theorem keeps_error (he : e ≠ .integrity) : Keeps s (.error e) := he

section

variable (hs : s.isConsistent = true)
include hs

theorem finish_keeps (hrow : s.rows[id]? = some r) (hact : r.isActive = true) :
    (s.edit id fun r => r.finish status now).isConsistent = true ∧
      Extends s (s.edit id fun r => r.finish status now) := by
  constructor
  · apply consistent_edit hs
    · intro r _ j r' _ _
      exact clashes_of_inactive rfl
    · intro r _ hfn
      cases hfn
  · apply extends_edit
    intro r' hr'
    rw [hrow] at hr'
    cases hr'
    exact continues_of_active rfl hact

theorem confirmBinding_keeps : Keeps s (confirmBinding s asset id now) := by
  unfold confirmBinding
  apply keeps_bind fun e => binding_error
  intro r hr
  obtain ⟨hlv, hrow, rfl, hstat, hact⟩ := binding_ok hr
  split_ifs with hst
  · exact keeps_error (by decide)
  apply keeps_bind fun e => pc_error
  intro card hcr
  split_ifs with hmt
  · exact keeps_error (by decide)
  apply keeps_bind fun e => unique_error
  intro _ hun
  apply keeps_flush
  · apply consistent_edit hs
    · intro old hold j r' hj hne
      rw [hrow] at hold
      cases hold
      rw [← Bool.not_eq_true, clashes_iff]
      rintro (⟨-, hcn, hsha⟩ | ⟨hca, -⟩)
      · obtain ⟨hass, hdv⟩ := unique_ok hun hj (by simp) hcn
        rcases hsha with h | h
        · exact hass h.symm
        · exact hdv h.symm
      · cases (isCandidate_iff.1 hca).1
    · intro old hold _
      rw [hrow] at hold
      cases hold
      exact hlv
  · apply extends_edit
    intro old hold
    rw [hrow] at hold
    cases hold
    exact continues_of_active rfl hact

theorem rejectBinding_keeps : Keeps s (rejectBinding s asset id now) := by
  unfold rejectBinding
  apply keeps_bind fun e => binding_error
  intro r hr
  obtain ⟨-, hrow, -, -, hact⟩ := binding_ok hr
  obtain ⟨hcos, hex⟩ := finish_keeps hs hrow hact
  exact keeps_flush hcos hex

theorem detachBinding_keeps : Keeps s (detachBinding s asset id now) := by
  unfold detachBinding
  apply keeps_bind fun e => binding_error
  intro r hr
  obtain ⟨-, hrow, -, -, hact⟩ := binding_ok hr
  obtain ⟨hcos, hex⟩ := finish_keeps hs hrow hact
  exact keeps_flush hcos hex

theorem endRows_keeps
    (hf : ∀ r, f r = r ∨ r.isActive = true ∧ (f r).isActive = false ∧ (f r).pair = r.pair) :
    ({ s with rows := s.rows.map f } : Store).isConsistent = true ∧
      Extends s { s with rows := s.rows.map f } := by
  have hsm : ∀ r, (f r).isActive = true → f r = r := by
    intro r hact
    rcases hf r with h | ⟨-, hend, -⟩
    · exact h
    · rw [hend] at hact
      cases hact
  constructor
  · apply consistent_map hs
    · intro r r' hcl
      have hr := hsm r (isActive_of_clashes hcl)
      have hr' := hsm r' (isActive_of_clashes (clashes_symm hcl))
      rw [hr, hr'] at hcl
      exact hcl
    · intro r hact
      have h := hsm r hact
      rw [h] at hact ⊢
      exact ⟨hact, rfl⟩
  · apply extends_map
    intro r
    rcases hf r with h | ⟨hact, -, hpi⟩
    · rw [h]
      exact continues_refl r
    · exact continues_of_active hpi hact

theorem append_manual (hlv : (s.card? asset).isSome = true)
    (hfr : ∀ r ∈ s.rows, r.isConfirmed = true → r.asset ≠ asset ∧ r.device ≠ device) :
    ({ s with rows := s.rows ++ [manualBinding asset device now] } : Store).isConsistent = true := by
  apply consistent_append hs
  · intro r hr
    rw [← Bool.not_eq_true, clashes_iff]
    rintro (⟨-, hcn, hsha⟩ | ⟨hca, -⟩)
    · obtain ⟨hass, hdv⟩ := hfr r hr hcn
      rcases hsha with h | h
      · exact hass h.symm
      · exact hdv h.symm
    · cases (isCandidate_iff.1 hca).1
  · exact hlv

end

theorem supersede_cases (r : Binding) (pair : Text × Text) (now : Instant) : r.supersede pair now = r ∨
      r.isActive = true ∧ (r.supersede pair now).isActive = false ∧
        (r.supersede pair now).pair = r.pair := by
  unfold Binding.supersede
  split_ifs with hcn
  · exact .inr ⟨(isCandidate_iff.1 hcn).2.1, rfl, rfl⟩
  · exact .inl rfl

theorem replaceBinding_keeps (hs : s.isConsistent = true) :
    Keeps s (replaceBinding s asset id device now) := by
  unfold replaceBinding
  apply keeps_bind fun e => binding_error
  intro old hold
  obtain ⟨hlv, hrow, rfl, hst, hact⟩ := binding_ok hold
  split_ifs with hdv
  · exact keeps_error (by decide)
  apply keeps_bind fun e => unique_error
  intro _ hun
  obtain ⟨hend, hex⟩ := @finish_keeps s old now id .replaced hs hrow hact
  obtain ⟨hsup, hex'⟩ := endRows_keeps (f := fun r => r.supersede (old.asset, device) now) hend
    fun r => supersede_cases r _ now
  apply keeps_flush_bind hsup
  apply keeps_flush
  · apply append_manual hsup hlv
    intro r hr hcn
    obtain ⟨r', hr', rfl⟩ := mem_map.1 hr
    have hsm : r'.supersede (old.asset, device) now = r' := by
      rcases supersede_cases r' (old.asset, device) now with h | ⟨-, hina, -⟩
      · exact h
      · rw [isConfirmed_iff, hina] at hcn
        cases hcn.2
    rw [hsm] at hcn ⊢
    obtain ⟨j, hj⟩ := mem_iff_getElem?.1 hr'
    unfold Store.edit at hj
    rw [getElem?_modify] at hj
    obtain ⟨before, hbf, haf⟩ := Option.map_eq_some_iff.1 hj
    split_ifs at haf with hid
    · subst haf
      rw [isConfirmed_iff] at hcn
      cases hcn.2
    · have haf' : before = r' := haf
      subst haf'
      refine unique_ok hun hbf ?_ hcn
      intro h
      exact hid (Option.some.inj h).symm
  · exact (hex.trans hex').trans (extends_append _ _)

theorem reconnectBinding_keeps (hs : s.isConsistent = true) :
    Keeps s (reconnectBinding s asset id now) := by
  unfold reconnectBinding
  apply keeps_bind fun e => pc_error
  intro card hcr
  split
  · exact keeps_error (by decide)
  next old hold =>
    split_ifs with heli
    · exact keeps_error (by decide)
    apply keeps_bind fun e => unique_error
    intro _ hun
    have hap : ({ s with rows :=
      s.rows ++ [manualBinding asset old.device now] } : Store).isConsistent = true := by
      apply append_manual hs (pc_ok hcr)
      intro r hr hcn
      obtain ⟨j, hj⟩ := mem_iff_getElem?.1 hr
      exact unique_ok hun hj (by simp) hcn
    apply keeps_flush_bind hap
    apply keeps_flush
    · apply consistent_edit hap
      · intro r hr j r' hj hne
        exact (isConsistent_iff.1 hap).1 id j r r' hr hj hne.symm
      · intro r hr hact
        exact (isConsistent_iff.1 hap).2 r (mem_of_getElem? hr) hact
    · apply (extends_append s _).trans
      apply extends_edit
      intro r _
      exact ⟨rfl, fun _ => ⟨rfl, rfl⟩⟩

theorem card?_isSome (s : Store) (id : Text) :
    (s.card? id).isSome = s.cards.any fun card => card.id = id && !card.deleted := by
  unfold Store.card?
  rw [isSome_find?]

theorem live_map {g : Card → Card} {id : Text} (h : (s.card? id).isSome = true)
    (hg : ∀ card, card.id = id → card.deleted = false → (g card).id = id ∧ (g card).deleted = false) :
    (({ s with cards := s.cards.map g } : Store).card? id).isSome = true := by
  rw [card?_isSome, any_eq_true] at h ⊢
  obtain ⟨card, hcr, hlv⟩ := h
  rw [Bool.and_eq_true, decide_eq_true_iff, Bool.not_eq_true'] at hlv
  obtain ⟨hid, hdel⟩ := hg card hlv.1 hlv.2
  refine ⟨g card, mem_map_of_mem hcr, ?_⟩
  simp [hid, hdel]

theorem consistent_cards {cards : List Card} (hs : s.isConsistent = true)
    (hlv : ∀ r ∈ s.rows, r.isActive = true → (s.card? r.asset).isSome = true →
      (({ s with cards := cards } : Store).card? r.asset).isSome = true) :
    ({ s with cards := cards } : Store).isConsistent = true := by
  rw [isConsistent_iff] at hs ⊢
  exact ⟨hs.1, fun r hr hact => hlv r hr hact (hs.2 r hr hact)⟩

theorem endWithCard_cases (r : Binding) (asset : Text) (now : Instant) :
    r.endWithCard asset now = r ∨ r.isActive = true ∧ (r.endWithCard asset now).isActive = false ∧
      (r.endWithCard asset now).pair = r.pair := by
  unfold Binding.endWithCard
  split_ifs with h
  · exact .inr ⟨h.2, rfl, rfl⟩
  · exact .inl rfl

theorem softDelete_keeps {reason : Text} {claimed : Bool} (hs : s.isConsistent = true) :
    Keeps s (softDelete s asset reason claimed now) := by
  unfold softDelete
  split
  · exact keeps_error (by decide)
  split_ifs with hdel hrs hcl
  · exact ⟨hs, extends_refl s⟩
  · exact keeps_error (by decide)
  · exact keeps_error (by decide)
  obtain ⟨hend, hex⟩ := endRows_keeps (f := fun r => r.endWithCard asset now) hs
    fun r => endWithCard_cases r asset now
  apply keeps_flush_bind hend
  apply keeps_flush
  · apply consistent_cards hend
    intro r hr hact hcr
    apply live_map hcr
    intro card hid hlv
    have hne : card.id ≠ asset := by
      intro hass
      obtain ⟨old, -, rfl⟩ := mem_map.1 hr
      have holdAsset : old.asset = asset := by
        have hpi : (old.endWithCard asset now).asset = old.asset := by
          unfold Binding.endWithCard
          split_ifs <;> rfl
        rw [← hpi, ← hid, hass]
      rcases endWithCard_cases old asset now with hsm | ⟨-, hina, -⟩
      · rw [hsm] at hact
        have hendi : (old.endWithCard asset now).isActive = false := by
          unfold Binding.endWithCard
          rw [if_pos ⟨holdAsset, hact⟩]
          rfl
        rw [hsm, hact] at hendi
        cases hendi
      · rw [hina] at hact
        cases hact
    rw [if_neg hne]
    exact ⟨hid, hlv⟩
  · exact hex

theorem restore_keeps {claimed located : Bool} (hs : s.isConsistent = true) :
    Keeps s (restore s asset claimed located) := by
  unfold restore
  split
  · exact keeps_error (by decide)
  split_ifs with hdel hlc hcl
  · exact ⟨hs, extends_refl s⟩
  · exact keeps_error (by decide)
  · exact keeps_error (by decide)
  apply keeps_flush
  · apply consistent_cards hs
    intro r _ _ hcr
    apply live_map hcr
    intro card hid hlv
    split_ifs
    · exact ⟨hid, rfl⟩
    · exact ⟨hid, hlv⟩
  · exact extends_refl s

theorem create_keeps {isPc : Bool} {anchors : List Anchor} (hs : s.isConsistent = true) :
    Keeps s ((Call.create asset isPc anchors).result s) := by
  unfold Call.result
  simp only
  split_ifs with hkn
  · exact keeps_error (by decide)
  apply keeps_flush
  · apply consistent_cards hs
    intro r _ _ hcr
    rw [card?_isSome] at hcr ⊢
    rw [any_append, hcr]
    rfl
  · exact extends_refl s

theorem describe_keeps {isPc : Bool} {anchors : List Anchor} (hs : s.isConsistent = true) :
    Keeps s ((Call.describe asset isPc anchors).result s) := by
  unfold Call.result
  apply keeps_flush
  · apply consistent_cards hs
    intro r _ _ hcr
    apply live_map hcr
    intro card hid hlv
    split_ifs
    · exact ⟨hid, hlv⟩
    · exact ⟨hid, hlv⟩
  · exact extends_refl s

namespace Discovery

variable {d : Discovery}

theorem mem_pairs (h : pair ∈ d.pairs) : pair.1 ∈ d.assets ∧ pair.2 ∈ d.devices ∧
    d.matched pair ≠ [] := by
  unfold pairs at h
  rw [mem_insertionSort, mem_filter, decide_eq_true_iff] at h
  obtain ⟨asset, device⟩ := pair
  have hpr := pair_mem_product.1 h.1
  exact ⟨hpr.1, hpr.2, h.2⟩

theorem pairs_nodup (d : Discovery) : d.pairs.Nodup := by
  unfold pairs
  rw [(perm_insertionSort _ _).nodup_iff]
  apply Nodup.filter
  exact (nodup_dedup _).product (nodup_dedup _)

theorem live_of_matched (h : d.matched pair ≠ []) : (d.start.card? pair.1).isSome = true := by
  unfold matched at h
  split at h
  · next card hcr =>
      rw [hcr]
      rfl
  · exact absurd rfl h

theorem eq_of_length_one {l : List Text} {x y : Text} (hl : l.length = 1) (hx : x ∈ l)
    (hy : y ∈ l) : x = y := by
  obtain ⟨a, rfl⟩ := length_eq_one_iff.1 hl
  rw [mem_singleton] at hx hy
  exact hx.trans hy.symm

theorem auto_iff : d.auto pair = true ↔
    d.matchedBy .mac pair ≠ [] ∧ (d.macAssets pair.2).length = 1 ∧ (d.macDevices pair.1).length = 1 ∧
      pair.2 ∉ d.boundDevices ∧ pair.1 ∉ d.endedPairs.map Prod.fst := by
  unfold auto
  simp only [Bool.and_eq_true, decide_eq_true_eq, Bool.not_eq_true', contains_eq_mem, decide_eq_false_iff_not,
    and_assoc]

/-- Two automatic confirmations share neither the card nor the device. -/
theorem auto_unique {pair' : Text × Text} (hpi : pair ∈ d.pairs) (hpi' : pair' ∈ d.pairs)
    (hau : d.auto pair = true) (hau' : d.auto pair' = true)
    (hsha : pair.1 = pair'.1 ∨ pair.2 = pair'.2) :
    pair = pair' := by
  obtain ⟨asset, device⟩ := pair
  obtain ⟨asset', device'⟩ := pair'
  obtain ⟨hmac, hasse, hdevi, -, -⟩ := auto_iff.1 hau
  obtain ⟨hmac', -, -, -, -⟩ := auto_iff.1 hau'
  obtain ⟨hass, hdv, -⟩ := mem_pairs hpi
  obtain ⟨hass', hdv', -⟩ := mem_pairs hpi'
  rcases hsha with h | h
  · simp only at h
    subst h
    have hsm := eq_of_length_one hdevi (mem_filter.2 ⟨hdv, decide_eq_true hmac⟩)
      (mem_filter.2 ⟨hdv', decide_eq_true hmac'⟩)
    exact congrArg (Prod.mk asset) hsm
  · simp only at h
    subst h
    have hsm := eq_of_length_one hasse (mem_filter.2 ⟨hass, decide_eq_true hmac⟩)
      (mem_filter.2 ⟨hass', decide_eq_true hmac'⟩)
    exact congrArg (fun asset => (asset, device)) hsm

/-- What holds in the loop of discovery when the pairs `done` have had their
turn. -/
structure Offered (d : Discovery) (done : List (Text × Text)) (s : Store) : Prop where
  consistent : s.isConsistent = true
  cards : s.cards = d.start.cards
  history : Extends d.start s
  confirmed : ∀ r ∈ s.rows, r.isConfirmed = true →
    r.asset ∈ d.boundAssets ∧ r.device ∈ d.boundDevices ∨ r.pair ∈ done ∧ d.auto r.pair = true

variable {done rest : List (Text × Text)}

theorem Offered.more (h : Offered d done s) : Offered d (done ++ [pair]) s := by
  refine ⟨h.consistent, h.cards, h.history, ?_⟩
  intro r hr hcn
  rcases h.confirmed r hr hcn with hbou | ⟨hdn, hau⟩
  · exact .inl hbou
  · exact .inr ⟨mem_append_left _ hdn, hau⟩

theorem Offered.free (h : Offered d done s) (hsp : d.pairs = done ++ pair :: rest)
    (hbou : pair.1 ∉ d.boundAssets) (hau : d.auto pair = true) :
    ∀ r ∈ s.rows, r.isConfirmed = true → r.asset ≠ pair.1 ∧ r.device ≠ pair.2 := by
  intro r hr hcn
  have hnd := hsp ▸ d.pairs_nodup
  have hdn : pair ∉ done := by
    intro hmem
    exact disjoint_of_nodup_append hnd hmem mem_cons_self
  have hpi : pair ∈ d.pairs := by
    rw [hsp]
    exact mem_append_right _ mem_cons_self
  rcases h.confirmed r hr hcn with ⟨hass, hdv⟩ | ⟨hmem, hau'⟩
  · constructor
    · rintro h
      exact hbou (h ▸ hass)
    · rintro h
      exact (auto_iff.1 hau).2.2.2.1 (h ▸ hdv)
  · have hpi' : r.pair ∈ d.pairs := by
      rw [hsp]
      exact mem_append_left _ hmem
    have hne : ¬ (r.pair.1 = pair.1 ∨ r.pair.2 = pair.2) := by
      intro hsha
      exact hdn (auto_unique hpi' hpi hau' hau hsha ▸ hmem)
    rw [not_or] at hne
    exact hne

theorem Offered.clashes_eq_false (h : Offered d done s)
    (hsp : d.pairs = done ++ pair :: rest) (hbou : pair.1 ∉ d.boundAssets) (hr : r.pair = pair)
    (hau : r.isConfirmed = true → d.auto pair = true) (hr' : r' ∈ s.rows)
    (hcn : r.status = .candidate → r'.isCandidate pair = false) : r.clashes r' = false := by
  rw [← Bool.not_eq_true, clashes_iff]
  rintro (⟨hco, hcn', hsha⟩ | ⟨hca', hcn''⟩)
  · obtain ⟨hass, hdv⟩ := h.free hsp hbou (hau hco) r' hr' hcn'
    rw [← hr] at hass hdv
    rcases hsha with h | h
    · exact hass h.symm
    · exact hdv h.symm
  · rw [hr, hcn (isCandidate_iff.1 hca').1] at hcn''
    cases hcn''

theorem Offered.offer (h : Offered d done s)
    (hsp : d.pairs = done ++ pair :: rest) : ∃ s', d.offer s pair = .ok s' ∧
      Offered d (done ++ [pair]) s' := by
  have hpi : pair ∈ d.pairs := by
    rw [hsp]
    exact mem_append_right _ mem_cons_self
  have hlv : (s.card? pair.1).isSome = true := by
    have hstart := live_of_matched (mem_pairs hpi).2.2
    unfold Store.card? at hstart ⊢
    rw [h.cards]
    exact hstart
  have hnew : pair ∈ done ++ [pair] := mem_append_right _ (mem_singleton.2 rfl)
  unfold Discovery.offer
  by_cases hsk : pair.1 ∈ d.boundAssets ∨ pair ∈ d.endedPairs
  · rw [if_pos hsk]
    exact ⟨s, rfl, h.more⟩
  rw [if_neg hsk]
  rw [not_or] at hsk
  split
  · exact ⟨s, rfl, h.more⟩
  split
  · next hnn =>
      have hcands := findIdx?_eq_none_iff.1 hnn
      set r : Binding := {
        asset := pair.1
        device := pair.2
        status := if d.auto pair then .confirmed else .candidate
        evidence := d.evidence pair
        lastVerifiedAt := some d.now
        endedAt := none }
      have hau : r.isConfirmed = true → d.auto pair = true := by
        intro hcn
        by_contra hau
        have hst := (isConfirmed_iff.1 hcn).1
        simp only [r, if_neg hau] at hst
        cases hst
      have hcos : ({ s with rows := s.rows ++ [r] } : Store).isConsistent = true := by
        apply consistent_append h.consistent
        · intro r' hr'
          exact h.clashes_eq_false hsp hsk.1 rfl hau hr' fun _ => hcands r' hr'
        · exact hlv
      unfold flush
      rw [if_pos hcos]
      refine ⟨_, rfl, hcos, h.cards, h.history.trans (extends_append _ _), ?_⟩
      intro r' hr' hcn
      rcases mem_append.1 hr' with hold | hls
      · exact h.more.confirmed r' hold hcn
      · rw [mem_singleton] at hls
        subst hls
        exact .inr ⟨hnew, hau hcn⟩
  · next i hsm =>
      obtain ⟨hi, hca, -⟩ := findIdx?_eq_some_iff_getElem.1 hsm
      have hrow := getElem?_eq_getElem hi
      generalize s.rows[i] = old at hca hrow
      obtain ⟨hst, hact, hold⟩ := isCandidate_iff.1 hca
      set f : Binding → Binding := fun r => { r with
        status := if d.auto pair then .confirmed else r.status
        evidence := d.evidence pair
        lastVerifiedAt := some d.now }
      have hau : (f old).isConfirmed = true → d.auto pair = true := by
        intro hcn
        by_contra hau
        have hfs := (isConfirmed_iff.1 hcn).1
        simp only [f, if_neg hau, hst] at hfs
        cases hfs
      have hcos : (s.edit i f).isConsistent = true := by
        apply consistent_edit h.consistent
        · intro r hr j r' hj hne
          rw [hrow] at hr
          cases hr
          have hpi' : (f old).pair = pair := hold
          apply h.clashes_eq_false hsp hsk.1 hpi' hau (mem_of_getElem? hj)
          intro _
          rw [← Bool.not_eq_true]
          intro hcn'
          have hcl := (isConsistent_iff.1 h.consistent).1 i j old r' hrow hj hne.symm
          rw [← Bool.not_eq_true, clashes_iff] at hcl
          apply hcl
          rw [(isCandidate_iff.1 hcn').2.2, hold]
          exact .inr ⟨hca, hcn'⟩
        · intro r hr _
          rw [hrow] at hr
          cases hr
          rw [← hold] at hlv
          exact hlv
      have hex : Extends s (s.edit i f) := by
        apply extends_edit
        intro r hr
        rw [hrow] at hr
        cases hr
        exact continues_of_active rfl hact
      unfold flush
      change ∃ s', (if (s.edit i f).isConsistent = true then Except.ok (s.edit i f) else _) = .ok s' ∧ _
      rw [if_pos hcos]
      refine ⟨_, rfl, hcos, h.cards, h.history.trans hex, ?_⟩
      intro r hr hcn
      obtain ⟨j, hj⟩ := mem_iff_getElem?.1 hr
      unfold Store.edit at hj
      rw [getElem?_modify] at hj
      obtain ⟨before, hbf, haf⟩ := Option.map_eq_some_iff.1 hj
      split_ifs at haf with hji
      · subst hji haf
        rw [hrow] at hbf
        cases hbf
        refine .inr ⟨?_, ?_⟩
        · change old.pair ∈ _
          rw [hold]
          exact hnew
        · change d.auto old.pair = true
          rw [hold]
          exact hau hcn
      · have hsa : before = r := haf
        subst hsa
        exact h.more.confirmed before (mem_of_getElem? hbf) hcn

end Discovery

theorem outdated_cases (r : Binding) : r.outdated.status = r.status ∧ r.outdated.endedAt = r.endedAt ∧
    r.outdated.asset = r.asset ∧ r.outdated.device = r.device := by
  unfold Binding.outdated
  split_ifs <;> exact ⟨rfl, rfl, rfl, rfl⟩

theorem reconcileCandidates_keeps {identities : List Identity} (hs : s.isConsistent = true) :
    Keeps s (reconcileCandidates s identities now) := by
  set d : Discovery := ⟨now, identities.filter fun identity => identity.isUsable now, s⟩
  have hkp : ∀ r : Binding, r.outdated.isActive = r.isActive ∧ r.outdated.isConfirmed = r.isConfirmed ∧
      r.outdated.pair = r.pair ∧ ∀ pair, r.outdated.isCandidate pair = r.isCandidate pair := by
    intro r
    obtain ⟨hstat, hend, hass, hdv⟩ := outdated_cases r
    unfold Binding.isConfirmed Binding.isCandidate Binding.isActive Binding.pair
    rw [hstat, hend, hass, hdv]
    exact ⟨rfl, rfl, rfl, fun _ => rfl⟩
  have hst : Discovery.Offered d [] { s with rows := s.rows.map Binding.outdated } := by
    refine ⟨?_, rfl, ?_, ?_⟩
    · apply consistent_map hs
      · intro r r' hcl
        rw [clashes_iff] at hcl ⊢
        obtain ⟨-, hcn, hpi, hca⟩ := hkp r
        obtain ⟨-, hcn', hpi', hca'⟩ := hkp r'
        rw [hcn, hcn', (outdated_cases r).2.2.1, (outdated_cases r').2.2.1,
          (outdated_cases r).2.2.2, (outdated_cases r').2.2.2, hca, hca', hpi, hpi'] at hcl
        exact hcl
      · intro r hact
        rw [(hkp r).1] at hact
        exact ⟨hact, (outdated_cases r).2.2.1⟩
    · apply extends_map
      intro r
      exact ⟨(hkp r).2.2.1, fun _ => ⟨(outdated_cases r).2.1, (outdated_cases r).1⟩⟩
    · intro r hr hcn
      obtain ⟨old, hold, rfl⟩ := mem_map.1 hr
      rw [(hkp old).2.1] at hcn
      rw [(outdated_cases old).2.2.1, (outdated_cases old).2.2.2]
      have hmem := mem_filter.2 ⟨hold, hcn⟩
      exact .inl ⟨mem_map_of_mem hmem, mem_map_of_mem hmem⟩
  obtain ⟨s', hlo, hoff⟩ := foldlM_ok (m := d.offer) hst
    fun (done : List (Text × Text)) pair rest s (hsp : d.pairs = _) h => h.offer hsp
  unfold reconcileCandidates
  change Keeps s (d.pairs.foldlM d.offer { s with rows := s.rows.map Binding.outdated } >>= flush)
  rw [hlo]
  exact keeps_flush hoff.consistent hoff.history

theorem result_keeps (hs : s.isConsistent = true) (c : Call) : Keeps s (c.result s) := by
  cases c with
  | reconcile identities now => exact reconcileCandidates_keeps hs
  | confirm asset id now => exact confirmBinding_keeps hs
  | reject asset id now => exact rejectBinding_keeps hs
  | detach asset id now => exact detachBinding_keeps hs
  | replace asset id device now => exact replaceBinding_keeps hs
  | reconnect asset id now => exact reconnectBinding_keeps hs
  | delete asset reason claimed now => exact softDelete_keeps hs
  | restore asset claimed located => exact restore_keeps hs
  | create asset isPc anchors => exact create_keeps hs
  | describe asset isPc anchors => exact describe_keeps hs

theorem call_keeps (hs : s.isConsistent = true) (c : Call) : (call s c).isConsistent = true ∧
    Extends s (call s c) := by
  have hke := result_keeps hs c
  unfold call
  cases hrs : c.result s with
  | error e => exact ⟨hs, extends_refl s⟩
  | ok s' =>
    rw [hrs] at hke
    exact hke

theorem consistent_run (calls : List Call) (hs : s.isConsistent = true) :
    (run call s calls).isConsistent = true :=
  run_keeps (P := fun s : Store => s.isConsistent = true) hs fun _ c h => (call_keeps h c).1

theorem extends_run (calls : List Call) (hs : s.isConsistent = true) : Extends s (run call s calls) :=
  run_relates (I := fun s : Store => s.isConsistent = true) hs
    (fun _ c h => (call_keeps h c).1) extends_refl (fun _ _ _ h h' => h.trans h')
    fun _ c h => (call_keeps h c).2

/-- In every run the indexes hold, no call fails on them or on a trigger, no
deleted card has an active binding, and ended rows stay ended. -/
theorem bindings_one_to_one (calls : List Call) :
    (∀ (i j : Nat) (r r' : Binding), (run call emptyStore calls).rows[i]? = some r →
      (run call emptyStore calls).rows[j]? = some r' →
      (r.isConfirmed = true ∧ r'.isConfirmed = true ∧ (r.asset = r'.asset ∨ r.device = r'.device)) ∨
        (∃ pair, r.isCandidate pair = true ∧ r'.isCandidate pair = true) → i = j) ∧
    (∀ c : Call, c.result (run call emptyStore calls) ≠ .error .integrity) ∧
    (∀ r ∈ (run call emptyStore calls).rows, r.isActive = true →
      ((run call emptyStore calls).card? r.asset).isSome = true) ∧
    ∀ (later : List Call) (i : Nat) (r : Binding), (run call emptyStore calls).rows[i]? = some r →
      ∃ r', (run call emptyStore (calls ++ later)).rows[i]? = some r' ∧ r'.asset = r.asset ∧
        r'.device = r.device ∧ (r.endedAt ≠ none → r'.endedAt = r.endedAt ∧ r'.status = r.status) := by
  have hs := consistent_run (s := emptyStore) calls rfl
  obtain ⟨hind, hlv⟩ := isConsistent_iff.1 hs
  refine ⟨?_, ?_, hlv, ?_⟩
  · intro i j r r' hi hj hsha
    by_contra hne
    have hcl := hind i j r r' hi hj hne
    rw [← Bool.not_eq_true, clashes_iff] at hcl
    apply hcl
    rcases hsha with hco | ⟨pair, hcn, hcn'⟩
    · exact .inl hco
    · rw [(isCandidate_iff.1 hcn).2.2, (isCandidate_iff.1 hcn').2.2]
      exact .inr ⟨hcn, hcn'⟩
  · intro c hfi
    have hke := result_keeps hs c
    rw [hfi] at hke
    exact hke rfl
  · intro later i r hi
    rw [run_append]
    obtain ⟨r', hr', hpi, hend⟩ := extends_run later hs i r hi
    refine ⟨r', hr', congrArg Prod.fst hpi, congrArg Prod.snd hpi, ?_⟩
    intro h
    apply hend
    unfold Binding.isActive
    exact Option.isNone_eq_false_iff.2 (Option.isSome_iff_ne_none.2 h)

end WebOvpn.Inventory
