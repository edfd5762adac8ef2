/-
Discovery and the decisions of an operator: what can make a pair of a card and
a device confirmed, and which bindings can be reconnected.
-/
import WebOvpn.Inventory.BindingLaw

namespace WebOvpn.Inventory

open List

variable {s s' : Store} {r r' : Binding} {pair : Text × Text} {asset device : Text} {now : Instant}
    {i j id : Nat}
  {status : BindingStatus} {f : Binding → Binding} {c : Call}

/-- What an operator decided of a pair. -/
inductive Decision where
  | confirmed
  | rejected
  | detached
  | replaced
  deriving DecidableEq

def Store.decide (s : Store) (id : Nat) (decision : Decision) : List ((Text × Text) × Decision) :=
  match s.rows[id]? with
  | some r => [(r.pair, decision)]
  | none => []

def Call.decisions (s : Store) : Call → List ((Text × Text) × Decision)
  | .confirm _ id _ => s.decide id .confirmed
  | .reject _ id _ => s.decide id .rejected
  | .detach _ id _ => s.decide id .detached
  | .replace asset id device _ => ((asset, device), .confirmed) :: s.decide id .replaced
  | .reconnect _ id _ => s.decide id .confirmed
  | _ => []

structure Log where
  store : Store
  decisions : List ((Text × Text) × Decision)

def record (l : Log) (c : Call) : Log :=
  match c.result l.store with
  | .ok s => ⟨s, c.decisions l.store ++ l.decisions⟩
  | .error _ => l

theorem record_ok {l : Log} {c : Call} {s : Store} (h : c.result l.store = .ok s) :
    record l c = ⟨s, c.decisions l.store ++ l.decisions⟩ := by
  unfold record
  rw [h]

theorem record_error {l : Log} {c : Call} {e : BindingError} (h : c.result l.store = .error e) :
    record l c = l := by
  unfold record
  rw [h]

def Log.latest (l : Log) (pair : Text × Text) : Option Decision :=
  (l.decisions.find? fun entry => entry.1 = pair).map Prod.snd

def emptyLog : Log := ⟨emptyStore, []⟩

def Store.confirms (s : Store) (pair : Text × Text) : Bool :=
  s.rows.any fun r => r.isConfirmed && r.pair = pair

def Store.hasEnded (s : Store) (pair : Text × Text) : Bool :=
  s.rows.any fun r => (r.status = .ended || r.status = .replaced) && !r.isActive && r.pair = pair

def Store.rejects (s : Store) (pair : Text × Text) (material : Material) : Bool :=
  s.rows.any fun r => r.pair = pair && r.status = .rejected && r.evidence.material = some material

def Store.materialOf (s : Store) (identities : List Identity) (now : Instant)
    (pair : Text × Text) : Material :=
  Discovery.material ⟨now, identities.filter fun identity => identity.isUsable now, s⟩ pair

theorem confirms_iff : s.confirms pair = true ↔ ∃ r ∈ s.rows, r.isConfirmed = true ∧ r.pair = pair := by
  unfold Store.confirms
  simp only [any_eq_true, Bool.and_eq_true, decide_eq_true_eq]

theorem hasEnded_iff : s.hasEnded pair = true ↔
    ∃ r ∈ s.rows, (r.status = .ended ∨ r.status = .replaced) ∧ r.isActive = false ∧ r.pair = pair := by
  unfold Store.hasEnded
  simp only [any_eq_true, Bool.and_eq_true, Bool.or_eq_true, decide_eq_true_eq, Bool.not_eq_true', and_assoc]

inductive Origin (s : Store) (c : Call) (r' : Binding) : Prop where
  | kept (r : Binding) : r ∈ s.rows → r.pair = r'.pair → r.status = r'.status → r.isActive = r'.isActive →
      r.evidence.endedByDeletion = r'.evidence.endedByDeletion → Origin s c r'
  /-- Neither confirmed nor detached. -/
  | closed : r'.isConfirmed = false → (r'.status = .ended → r'.evidence.endedByDeletion = true) → Origin s c r'
  | decided : (r'.pair, .confirmed) ∈ c.decisions s → r'.status ≠ .ended → Origin s c r'
  | discovered (identities : List Identity) (now : Instant) : c = .reconcile identities now →
      s.hasEnded r'.pair = false → s.rejects r'.pair (s.materialOf identities now r'.pair) = false →
      r'.status ≠ .ended → Origin s c r'
  | detached : s.confirms r'.pair = true → Origin s c r'

theorem origin_of_mem (h : r ∈ s.rows) : Origin s c r := .kept r h rfl rfl rfl rfl

theorem flush_eq_ok (h : flush s = .ok s') : s' = s := by
  unfold flush at h
  split_ifs at h
  exact (Except.ok.inj h).symm

theorem confirmBinding_origin (h : confirmBinding s asset id now = .ok s') :
    ∀ r' ∈ s'.rows, Origin s (.confirm asset id now) r' := by
  unfold confirmBinding at h
  obtain ⟨r, hr, h⟩ := bind_eq_ok.1 h
  obtain ⟨-, hrow, -, -, -⟩ := binding_ok hr
  split_ifs at h
  obtain ⟨card, -, h⟩ := bind_eq_ok.1 h
  split_ifs at h
  obtain ⟨_, -, h⟩ := bind_eq_ok.1 h
  rw [flush_eq_ok h]
  intro r' hr'
  rcases mem_modify_cases hr' with hold | ⟨old, hold, rfl⟩
  · exact origin_of_mem hold
  · apply Origin.decided
    · change (old.pair, _) ∈ s.decide id .confirmed
      unfold Store.decide
      rw [hold]
      exact mem_singleton.2 rfl
    · nofun

theorem rejectBinding_origin (h : rejectBinding s asset id now = .ok s') :
    ∀ r' ∈ s'.rows, Origin s (.reject asset id now) r' := by
  unfold rejectBinding at h
  obtain ⟨r, -, h⟩ := bind_eq_ok.1 h
  rw [flush_eq_ok h]
  intro r' hr'
  rcases mem_modify_cases hr' with hold | ⟨old, -, rfl⟩
  · exact origin_of_mem hold
  · exact .closed rfl nofun

theorem detachBinding_origin (h : detachBinding s asset id now = .ok s') :
    ∀ r' ∈ s'.rows, Origin s (.detach asset id now) r' := by
  unfold detachBinding at h
  obtain ⟨r, hr, h⟩ := bind_eq_ok.1 h
  obtain ⟨-, hrow, -, hst, hact⟩ := binding_ok hr
  rw [flush_eq_ok h]
  intro r' hr'
  rcases mem_modify_cases hr' with hold | ⟨old, hold, rfl⟩
  · exact origin_of_mem hold
  · rw [hrow] at hold
    cases hold
    exact .detached (confirms_iff.2 ⟨r, mem_of_getElem? hrow, isConfirmed_iff.2 ⟨hst, hact⟩, rfl⟩)

theorem replaceBinding_origin (h : replaceBinding s asset id device now = .ok s') :
    ∀ r' ∈ s'.rows, Origin s (.replace asset id device now) r' := by
  unfold replaceBinding at h
  obtain ⟨r, -, h⟩ := bind_eq_ok.1 h
  split_ifs at h
  obtain ⟨_, -, h⟩ := bind_eq_ok.1 h
  obtain ⟨s₁, h₁, h⟩ := bind_eq_ok.1 h
  rw [flush_eq_ok h, flush_eq_ok h₁]
  intro r' hr'
  rcases mem_append.1 hr' with hrow | hnew
  · obtain ⟨old, hold, rfl⟩ := mem_map.1 hrow
    unfold Binding.supersede
    split_ifs
    · exact .closed rfl nofun
    · rcases mem_modify_cases hold with hmem | ⟨before, -, rfl⟩
      · exact origin_of_mem hmem
      · exact .closed rfl nofun
  · rw [mem_singleton] at hnew
    subst hnew
    exact .decided mem_cons_self nofun

theorem reconnectBinding_origin (h : reconnectBinding s asset id now = .ok s') :
    ∀ r' ∈ s'.rows, Origin s (.reconnect asset id now) r' := by
  unfold reconnectBinding at h
  obtain ⟨card, -, h⟩ := bind_eq_ok.1 h
  split at h
  · cases h
  next old hold =>
    split_ifs at h with heli
    obtain ⟨_, -, h⟩ := bind_eq_ok.1 h
    obtain ⟨s₁, h₁, h⟩ := bind_eq_ok.1 h
    rw [flush_eq_ok h, flush_eq_ok h₁]
    have hap : ∀ r' ∈ s.rows ++ [manualBinding asset old.device now],
        Origin s (.reconnect asset id now) r' := by
      intro r' hr'
      rcases mem_append.1 hr' with hrow | hnew
      · exact origin_of_mem hrow
      · rw [mem_singleton] at hnew
        subst hnew
        rw [not_or, not_not] at heli
        apply Origin.decided
        · change ((asset, old.device), _) ∈ s.decide id .confirmed
          unfold Store.decide
          rw [hold, ← heli.1]
          exact mem_singleton.2 rfl
        · nofun
    intro r' hr'
    rcases mem_modify_cases hr' with hrow | ⟨before, hbf, rfl⟩
    · exact hap r' hrow
    · -- only the evidence of the row changes
      have hlt : id < s.rows.length := (List.getElem?_eq_some_iff.1 hold).1
      have hsm : before = old := by
        have hrow : (s.rows ++ [manualBinding asset old.device now])[id]? = some old :=
          (getElem?_append_left hlt).trans hold
        exact Option.some.inj (hbf.symm.trans hrow)
      subst hsm
      exact .kept before (mem_of_getElem? hold) rfl rfl rfl rfl

theorem softDelete_origin {reason : Text} {claimed : Bool}
    (h : softDelete s asset reason claimed now = .ok s') :
    ∀ r' ∈ s'.rows, Origin s (.delete asset reason claimed now) r' := by
  unfold softDelete at h
  split at h
  · cases h
  split_ifs at h
  · rw [← Except.ok.inj h]
    exact fun r' => origin_of_mem
  · obtain ⟨s₁, h₁, h⟩ := bind_eq_ok.1 h
    rw [flush_eq_ok h, flush_eq_ok h₁]
    intro r' hr'
    obtain ⟨old, hold, rfl⟩ := mem_map.1 hr'
    unfold Binding.endWithCard
    split_ifs
    · exact .closed rfl fun _ => rfl
    · exact origin_of_mem hold

theorem restore_rows {claimed located : Bool} (h : restore s asset claimed located = .ok s') :
    s'.rows = s.rows := by
  unfold restore at h
  split at h
  · cases h
  split_ifs at h
  · rw [← Except.ok.inj h]
  · rw [flush_eq_ok h]
    rfl

structure Found (d : Discovery) (c : Call) (s : Store) : Prop where
  origin : ∀ r' ∈ s.rows, Origin d.start c r'
  rejected : ∀ r ∈ d.start.rows, r.status = .rejected → r ∈ s.rows

theorem Found.offer {d : Discovery} {identities : List Identity} {s₀ : Store}
    (hd : d = ⟨now, identities.filter fun identity => identity.isUsable now, s₀⟩)
    (h : Found d (.reconcile identities now) s) (hoff : d.offer s pair = .ok s') :
    Found d (.reconcile identities now) s' := by
  unfold Discovery.offer at hoff
  by_cases hsk : pair.1 ∈ d.boundAssets ∨ pair ∈ d.endedPairs
  · rw [if_pos hsk] at hoff
    rw [← Except.ok.inj hoff]
    exact h
  rw [if_neg hsk] at hoff
  rw [not_or] at hsk
  have hend : d.start.hasEnded pair = false := by
    rw [← Bool.not_eq_true]
    intro hfn
    obtain ⟨r, hr, hst, hact, rfl⟩ := hasEnded_iff.1 hfn
    apply hsk.2
    apply mem_map_of_mem
    rw [mem_filter]
    refine ⟨hr, ?_⟩
    simp [hst, hact]
  split at hoff
  · rw [← Except.ok.inj hoff]
    exact h
  next hmater =>
    have hrejec : d.start.rejects pair (d.material pair) = false := by
      rw [← Bool.not_eq_true]
      intro hfn
      obtain ⟨r, hr, hmt⟩ := any_eq_true.1 hfn
      have hst : r.status = .rejected := by
        simp only [Bool.and_eq_true, decide_eq_true_eq] at hmt
        exact hmt.1.2
      exact hmater (any_eq_true.2 ⟨r, h.rejected r hr hst, hmt⟩)
    have hds : ∀ r : Binding, r.pair = pair → r.status ≠ .ended →
        Origin d.start (.reconcile identities now) r := by
      intro r hr hst
      have hmate : d.start.materialOf identities now pair = d.material pair := by
        subst hd
        rfl
      refine .discovered identities now rfl (hr ▸ hend) ?_ hst
      rw [hr, hmate]
      exact hrejec
    split at hoff
    · rw [flush_eq_ok hoff]
      constructor
      · intro r' hr'
        rcases mem_append.1 hr' with hold | hnew
        · exact h.origin r' hold
        · rw [mem_singleton] at hnew
          subst hnew
          apply hds _ rfl
          simp only
          split_ifs <;> nofun
      · intro r hr hst
        exact mem_append_left _ (h.rejected r hr hst)
    · next i hsm =>
        obtain ⟨hi, hcn, -⟩ := findIdx?_eq_some_iff_getElem.1 hsm
        have hrow := getElem?_eq_getElem hi
        generalize s.rows[i] = old at hcn hrow
        obtain ⟨hst, -, hold⟩ := isCandidate_iff.1 hcn
        rw [flush_eq_ok hoff]
        constructor
        · intro r' hr'
          have hedi : r' ∈ (s.edit i _).rows := hr'
          rcases mem_modify_cases hedi with hmem | ⟨before, hbf, rfl⟩
          · exact h.origin r' hmem
          · rw [hrow] at hbf
            cases hbf
            apply hds
            · exact hold
            · simp only [hst]
              split_ifs <;> nofun
        · intro r hr hrej
          obtain ⟨j, hj⟩ := mem_iff_getElem?.1 (h.rejected r hr hrej)
          have hij : i ≠ j := by
            rintro rfl
            rw [hrow] at hj
            cases hj
            rw [hst] at hrej
            cases hrej
          apply mem_of_getElem? (i := j)
          simp [hij, hj]

theorem reconcileCandidates_origin {identities : List Identity}
    (h : reconcileCandidates s identities now = .ok s') :
    ∀ r' ∈ s'.rows, Origin s (.reconcile identities now) r' := by
  unfold reconcileCandidates at h
  obtain ⟨t, hlo, h⟩ := bind_eq_ok.1 h
  rw [flush_eq_ok h]
  suffices hfn : Found ⟨now, identities.filter fun identity => identity.isUsable now, s⟩
      (.reconcile identities now) t from hfn.origin
  refine foldlM_keeps hlo ?_ fun _ _ _ _ hfn hoff => hfn.offer rfl hoff
  constructor
  · intro r' hr'
    obtain ⟨old, hold, rfl⟩ := mem_map.1 hr'
    obtain ⟨hst, hend, hass, hdv⟩ := outdated_cases old
    refine .kept old hold ?_ hst.symm ?_ ?_
    · unfold Binding.pair
      rw [hass, hdv]
    · unfold Binding.isActive
      rw [hend]
    · unfold Binding.outdated
      split_ifs <;> rfl
  · intro r hr hst
    refine mem_map.2 ⟨r, hr, ?_⟩
    unfold Binding.outdated
    rw [if_neg]
    rw [hst]
    nofun

theorem result_origin (h : c.result s = .ok s') : ∀ r' ∈ s'.rows, Origin s c r' := by
  cases c with
  | reconcile identities now => exact reconcileCandidates_origin h
  | confirm asset id now => exact confirmBinding_origin h
  | reject asset id now => exact rejectBinding_origin h
  | detach asset id now => exact detachBinding_origin h
  | replace asset id device now => exact replaceBinding_origin h
  | reconnect asset id now => exact reconnectBinding_origin h
  | delete asset reason claimed now => exact softDelete_origin h
  | restore asset claimed located =>
    rw [restore_rows h]
    exact fun r' => origin_of_mem
  | create asset isPc anchors =>
    unfold Call.result at h
    simp only at h
    split_ifs at h
    rw [flush_eq_ok h]
    exact fun r' hr' => origin_of_mem (s := s) hr'
  | describe asset isPc anchors =>
    rw [flush_eq_ok h]
    exact fun r' hr' => origin_of_mem (s := s) hr'

/-- A pair that a call makes confirmed: by decision, or by discovery when it
was neither ended nor rejected with its material. -/
theorem confirms_result (h : c.result s = .ok s') (hconfi : s'.confirms pair = true) :
    s.confirms pair = true ∨ (pair, .confirmed) ∈ c.decisions s ∨
      ∃ identities now, c = .reconcile identities now ∧ s.hasEnded pair = false ∧
        s.rejects pair (s.materialOf identities now pair) = false := by
  obtain ⟨r', hr', hcn, rfl⟩ := confirms_iff.1 hconfi
  cases result_origin h r' hr' with
  | kept r hr hpi hst hact _ =>
    refine .inl (confirms_iff.2 ⟨r, hr, ?_, hpi⟩)
    rw [isConfirmed_iff] at hcn ⊢
    rw [hst, hact]
    exact hcn
  | closed hnot _ =>
    rw [hnot] at hcn
    cases hcn
  | decided hdc _ => exact .inr (.inl hdc)
  | discovered identities now hc hend hrej _ =>
    exact .inr (.inr ⟨identities, now, hc, hend, hrej⟩)
  | detached hbf => exact .inl hbf

theorem hasEnded_extends (h : Extends s s') (hend : s.hasEnded pair = true) :
    s'.hasEnded pair = true := by
  obtain ⟨r, hr, hst, hact, rfl⟩ := hasEnded_iff.1 hend
  obtain ⟨i, hi⟩ := mem_iff_getElem?.1 hr
  obtain ⟨r', hr', hpi, hsm⟩ := h i r hi
  obtain ⟨htm, hst'⟩ := hsm hact
  refine hasEnded_iff.2 ⟨r', mem_of_getElem? hr', hst' ▸ hst, ?_, hpi⟩
  unfold Binding.isActive at hact ⊢
  rw [htm]
  exact hact

theorem finish_ends (now : Instant) (hs : s.isConsistent = true) (hrow : s.rows[id]? = some r)
    (hst : r.status = .confirmed)
    (hact : r.isActive = true) (hfn : status = .ended ∨ status = .replaced) :
    (s.edit id fun r => r.finish status now).hasEnded r.pair = true ∧
      (s.edit id fun r => r.finish status now).confirms r.pair = false := by
  constructor
  · have hfini : (s.edit id fun r => r.finish status now).rows[id]? = some (r.finish status now) := by
      unfold Store.edit
      simp only [getElem?_modify, hrow]
      rfl
    exact hasEnded_iff.2 ⟨_, mem_of_getElem? hfini, hfn, rfl, rfl⟩
  · rw [← Bool.not_eq_true]
    intro hconfi
    obtain ⟨r', hr', hcn, hpi⟩ := confirms_iff.1 hconfi
    obtain ⟨j, hj⟩ := mem_iff_getElem?.1 hr'
    unfold Store.edit at hj
    rw [getElem?_modify] at hj
    obtain ⟨before, hbf, haf⟩ := Option.map_eq_some_iff.1 hj
    split_ifs at haf with hid
    · subst haf
      cases (isConfirmed_iff.1 hcn).2
    · have hsm : before = r' := haf
      subst hsm
      have hcl := (isConsistent_iff.1 hs).1 id j r before hrow hbf hid
      rw [← Bool.not_eq_true, clashes_iff] at hcl
      exact hcl (.inl ⟨isConfirmed_iff.2 ⟨hst, hact⟩, hcn,
        .inl (congrArg Prod.fst hpi).symm⟩)

theorem not_confirms_append (hnot : s.confirms pair = false) (hr : r.pair ≠ pair) :
    ({ s with rows := s.rows ++ [r] } : Store).confirms pair = false := by
  rw [← Bool.not_eq_true] at hnot ⊢
  intro hcn
  obtain ⟨r', hr', hconf, hpi⟩ := confirms_iff.1 hcn
  rcases mem_append.1 hr' with hold | hnew
  · exact hnot (confirms_iff.2 ⟨r', hold, hconf, hpi⟩)
  · rw [mem_singleton] at hnew
    subst hnew
    exact hr hpi

theorem supersede_keeps (pair' : Text × Text) (now : Instant) (hend : s.hasEnded pair = true)
    (hnot : s.confirms pair = false) :
    ({ s with rows := s.rows.map fun r => r.supersede pair' now } : Store).hasEnded pair = true ∧
      ({ s with rows := s.rows.map fun r => r.supersede pair' now } : Store).confirms pair = false := by
  constructor
  · obtain ⟨r, hr, hst, hact, rfl⟩ := hasEnded_iff.1 hend
    refine hasEnded_iff.2 ⟨r.supersede pair' now, mem_map_of_mem hr, ?_⟩
    rcases supersede_cases r pair' now with hsm | ⟨hact', -⟩
    · rw [hsm]
      exact ⟨hst, hact, rfl⟩
    · rw [hact] at hact'
      cases hact'
  · rw [← Bool.not_eq_true] at hnot ⊢
    intro hconfi
    obtain ⟨r', hr', hcn, hpi⟩ := confirms_iff.1 hconfi
    obtain ⟨r, hr, rfl⟩ := mem_map.1 hr'
    rcases supersede_cases r pair' now with hsm | ⟨-, hina, -⟩
    · rw [hsm] at hcn hpi
      exact hnot (confirms_iff.2 ⟨r, hr, hcn, hpi⟩)
    · rw [(isConfirmed_iff.1 hcn).2] at hina
      cases hina

theorem decided_ends {decision : Decision} (hs : s.isConsistent = true) (h : c.result s = .ok s')
    (hdc : (pair, decision) ∈ c.decisions s) (hen : decision = .detached ∨ decision = .replaced) :
    s'.hasEnded pair = true ∧ s'.confirms pair = false := by
  have hdeci : ∀ {id : Nat} {decision' : Decision} {r : Binding}, s.rows[id]? = some r →
      (pair, decision) ∈ s.decide id decision' → r.pair = pair ∧ decision = decision' := by
    intro id decision' r hr hmem
    unfold Store.decide at hmem
    rw [hr, mem_singleton] at hmem
    cases hmem
    exact ⟨rfl, rfl⟩
  cases c with
  | detach asset id now =>
    unfold Call.result detachBinding at h
    obtain ⟨r, hr, h⟩ := bind_eq_ok.1 h
    obtain ⟨-, hrow, -, hst, hact⟩ := binding_ok hr
    rw [flush_eq_ok h]
    obtain ⟨rfl, -⟩ := hdeci hrow hdc
    exact finish_ends now hs hrow hst hact (.inl rfl)
  | replace asset id device now =>
    unfold Call.result replaceBinding at h
    obtain ⟨r, hr, h⟩ := bind_eq_ok.1 h
    obtain ⟨-, hrow, hass, hst, hact⟩ := binding_ok hr
    split_ifs at h with hdv
    obtain ⟨_, -, h⟩ := bind_eq_ok.1 h
    obtain ⟨s₁, h₁, h⟩ := bind_eq_ok.1 h
    rw [flush_eq_ok h, flush_eq_ok h₁]
    rcases mem_cons.1 hdc with hnew | hold
    · cases hnew
      rcases hen with h | h <;> cases h
    · obtain ⟨rfl, -⟩ := hdeci hrow hold
      obtain ⟨hend, hnot⟩ := finish_ends now hs hrow hst hact (.inr rfl)
      obtain ⟨hend', hnot'⟩ := supersede_keeps (asset, device) now hend hnot
      constructor
      · exact hasEnded_extends (extends_append _ _) hend'
      · apply not_confirms_append hnot'
        intro hsm
        exact hdv (.inr (.inr (congrArg Prod.snd hsm)))
  | reconnect asset id now =>
    change (pair, decision) ∈ s.decide id .confirmed at hdc
    cases hrow : s.rows[id]? with
    | none =>
      unfold Store.decide at hdc
      rw [hrow] at hdc
      cases hdc
    | some r =>
      rw [(hdeci hrow hdc).2] at hen
      rcases hen with h | h <;> cases h
  | reconcile _ _ => cases hdc
  | delete _ _ _ _ => cases hdc
  | restore _ _ _ => cases hdc
  | create _ _ _ => cases hdc
  | describe _ _ _ => cases hdc
  | _ =>
    obtain ⟨r, hr, -⟩ := bind_eq_ok.1 h
    rw [(hdeci (binding_ok hr).2.1 hdc).2] at hen
    rcases hen with h | h <;> cases h

structure Log.Ends (l : Log) : Prop where
  consistent : l.store.isConsistent = true
  ended : ∀ pair decision, l.latest pair = some decision → decision = .detached ∨ decision = .replaced →
    l.store.hasEnded pair = true ∧ l.store.confirms pair = false

theorem record_ends {l : Log} (h : l.Ends) (c : Call) : (record l c).Ends := by
  cases hrs : c.result l.store with
  | error e =>
    rw [record_error hrs]
    exact h
  | ok s =>
    rw [record_ok hrs]
    have hke := result_keeps h.consistent c
    rw [hrs] at hke
    refine ⟨hke.1, ?_⟩
    intro pair decision hlt hen
    unfold Log.latest at hlt
    simp only [find?_append] at hlt
    cases hnew : (c.decisions l.store).find? fun entry => decide (entry.1 = pair) with
    | some entry =>
      rw [hnew] at hlt
      have het := find?_some hnew
      have hmem := mem_of_find?_eq_some hnew
      rw [decide_eq_true_iff] at het
      cases hlt
      obtain ⟨pair', decision'⟩ := entry
      cases het
      exact decided_ends h.consistent hrs hmem hen
    | none =>
      rw [hnew] at hlt
      obtain ⟨hend, hnot⟩ := h.ended pair decision hlt hen
      refine ⟨hasEnded_extends hke.2 hend, ?_⟩
      rw [← Bool.not_eq_true]
      intro hcn
      rcases confirms_result hrs hcn with hbf | hdc | ⟨_, _, -, hend', -⟩
      · rw [hnot] at hbf
        cases hbf
      · have hnn := find?_eq_none.1 hnew _ hdc
        exact hnn (decide_eq_true rfl)
      · rw [hend] at hend'
        cases hend'

theorem ends_run (calls : List Call) : (run record emptyLog calls).Ends := by
  apply run_keeps (P := Log.Ends)
  · exact ⟨rfl, nofun⟩
  · exact fun _ c h => record_ends h c

theorem confirmed_before (calls : List Call) (hr : r ∈ (run record emptyLog calls).store.rows)
    (hst : r.status = .ended) (hdel : r.evidence.endedByDeletion = false) :
    ∃ before after, calls = before ++ after ∧
      (run record emptyLog before).store.confirms r.pair = true := by
  induction calls using List.reverseRecOn generalizing r with
  | nil => cases hr
  | append_singleton calls c ih =>
    rw [run_append] at hr
    change r ∈ (record (run record emptyLog calls) c).store.rows at hr
    cases hrs : c.result (run record emptyLog calls).store with
    | error e =>
      rw [record_error hrs] at hr
      obtain ⟨before, after, rfl, hcn⟩ := ih hr hst hdel
      exact ⟨before, after ++ [c], append_assoc _ _ _, hcn⟩
    | ok s =>
      rw [record_ok hrs] at hr
      cases result_origin hrs r hr with
      | kept old hold hpi hsm _ hdelet =>
        obtain ⟨before, after, rfl, hcn⟩ := ih hold (hsm.trans hst) (hdelet.trans hdel)
        exact ⟨before, after ++ [c], append_assoc _ _ _, hpi ▸ hcn⟩
      | closed _ hend =>
        rw [hend hst] at hdel
        cases hdel
      | decided _ hne => exact absurd hst hne
      | discovered _ _ _ _ _ hne => exact absurd hst hne
      | detached hcn => exact ⟨calls, [c], rfl, hcn⟩

/-- Discovery and decisions: a pair that was detached or replaced last is not
confirmed; a pair becomes confirmed by a decision, or by discovery with a
material it was not rejected with; and a binding that is reconnected was
confirmed before it was ended, unless it ended with its card. -/
theorem discovery_respects_decisions (calls : List Call) :
    (∀ pair decision, (run record emptyLog calls).latest pair = some decision →
      decision = .detached ∨ decision = .replaced →
        (run record emptyLog calls).store.confirms pair = false) ∧
    (∀ (c : Call) pair, (run record emptyLog calls).store.confirms pair = false →
      (record (run record emptyLog calls) c).store.confirms pair = true →
      (pair, .confirmed) ∈ c.decisions (run record emptyLog calls).store ∨
        ∃ identities now, c = .reconcile identities now ∧
          (run record emptyLog calls).latest pair ≠ some .detached ∧
          (run record emptyLog calls).latest pair ≠ some .replaced ∧
          (run record emptyLog calls).store.rejects pair
            ((run record emptyLog calls).store.materialOf identities now pair) = false) ∧
    ∀ (asset : Text) (id : Nat) (now : Instant) (s : Store),
      reconnectBinding (run record emptyLog calls).store asset id now = .ok s →
      ∃ r, (run record emptyLog calls).store.rows[id]? = some r ∧ r.asset = asset ∧
        (r.evidence.endedByDeletion = false → ∃ before after, calls = before ++ after ∧
          (run record emptyLog before).store.confirms r.pair = true) := by
  have hen := ends_run calls
  refine ⟨fun pair decision hlt hdc => (hen.ended pair decision hlt hdc).2, ?_, ?_⟩
  · intro c pair hnot hcn
    cases hrs : c.result (run record emptyLog calls).store with
    | error e =>
      rw [record_error hrs, hnot] at hcn
      cases hcn
    | ok s =>
      rw [record_ok hrs] at hcn
      rcases confirms_result hrs hcn with hbf | hdeci | ⟨identities, now, hc, hend, hrej⟩
      · rw [hnot] at hbf
        cases hbf
      · exact .inl hdeci
      · refine .inr ⟨identities, now, hc, ?_, ?_, hrej⟩
        · intro hlt
          rw [(hen.ended pair _ hlt (.inl rfl)).1] at hend
          cases hend
        · intro hlt
          rw [(hen.ended pair _ hlt (.inr rfl)).1] at hend
          cases hend
  · intro asset id now s h
    unfold reconnectBinding at h
    obtain ⟨_, -, h⟩ := bind_eq_ok.1 h
    split at h
    · cases h
    next r hr =>
      split_ifs at h with heli
      simp only [not_or, not_not] at heli
      refine ⟨r, hr, heli.1, ?_⟩
      intro hdel
      exact confirmed_before calls (mem_of_getElem? hr) heli.2.1 hdel

private def laptop : Text := "a"

private def spare : Text := "b"

private def agent : Text := "d"

private def sharedMac : Anchor := (.mac, "m")

private def snapshot : List Identity := [⟨agent, some 0, [sharedMac]⟩]

/-- The pair is rejected while two cards have the address; the other card is
deleted, and discovery confirms the pair. -/
private def overridden : List Call :=
  [.create laptop true [sharedMac], .create spare true [sharedMac], .reconcile snapshot 0,
    .reject laptop 0 0, .delete spare "sold" true 0, .reconcile snapshot 0]

/-- The latest decision on the pair is a rejection, and the pair is confirmed. -/
theorem rejected_pair_confirmed :
    (run record emptyLog overridden).latest (laptop, agent) = some .rejected ∧
      (run record emptyLog overridden).store.confirms (laptop, agent) = true := by
  decide

/-- The candidate ends with its card, which is restored. -/
private def reconnected : List Call :=
  [.create laptop true [sharedMac], .create spare true [sharedMac], .reconcile snapshot 0,
    .delete laptop "sold" true 0, .restore laptop true true, .reconnect laptop 0 0]

/-- A binding that ended with its card is reconnected, although its pair was never confirmed. -/
theorem ended_candidate_reconnected :
    (∀ before ∈ reconnected.dropLast.inits,
      (run record emptyLog before).store.confirms (laptop, agent) = false) ∧
      (run record emptyLog reconnected).store.confirms (laptop, agent) = true := by
  decide

end WebOvpn.Inventory
