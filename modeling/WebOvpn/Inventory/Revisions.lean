/-
Editors of inventory cards: every transaction claims the revision that its
editor has read, and a claim succeeds only when no manual fact of the card was
committed since.
-/
import WebOvpn.Lib.Run
import WebOvpn.Inventory.Tables

namespace WebOvpn.Inventory

open List Option

namespace Tables

variable (s : Tables)

def revision (card : Text) : Option Nat :=
  (s.assets.filterMap fun a => if a.id = card then some a.manualRevision else none).head?

def keepsEnded {ρ : Type} (endedAt : ρ → Option Instant) : Option ρ × Option ρ → Bool
  | (some old, some new) => (endedAt old).isNone || (endedAt new).isSome
  | _ => true

/-- What the code writes: it adds cards, but renames and removes none; the
revision is left to the claims and the triggers; and an ended binding is not
reopened. -/
def isOrderly : Write → Bool
  | .asset w =>
    match w.images s.assets with
    | (none, some new) => !s.assets.any fun a => a.id = new.id
    | (some old, some new) => new.id = old.id && new.manualRevision = old.manualRevision
    | (some _, none) => false
    | (none, none) => true
  | .netctl w => keepsEnded NetctlBinding.endedAt (w.images s.netctl)
  | .external w => keepsEnded ExternalBinding.endedAt (w.images s.external)
  | _ => true

end Tables

inductive Step where
  | claim (card : Text) (expected : Nat) (deleted : Bool)
  | lock (card : Text)
  | write (w : Write)

def Step.result (s : Tables) : Step → Option Tables
  -- `claim_revision` and the `_claim` of the lifecycle
  | .claim card expected deleted =>
    if s.revision card = some expected ∧
      s.isActive card = !deleted then some (s.advance [card]) else none
  -- `lock_active_asset` sets the revision to itself
  | .lock card => if s.isActive card = true then some s else none
  | .write w => if s.isOrderly w = true then s.write w else none

def results : Tables → List Step → Option Tables
  | s, [] => some s
  | s, step :: rest => (step.result s).bind fun s' => results s' rest

/-- The statements of a transaction, which the write lock keeps apart from those
of others.  It may be aborted for a reason of its own. -/
structure Transaction where
  steps : List Step
  aborted : Bool

def Transaction.outcome (s : Tables) (t : Transaction) : Option Tables :=
  if t.aborted = true then none else results s t.steps

def commit (s : Tables) (t : Transaction) : Tables := (t.outcome s).getD s

structure CardFacts where
  fields : List AssetFields
  details : List Detail
  relations : List AssetRelation
  identifiers : List Identifier
  netctl : List NetctlDecision
  external : List ExternalDecision
  deriving DecidableEq

def Tables.facts (s : Tables) (card : Text) : CardFacts := {
  fields := s.assets.filterMap fun a => if a.id = card then some a.fields else none
  details := detailTrigger.facts card s.details
  relations := relationTrigger.facts card s.relations
  identifiers := identifierTrigger.facts card s.identifiers
  netctl := netctlTrigger.facts card s.netctl
  external := externalTrigger.facts card s.external }

def Tables.Follows (card : Text) (s s' : Tables) : Prop :=
  ∀ n, s.revision card = some n → ∃ m, s'.revision card = some m ∧ n ≤ m ∧
    (m = n → s'.facts card = s.facts card)

variable {s s' s'' : Tables} {card : Text} {n : Nat}

theorem Tables.follows_refl (card : Text) (s : Tables) : Tables.Follows card s s :=
  fun n hn => ⟨n, hn, Nat.le_refl n, fun _ => rfl⟩

theorem Tables.Follows.trans (h : Tables.Follows card s s') (h' : Tables.Follows card s' s'') :
    Tables.Follows card s s'' := by
  intro n hn
  obtain ⟨m, hm, hle, hfc⟩ := h n hn
  obtain ⟨k, hk, hle', hfc'⟩ := h' m hm
  refine ⟨k, hk, Nat.le_trans hle hle', ?_⟩
  intro hsm
  have hmn : m = n := by omega
  have hkm : k = m := by omega
  rw [hfc' hkm, hfc hmn]

theorem filterMap_advance {φ : Type} {f : Asset → Option φ} (s : Tables) (cards : List Text)
    (h : ∀ a, f { a with manualRevision := a.manualRevision + 1 } = f a) :
    (s.advance cards).assets.filterMap f = s.assets.filterMap f := by
  change (s.assets.map _).filterMap f = _
  rw [filterMap_map]
  apply filterMap_congr
  intro a _
  change f (if a.id ∈ cards then _ else a) = f a
  split_ifs
  · exact h a
  · rfl

theorem facts_advance (s : Tables) (cards : List Text) (card : Text) :
    (s.advance cards).facts card = s.facts card := by
  unfold Tables.facts
  rw [filterMap_advance s cards fun _ => rfl]
  rfl

theorem revision_advance (s : Tables) (cards : List Text) (card : Text) :
    (s.advance cards).revision card = (s.revision card).map fun n =>
      if card ∈ cards then n + 1 else n := by
  unfold Tables.revision Tables.advance
  simp only
  rw [filterMap_map, head?_filterMap, head?_filterMap]
  induction s.assets with
  | nil => rfl
  | cons a rest ih =>
    rw [findSome?_cons, findSome?_cons]
    by_cases hid : a.id = card
    · subst hid
      by_cases hmem : a.id ∈ cards
      · simp only [Function.comp, if_pos hmem, if_true, map_some]
      · simp only [Function.comp, if_neg hmem, if_true, map_some]
    · have hot : (if a.id ∈ cards then { a with manualRevision := a.manualRevision + 1 } else a).id ≠ card := by
        split_ifs <;> exact hid
      simp only [Function.comp, if_neg hot, if_neg hid]
      exact ih

theorem follows_advance (s : Tables) (cards : List Text) (card : Text) :
    Tables.Follows card s (s.advance cards) := by
  intro n hn
  refine ⟨if card ∈ cards then n + 1 else n, ?_, ?_, fun _ => facts_advance s cards card⟩
  · rw [revision_advance, hn, map_some]
  · split_ifs <;> omega

variable {w : Write}

theorem exists_of_revision (h : s.revision card = some n) : ∃ a ∈ s.assets, a.id = card := by
  unfold Tables.revision at h
  obtain ⟨a, ha, hid⟩ := mem_filterMap.1 (mem_of_mem_head? h)
  split_ifs at hid with hcr
  exact ⟨a, ha, hcr⟩

theorem asset_images {w : RowWrite Asset} (hord : s.isOrderly (.asset w) = true)
    (hcr : s.revision card = some n) :
    ((w.images s.assets).1.bind fun a => if a.id = card then some a.manualRevision else none) =
        ((w.images s.assets).2.bind fun a => if a.id = card then some a.manualRevision else none) ∧
      (card ∉ s.targets (.asset w) →
        ((w.images s.assets).1.bind fun a => if a.id = card then some a.fields else none) =
          ((w.images s.assets).2.bind fun a => if a.id = card then some a.fields else none)) := by
  unfold Tables.isOrderly at hord
  unfold Tables.targets
  simp only at hord ⊢
  generalize w.images s.assets = images at hord ⊢
  obtain ⟨old, new⟩ := images
  cases old with
  | none =>
    cases new with
    | none => exact ⟨rfl, fun _ => rfl⟩
    | some new =>
      have hne : new.id ≠ card := by
        rintro rfl
        obtain ⟨a, ha, hid⟩ := exists_of_revision hcr
        rw [Bool.not_eq_true', List.any_eq_false] at hord
        exact hord a ha (decide_eq_true hid)
      constructor
      · exact (if_neg hne).symm
      · exact fun _ => (if_neg hne).symm
  | some old =>
    cases new with
    | none => cases hord
    | some new =>
      rw [Bool.and_eq_true, decide_eq_true_iff, decide_eq_true_iff] at hord
      obtain ⟨hid, hrv⟩ := hord
      constructor
      · change (if old.id = card then some old.manualRevision else none) = if new.id = card then _ else _
        rw [hid, hrv]
      · intro htl
        change (if old.id = card then some old.fields else none) = if new.id = card then _ else _
        rw [hid]
        by_cases hcr : old.id = card
        · rw [if_pos hcr, if_pos hcr]
          by_contra hne
          apply htl
          have hfl : old.fields ≠ new.fields := fun h => hne (congrArg some h)
          change card ∈ if old.fields ≠ new.fields then [new.id] else []
          rw [if_pos hfl, hid, hcr]
          exact mem_singleton.2 rfl
        · rw [if_neg hcr, if_neg hcr]

theorem revision_change (hord : s.isOrderly w = true) (hcr : s.revision card = some n) :
    (s.change w).revision card = s.revision card := by
  cases w with
  | asset w =>
    unfold Tables.revision
    exact congrArg List.head? (RowWrite.filterMap_apply (asset_images hord hcr).1)
  | _ => rfl

theorem deliberate_stays {ρ : Type} {endedAt : ρ → Option Instant}
    {status : ρ → BindingStatus} {old new : ρ}
    (hord : Tables.keepsEnded endedAt (some old, some new) = true)
    (hcn : isDeliberate (status old) (endedAt old) = true) :
    decide (status old = .confirmed) = true ∨ isDeliberate (status new) (endedAt new) = true := by
  unfold isDeliberate at hcn ⊢
  rw [decide_eq_true_iff] at hcn
  rcases hcn with hco | hend
  · exact .inl (decide_eq_true hco)
  · change ((endedAt old).isNone || (endedAt new).isSome) = true at hord
    rw [Bool.or_eq_true, isNone_iff_eq_none] at hord
    rcases hord with hact | hst
    · rw [hact] at hend
      cases hend
    · exact .inr (decide_eq_true (.inr hst))

theorem netctl_settled {w : RowWrite NetctlBinding} (hord : s.isOrderly (.netctl w) = true) :
    netctlTrigger.Settled (w.images s.netctl) := by
  intro old new hima hcn
  change Tables.keepsEnded NetctlBinding.endedAt (w.images s.netctl) = true at hord
  rw [hima] at hord
  exact deliberate_stays hord hcn

theorem external_settled {w : RowWrite ExternalBinding} (hord : s.isOrderly (.external w) = true) :
    externalTrigger.Settled (w.images s.external) := by
  intro old new hima hcn
  change Tables.keepsEnded ExternalBinding.endedAt (w.images s.external) = true at hord
  rw [hima] at hord
  exact deliberate_stays hord hcn

theorem facts_change (hord : s.isOrderly w = true) (hcr : s.revision card = some n)
    (htl : card ∉ s.targets w) :
    (s.change w).facts card = s.facts card := by
  cases w with
  | asset w =>
    have hfl := RowWrite.filterMap_apply ((asset_images hord hcr).2 htl)
    exact congrArg (fun fields => ({ s.facts card with fields := fields } : CardFacts)) hfl
  | detail w =>
    have hsm := FactTrigger.facts_apply (detailTrigger.settled_of_leaves (fun _ h => h) _) htl
    exact congrArg (fun details => ({ s.facts card with details := details } : CardFacts)) hsm
  | relation w =>
    have hsm := FactTrigger.facts_apply (relationTrigger.settled_of_leaves (fun _ h => h) _) htl
    exact congrArg (fun relations => ({ s.facts card with relations := relations } : CardFacts)) hsm
  | identifier w =>
    have hsm := FactTrigger.facts_apply (identifierTrigger.settled_of_leaves (fun _ h => h) _) htl
    exact congrArg (fun identifiers => ({ s.facts card with identifiers := identifiers } : CardFacts)) hsm
  | netctl w =>
    have hsm := FactTrigger.facts_apply (netctl_settled hord) htl
    exact congrArg (fun netctl => ({ s.facts card with netctl := netctl } : CardFacts)) hsm
  | external w =>
    have hsm := FactTrigger.facts_apply (external_settled hord) htl
    exact congrArg (fun external => ({ s.facts card with external := external } : CardFacts)) hsm
  | _ => rfl

theorem write_eq_some (h : s.write w = some s') :
    s' = ((s.change w).advance (s.targets w)).tick (s.isShown w) := by
  unfold Tables.write at h
  split_ifs at h
  exact (Option.some.inj h).symm

theorem follows_write (hord : s.isOrderly w = true) (h : s.write w = some s') :
    Tables.Follows card s s' := by
  obtain rfl := write_eq_some h
  intro n hn
  have hrv : (((s.change w).advance (s.targets w)).tick (s.isShown w)).revision card =
      some (if card ∈ s.targets w then n + 1 else n) := by
    change ((s.change w).advance (s.targets w)).revision card = _
    rw [revision_advance, revision_change hord hn, hn, map_some]
  refine ⟨_, hrv, ?_, ?_⟩
  · split_ifs <;> omega
  · intro hsm
    have htl : card ∉ s.targets w := by
      intro hmem
      rw [if_pos hmem] at hsm
      omega
    change ((s.change w).advance (s.targets w)).facts card = _
    rw [facts_advance, facts_change hord hn htl]

theorem follows_result {step : Step} (h : step.result s = some s') : Tables.Follows card s s' := by
  cases step with
  | claim card' expected deleted =>
    change (if _ then some (s.advance [card']) else none) = _ at h
    split_ifs at h
    cases h
    exact follows_advance s [card'] card
  | lock card' =>
    change (if _ then some s else none) = _ at h
    split_ifs at h
    cases h
    exact Tables.follows_refl card s
  | write w =>
    change (if _ then s.write w else none) = _ at h
    split_ifs at h with hord
    exact follows_write hord h

variable {steps : List Step}

theorem follows_results (h : results s steps = some s') : Tables.Follows card s s' := by
  induction steps generalizing s with
  | nil =>
    cases h
    exact Tables.follows_refl card _
  | cons step rest ih =>
    obtain ⟨t, ht, hrs⟩ := bind_eq_some_iff.1 h
    exact (follows_result ht).trans (ih hrs)

theorem follows_outcome {t : Transaction} (h : t.outcome s = some s') : Tables.Follows card s s' := by
  unfold Transaction.outcome at h
  split_ifs at h
  exact follows_results h

theorem follows_commit (card : Text) (s : Tables) (t : Transaction) :
    Tables.Follows card s (commit s t) := by
  unfold commit
  cases h : t.outcome s with
  | none => exact Tables.follows_refl card s
  | some s' => exact follows_outcome h

theorem follows_run (card : Text) (s : Tables) (ts : List Transaction) :
    Tables.Follows card s (run commit s ts) :=
  run_relates (I := fun _ => True) trivial (fun _ _ _ => trivial) (Tables.follows_refl card)
    (fun _ _ _ => Tables.Follows.trans) fun s t _ => follows_commit card s t

theorem claim_expected {expected : Nat} {deleted : Bool} (h : results s steps = some s')
    (hcl : Step.claim card expected deleted ∈ steps) (hcr : s.revision card = some n) :
      n ≤ expected := by
  induction steps generalizing s n with
  | nil => cases hcl
  | cons step rest ih =>
    obtain ⟨t, ht, hrs⟩ := bind_eq_some_iff.1 h
    rcases mem_cons.1 hcl with rfl | hmem
    · change (if s.revision card = some expected ∧
        s.isActive card = !deleted then some (s.advance [card]) else none) =
        _ at ht
      split_ifs at ht with hex
      rw [hex.1] at hcr
      cases hcr
      exact Nat.le_refl expected
    · obtain ⟨m, hm, hle, -⟩ := follows_result ht n hcr
      exact Nat.le_trans hle (ih hrs hmem hm)

/-- A write of an observer: what Netctl and the agents report of a card, and the
candidates that follow from it. -/
def Tables.isObservation (s : Tables) : Write → Bool
  | .identifier w => identifierTrigger.isQuiet (w.images s.identifiers)
  | .netctl w => netctlTrigger.isQuiet (w.images s.netctl)
  | .external w => externalTrigger.isQuiet (w.images s.external)
  | .endpointState _ => true
  | .control _ => true
  | _ => false

def ObservationOnly : Tables → List Step → Prop
  | _, [] => True
  | s, step :: rest =>
    (∃ w, step = .write w ∧ s.isObservation w = true) ∧ ∀ s', step.result s = some s' →
      ObservationOnly s' rest

theorem targets_of_observation (h : s.isObservation w = true) : s.targets w = [] := by
  cases w with
  | endpointState w => rfl
  | control w => rfl
  | asset w => cases h
  | detail w => cases h
  | relation w => cases h
  | location w => cases h
  | _ => exact FactTrigger.targets_of_isQuiet h

theorem revision_of_observation (h : s.isObservation w = true) (hwr : s.write w = some s') :
    s'.revision card = s.revision card := by
  obtain rfl := write_eq_some hwr
  change ((s.change w).advance (s.targets w)).revision card = _
  rw [targets_of_observation h, revision_advance]
  have hsm : (s.change w).revision card = s.revision card := by
    cases w with
    | asset w => cases h
    | _ => rfl
  simp only [not_mem_nil, if_false, Option.map_id']
  exact hsm

theorem revision_of_observationOnly (h : ObservationOnly s steps)
    (hrs : results s steps = some s') : s'.revision card = s.revision card := by
  induction steps generalizing s with
  | nil =>
    cases hrs
    rfl
  | cons step rest ih =>
    obtain ⟨t, ht, hrest⟩ := bind_eq_some_iff.1 hrs
    obtain ⟨⟨w, rfl, hw⟩, hlt⟩ := h
    rw [ih (hlt t ht) hrest]
    change (if s.isOrderly w = true then s.write w else none) = _ at ht
    split_ifs at ht
    exact revision_of_observation hw ht

theorem revision_commit_of_observationOnly {t : Transaction} (h : ObservationOnly s t.steps) :
    (commit s t).revision card = s.revision card := by
  unfold commit
  cases hot : t.outcome s with
  | none => rfl
  | some s' =>
    unfold Transaction.outcome at hot
    split_ifs at hot
    exact revision_of_observationOnly h hot

/-- Of the card that an editor has read: a transaction that claims the revision
which was read commits only if no transaction in between has changed a manual
fact of the card; the revision increases with every such change, and
observations leave it alone. -/
theorem no_manual_edit_lost (s : Tables) (before between : List Transaction) (card : Text) (n : Nat)
    (hra : (run commit s before).revision card = some n) :
    (∀ (t : Transaction) (deleted : Bool), Step.claim card n deleted ∈ t.steps →
      (t.outcome (run commit s (before ++ between))).isSome = true →
      ∀ earlier u later, between = earlier ++ u :: later →
        (run commit s (before ++ earlier ++ [u])).facts card =
          (run commit s (before ++ earlier)).facts card) ∧
    (∀ t : Transaction, (commit (run commit s before) t).facts card ≠ (run commit s before).facts card →
      ∃ m, (commit (run commit s before) t).revision card = some m ∧ n < m) ∧
    ∀ t : Transaction, ObservationOnly (run commit s before) t.steps →
      (commit (run commit s before) t).revision card = some n := by
  refine ⟨?_, ?_, ?_⟩
  · rintro t deleted hcl hot earlier u later rfl
    obtain ⟨s', hs'⟩ := isSome_iff_exists.1 hot
    unfold Transaction.outcome at hs'
    split_ifs at hs'
    -- the revision at the claim is the one that was read, so it never moved
    obtain ⟨m, hm, hnm, -⟩ := follows_run card (run commit s before) earlier n hra
    rw [← run_append] at hm
    obtain ⟨k, hk, hmk, hfc⟩ := follows_commit card (run commit s (before ++ earlier)) u m hm
    obtain ⟨l, hl, hkl, -⟩ := follows_run card (commit (run commit s (before ++ earlier)) u) later k hk
    have hend : run commit (commit (run commit s (before ++ earlier)) u) later =
        run commit s (before ++ (earlier ++ u :: later)) := by
      rw [← append_assoc]
      exact (run_append commit s (before ++ earlier) (u :: later)).symm
    rw [hend] at hl
    have hle := claim_expected hs' hcl hl
    rw [run_append commit s (before ++ earlier)]
    exact hfc (by omega)
  · intro t hch
    obtain ⟨m, hm, hle, hfc⟩ := follows_commit card (run commit s before) t n hra
    refine ⟨m, hm, ?_⟩
    have hne : m ≠ n := fun h => hch (hfc h)
    omega
  · intro t h
    rw [revision_commit_of_observationOnly h]
    exact hra

def deskFields (name : String) : AssetFields :=
  ⟨"PC", none, some (text name), none, none, none, none, none, none, none, none, none⟩

def desk : Tables := ⟨[⟨"desk", 1, none, deskFields "front"⟩], [], [], [], [], [], [], [], [], 1⟩

/-- An editor who has read revision 1 gives the card this host name. -/
def rename (name : String) : Transaction :=
  ⟨[.claim "desk" 1 false,
    .write (.asset (.update 0 ⟨"desk", 2, none, deskFields name⟩))], false⟩

/-- Of two editors who have read revision 1 the second one is refused. -/
theorem no_manual_edit_lost_desk :
    (commit desk (rename "back")).facts "desk" ≠ desk.facts "desk" ∧
      (∃ m, (commit desk (rename "back")).revision "desk" = some m ∧ 1 < m) ∧
      (rename "side").outcome (commit desk (rename "back")) = none := by
  have hch : (commit desk (rename "back")).facts "desk" ≠ desk.facts "desk" := by decide
  obtain ⟨hclaim, hmoved, -⟩ :=
    no_manual_edit_lost desk [] [rename "back"] "desk" 1 (by decide)
  refine ⟨hch, hmoved _ hch, ?_⟩
  by_contra hot
  exact hch (hclaim (rename "side") false mem_cons_self (Option.isSome_iff_ne_none.2 hot) [] _ [] rfl)

end WebOvpn.Inventory
