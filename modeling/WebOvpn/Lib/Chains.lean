/-
Chains of rules that are tried in their order: a rule decides, leaves its chain, sends
on to another chain, or lets the next rule have its turn.
-/
import Mathlib.Data.List.Basic

namespace WebOvpn.Chains

variable {ρ κ : Type}

/-- What a rule does. -/
inductive Effect (κ : Type) where
  | accept
  | drop
  | leave
  | jump (chain : κ)
  | pass
  deriving DecidableEq

inductive Exit where
  | accepted
  | dropped
  | left
  | through
  deriving DecidableEq

section

variable (effect : ρ → Effect κ) (jump : κ → Option Exit)

/-- The rules in their order, with the exits of the chains that they jump to; `none` is
no exit at all. -/
def walkRules : List ρ → Option Exit
  | [] => some .through
  | rule :: rest =>
    match effect rule with
    | .accept => some .accepted
    | .drop => some .dropped
    | .leave => some .left
    | .pass => walkRules rest
    | .jump chain =>
      match jump chain with
      | none => none
      | some .accepted => some .accepted
      | some .dropped => some .dropped
      | some .left => walkRules rest
      | some .through => walkRules rest

/-- A chain, with so many jumps below it at most. -/
def walk (rules : κ → List ρ) : Nat → κ → Option Exit
  | 0, _ => none
  | depth + 1, chain => walkRules effect (walk rules depth) (rules chain)

end

section

variable {effect : ρ → Effect κ} {exit : Exit}

/-- Only the exits of the chains that are jumped to bear on the exit of the rules. -/
theorem walkRules_mono {jump jump' : κ → Option Exit}
    (hjm : ∀ chain exit, jump chain = some exit → jump' chain = some exit) {rules : List ρ}
    (h : walkRules effect jump rules = some exit) : walkRules effect jump' rules = some exit := by
  induction rules with
  | nil => exact h
  | cons rule rules ih =>
    rw [walkRules] at h ⊢
    cases hef : effect rule with
    | pass =>
      rw [hef] at h
      exact ih h
    | jump chain =>
      rw [hef] at h
      dsimp only at h ⊢
      cases hex : jump chain with
      | none =>
        rw [hex] at h
        cases h
      | some found =>
        rw [hex] at h
        rw [hjm chain found hex]
        cases found with
        | left => exact ih h
        | through => exact ih h
        | _ => exact h
    | _ =>
      rw [hef] at h
      exact h

variable {rules : κ → List ρ}

theorem walk_mono {depth depth' : Nat} (hle : depth ≤ depth') {chain : κ}
    (h : walk effect rules depth chain = some exit) : walk effect rules depth' chain = some exit := by
  induction depth generalizing depth' chain exit with
  | zero => cases h
  | succ depth ih =>
    cases depth' with
    | zero => omega
    | succ depth' => exact walkRules_mono (fun _ _ h => ih (by omega) h) h

end

section

variable (effect : ρ → Effect κ) (rules : κ → List ρ)

/-- With jumps enough the chain comes to this exit. -/
def Exits (chain : κ) (exit : Exit) : Prop := ∃ depth, walk effect rules depth chain = some exit

/-- The rule drops, or jumps to a chain that does. -/
def Stops (rule : ρ) : Prop :=
  effect rule = .drop ∨ ∃ chain, effect rule = .jump chain ∧ Exits effect rules chain .dropped

/-- The rule accepts, leaves its chain, or jumps to a chain that accepts or never
comes to an end. -/
def LeadsAway (rule : ρ) : Prop :=
  effect rule = .accept ∨ effect rule = .leave ∨
    ∃ chain, effect rule = .jump chain ∧ ∀ exit, exit ≠ .accepted → ¬ Exits effect rules chain exit

/-- One of the rules stops, and none before it leads away. -/
def StopsFirst (list : List ρ) : Prop :=
  ∃ first rule rest, list = first ++ rule :: rest ∧ Stops effect rules rule ∧
    ∀ other ∈ first, ¬ LeadsAway effect rules other

end

section

variable {effect : ρ → Effect κ} {rules : κ → List ρ} {rule : ρ} {list rest : List ρ}

theorem Stops.not_leadsAway (h : Stops effect rules rule) : ¬ LeadsAway effect rules rule := by
  rintro (haw | haw | ⟨chain, haw, hnn⟩)
  · rcases h with h | ⟨_, h, -⟩ <;> cases h.symm.trans haw
  · rcases h with h | ⟨_, h, -⟩ <;> cases h.symm.trans haw
  · rcases h with h | ⟨chain', h, hdr⟩
    · cases h.symm.trans haw
    · cases h.symm.trans haw
      exact hnn .dropped (fun h => by cases h) hdr

theorem stopsFirst_cons : StopsFirst effect rules (rule :: rest) ↔
    Stops effect rules rule ∨ ¬ LeadsAway effect rules rule ∧ StopsFirst effect rules rest := by
  constructor
  · rintro ⟨first, found, after, heq, hst, hnn⟩
    cases first with
    | nil =>
      cases heq
      exact .inl hst
    | cons other first =>
      cases heq
      exact .inr ⟨hnn _ List.mem_cons_self, first, found, after, rfl, hst,
        fun other hmem => hnn other (List.mem_cons_of_mem _ hmem)⟩
  · rintro (hst | ⟨hsa, first, found, after, rfl, hst, hnn⟩)
    · exact ⟨[], rule, rest, rfl, hst, List.forall_mem_nil _⟩
    · exact ⟨rule :: first, found, after, rfl, hst, List.forall_mem_cons.2 ⟨hsa, hnn⟩⟩

theorem not_stopsFirst_nil : ¬ StopsFirst effect rules [] := by
  rintro ⟨first, rule, rest, heq, -⟩
  exact List.append_ne_nil_of_right_ne_nil first (List.cons_ne_nil rule rest) heq.symm

theorem stopsFirst_append {before after : List ρ} : StopsFirst effect rules (before ++ after) ↔
    StopsFirst effect rules before ∨
      (∀ rule ∈ before, ¬ LeadsAway effect rules rule) ∧ StopsFirst effect rules after := by
  induction before with
  | nil =>
    rw [List.nil_append, or_iff_right not_stopsFirst_nil, and_iff_right (List.forall_mem_nil _)]
  | cons rule before ih =>
    rw [List.cons_append, stopsFirst_cons, stopsFirst_cons, ih, List.forall_mem_cons]
    tauto

/-- The rules stop when some rule does, and each that leads away comes after one. -/
theorem stopsFirst_iff : StopsFirst effect rules list ↔ (∃ rule ∈ list, Stops effect rules rule) ∧
    ∀ first rule rest, list = first ++ rule :: rest → LeadsAway effect rules rule →
      ∃ other ∈ first, Stops effect rules other := by
  induction list with
  | nil =>
    constructor
    · exact fun h => absurd h not_stopsFirst_nil
    · rintro ⟨⟨rule, hmem, -⟩, -⟩
      cases hmem
  | cons head tail ih =>
    rw [stopsFirst_cons, ih]
    constructor
    · rintro (hst | ⟨hsa, ⟨found, hmem, hst⟩, haf⟩)
      · refine ⟨⟨head, List.mem_cons_self, hst⟩, fun first rule rest heq haw => ?_⟩
        cases first with
        | nil =>
          cases heq
          exact absurd haw hst.not_leadsAway
        | cons other first =>
          cases heq
          exact ⟨_, List.mem_cons_self, hst⟩
      · refine ⟨⟨found, List.mem_cons_of_mem _ hmem, hst⟩, fun first rule rest heq haw => ?_⟩
        cases first with
        | nil =>
          cases heq
          exact absurd haw hsa
        | cons other first =>
          cases heq
          obtain ⟨earlier, hear, hst⟩ := haf first rule rest rfl haw
          exact ⟨earlier, List.mem_cons_of_mem _ hear, hst⟩
    · rintro ⟨⟨found, hmem, hst⟩, haf⟩
      by_cases hha : Stops effect rules head
      · exact .inl hha
      refine .inr ⟨fun haw => ?_, ?_, fun first rule rest heq haw => ?_⟩
      · obtain ⟨earlier, hear, -⟩ := haf [] head tail rfl haw
        cases hear
      · rcases List.mem_cons.1 hmem with rfl | hti
        · exact absurd hst hha
        · exact ⟨found, hti, hst⟩
      · obtain ⟨earlier, hear, hst⟩ := haf (head :: first) rule rest (by rw [heq]; rfl) haw
        rcases List.mem_cons.1 hear with rfl | hrs
        · exact absurd hst hha
        · exact ⟨earlier, hrs, hst⟩

theorem Stops.walkRules (h : Stops effect rules rule) :
    ∃ depth, walkRules effect (walk effect rules depth) (rule :: rest) = some .dropped := by
  rcases h with hdr | ⟨chain, hjm, depth, hdr⟩
  · refine ⟨0, ?_⟩
    rw [Chains.walkRules, hdr]
  · refine ⟨depth, ?_⟩
    rw [Chains.walkRules, hjm]
    dsimp only
    rw [hdr]

/-- A rule that does not lead away stops, or leaves it to the rules after it once
the chain that it jumps to has come to its end. -/
theorem stops_or_passes (hst : ¬ LeadsAway effect rules rule) : Stops effect rules rule ∨
    ∃ depth, ∀ depth', depth ≤ depth' →
      walkRules effect (walk effect rules depth') (rule :: rest) =
        walkRules effect (walk effect rules depth') rest := by
  cases hef : effect rule with
  | accept => exact absurd (.inl hef) hst
  | leave => exact absurd (.inr (.inl hef)) hst
  | drop => exact .inl (.inl hef)
  | pass =>
    refine .inr ⟨0, fun depth' _ => ?_⟩
    rw [walkRules, hef]
  | jump chain =>
    have hex : ∃ exit, exit ≠ .accepted ∧ Exits effect rules chain exit := by
      by_contra hnn
      push Not at hnn
      exact hst (.inr (.inr ⟨chain, hef, hnn⟩))
    obtain ⟨exit, hne, depth, hwl⟩ := hex
    cases exit with
    | accepted => exact absurd rfl hne
    | dropped => exact .inl (.inr ⟨chain, hef, depth, hwl⟩)
    | _ =>
      refine .inr ⟨depth, fun depth' hle => ?_⟩
      rw [walkRules, hef]
      dsimp only
      rw [walk_mono hle hwl]

theorem stops_or_stays {depth : Nat}
    (h : walkRules effect (walk effect rules depth) (rule :: rest) = some .dropped) :
    Stops effect rules rule ∨ ¬ LeadsAway effect rules rule ∧
      walkRules effect (walk effect rules depth) rest = some .dropped := by
  rw [walkRules] at h
  cases hef : effect rule with
  | drop => exact .inl (.inl hef)
  | pass =>
    rw [hef] at h
    refine .inr ⟨?_, h⟩
    rintro (haw | haw | ⟨_, haw, -⟩) <;> cases hef.symm.trans haw
  | jump chain =>
    rw [hef] at h
    dsimp only at h
    cases hex : walk effect rules depth chain with
    | none =>
      rw [hex] at h
      cases h
    | some exit =>
      rw [hex] at h
      by_cases hne : exit = .accepted
      · subst hne
        cases h
      have hst : ¬ LeadsAway effect rules rule := by
        rintro (haw | haw | ⟨_, haw, hnn⟩)
        · cases hef.symm.trans haw
        · cases hef.symm.trans haw
        · cases hef.symm.trans haw
          exact hnn exit hne ⟨depth, hex⟩
      cases exit with
      | accepted => exact absurd rfl hne
      | dropped => exact .inl (.inr ⟨chain, hef, depth, hex⟩)
      | _ => exact .inr ⟨hst, h⟩
  | _ =>
    rw [hef] at h
    cases h

theorem walkRules_dropped_iff :
    (∃ depth, walkRules effect (walk effect rules depth) list = some .dropped) ↔
      StopsFirst effect rules list := by
  induction list with
  | nil =>
    constructor
    · rintro ⟨depth, hdr⟩
      cases hdr
    · exact fun h => absurd h not_stopsFirst_nil
  | cons rule rest ih =>
    rw [stopsFirst_cons, ← ih]
    constructor
    · rintro ⟨depth, hdr⟩
      exact (stops_or_stays hdr).imp_right fun ⟨hst, hrs⟩ => ⟨hst, depth, hrs⟩
    · rintro (hso | ⟨hst, depth, hdr⟩)
      · exact hso.walkRules
      · rcases stops_or_passes hst with hso | ⟨depth', hps⟩
        · exact hso.walkRules
        · refine ⟨max depth depth', ?_⟩
          rw [hps _ (Nat.le_max_right _ _)]
          exact walkRules_mono (fun _ _ h => walk_mono (Nat.le_max_left _ _) h) hdr

/-- A chain drops when one of its rules stops and none before it leads away. -/
theorem exits_dropped_iff {chain : κ} :
    Exits effect rules chain .dropped ↔ StopsFirst effect rules (rules chain) := by
  rw [← walkRules_dropped_iff]
  constructor
  · rintro ⟨depth, hdr⟩
    cases depth with
    | zero => cases hdr
    | succ depth => exact ⟨depth, hdr⟩
  · rintro ⟨depth, hdr⟩
    exact ⟨depth + 1, hdr⟩

/-- Rules of which none accepts or jumps to a chain without an end come to an end. -/
theorem walkRules_ends (h : ∀ rule ∈ list, effect rule ≠ .accept ∧ ∀ chain, effect rule = .jump chain →
      ∃ exit, exit ≠ .accepted ∧ Exits effect rules chain exit) :
    ∃ depth exit, exit ≠ .accepted ∧ walkRules effect (walk effect rules depth) list = some exit := by
  induction list with
  | nil => exact ⟨0, .through, fun h => (by cases h), rfl⟩
  | cons rule rest ih =>
    obtain ⟨⟨hac, hjm⟩, hrs⟩ := List.forall_mem_cons.1 h
    by_cases haw : LeadsAway effect rules rule
    · rcases haw with haw | haw | ⟨chain, haw, hnn⟩
      · exact absurd haw hac
      · refine ⟨0, .left, fun h => (by cases h), ?_⟩
        rw [walkRules, haw]
      · obtain ⟨exit, hne, hex⟩ := hjm chain haw
        exact absurd hex (hnn exit hne)
    · rcases stops_or_passes haw with hst | ⟨depth', hps⟩
      · obtain ⟨depth, hdr⟩ := hst.walkRules
        exact ⟨depth, .dropped, fun h => (by cases h), hdr⟩
      · obtain ⟨depth, exit, hne, hwl⟩ := ih hrs
        refine ⟨max depth depth', exit, hne, ?_⟩
        rw [hps _ (Nat.le_max_right _ _)]
        exact walkRules_mono (fun _ _ h => walk_mono (Nat.le_max_left _ _) h) hwl

end

end WebOvpn.Chains
