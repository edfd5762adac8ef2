/-
The law of the ledger: no operation runs twice, two runs of one intent overlap
only around a row that was given up and verified, the outcome that was written
is kept, and the slots of a process are accounted for.
-/
import Mathlib.Data.Set.Card
import WebOvpn.Panel.Ledger

namespace WebOvpn.Panel

open Text List

variable {s s' : Shared} {phase phase' : Phase} {event : Event} {who other : Thread}
    {row row' : Operation}
  {id : Nat} {c : Threads} {moves : Moves}

/-- The unique indexes of the table. -/
def Sound (s : Shared) : Prop := Unclashed Operation.clashes s.rows

def Registered (s : Shared) (who : Thread) (phase : Phase) : Prop :=
  ∀ id, phase.id? = some id → ∃ row, s.rows[id]? = some row ∧ row.registrar = who ∧ Fits row phase

theorem clashes_comm (row other : Operation) : row.clashes other = other.clashes row := by
  unfold Operation.clashes
  simp only [eq_comm, Bool.and_comm]

theorem eq_of_clashes (hs : Sound s) {i j : Nat} (hi : s.rows[i]? = some row)
    (hj : s.rows[j]? = some row')
    (hcl : row.clashes row' = true) : i = j := by
  by_contra hne
  rw [hs i j row row' hi hj hne] at hcl
  cases hcl

theorem RowsChange.old (h : RowsChange who event s phase s' phase') (hrow : s'.rows[id]? = some row')
    (hlt : id < s.rows.length) : ∃ row, s.rows[id]? = some row ∧ Advances row row' := by
  have hold := getElem?_eq_getElem hlt
  obtain ⟨row'', hrow'', had, -⟩ := h.advances hold
  rw [hrow] at hrow''
  cases hrow''
  exact ⟨_, hold, had⟩

theorem RowsChange.new (h : RowsChange who event s phase s' phase') (hrow : s'.rows[id]? = some row')
    (hle : s.rows.length ≤ id) : id = s.rows.length ∧ s.rows.any row'.clashes = false := by
  rcases h.added with hlen | ⟨call, leaseUntil, now, hrs, hcl⟩
  · have hlt := (List.getElem?_eq_some_iff.1 hrow).1
    omega
  · rw [hrs] at hrow
    rcases getElem?_append_cases hrow with ⟨hlt, -⟩ | ⟨-, hnew⟩
    · omega
    · obtain ⟨hzr, hsin⟩ := List.getElem?_eq_some_iff.1 hnew
      rw [length_singleton] at hzr
      refine ⟨by omega, ?_⟩
      rw [getElem_singleton] at hsin
      rw [← hsin]
      exact hcl

theorem RowsChange.unclashed_new {j : Nat} (h : RowsChange who event s phase s' phase')
    (hrow : s'.rows[id]? = some row)
    (hle : s.rows.length ≤ id) (hrow' : s'.rows[j]? = some row') (hlt : j < s.rows.length) :
    row.clashes row' = false := by
  obtain ⟨-, hcl⟩ := h.new hrow hle
  obtain ⟨old, hold, had⟩ := h.old hrow' hlt
  have hold' := any_eq_false.1 hcl old (mem_of_getElem? hold)
  rw [← Bool.not_eq_true]
  intro hcs
  exact hold' ((Advances.refl row).clashes had hcs)

theorem RowsChange.sound (h : RowsChange who event s phase s' phase') (hs : Sound s) : Sound s' := by
  intro i j r r' hi hj hne
  rcases Nat.lt_or_ge i s.rows.length with hlt | hle
  · rcases Nat.lt_or_ge j s.rows.length with hlt' | hle'
    · obtain ⟨old, hold, had⟩ := h.old hi hlt
      obtain ⟨old', hold', had'⟩ := h.old hj hlt'
      rw [← Bool.not_eq_true]
      intro hcl
      have hok := hs i j old old' hold hold' hne
      rw [had.clashes had' hcl] at hok
      cases hok
    · rw [clashes_comm]
      exact h.unclashed_new hj hle' hi hlt
  · rcases Nat.lt_or_ge j s.rows.length with hlt' | hle'
    · exact h.unclashed_new hi hle hj hlt'
    · have hi' := (h.new hi hle).1
      have hj' := (h.new hj hle').1
      omega

theorem Registered.own (hrs : RowsChange who event s phase s' phase')
    (hfl : Follows who event s phase s' phase')
    (h : Registered s who phase) : Registered s' who phase' := by
  intro id hid
  rcases hfl id hid with ⟨hid', hfs⟩ | ⟨-, hrg⟩
  · obtain ⟨row, hrow, hwho, hfit⟩ := h id hid'
    rcases hfs with hfs | ⟨old, row', hold, hrow', hex⟩
    · obtain ⟨row', hrow', hag | hex⟩ := hrs.kept id row hrow
      · exact ⟨row', hrow', hag.registrar.trans hwho, (hfs row hfit).ages hag⟩
      · exact ⟨row', hrow', hex.registrar.trans hwho, hfit.executes hex⟩
    · cases hrow.symm.trans hold
      exact ⟨row', hrow', hex.registrar.trans hwho, hfit.executes hex⟩
  · exact hrg

theorem Registered.others (hrs : RowsChange who event s phase s' phase') (hot : other ≠ who)
    (h : Registered s who phase) {phase'' : Phase} (h' : Registered s other phase'') :
    Registered s' other phase'' := by
  intro id hid
  obtain ⟨row, hrow, hwho, hfit⟩ := h' id hid
  obtain ⟨row', hrow', hag | hex⟩ := hrs.kept id row hrow
  · exact ⟨row', hrow', hag.registrar.trans hwho, hfit.ages hag⟩
  · obtain ⟨own, hown, hwho', -⟩ := h id hex.id?
    cases hrow.symm.trans hown
    exact absurd (hwho.symm.trans hwho') hot

theorem Registered.row_of_id (h : Registered s who phase) (id : Nat) (hid : phase.id? = some id) :
    ∃ row, s.rows[id]? = some row := by
  obtain ⟨row, hrow, -⟩ := h id hid
  exact ⟨row, hrow⟩

theorem keeps_registered : Crew.Keeps act Sound Registered where
  own _ _ _ _ hs h :=
    ⟨act_rowsChange.sound hs, h.own act_rowsChange (act_follows h.row_of_id)⟩
  others _ _ _ _ _ _ hot _ h h' := h.others act_rowsChange hot h'

def Phase.holdsSlot : Phase → Bool
  | .inserting _ => true
  | .reselecting _ => true
  | .submitting _ => true
  | .queued _ => true
  | .refused _ => true
  | .calling _ => true
  | .writing _ _ => true
  | .ending _ _ => true
  | _ => false

inductive SlotsChange (who : Thread) (s : Shared) (phase : Phase) (s' : Shared)
    (phase' : Phase) : Prop where
  | keeps (hslots : s'.slots = s.slots) (hphase : phase'.holdsSlot = phase.holdsSlot)
  | takes (hfree : s.slots who.process ≠ 0)
      (hslots : s'.slots = Function.update s.slots who.process (s.slots who.process - 1))
      (hphase : phase.holdsSlot = false) (hphase' : phase'.holdsSlot = true)
  | gives (hslots : s'.slots = Function.update s.slots who.process (s.slots who.process + 1))
      (hphase : phase.holdsSlot = true) (hphase' : phase'.holdsSlot = false)

theorem takeStep_slotsChange (call : Call) :
    SlotsChange who s (.waiting call) (takeStep who call s).1 (takeStep who call s).2 := by
  unfold takeStep
  split
  · exact .keeps rfl rfl
  · rename_i hfr
    exact .takes hfr rfl rfl rfl

theorem insertStep_slotsChange (call : Call) (leaseUntil : Option Instant) (now : Instant) :
    SlotsChange who s (.inserting call) (insertStep who call leaseUntil now s).1
      (insertStep who call leaseUntil now s).2 := by
  unfold insertStep
  split
  · exact .gives rfl rfl rfl
  · split
    · exact .keeps rfl rfl
    · exact .keeps rfl rfl

theorem claimStep_slotsChange (now : Instant) :
    SlotsChange who s (.queued id) (claimStep id now s).1 (claimStep id now s).2 := by
  unfold claimStep
  split
  · split
    · exact .keeps rfl rfl
    · exact .keeps rfl rfl
  · exact .keeps rfl rfl

theorem lookStep_holdsSlot (found : Option Nat) (hph : phase.holdsSlot = false) :
    (lookStep found phase).holdsSlot = false := by
  unfold lookStep
  split
  · rfl
  · exact hph

theorem liveStep_slotsChange :
    SlotsChange who s phase (liveStep who event s phase).1 (liveStep who event s phase).2 := by
  unfold liveStep
  split
  · exact .keeps rfl rfl
  · exact .keeps rfl rfl
  · exact .keeps rfl (lookStep_holdsSlot _ rfl)
  · exact .keeps rfl (lookStep_holdsSlot _ rfl)
  · exact takeStep_slotsChange _
  · exact .keeps rfl rfl
  · exact .keeps rfl rfl
  · exact .keeps rfl rfl
  · exact insertStep_slotsChange _ _ _
  · exact .gives rfl rfl rfl
  · exact .gives rfl rfl rfl
  · exact .gives rfl rfl rfl
  · exact .keeps rfl rfl
  · exact .gives rfl rfl rfl
  · exact claimStep_slotsChange _
  · exact .keeps rfl rfl
  · exact .keeps rfl rfl
  · exact .keeps rfl rfl
  · exact .keeps rfl rfl
  · exact .keeps rfl rfl
  · exact .keeps rfl rfl
  · exact .keeps rfl rfl
  · exact .gives rfl rfl rfl
  · exact .keeps rfl rfl
  · exact .keeps rfl rfl
  · exact .keeps rfl rfl
  · exact .keeps rfl rfl

theorem act_slotsChange :
    SlotsChange who s phase (act who event s phase).1 (act who event s phase).2 := by
  unfold act
  split
  · exact .keeps rfl rfl
  · exact liveStep_slotsChange

def holders (c : Threads) (process : Nat) : Set Thread :=
  {who | who.process = process ∧ (c.workers who).holdsSlot = true}

def SlotsKept (c : Threads) : Prop :=
  ∀ process, (holders c process).encard + c.shared.slots process = slotCount

theorem holders_step_of_ne {process : Nat} (hpr : who.process ≠ process) :
    holders (c.step act (who, event)) process = holders c process := by
  ext other
  unfold holders
  simp only [Set.mem_ofPred_eq, and_congr_right_iff]
  intro hot
  have hne : other ≠ who := by
    rintro rfl
    exact hpr hot
  rw [Crew.step_other hne]

theorem mem_holders_step {process : Nat} : other ∈ holders (c.step act (who, event)) process ↔
    other ≠ who ∧ other ∈ holders c process ∨
      other = who ∧ who.process = process ∧
        (act who event c.shared (c.workers who)).2.holdsSlot = true := by
  unfold holders
  by_cases hot : other = who
  · subst hot
    simp
  · rw [Set.mem_ofPred_eq, Crew.step_other hot]
    simp [hot]

theorem holders_step_keeps
    (hph : (act who event c.shared (c.workers who)).2.holdsSlot = (c.workers who).holdsSlot)
    (process : Nat) :
    holders (c.step act (who, event)) process = holders c process := by
  ext other
  rw [mem_holders_step, hph]
  by_cases hot : other = who
  · subst hot
    simp [holders]
  · simp [hot]

theorem holders_step_takes (hph' : (act who event c.shared (c.workers who)).2.holdsSlot = true) :
    holders (c.step act (who, event)) who.process = insert who (holders c who.process) := by
  ext other
  rw [mem_holders_step, Set.mem_insert_iff]
  by_cases hot : other = who
  · simp [hot, hph']
  · simp [hot]

theorem holders_step_gives (hph' : (act who event c.shared (c.workers who)).2.holdsSlot = false) :
    holders (c.step act (who, event)) who.process = holders c who.process \ {who} := by
  ext other
  rw [mem_holders_step, Set.mem_sdiff, Set.mem_singleton_iff]
  by_cases hot : other = who
  · simp [hot, hph']
  · simp [hot]

theorem SlotsKept.step (h : SlotsKept c) (move : Thread × Event) : SlotsKept (c.step act move) := by
  obtain ⟨who, event⟩ := move
  intro process
  rw [Crew.step_shared]
  cases act_slotsChange (s := c.shared) with
  | keeps hsl hph =>
    rw [holders_step_keeps hph, hsl]
    exact h process
  | takes hfr hsl hph hph' =>
    rw [hsl]
    by_cases hpr : process = who.process
    · subst hpr
      have hnew : who ∉ holders c who.process := by
        rintro ⟨-, hhl⟩
        rw [hph] at hhl
        cases hhl
      rw [holders_step_takes hph', Set.encard_insert_of_notMem hnew, Function.update_self, ← h who.process,
        add_assoc]
      congr 1
      obtain ⟨n, hn⟩ := Nat.exists_eq_succ_of_ne_zero hfr
      rw [hn, Nat.succ_sub_one, Nat.cast_succ, add_comm]
    · rw [holders_step_of_ne (Ne.symm hpr), Function.update_of_ne hpr]
      exact h process
  | gives hsl hph hph' =>
    rw [hsl]
    by_cases hpr : process = who.process
    · subst hpr
      have hold : who ∈ holders c who.process := ⟨rfl, hph⟩
      rw [holders_step_gives hph', Function.update_self, ← h who.process, Nat.cast_succ,
        ← Set.encard_sdiff_singleton_add_one hold, add_assoc, add_comm 1]
    · rw [holders_step_of_ne (Ne.symm hpr), Function.update_of_ne hpr]
      exact h process

def startedCall (c : Threads) (move : Thread × Event) : Option Text :=
  match c.workers move.1, (c.step act move).workers move.1 with
  | .queued id, .calling _ => c.shared.rows[id]?.map Operation.fingerprint
  | _, _ => none

/-- An operation with the fingerprint has left `registered`. -/
def Spent (c : Threads) (fingerprint : Text) : Prop :=
  ∃ row ∈ c.shared.rows, row.fingerprint = fingerprint ∧ row.status ≠ .registered

theorem claimStep_calling {id' : Nat} {now : Instant} (h : (claimStep id now s).2 = .calling id') :
    ∃ row, s.rows[id]? = some row ∧ row.status = .registered ∧
      (claimStep id now s).1.rows[id]? = some { row with status := .running } := by
  unfold claimStep at h ⊢
  split at h
  · rename_i row hrow
    split at h
    · rename_i hfr
      refine ⟨row, hrow, hfr.1, ?_⟩
      rw [if_pos hfr, setRow_self hrow]
      unfold Operation.claimed
      rw [if_pos hfr]
    · cases h
  · cases h

theorem act_calling {id' : Nat} (h : (act who event s (.queued id)).2 = .calling id') :
    ∃ row, s.rows[id]? = some row ∧ row.status = .registered ∧
      (act who event s (.queued id)).1.rows[id]? = some { row with status := .running } := by
  unfold act at h ⊢
  split at h
  · cases h
  · rename_i hlos
    rw [if_neg hlos]
    cases event with
    | claim now => exact claimStep_calling h
    | _ => cases h

variable {fingerprint : Text} {move : Thread × Event}

theorem startedCall_eq_some (h : startedCall c move = some fingerprint) :
    ∃ (id : Nat) (row : Operation), c.shared.rows[id]? = some row ∧ row.fingerprint = fingerprint ∧
      row.status = .registered ∧
      (c.step act move).shared.rows[id]? = some { row with status := .running } := by
  obtain ⟨who, event⟩ := move
  unfold startedCall at h
  split at h
  · rename_i id id' hque hcl
    rw [Crew.step_self] at hcl
    rw [Crew.step_shared]
    dsimp only at hque
    rw [hque] at hcl ⊢
    obtain ⟨row, hrow, hst, hrow'⟩ := act_calling hcl
    rw [hrow] at h
    exact ⟨id, row, hrow, Option.some.inj h, hst, hrow'⟩
  · cases h

theorem Spent.step (h : Spent c fingerprint) (move : Thread × Event) :
    Spent (c.step act move) fingerprint := by
  obtain ⟨who, event⟩ := move
  obtain ⟨row, hmem, hfn, hst⟩ := h
  obtain ⟨id, hrow⟩ := mem_iff_getElem?.1 hmem
  have hch : RowsChange who event c.shared (c.workers who) (c.step act (who, event)).shared _ := act_rowsChange
  obtain ⟨row', hrow', had, -⟩ := hch.advances hrow
  refine ⟨row', mem_of_getElem? hrow', had.fingerprint.trans hfn, ?_⟩
  intro hrg
  rcases had.moves with hsm | ⟨hold, -⟩ | ⟨-, htr⟩
  · exact hst (hsm.symm.trans hrg)
  · exact hst hold
  · rw [hrg] at htr
    cases htr

theorem startedCall_spends (hs : Sound c.shared)
    (h : startedCall c move = some fingerprint) :
    ¬ Spent c fingerprint ∧ Spent (c.step act move) fingerprint := by
  obtain ⟨id, row, hrow, hfn, hst, hrow'⟩ := startedCall_eq_some h
  constructor
  · rintro ⟨other, hmem, hsm, hlf⟩
    obtain ⟨j, hot⟩ := mem_iff_getElem?.1 hmem
    have hcl : row.clashes other = true := by
      unfold Operation.clashes
      rw [hfn, hsm]
      simp
    have hid := eq_of_clashes hs hrow hot hcl
    subst hid
    cases hrow.symm.trans hot
    exact hlf hst
  · refine ⟨_, mem_of_getElem? hrow', hfn, ?_⟩
    intro hrg
    cases hrg

/-- The step gives up the rows whose lease had ended when it read the clock. -/
def Event.SeesPast (lease : Instant) : Event → Prop
  | .recover now _ => lease < now
  | .lapse now _ => lease ≤ now
  | _ => False

/-- A sweep of `recover`, or a thread that could not claim its row, has read the clock at the
end of the lease or later. -/
def Lapsed (moves : Moves) (lease : Instant) : Prop := ∃ move ∈ moves, move.2.SeesPast lease

/-- The lease of the row has passed, and the row, given up for that, was marked as verified. -/
def Abandoned (moves : Moves) (row : Operation) : Prop :=
  row.status = .unknown ∧ row.verifiedAt ≠ none ∧ Lapsed moves row.leaseUntil

def Settles (row row' : Operation) : Prop :=
  row.status.isTerminal = true → row' = { row with verifiedAt := row'.verifiedAt }

/-- The run of the callable that came to the last write of `_execute`. -/
def Phase.reached : Phase → Option (Nat × Outcome)
  | .ending id reached => reached.map fun outcome => (id, outcome)
  | .over id reached => reached.map fun outcome => (id, outcome)
  | _ => none

/-- A row becomes `unknown` when its lease has passed, or as what its run ended with. -/
theorem RowsChange.unknown (h : RowsChange who event s phase s' phase') (hrow : s.rows[id]? = some row)
    (hrow' : s'.rows[id]? = some row') (hun : row'.status = .unknown) :
    row'.leaseUntil = row.leaseUntil ∧
      (row.status = .unknown ∧ (∀ outcome, Carries row outcome → Carries row' outcome) ∨
        event.SeesPast row.leaseUntil ∨
        ∃ outcome, row.status = .running ∧ phase'.reached = some (id, outcome) ∧
          Carries row' outcome) := by
  obtain ⟨_, hsm, hag | hex⟩ := h.kept id row hrow
  · cases hrow'.symm.trans hsm
    have hcr (outcome : Outcome) (hcr : Carries row outcome) := hcr.ages hag
    cases hag with
    | same => exact ⟨rfl, .inl ⟨hun, hcr⟩⟩
    | expired now finished =>
      unfold Operation.expired at hun ⊢
      split
      · rename_i hdue
        exact ⟨rfl, .inr (.inl hdue.2)⟩
      · rename_i hdue
        rw [if_neg hdue] at hun
        exact ⟨rfl, .inl ⟨hun, fun _ h => h⟩⟩
    | verified _ now =>
      have hfix : (row.verified now).leaseUntil = row.leaseUntil ∧ (row.verified now).status = row.status := by
        unfold Operation.verified
        split <;> exact ⟨rfl, rfl⟩
      exact ⟨hfix.1, .inl ⟨hfix.2 ▸ hun, hcr⟩⟩
  · cases hrow'.symm.trans hsm
    cases hex with
    | claims now hfr =>
      unfold Operation.claimed at hun
      rw [if_pos hfr] at hun
      cases hun
    | lapses now finished =>
      unfold Operation.lapsed at hun ⊢
      split
      · rename_i hdue
        exact ⟨rfl, .inr (.inl hdue.2)⟩
      · rename_i hdue
        rw [if_neg hdue] at hun
        exact ⟨rfl, .inl ⟨hun, fun _ h => h⟩⟩
    | finishes outcome now =>
      unfold Operation.finished at hun ⊢
      split
      · rename_i hrun
        exact ⟨rfl, .inr (.inr ⟨outcome, hrun, rfl, rfl, rfl, rfl⟩)⟩
      · rename_i hrun
        rw [if_neg hrun] at hun
        exact ⟨rfl, .inl ⟨hun, fun _ h => h⟩⟩

theorem act_reached {outcome : Outcome} (h : phase.reached = some (id, outcome)) :
    (act who event s phase).2.reached = some (id, outcome) := by
  unfold act
  split
  · exact h
  · cases phase with
    | ending id' reached => cases event <;> exact h
    | «over» id' reached => cases event <;> exact h
    | _ => cases h

/-- Among the rows from `n` on: those of the threads, and an `unknown` one was given up or has
what its run ended with. -/
structure Explained (n : Nat) (moves : Moves) (c : Threads) : Prop where
  old : n ≤ c.shared.rows.length
  own : ∀ who id, (c.workers who).id? = some id → n ≤ id
  given : ∀ id row, n ≤ id → c.shared.rows[id]? = some row → row.status = .unknown →
    Lapsed moves row.leaseUntil ∨
      ∃ who outcome, (c.workers who).reached = some (id, outcome) ∧ Carries row outcome

structure StateLaw (moves : Moves) (c : Threads) : Prop where
  overlap : ∀ who other id id' row row', who ≠ other → c.workers who = .calling id →
    c.workers other = .calling id' → c.shared.rows[id]? = some row → c.shared.rows[id']? = some row' →
    row.intentHash = row'.intentHash → Abandoned moves row ∨ Abandoned moves row'
  unresolved : ∀ (id id' : Nat) (row row' : Operation), c.shared.rows[id]? = some row →
    c.shared.rows[id']? = some row' →
    row.isUnresolved = true → row'.isUnresolved = true → row.intentHash = row'.intentHash → id = id'
  outcome : ∀ who id outcome, (c.workers who).reached = some (id, outcome) →
    ∃ row, c.shared.rows[id]? = some row ∧
      (Carries row outcome ∨ Blank row .unknown ∧ Lapsed moves row.leaseUntil)
  slots : SlotsKept c

structure LedgerLaw (c : Threads) (moves : Moves) : Prop where
  once : (emitted (Crew.step act) startedCall c moves).Nodup
  state : StateLaw moves (run (Crew.step act) c moves)
  advances : ∀ move, Grows (fun row row' => Advances row row' ∧
      (row.status = .registered → row'.status = .unknown → move.2.SeesPast row.leaseUntil))
    (run (Crew.step act) c moves).shared.rows (run (Crew.step act) c (moves ++ [move])).shared.rows
  settled : ∀ later, Grows Settles (run (Crew.step act) c moves).shared.rows
    (run (Crew.step act) c (moves ++ later)).shared.rows

structure Fresh (c : Threads) : Prop where
  sound : Sound c.shared
  idle : ∀ who, c.workers who = .idle
  slots : ∀ process, c.shared.slots process = slotCount

/-- What every step keeps. -/
structure Kept (c : Threads) : Prop where
  holds : c.Holds Sound Registered
  slots : SlotsKept c

theorem Fresh.kept (h : Fresh c) : Kept c where
  holds := by
    refine ⟨h.sound, fun who id hid => ?_⟩
    rw [h.idle who] at hid
    cases hid
  slots := by
    intro process
    have hnn : holders c process = ∅ := by
      apply Set.eq_empty_iff_forall_notMem.2
      rintro who ⟨-, hhl⟩
      rw [h.idle who] at hhl
      cases hhl
    rw [hnn, h.slots process, Set.encard_empty, zero_add]

theorem Kept.step (h : Kept c) (move : Thread × Event) : Kept (c.step act move) :=
  ⟨h.holds.step keeps_registered move, h.slots.step move⟩

theorem Kept.run (h : Kept c) : Kept (run (Crew.step act) c moves) :=
  run_keeps h fun _ move hc => hc.step move

theorem clashes_of_unresolved (hrow : row.isUnresolved = true) (hrow' : row'.isUnresolved = true)
    (hint : row.intentHash = row'.intentHash) : row.clashes row' = true := by
  unfold Operation.clashes
  rw [hrow, hrow', hint]
  simp

theorem Blank.unresolved_or (h : Blank row .running) :
    row.isUnresolved = true ∨ row.status = .unknown ∧ row.verifiedAt ≠ none := by
  rcases h.status with hrun | hun
  · left
    apply isUnresolved_iff.2
    rw [hrun]
    exact .inl rfl
  · by_cases hvr : row.verifiedAt = none
    · exact .inl (isUnresolved_iff.2 (.inr ⟨.inl hun, hvr⟩))
    · exact .inr ⟨hun, hvr⟩

theorem Explained.start (h : Fresh c) : Explained c.shared.rows.length [] c where
  old := le_rfl
  own who id hid := by
    rw [h.idle who] at hid
    cases hid
  given id row hle hrow := absurd (List.getElem?_eq_some_iff.1 hrow).1 (by omega)

theorem Explained.step {n : Nat} (h : Explained n moves c) (hkp : Kept c) (move : Thread × Event) :
    Explained n (moves ++ [move]) (c.step act move) := by
  obtain ⟨who, event⟩ := move
  have hch : RowsChange who event c.shared (c.workers who) (c.step act (who, event)).shared _ := act_rowsChange
  have hlen : c.shared.rows.length ≤ (c.step act (who, event)).shared.rows.length := by
    rcases hch.added with hlen | ⟨call, leaseUntil, now, hrs, -⟩
    · rw [hlen]
    · rw [hrs, length_append]
      omega
  refine ⟨h.old.trans hlen, fun other id hid => ?_, fun id row' hle hrow' hun => ?_⟩
  · by_cases hot : other = who
    · subst hot
      rw [Crew.step_self] at hid
      rcases act_follows (hkp.holds.worker other).row_of_id id hid with ⟨hid', -⟩ | ⟨rfl, -⟩
      · exact h.own other id hid'
      · exact h.old
    · rw [Crew.step_other hot] at hid
      exact h.own other id hid
  · rcases Nat.lt_or_ge id c.shared.rows.length with hlt | hge
    · obtain ⟨row, hrow, -⟩ := hch.old hrow' hlt
      obtain ⟨hla, ⟨hun', hcr⟩ | hps | ⟨outcome, -, hra, hcr⟩⟩ := hch.unknown hrow hrow' hun
      · rw [hla]
        rcases h.given id row hle hrow hun' with ⟨move, hmem, hps⟩ | ⟨other, outcome, hra, hcr'⟩
        · exact .inl ⟨move, mem_append_left _ hmem, hps⟩
        · refine .inr ⟨other, outcome, ?_, hcr outcome hcr'⟩
          by_cases hot : other = who
          · subst hot
            rw [Crew.step_self]
            exact act_reached hra
          · rw [Crew.step_other hot]
            exact hra
      · exact .inl ⟨_, mem_append_right _ mem_cons_self, hla ▸ hps⟩
      · exact .inr ⟨who, outcome, by rwa [Crew.step_self], hcr⟩
    · -- a new row is registered
      rcases hch.added with hsm | ⟨call, leaseUntil, now, hrs, -⟩
      · have hlt := (List.getElem?_eq_some_iff.1 hrow').1
        omega
      · rw [hrs] at hrow'
        rcases getElem?_append_cases hrow' with ⟨hlt, -⟩ | ⟨-, hnew⟩
        · omega
        · rw [mem_singleton.1 (mem_of_getElem? hnew)] at hun
          cases hun

theorem explained_run (h : Fresh c) (moves : Moves) :
    Explained c.shared.rows.length moves (run (Crew.step act) c moves) := by
  induction moves using reverseRecOn with
  | nil => exact .start h
  | append_singleton moves move ih =>
    rw [run_append]
    exact ih.step h.kept.run move

theorem Phase.id?_of_reached {outcome : Outcome} (h : phase.reached = some (id, outcome)) :
    phase.id? = some id ∧ ∀ row, Fits row phase → Carries row outcome ∨ Blank row .unknown := by
  cases phase with
  | ending id' reached =>
    obtain ⟨_, rfl, hpi⟩ := Option.map_eq_some_iff.1 h
    cases hpi
    exact ⟨rfl, fun _ h => h⟩
  | «over» id' reached =>
    obtain ⟨_, rfl, hpi⟩ := Option.map_eq_some_iff.1 h
    cases hpi
    exact ⟨rfl, fun _ h => h⟩
  | _ => cases h

/-- The row of a thread that is `unknown` was given up, unless its run ended so. -/
theorem Kept.lapsed {n : Nat} (h : Kept c) (hex : Explained n moves c)
    (hid : (c.workers who).id? = some id)
    (hrow : c.shared.rows[id]? = some row) (hun : row.status = .unknown) : Lapsed moves row.leaseUntil ∨
      ∃ outcome, (c.workers who).reached = some (id, outcome) ∧ Carries row outcome := by
  rcases hex.given id row (hex.own who id hid) hrow hun with hlap | ⟨other, outcome, hra, hcr⟩
  · exact .inl hlap
  · obtain ⟨own, hown, hrg, -⟩ := h.holds.worker who id hid
    obtain ⟨own', hown', hrg', -⟩ := h.holds.worker other id (Phase.id?_of_reached hra).1
    cases hown.symm.trans hown'
    cases hrg.symm.trans hrg'
    exact .inr ⟨outcome, hra, hcr⟩

theorem Kept.stateLaw {n : Nat} (h : Kept c) (hex : Explained n moves c) : StateLaw moves c where
  overlap := by
    intro who other id id' row row' hne hwho hot hrow hrow' hint
    obtain ⟨own, hown, hrg, hbl⟩ := h.holds.worker who id (by rw [hwho]; rfl)
    obtain ⟨own', hown', hrg', hbl'⟩ := h.holds.worker other id' (by rw [hot]; rfl)
    cases hrow.symm.trans hown
    cases hrow'.symm.trans hown'
    rw [hwho] at hbl
    rw [hot] at hbl'
    have hgiv {who : Thread} {id : Nat} {row : Operation} (hcl : c.workers who = .calling id)
        (hrow : c.shared.rows[id]? = some row) (haba : row.status = .unknown ∧ row.verifiedAt ≠ none) :
        Abandoned moves row := by
      refine ⟨haba.1, haba.2, ?_⟩
      rcases h.lapsed hex (by rw [hcl]; rfl) hrow haba.1 with hlap | ⟨outcome, hra, -⟩
      · exact hlap
      · rw [hcl] at hra
        cases hra
    rcases Blank.unresolved_or hbl with hun | haba
    · rcases Blank.unresolved_or hbl' with hun' | haba'
      · have hid := eq_of_clashes h.holds.shared hrow hrow' (clashes_of_unresolved hun hun' hint)
        subst hid
        cases hrow.symm.trans hrow'
        exact absurd (hrg.symm.trans hrg') hne
      · exact .inr (hgiv hot hrow' haba')
    · exact .inl (hgiv hwho hrow haba)
  unresolved _ _ _ _ hrow hrow' hun hun' hint :=
    eq_of_clashes h.holds.shared hrow hrow' (clashes_of_unresolved hun hun' hint)
  outcome := by
    intro who id outcome hra
    obtain ⟨hid, hen⟩ := Phase.id?_of_reached hra
    obtain ⟨row, hrow, -, hfs⟩ := h.holds.worker who id hid
    refine ⟨row, hrow, ?_⟩
    rcases hen row hfs with hcr | hbl
    · exact .inl hcr
    · rcases h.lapsed hex hid hrow (or_self_iff.1 hbl.status) with hlap | ⟨outcome', hra', hcr⟩
      · exact .inr ⟨hbl, hlap⟩
      · cases hra.symm.trans hra'
        exact .inl hcr
  slots := h.slots

theorem grows_step (move : Thread × Event) :
    Grows Advances c.shared.rows (c.step act move).shared.rows := by
  intro id row hrow
  have hch : RowsChange move.1 move.2 c.shared (c.workers move.1) (c.step act move).shared _ := act_rowsChange
  obtain ⟨row', hrow', had, -⟩ := hch.advances hrow
  exact ⟨row', hrow', had⟩

theorem Settles.trans {row'' : Operation} (h : Settles row row') (h' : Settles row' row'') :
    Settles row row'' := by
  intro htr
  have hrow' := h htr
  have htr' : row'.status.isTerminal = true := by
    rw [hrow']
    exact htr
  rw [h' htr', hrow']

theorem grows_run (later : Moves) :
    Grows Settles c.shared.rows (run (Crew.step act) c later).shared.rows := by
  induction later generalizing c with
  | nil => exact grows_refl (fun _ _ => rfl) _
  | cons move rest ih =>
    have hfs : Grows Settles c.shared.rows (c.step act move).shared.rows := by
      intro id row hrow
      obtain ⟨row', hrow', had⟩ := grows_step move id row hrow
      exact ⟨row', hrow', had.settled⟩
    exact hfs.trans (fun _ _ _ h h' => Settles.trans h h') ih

/-- No callable is started twice, and two runs of one intent overlap only when
one of their rows was given up, as its lease had passed, and verified; one row of
an intent is unresolved; a row goes from `registered` to `running` to an end, or
ends at once when its lease has passed, and has then what its run wrote unless it
was given up before; every slot is free or held by one thread. -/
theorem operation_runs_once (c : Threads) (hc : Fresh c) (moves : Moves) : LedgerLaw c moves where
  once := by
    apply emitted_nodup (I := Kept) hc.kept
    · exact fun _ move h => h.step move
    · intro c move fingerprint h hst
      have hspen : ¬ Spent c fingerprint ∧ Spent (c.step act move) fingerprint :=
        startedCall_spends h.holds.shared hst
      exact hspen
    · exact fun _ move _ _ hsp => hsp.step move
  state := hc.kept.run.stateLaw (explained_run hc moves)
  advances move := by
    rw [run_append]
    intro id row hrow
    obtain ⟨row', hrow', had⟩ := grows_step move id row hrow
    refine ⟨row', hrow', had, fun hrg hun => ?_⟩
    let before := run (Crew.step act) c moves
    have hch : RowsChange move.1 move.2 before.shared (before.workers move.1)
        (before.step act move).shared _ := act_rowsChange
    obtain ⟨-, ⟨hsm, -⟩ | hps | ⟨_, hrun, -⟩⟩ := hch.unknown hrow hrow' hun
    · rw [hrg] at hsm
      cases hsm
    · exact hps
    · rw [hrg] at hrun
      cases hrun
  settled later := by
    rw [run_append]
    exact grows_run later

def sampleTime (minutes : Fin 60) : Instant :=
  ⟨63876418200000000 + minutes * microsPerMinute, minute_lt minutes⟩

def sampleThreads : Threads where
  shared := ⟨[], fun _ => slotCount, fun _ => false⟩
  workers _ := .idle

def sampleCall (fingerprint : Text) : Call where
  owner := "user:a"
  action := "r"
  permission := "p"
  fingerprint := fingerprint
  intentHash := "i"

def registers (who : Thread) (call : Call) (now : Instant) : Moves :=
  [(who, .call call), (who, .recover now now), (who, .look), (who, .look), (who, .takeSlot),
    (who, .insert now now),
    (who, .submit true)]

/-- The lease of the first run passes; the operation is given up and verified,
and a second run of the intent begins. -/
def overlappingMoves : Moves :=
  registers ⟨0, 0⟩ (sampleCall "a") (sampleTime 0) ++
    [(⟨0, 0⟩, .claim (sampleTime 0)), (⟨0, 1⟩, .recover (sampleTime 31) (sampleTime 31)),
      (⟨0, 1⟩, .verify 0 (sampleTime 32))] ++
    registers ⟨0, 2⟩ (sampleCall "b") (sampleTime 33) ++ [(⟨0, 2⟩, .claim (sampleTime 33))]

/-- The first run then comes to its last write. -/
def lateMoves : Moves :=
  overlappingMoves ++ [(⟨0, 0⟩, .finish ⟨[], [], .response 200⟩), (⟨0, 0⟩, .write (sampleTime 34))]

theorem sampleThreads_fresh : Fresh sampleThreads where
  sound := nofun
  idle _ := rfl
  slots _ := rfl

/-- The law at moves in which a slow run ends after its lease. -/
theorem sampleThreads_law : LedgerLaw sampleThreads lateMoves :=
  operation_runs_once sampleThreads sampleThreads_fresh lateMoves

/-- Two runs of one intent are in progress; the outcome of the first one does
not reach its row, which went from `registered` to `unknown` where the process
was lost before the claim; and a slot is taken before the row is there. -/
theorem slow_run_overlaps :
    ((run (Crew.step act) sampleThreads overlappingMoves).workers ⟨0, 0⟩ = .calling 0 ∧
      (run (Crew.step act) sampleThreads overlappingMoves).workers ⟨0, 2⟩ = .calling 1 ∧
      (run (Crew.step act) sampleThreads overlappingMoves).shared.rows.map Operation.intentHash =
        [text "i", "i"]) ∧
    ((run (Crew.step act) sampleThreads lateMoves).workers ⟨0, 0⟩ =
      .ending 0 (some ⟨[], [], .response 200⟩) ∧
      Outcome.status ⟨[], [], .response 200⟩ = .succeeded ∧
      (run (Crew.step act) sampleThreads lateMoves).shared.rows.map Operation.status =
        [.unknown, .running]) ∧
    ((run (Crew.step act) sampleThreads
        (registers ⟨0, 0⟩ (sampleCall "a") (sampleTime 0) ++ [(⟨0, 0⟩, .lose)])).shared.rows.map
          Operation.status = [.registered] ∧ (run (Crew.step act) sampleThreads
        (registers ⟨0, 0⟩ (sampleCall "a") (sampleTime 0) ++
          [(⟨0, 0⟩, .lose), (⟨1, 0⟩, .recover (sampleTime 31) (sampleTime 31))])).shared.rows.map
            Operation.status = [.unknown]) ∧ ((run (Crew.step act) sampleThreads
        ((registers ⟨0, 0⟩ (sampleCall "a") (sampleTime 0)).take 5)).shared.rows = [] ∧
      (run (Crew.step act) sampleThreads
        ((registers ⟨0, 0⟩ (sampleCall "a") (sampleTime 0)).take 5)).shared.slots 0 = 31) := by
  decide

end WebOvpn.Panel
