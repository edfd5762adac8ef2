/-
The law of the requests: one call of the gateway, repeated starts without an
effect, an end for every polled request, and reports that do not go back on
`succeeded` as long as nothing is written over it.
-/
import WebOvpn.Lib.Rows
import WebOvpn.Workstations.Service

namespace WebOvpn.Workstations

open Text List
open Panel (Thread)

abbrev Tasks := Crew Thread Shared Task

abbrev Moves := List (Thread × Event)

variable {operationId : Nat → Text} {s s' : Shared} {task : Task} {caller : Caller} {event : Event}
  {who other : Thread} {row row' reading : Request} {id : Nat} {c : Tasks} {moves : Moves}

structure Rewrites (who : Thread) (row row' : Request) : Prop where
  sameId : row'.id = row.id
  registered : row'.status = .registered → row.status = .registered
  terminal : row.status.isTerminal = true → row'.status.isTerminal = true
  claimant : row'.claimant = row.claimant ∨
    row.status = .registered ∧ row'.status = .running ∧ row'.claimant = some who

theorem Rewrites.refl (row : Request) : Rewrites who row row := ⟨rfl, fun h => h, fun h => h, .inl rfl⟩

theorem Rewrites.of_terminal (hid : row'.id = row.id) (hst : row'.status.isTerminal = true)
    (hcl : row'.claimant = row.claimant) : Rewrites who row row' := by
  refine ⟨hid, ?_, fun _ => hst, .inl hcl⟩
  intro hrg
  rw [hrg] at hst
  cases hst

theorem status_isTerminal (action : Action) (reply : Reply) :
    (reply.status action).isTerminal = true := by
  unfold Reply.status
  split
  · split <;> rfl
  · split
    · rfl
    · split <;> rfl

theorem rewrites_claimed (row : Request) : Rewrites who row (row.claimed who) := by
  unfold Request.claimed
  split
  · rename_i hrg
    refine ⟨rfl, fun h => ?_, fun h => ?_, .inr ⟨hrg, rfl, rfl⟩⟩
    · cases h
    · rw [hrg] at h
      cases h
  · exact .refl row

theorem rewrites_recorded (row : Request) (operation : Nat) (created : Bool) (now : Instant) :
    Rewrites who row (recorded operationId operation created now row) := by
  unfold recorded
  split
  · exact ⟨rfl, fun h => h, fun h => h, .inl rfl⟩
  · exact .of_terminal rfl rfl rfl

/-- What a step does to the table: rows are rewritten, and a new row has a new
identifier. -/
structure RequestsChange (who : Thread) (s s' : Shared) : Prop where
  kept : ∀ (id : Nat) (row : Request), s.requests[id]? = some row →
    ∃ row', s'.requests[id]? = some row' ∧ Rewrites who row row'
  added : s'.requests.length = s.requests.length ∨ ∃ start now,
    s'.requests = s.requests ++ [Start.row start now] ∧ ∀ row ∈ s.requests, row.id ≠ start.requestId

theorem RequestsChange.of_eq (h : s'.requests = s.requests) : RequestsChange who s s' := by
  refine ⟨fun id row hrow => ⟨row, ?_, .refl row⟩, .inl (by rw [h])⟩
  rw [h]
  exact hrow

theorem RequestsChange.modify {f : Request → Request} (h : ∀ row, Rewrites who row (f row)) :
    RequestsChange who s (s.setRequest id f) := by
  constructor
  · intro id' row hrow
    unfold Shared.setRequest
    rw [getElem?_modify, hrow]
    split
    · exact ⟨f row, rfl, h row⟩
    · exact ⟨row, rfl, .refl row⟩
  · left
    unfold Shared.setRequest
    exact length_modify ..

theorem create_change (start : Start) (now : Instant) :
    RequestsChange who s (create s start now task).1 := by
  unfold create
  split
  · exact .of_eq rfl
  · rename_i hfr
    refine ⟨fun id row hrow => ⟨row, ?_, .refl row⟩, .inr ⟨start, now, rfl, ?_⟩⟩
    · rw [getElem?_append_left (List.getElem?_eq_some_iff.1 hrow).1]
      exact hrow
    · intro row hmem hid
      exact hfr (any_eq_true.2 ⟨row, hmem, decide_eq_true hid⟩)

theorem check_change (now : Instant) : RequestsChange who s (check s id reading now).1 := by
  unfold check
  split
  · split
    · exact .of_eq rfl
    · exact .modify fun _ => .of_terminal rfl rfl rfl
  · exact .of_eq rfl

theorem answerStep_change (event : CallerEvent) :
    RequestsChange who s (answerStep operationId event s caller).1 := by
  unfold answerStep
  split
  · exact .of_eq rfl
  · exact .of_eq rfl
  · exact .of_eq rfl
  · exact .modify fun row => rewrites_recorded row _ _ _
  · exact .of_eq rfl
  · exact .of_eq rfl
  · exact .modify fun _ => .of_terminal rfl rfl rfl
  · exact .of_eq rfl
  · exact check_change _
  · exact .of_eq rfl
  · exact .of_eq rfl
  · exact .of_eq rfl
  · exact .of_eq rfl
  · exact .modify fun _ => .of_terminal rfl rfl rfl
  all_goals exact .of_eq rfl

theorem callerStep_change (event : CallerEvent) :
    RequestsChange who s (callerStep operationId event s task).1 := by
  unfold callerStep
  split
  · exact .of_eq rfl
  · exact create_change _ _
  · exact .of_eq rfl
  · exact answerStep_change _

theorem panelStep_change (event : Panel.Event) :
    RequestsChange who s (panelStep who event s task).1 := by
  unfold panelStep
  dsimp only
  split
  · exact .of_eq rfl
  · split <;> exact .of_eq rfl
  · exact .of_eq rfl

theorem bodyStep_change {body : Body} (event : BodyEvent) :
    RequestsChange who s (bodyStep who event s id body).1 := by
  unfold bodyStep
  split
  · split
    · exact .modify rewrites_claimed
    · exact .of_eq rfl
  · exact .of_eq rfl
  · exact .modify fun row => ⟨rfl, fun h => h, fun h => h, .inl rfl⟩
  · exact .of_eq rfl
  · exact .of_eq rfl
  · exact .of_eq rfl
  · exact .modify fun row => .of_terminal rfl (status_isTerminal row.action _) rfl
  · exact .of_eq rfl
  · exact .of_eq rfl

theorem executeStep_change (event : BodyEvent) :
    RequestsChange who s (executeStep who event s task).1 := by
  unfold executeStep
  split
  · exact .of_eq rfl
  · exact bodyStep_change _
  · exact .of_eq rfl

theorem act_change : RequestsChange who s (act operationId who event s task).1 := by
  unfold act
  split
  · exact .of_eq rfl
  · split
    · exact callerStep_change _
    · exact panelStep_change _
    · exact executeStep_change _

/-- One request for an identifier, and none that is claimed is `registered`. -/
structure Sound (s : Shared) : Prop where
  unique : Unclashed (fun row row' => decide (row.id = row'.id)) s.requests
  claimed : ∀ row ∈ s.requests, row.claimant ≠ none → row.status ≠ .registered

theorem eq_of_sameId (hs : Sound s) {i j : Nat} (hi : s.requests[i]? = some row)
    (hj : s.requests[j]? = some row')
    (hid : row.id = row'.id) : i = j := by
  by_contra hne
  exact of_decide_eq_false (hs.unique i j row row' hi hj hne) hid

section

variable (h : RequestsChange who s s')
include h

theorem RequestsChange.old (hrow : s'.requests[id]? = some row')
    (hlt : id < s.requests.length) : ∃ row, s.requests[id]? = some row ∧ Rewrites who row row' := by
  have hold := getElem?_eq_getElem hlt
  obtain ⟨row'', hrow'', hrw⟩ := h.kept id _ hold
  rw [hrow] at hrow''
  cases hrow''
  exact ⟨_, hold, hrw⟩

theorem RequestsChange.new (hrow : s'.requests[id]? = some row')
    (hle : s.requests.length ≤ id) :
    id = s.requests.length ∧ row'.claimant = none ∧ ∀ row ∈ s.requests, row.id ≠ row'.id := by
  rcases h.added with hlen | ⟨start, now, hrs, hfr⟩
  · have hlt := (List.getElem?_eq_some_iff.1 hrow).1
    omega
  · rw [hrs] at hrow
    rcases getElem?_append_cases hrow with ⟨hlt, -⟩ | ⟨-, hnew⟩
    · omega
    · obtain ⟨hzr, hsin⟩ := List.getElem?_eq_some_iff.1 hnew
      rw [length_singleton] at hzr
      rw [getElem_singleton] at hsin
      subst hsin
      exact ⟨by omega, rfl, hfr⟩

theorem RequestsChange.sound (hs : Sound s) : Sound s' := by
  constructor
  · intro i j r r' hi hj hne
    apply decide_eq_false
    intro hid
    rcases Nat.lt_or_ge i s.requests.length with hlt | hle
    · obtain ⟨old, hold, hrw⟩ := h.old hi hlt
      rcases Nat.lt_or_ge j s.requests.length with hlt' | hle'
      · obtain ⟨old', hold', hrw'⟩ := h.old hj hlt'
        exact hne (eq_of_sameId hs hold hold' (hrw.sameId.symm.trans (hid.trans hrw'.sameId)))
      · exact (h.new hj hle').2.2 old (mem_of_getElem? hold) (hrw.sameId.symm.trans hid)
    · rcases Nat.lt_or_ge j s.requests.length with hlt' | hle'
      · obtain ⟨old', hold', hrw'⟩ := h.old hj hlt'
        exact (h.new hi hle).2.2 old' (mem_of_getElem? hold') (hrw'.sameId.symm.trans hid.symm)
      · have hi' := (h.new hi hle).1
        have hj' := (h.new hj hle').1
        omega
  · intro row' hmem hcl hrg
    obtain ⟨i, hi⟩ := mem_iff_getElem?.1 hmem
    rcases Nat.lt_or_ge i s.requests.length with hlt | hle
    · obtain ⟨old, hold, hrw⟩ := h.old hi hlt
      rcases hrw.claimant with hsm | ⟨-, hrun, -⟩
      · rw [hsm] at hcl
        exact hs.claimed old (mem_of_getElem? hold) hcl (hrw.registered hrg)
      · rw [hrg] at hrun
        cases hrun
    · exact hcl (h.new hi hle).2.1

theorem RequestsChange.claimant (hs : Sound s) (hrow : s.requests[id]? = some row)
    (hcl : row.claimant = some other) :
    ∃ row', s'.requests[id]? = some row' ∧ row'.id = row.id ∧ row'.claimant = some other := by
  obtain ⟨row', hrow', hrw⟩ := h.kept id row hrow
  refine ⟨row', hrow', hrw.sameId, ?_⟩
  rcases hrw.claimant with hsm | ⟨hrg, -, -⟩
  · exact hsm.trans hcl
  · refine absurd hrg (hs.claimed row (mem_of_getElem? hrow) ?_)
    rw [hcl]
    nofun

end

/-- `_execute` has claimed the request and has not ended. -/
def Body.hasClaimed : Body → Bool
  | .noting => true
  | .acting => true
  | .waiting => true
  | .closing _ => true
  | _ => false

/-- `_execute` is past the call of the gateway, or ends without one. -/
def Body.isPast : Body → Bool
  | .waiting => true
  | .closing _ => true
  | .done _ => true
  | _ => false

def Caller.isBefore : Caller → Bool
  | .idle => true
  | .starting _ => true
  | .creating _ => true
  | _ => false

structure Executes (s : Shared) (who : Thread) (task : Task) : Prop where
  before : task.caller.isBefore = true → task.request = none
  unbegun : task.request = none → task.body = .before
  claimed : task.body.hasClaimed = true → ∃ id row, task.request = some id ∧ s.requests[id]? = some row ∧
    row.claimant = some who

theorem answerStep_isBefore (event : CallerEvent)
    (h : (answerStep operationId event s caller).2.isBefore = true) :
    caller.isBefore = true := by
  unfold answerStep at h
  split at h
  · rfl
  · rfl
  · rfl
  · split at h <;> cases h
  · cases h
  · split at h <;> cases h
  · cases h
  · unfold readRecord settle at h
    split at h
    · split at h
      · cases h
      · split_ifs at h <;> cases h
    · cases h
  · unfold check settle at h
    split_ifs at h
    · split at h
      · cases h
      · split_ifs at h <;> cases h
    · cases h
  · split_ifs at h <;> cases h
  · cases h
  · unfold resolve at h
    split at h
    · cases h
    · split_ifs at h <;> cases h
  · cases h
  · cases h
  · cases h
  · cases h
  · cases h
  · cases h
  · cases h
  · cases h
  · cases h
  · cases h
  · exact h

theorem proceed_isBefore (id : Nat) (phase : Panel.Phase) : (proceed id phase).isBefore = false := by
  unfold proceed
  split
  · rfl
  · rfl
  · split <;> rfl

theorem bodyStep_claimed {body : Body} (event : BodyEvent)
    (h : (bodyStep who event s id body).2.hasClaimed = true) : body.hasClaimed = true ∨
      ∃ row, (bodyStep who event s id body).1.requests[id]? = some row ∧ row.claimant = some who := by
  unfold bodyStep at h ⊢
  split at h
  · split at h
    · rename_i hrg
      right
      obtain ⟨row, hrow, hst⟩ := (Option.any_eq_true _ _).1 hrg
      rw [if_pos hrg]
      refine ⟨row.claimed who, ?_, ?_⟩
      · simp [Shared.setRequest, hrow]
      · unfold Request.claimed
        rw [if_pos (of_decide_eq_true hst)]
    · cases h
  · cases h
  · exact .inl rfl
  · cases h
  · exact .inl rfl
  · exact .inl rfl
  · cases h
  · cases h
  · exact .inl h

theorem Executes.of_kept {task' : Task} (h : Executes s who task) (hs : Sound s)
    (hch : RequestsChange other s s')
    (hbf : task'.caller.isBefore = true → task.caller.isBefore = true)
    (hrq : task'.request = task.request)
    (hbd : task'.body = task.body) : Executes s' who task' := by
  constructor
  · intro hca
    rw [hrq]
    exact h.before (hbf hca)
  · intro hnn
    rw [hbd]
    exact h.unbegun (hrq ▸ hnn)
  · intro hcl
    rw [hbd] at hcl
    obtain ⟨id, row, hid, hrow, hcm⟩ := h.claimed hcl
    obtain ⟨row', hrow', -, hcl'⟩ := hch.claimant hs hrow hcm
    exact ⟨id, row', hrq.trans hid, hrow', hcl'⟩

theorem executes_create {start : Start} (h : Executes s who task) (hs : Sound s)
    (hca : task.caller = .creating start) (now : Instant) :
    Executes (create s start now task).1 who (create s start now task).2 := by
  have hnn : task.request = none := h.before (by rw [hca]; rfl)
  have hbd := h.unbegun hnn
  unfold create
  split
  · have hsm : RequestsChange who s s := .of_eq rfl
    exact h.of_kept hs hsm (fun _ => by rw [hca]; rfl) rfl rfl
  · refine ⟨nofun, nofun, fun hcl => ?_⟩
    dsimp only at hcl
    rw [hbd] at hcl
    cases hcl

section

variable (h : Executes s who task) (hs : Sound s)
include h hs

theorem executes_callerStep (event : CallerEvent) :
    Executes (callerStep operationId event s task).1 who (callerStep operationId event s task).2 := by
  have hsm : RequestsChange who s s := .of_eq rfl
  unfold callerStep
  split
  · exact h.of_kept hs hsm nofun rfl rfl
  · rename_i start now hcl
    exact executes_create h hs hcl now
  · rename_i id hcl
    have hbf : (proceed id task.panel).isBefore = true → task.caller.isBefore = true := by
      intro hbf
      rw [proceed_isBefore] at hbf
      cases hbf
    exact h.of_kept hs hsm hbf rfl rfl
  · rename_i event _ _ _ _ _
    have hch : RequestsChange who s (answerStep operationId event s task.caller).1 := answerStep_change event
    exact h.of_kept hs hch (answerStep_isBefore _) rfl rfl

theorem executes_panelStep (event : Panel.Event) :
    Executes (panelStep who event s task).1 who (panelStep who event s task).2 := by
  have hsm : ∀ panel, RequestsChange who s { s with panel := panel } := fun _ => .of_eq rfl
  unfold panelStep
  dsimp only
  split
  · exact h
  · split
    · exact h.of_kept hs (hsm _) (fun h => h) rfl rfl
    · exact h
  · exact h.of_kept hs (hsm _) (fun h => h) rfl rfl

theorem executes_bodyStep (hrq : task.request = some id)
    (event : BodyEvent) : Executes (bodyStep who event s id task.body).1 who
      { task with body := (bodyStep who event s id task.body).2 } := by
  have hch : RequestsChange who s (bodyStep who event s id task.body).1 := bodyStep_change event
  refine ⟨h.before, fun hnn => ?_, fun hcd => ?_⟩
  · dsimp only at hnn
    rw [hrq] at hnn
    cases hnn
  · rcases bodyStep_claimed event hcd with hbf | ⟨row, hrow, hcl⟩
    · obtain ⟨id', row, hid, hrow, hcl⟩ := h.claimed hbf
      obtain ⟨row', hrow', -, hcl'⟩ := hch.claimant hs hrow hcl
      exact ⟨id', row', hid, hrow', hcl'⟩
    · exact ⟨id, row, hrq, hrow, hcl⟩

theorem executes_executeStep (event : BodyEvent) :
    Executes (executeStep who event s task).1 who (executeStep who event s task).2 := by
  unfold executeStep
  split
  · rename_i hrq _ _
    refine ⟨h.before, fun hnn => ?_, nofun⟩
    dsimp only at hnn
    rw [hrq] at hnn
    cases hnn
  · rename_i hrq _
    exact executes_bodyStep h hs hrq _
  · exact h

end

theorem keeps_executes : Crew.Keeps (act operationId) Sound Executes where
  own who event s task hs h := by
    refine ⟨act_change.sound hs, ?_⟩
    unfold act
    split
    · exact h
    · split
      · exact executes_callerStep h hs _
      · exact executes_panelStep h hs _
      · exact executes_executeStep h hs _
  others _ _ _ _ _ _ _ hs _ h' := h'.of_kept hs act_change (fun h => h) rfl rfl

def issuedCall (c : Tasks) (move : Thread × Event) : Option Text :=
  match c.shared.panel.lost move.1.process, move.2, (c.workers move.1).request, (c.workers move.1).body with
  | false, .body .issue, some id, .acting => c.shared.requests[id]?.map Request.id
  | _, _, _, _ => none

def Issued (c : Tasks) (requestId : Text) : Prop :=
  ∃ (id : Nat) (row : Request) (who : Thread), c.shared.requests[id]? = some row ∧ row.id = requestId ∧
    row.claimant = some who ∧ (c.workers who).body.isPast = true

theorem bodyStep_isPast {body : Body} (event : BodyEvent) (h : body.isPast = true) :
    (bodyStep who event s id body).2.isPast = true := by
  unfold bodyStep
  split
  · cases h
  · cases h
  · cases h
  · cases h
  · cases h
  · rfl
  · rfl
  · rfl
  · exact h

theorem act_isPast (h : task.body.isPast = true) :
    (act operationId who event s task).2.body.isPast = true := by
  unfold act
  split
  · exact h
  · split
    · unfold callerStep create
      split
      · exact h
      · split <;> exact h
      · exact h
      · exact h
    · unfold panelStep
      dsimp only
      split
      · exact h
      · split <;> exact h
      · exact h
    · unfold executeStep
      split
      · rename_i hbd
        rw [hbd] at h
        cases h
      · exact bodyStep_isPast _ h
      · exact h

theorem issuedCall_eq_some {move : Thread × Event} {requestId : Text}
    (h : issuedCall c move = some requestId) :
    ∃ (id : Nat) (row : Request), (c.workers move.1).request = some id ∧
      c.shared.requests[id]? = some row ∧
      row.id = requestId ∧ (c.workers move.1).body = .acting ∧
      ((c.step (act operationId) move).workers move.1).body.isPast = true := by
  obtain ⟨who, event⟩ := move
  unfold issuedCall at h
  split at h
  · rename_i id hlos hev hrq hbd
    dsimp only at hlos hev hrq hbd ⊢
    obtain ⟨row, hrow, hid⟩ := Option.map_eq_some_iff.1 h
    refine ⟨id, row, hrq, hrow, hid, hbd, ?_⟩
    rw [Crew.step_self, hev]
    unfold act
    rw [hlos]
    unfold executeStep
    simp [hrq, hbd, bodyStep, Body.isPast]
  · cases h

theorem Issued.step {requestId : Text} (hs : Sound c.shared) (h : Issued c requestId)
    (move : Thread × Event) :
    Issued (c.step (act operationId) move) requestId := by
  obtain ⟨who, event⟩ := move
  obtain ⟨id, row, claimant, hrow, hid, hcl, hps⟩ := h
  have hch : RequestsChange who c.shared (act operationId who event c.shared (c.workers who)).1 := act_change
  obtain ⟨row', hrow', hid', hcl'⟩ := hch.claimant hs hrow hcl
  refine ⟨id, row', claimant, hrow', hid'.trans hid, hcl', ?_⟩
  by_cases hwho : claimant = who
  · subst hwho
    rw [Crew.step_self]
    exact act_isPast hps
  · rw [Crew.step_other hwho]
    exact hps

theorem issuedCall_spends (h : c.Holds Sound Executes) {move : Thread × Event} {requestId : Text}
    (his : issuedCall c move = some requestId) :
    ¬ Issued c requestId ∧ Issued (c.step (act operationId) move) requestId := by
  obtain ⟨id, row, hrq, hrow, hid, hbd, hps⟩ := issuedCall_eq_some his
  obtain ⟨id', own, hrq', hown, hcl⟩ := (h.worker move.1).claimed (by rw [hbd]; rfl)
  cases hrq.symm.trans hrq'
  cases hrow.symm.trans hown
  constructor
  · rintro ⟨j, row', claimant, hrow', hid', hcl', hps'⟩
    cases eq_of_sameId h.shared hrow hrow' (hid.trans hid'.symm)
    cases hrow.symm.trans hrow'
    cases hcl.symm.trans hcl'
    rw [hbd] at hps'
    cases hps'
  · obtain ⟨who, event⟩ := move
    have hch : RequestsChange who c.shared (act operationId who event c.shared (c.workers who)).1 := act_change
    obtain ⟨row', hrow', hid', hcl'⟩ := hch.claimant h.shared hrow hcl
    exact ⟨id, row', who, hrow', hid'.trans hid, hcl', hps⟩

end WebOvpn.Workstations
