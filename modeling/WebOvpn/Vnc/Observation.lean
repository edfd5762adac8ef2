/-
What an observation finds: it changes nothing, and what it returns is the
snapshot of the machine.
-/
import WebOvpn.Vnc.Apply

namespace WebOvpn.Vnc

open Op (Meets Stable)

variable {rt : Runtime} {request : Request} {p : Progress} {m : Machine} {α β : Type}

/-- The call is at this point; the answer of the next command is open. -/
def At (p : Progress) (s : State) : Prop := s.now = p

theorem stable_at (p : Progress) : Stable choose (At p) := fun _ _ h => h

section

variable {R : β → State → Prop} {E : Exc → State → Prop}

theorem read_bind {fault : Exc} {f : Machine → Except Exc α} {k : α → Step β}
    (hE : ∀ e s, At p s → E e s)
    (hk : ∀ a, f p.machine = .ok a → Meets (At p) (k a) R E) :
      Meets (At p) (read fault f >>= k) R E := by
  have hra : Meets (At p) (read fault f) (fun a s => At p s ∧ f p.machine = .ok a) E := by
    apply Op.meets_own_cases (stable_at p) (hE fault)
    · intro s a s' hs h
      cases hs
      obtain ⟨hf, rfl⟩ := Prod.mk.inj h
      exact ⟨rfl, hf⟩
    · intro s e s' hs h
      obtain ⟨-, rfl⟩ := Prod.mk.inj h
      exact hE e s hs
  apply hra.bind
  intro a
  exact Meets.assuming fun h => hk a h

theorem observe_bind {f : Machine → α} {k : Bool × α → Step β} (hE : ∀ e s, At p s → E e s)
    (hk : ∀ failed, Meets (At p) (k (failed, f p.machine)) R E) :
      Meets (At p) (observe f >>= k) R E := by
  have hobs : Meets (At p) (observe f) (fun answer s => At p s ∧ answer.2 = f p.machine) E := by
    apply Op.meets_own_cases (stable_at p) (hE _)
    · intro s a s' hs h
      cases hs
      split at h <;> cases h <;> exact ⟨rfl, rfl⟩
    · intro s e s' hs h
      split at h <;> cases h
      exact hE _ s hs
  apply hobs.bind
  rintro ⟨failed, a⟩
  apply Meets.assuming
  intro h
  cases h
  exact hk failed

theorem lift_bind {x : Except Exc α} {k : α → Step β} (hE : ∀ e s, At p s → E e s)
    (hk : ∀ a, x = .ok a → Meets (At p) (k a) R E) : Meets (At p) (Op.lift x >>= k) R E := by
  have hlif : Meets (At p) (Op.lift x : Step α) (fun a s => At p s ∧ x = .ok a) E :=
    Op.meets_lift (fun a s h hs => ⟨hs, h⟩) fun e s _ hs => hE e s hs
  apply hlif.bind
  intro a
  exact Meets.assuming fun h => hk a h

variable {k : Unit → Step β}

theorem raiseIf_bind {c : Prop} [Decidable c] {e : Exc} (hE : ∀ e s, At p s → E e s)
    (hk : ¬c → Meets (At p) (k ()) R E) : Meets (At p) (Op.raiseIf c e >>= k) R E := by
  have hrai : Meets (At p) (Op.raiseIf c e : Step Unit) (fun _ s => At p s ∧ ¬c) E :=
    Op.meets_raiseIf (fun s hc hs => ⟨hs, hc⟩) fun s _ hs => hE e s hs
  apply hrai.bind
  rintro ⟨⟩
  exact Meets.assuming hk

theorem write_bind {f : Machine → Except Exc Machine} (hE : ∀ e s, At p s → E e s)
    (hk : ∀ m', f p.machine = .ok m' → Meets (At { p with machine := m' }) (k ()) R E) :
    Meets (At p) (write f >>= k) R E := by
  have hwr : Meets (At p) (write f)
      (fun _ s => ∃ m', f p.machine = .ok m' ∧ At { p with machine := m' } s) E := by
    apply Op.meets_own_cases (stable_at p) (hE _)
    · intro s a s' hs h
      cases hs
      split at h
      · rename_i m' hm'
        cases h
        exact ⟨m', hm', rfl⟩
      · cases h
    · intro s e s' hs h
      split at h
      · cases h
      · cases h
        exact hE e s hs
  apply hwr.bind
  rintro ⟨⟩ s ⟨m', hm', hs⟩
  exact hk m' hm' s hs

theorem pass_meets (hE : ∀ e s, At p s → E e s) : Meets (At p) pass (fun _ => At p) E := by
  apply Op.meets_own_cases (stable_at p) (hE _)
  · intro s a s' hs h
    cases h
    exact hs
  · intro s e s' hs h
    cases h

theorem pass_bind (hE : ∀ e s, At p s → E e s) (hk : Meets (At p) (k ()) R E) :
    Meets (At p) (pass >>= k) R E :=
  (pass_meets hE).bind fun _ => hk

end

/-- What `_collect` returns when every command succeeds. -/
def snapshotOf (rt : Runtime) (request : Request) (m : Machine) : Except Exc Collected := do
  let target ← targetOf request.machineUuid request.hostname request.sourceSha256
  let boot ← checkMachine target m.productUuid m.bootId false m.hostname
  let service ← serviceOf false m.serviceShow
  let legacy ← inspectLegacy rt m.unitFile m.helperFile m.ruleset service
  let rows ← listenerRows false m.listeners
  let others ← othersOf rt m.ruleset
  let marker ← readMarker rt target.machineUuid m
  return ⟨safeOf rt target boot legacy rows others marker, m.ruleset, service⟩

variable {failed : Bool}

theorem checkMachine_ok {target : Target} {uuid boot hostname found : Text}
    (h : checkMachine target uuid boot failed hostname = .ok found) :
    checkMachine target uuid boot false hostname = .ok found := by
  cases failed with
  | false => exact h
  | true => simp [checkMachine] at h

theorem serviceOf_ok {output : Text} {service : Service} (h : serviceOf failed output = .ok service) :
    serviceOf false output = .ok service := by
  unfold serviceOf at h ⊢
  dsimp only at h ⊢
  split at h
  · cases h
  · rw [if_neg (by simp)]
    exact h

theorem listenerRows_ok {listeners : Text} {rows : List (List Text)}
    (h : listenerRows failed listeners = .ok rows) : listenerRows false listeners = .ok rows := by
  cases failed with
  | false => exact h
  | true => simp [listenerRows] at h

theorem collect_meets (p : Progress) : Meets (At p) (collect rt request)
    (fun collected s => At p s ∧ snapshotOf rt request p.machine = .ok collected) fun _ => At p := by
  have hE (e : Exc) (s : State) (h : At p s) : At p s := h
  unfold collect
  apply lift_bind hE
  intro target htg
  apply read_bind hE
  rintro _ ⟨⟩
  apply read_bind hE
  rintro _ ⟨⟩
  apply observe_bind hE
  intro failed
  apply lift_bind hE
  intro boot hboo
  apply observe_bind hE
  intro failed
  apply raiseIf_bind hE
  intro _
  apply observe_bind hE
  intro failed
  apply lift_bind hE
  intro service hser
  apply read_bind hE
  intro legacy hlg
  apply observe_bind hE
  intro failed
  apply lift_bind hE
  intro rows hrs
  apply lift_bind hE
  intro others hot
  apply read_bind hE
  intro marker hmr
  apply Op.meets_pure
  intro s hs
  refine ⟨hs, ?_⟩
  unfold snapshotOf
  dsimp only at hboo hser hlg hrs hot
  simp only [htg, checkMachine_ok hboo, serviceOf_ok hser, hlg, listenerRows_ok hrs, hot, hmr,
    bind, Except.bind, pure, Except.pure]

theorem collect_bind {k : Collected → Step β} {R : β → State → Prop} {E : Exc → State → Prop}
    (hE : ∀ e s, At p s → E e s)
    (hk : ∀ collected, snapshotOf rt request p.machine = .ok collected →
      Meets (At p) (k collected) R E) :
    Meets (At p) (collect rt request >>= k) R E := by
  have hcl := (@collect_meets rt request p).mono (fun _ h => h) (fun _ _ h => h) hE
  apply hcl.bind
  intro collected
  exact Meets.assuming fun h => hk collected h

theorem observePolicy_bind {k : Safe → Step β} {R : β → State → Prop} {E : Exc → State → Prop}
    (hE : ∀ e s, At p s → E e s)
    (hk : ∀ collected, snapshotOf rt request p.machine = .ok collected →
      Meets (At p) (k collected.safe) R E) :
    Meets (At p) (observePolicy rt request >>= k) R E := by
  have hobs : Meets (At p) (observePolicy rt request)
      (fun safe s => At p s ∧ ∃ collected, snapshotOf rt request p.machine = .ok collected ∧
        collected.safe = safe) E := by
    unfold observePolicy
    apply Meets.onError (E := fun _ => At p)
    · apply collect_bind fun _ _ h => h
      intro collected hcl
      exact Op.meets_pure fun s hs => ⟨hs, collected, hcl, rfl⟩
    · rintro (code | -)
      · exact Op.meets_raise fun s hs => hE _ s hs
      · exact Op.meets_raise fun s hs => hE _ s hs
  apply hobs.bind
  intro safe
  apply Meets.assuming
  rintro ⟨collected, hcl, rfl⟩
  exact hk collected hcl

structure Snapshot (rt : Runtime) (request : Request) (m : Machine) (target : Target)
    (collected : Collected)
    (rows : List (List Text)) (others : List JVal) (marker : Option Marker) : Prop where
  target_eq : targetOf request.machineUuid request.hostname request.sourceSha256 = .ok target
  service_eq : serviceOf false m.serviceShow = .ok collected.service
  legacy_eq : inspectLegacy rt m.unitFile m.helperFile m.ruleset collected.service = .ok collected.safe.legacy
  rows_eq : listenerRows false m.listeners = .ok rows
  others_eq : othersOf rt m.ruleset = .ok others
  marker_eq : readMarker rt target.machineUuid m = .ok marker
  document : collected.document = m.ruleset
  listenerPresent : collected.safe.listenerPresent = decide (rows ≠ [])
  external : collected.safe.externalPolicySha256 = digest rt (.arr others)
  markerSha256 : collected.safe.markerSha256 = marker.map Marker.digest
  ready : collected.safe.ready = isReady target collected.safe.legacy marker

theorem snapshot_of_ok {collected : Collected} (h : snapshotOf rt request m = .ok collected) :
    ∃ target rows others marker, Snapshot rt request m target collected rows others marker := by
  unfold snapshotOf at h
  obtain ⟨target, htg, h⟩ := bind_eq_ok.1 h
  obtain ⟨boot, -, h⟩ := bind_eq_ok.1 h
  obtain ⟨service, hser, h⟩ := bind_eq_ok.1 h
  obtain ⟨legacy, hlg, h⟩ := bind_eq_ok.1 h
  obtain ⟨rows, hrs, h⟩ := bind_eq_ok.1 h
  obtain ⟨others, hot, h⟩ := bind_eq_ok.1 h
  obtain ⟨marker, hmr, h⟩ := bind_eq_ok.1 h
  cases h
  exact ⟨target, rows, others, marker, htg, hser, hlg, hrs, hot, hmr, rfl, rfl, rfl, rfl, rfl⟩

end WebOvpn.Vnc
