/-
Calls of the adapter one after another.  They act on the list address by
address, so a sequence of calls of one operation comes down to iterated edits
of the rows at each address.
-/
import WebOvpn.Netops.Router

namespace WebOvpn.Netops

open Text List

variable {source key comment address : Text} {operation : Operation}
  {list list' : AddressList} {replies : List Reply} {requests : List Request}

/-- The calls one after another, up to the first that raises; whether all of
them returned, and the list they leave. -/
def callAll (source : Text) : List Reply → List Request → AddressList → Bool × AddressList
  | _, [], list => (true, list)
  | replies, request :: rest, list =>
    let outcome := adapterCall source (replies.headD .fine) request list
    match outcome.1 with
    | .error _ => (false, outcome.2.getD list)
    | .ok _ => callAll source replies.tail rest (outcome.2.getD list)

/-- The addresses whose calls take effect if no owner is in the way. -/
def reached : List Reply → List Text → List Text
  | _, [] => []
  | replies, address :: rest =>
    match replies.headD .fine with
    | .failsBefore => []
    | .failsAfter => [address]
    | .fine => address :: reached replies.tail rest

def Uniform (source : Text) (operation : Operation) (comment : Text) (requests : List Request) : Prop :=
  ∀ request ∈ requests, request.operation = operation ∧ checkRequest source request = .ok comment

variable {request : Request} {reply : Reply}

theorem adapterCall_of_error {e : NetError}
    (hrp : reply ≠ .failsBefore) (hch : checkRequest source request = .ok comment)
    (h : perform request.operation request.address comment list = .error e) :
    adapterCall source reply request list = (.error e, none) := by
  unfold adapterCall
  rw [if_neg hrp, hch]
  simp only [h]

variable {written : Option AddressList}

theorem adapterCall_of_ok
    (hrp : reply ≠ .failsBefore) (hch : checkRequest source request = .ok comment)
    (h : perform request.operation request.address comment list = .ok written) :
    adapterCall source reply request list =
      (if reply = .failsAfter then .error .device else .ok (), written) := by
  unfold adapterCall
  rw [if_neg hrp, hch]
  simp only [h]

theorem rowsAt_callAll (hun : Uniform source operation comment requests) (hown : ∀ request ∈ requests,
      Owned comment (rowsAt request.address (callAll source replies requests list).2)) (address : Text) :
    rowsAt address (callAll source replies requests list).2 =
      (performRows operation address
        comment)^[(reached replies (requests.map Request.address)).count address]
        (rowsAt address list) := by
  induction requests generalizing replies list with
  | nil => rfl
  | cons request rest ih =>
    obtain ⟨hop, hch⟩ := hun request mem_cons_self
    have hre : Uniform source operation comment rest := fun r hr =>
      hun r (mem_cons_of_mem request hr)
    by_cases hbf : replies.headD .fine = .failsBefore
    · have hcl : callAll source replies (request :: rest) list = (false, list) := by
        unfold callAll
        rw [hbf]
        rfl
      rw [hcl, map_cons, reached, hbf]
      rfl
    · cases hpr : perform request.operation request.address comment list with
      | error e =>
        -- a foreign owner is still there in the end
        have hcl : callAll source replies (request :: rest) list = (false, list) := by
          unfold callAll
          rw [adapterCall_of_error hbf hch hpr]
          rfl
        have hfs := hown request mem_cons_self
        rw [hcl] at hfs
        obtain ⟨written, hwr⟩ := perform_eq_ok_iff.2 hfs
        rw [hpr] at hwr
        cases hwr
      | ok written =>
        have hrs := rowsAt_perform hpr address
        by_cases haf : replies.headD .fine = .failsAfter
        · have hcl : callAll source replies (request :: rest) list = (false, written.getD list) := by
            unfold callAll
            rw [adapterCall_of_ok hbf hch hpr, if_pos haf]
          rw [hcl, map_cons, reached, haf, hrs, hop, count_singleton]
          split_ifs with hadd hcnt hcnt
          · rw [hadd]
            rfl
          · simp [hadd] at hcnt
          · simp only [beq_iff_eq] at hcnt
            exact absurd hcnt.symm hadd
          · rfl
        · have hfn : replies.headD .fine = .fine := by
            cases hrp : replies.headD .fine with
            | fine => rfl
            | failsBefore => exact absurd hrp hbf
            | failsAfter => exact absurd hrp haf
          have hcl : callAll source replies (request :: rest) list =
              callAll source replies.tail rest (written.getD list) := by
            rw [callAll, adapterCall_of_ok hbf hch hpr, if_neg haf]
          rw [hcl] at hown ⊢
          rw [ih hre fun r hr => hown r (mem_cons_of_mem request hr), map_cons, reached, hfn]
          simp only [count_cons, hrs, hop]
          split_ifs with hadd hcnt hcnt
          · rw [Function.iterate_succ_apply, hadd]
          · simp [hadd] at hcnt
          · simp only [beq_iff_eq] at hcnt
            exact absurd hcnt.symm hadd
          · rfl

theorem adapterCall_performs (h : (adapterCall source reply request list).1 = .ok () ∨
    (adapterCall source reply request list).2 ≠ none) :
    ∃ comment, checkRequest source request = .ok comment ∧
      perform request.operation request.address comment list =
        .ok (adapterCall source reply request list).2 := by
  unfold adapterCall at h ⊢
  by_cases hbf : reply = .failsBefore
  · simp [hbf] at h
  · rw [if_neg hbf] at h ⊢
    cases hch : checkRequest source request with
    | error e => simp [hch] at h
    | ok comment =>
      simp only [hch] at h ⊢
      refine ⟨comment, rfl, ?_⟩
      cases hpr : perform request.operation request.address comment list with
      | error e => simp [hpr] at h
      | ok found => rfl

theorem adapterCall_eq_ok (h : adapterCall source reply request list = (.ok (), written)) :
    ∃ comment, checkRequest source request = .ok comment ∧
      perform request.operation request.address comment list = .ok written := by
  simpa [h] using adapterCall_performs (.inl (congrArg Prod.fst h))

theorem adapterCall_written {written : AddressList}
    (h : (adapterCall source reply request list).2 = some written) :
    ∃ comment, checkRequest source request = .ok comment ∧
      perform request.operation request.address comment list = .ok (some written) := by
  rw [← h]
  exact adapterCall_performs (.inr (h ▸ Option.some_ne_none _))

theorem callAll_cons_eq_true (h : (callAll source replies (request :: requests) list).1 = true) :
    ∃ written, adapterCall source (replies.headD .fine) request list = (.ok (), written) ∧
      callAll source replies (request :: requests) list =
        callAll source replies.tail requests (written.getD list) := by
  rw [callAll] at h ⊢
  rcases hcl : adapterCall source (replies.headD .fine) request list with ⟨e | _, written⟩
  · rw [hcl] at h
    cases h
  · exact ⟨written, rfl, rfl⟩

theorem checkRequest_eq_ok (h : checkRequest source request = .ok comment) :
    comment = ownershipText request.policyKey request.assetKey := by
  unfold checkRequest ownershipComment at h
  split_ifs at h
  cases h
  rfl

theorem checkRequest_of_callAll (h : (callAll source replies requests list).1 = true) :
    ∀ request ∈ requests, ∃ comment, checkRequest source request = .ok comment := by
  induction requests generalizing replies list with
  | nil =>
    intro request hrq
    cases hrq
  | cons first rest ih =>
    obtain ⟨written, hcl, hti⟩ := callAll_cons_eq_true h
    obtain ⟨comment, hch, -⟩ := adapterCall_eq_ok hcl
    rw [hti] at h
    intro request hrq
    rcases mem_cons.1 hrq with rfl | hrq
    · exact ⟨comment, hch⟩
    · exact ih h request hrq

/-- Calls that all returned found no foreign owner, and each took effect. -/
theorem rowsAt_of_callAll (hun : Uniform source operation comment requests)
    (h : (callAll source replies requests list).1 = true) :
    (∀ request ∈ requests, Owned comment (rowsAt request.address list)) ∧
      ∀ address, rowsAt address (callAll source replies requests list).2 =
        (performRows operation address comment)^[(requests.map Request.address).count address]
          (rowsAt address list) := by
  induction requests generalizing replies list with
  | nil =>
    refine ⟨?_, fun _ => rfl⟩
    intro request hrq
    cases hrq
  | cons first rest ih =>
    obtain ⟨hop, hch⟩ := hun first mem_cons_self
    have hrs : Uniform source operation comment rest := fun r hr =>
      hun r (mem_cons_of_mem first hr)
    obtain ⟨written, hcl, hti⟩ := callAll_cons_eq_true h
    obtain ⟨comment', hch', hpr⟩ := adapterCall_eq_ok hcl
    rw [hch] at hch'
    cases hch'
    rw [hti] at h ⊢
    obtain ⟨hown, hro⟩ := ih hrs h
    have hfs : Owned comment (rowsAt first.address list) := perform_eq_ok_iff.1 ⟨written, hpr⟩
    constructor
    · intro request hrq
      rcases mem_cons.1 hrq with rfl | hrq
      · exact hfs
      · by_cases hsm : request.address = first.address
        · rw [hsm]
          exact hfs
        · have hkp := rowsAt_perform hpr request.address
          rw [if_neg hsm] at hkp
          rw [← hkp]
          exact hown request hrq
    · intro address
      rw [hro address, rowsAt_perform hpr address, hop]
      simp only [map_cons, count_cons]
      split_ifs with hadd hcnt hcnt
      · rw [Function.iterate_succ_apply, hadd]
      · simp [hadd] at hcnt
      · simp only [beq_iff_eq] at hcnt
        exact absurd hcnt.symm hadd
      · rfl

theorem remove_iterate (address comment : Text) (k : Nat) (rows : AddressList) :
    (performRows .remove address comment)^[k] rows = rows.drop k := by
  induction k generalizing rows with
  | zero => rfl
  | succ k ih =>
    rw [Function.iterate_succ_apply, ih]
    change rows.tail.drop k = rows.drop (k + 1)
    rw [drop_tail]

theorem ensure_iterate (address comment : Text) (k : Nat) (rows : AddressList) :
    (performRows .ensure address comment)^[k] rows =
      if k = 0 ∨ rows ≠ [] then rows else [newEntry address comment] := by
  have hfix : ∀ (k : Nat) (rows : AddressList), rows ≠ [] →
      (performRows .ensure address comment)^[k] rows = rows := by
    intro k rows hrs
    apply Function.iterate_fixed
    unfold performRows
    rw [if_neg (by simpa using hrs)]
  cases k with
  | zero => simp
  | succ k =>
    by_cases hrs : rows = []
    · subst hrs
      rw [Function.iterate_succ_apply]
      exact (hfix k _ (cons_ne_nil _ _)).trans (by simp)
    · rw [hfix _ _ hrs, if_pos (.inr hrs)]

/-- Adding and then removing gives back the rows exactly when there were none. -/
theorem undo_ensure_iff (address comment : Text) {k m : Nat} (hm : 0 < m) (rows : AddressList) :
    ((performRows .remove address comment)^[m]
        ((performRows .ensure address comment)^[k] rows)).Perm rows ↔ rows = [] := by
  rw [remove_iterate, ensure_iterate]
  constructor
  · intro h
    by_contra hrs
    rw [if_pos (.inr hrs)] at h
    have hlen := h.length_eq
    rw [length_drop] at hlen
    have hpos := length_pos_of_ne_nil hrs
    omega
  · rintro rfl
    split_ifs
    · simp
    · rw [drop_of_length_le (by simp only [length_singleton]; exact hm)]

/-- Removing and then adding gives back the rows exactly when there was one
just as it is added, or when there were some and none was removed. -/
theorem undo_remove_iff (address comment : Text) {k m : Nat} (hm : 0 < m) (rows : AddressList) :
    ((performRows .ensure address comment)^[m]
      ((performRows .remove address comment)^[k] rows)).Perm rows ↔
      if k = 0 then rows ≠ [] else rows = [newEntry address comment] := by
  rw [remove_iterate, ensure_iterate]
  by_cases hk : k = 0
  · subst hk
    rw [if_pos rfl, drop_zero]
    by_cases hrs : rows = []
    · subst hrs
      simp [hm.ne']
    · simp [hrs]
  · rw [if_neg hk]
    by_cases hdr : rows.drop k = []
    · rw [if_neg (by simp [hm.ne', hdr])]
      constructor
      · intro h
        exact perm_singleton.1 h.symm
      · rintro rfl
        exact Perm.refl _
    · rw [if_pos (.inr hdr)]
      have hln : k < rows.length := by
        by_contra hsh
        exact hdr (drop_eq_nil_of_le (by omega))
      constructor
      · intro h
        have hlen := h.length_eq
        rw [length_drop] at hlen
        omega
      · rintro rfl
        simp at hln
        omega

end WebOvpn.Netops
