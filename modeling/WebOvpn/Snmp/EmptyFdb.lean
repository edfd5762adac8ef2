/-
When a forwarding database is reported empty, and that nothing of the store is cleared
when it is reported to have failed.
-/
import WebOvpn.Snmp.Law

namespace WebOvpn.Snmp

open Text List Option
open SwitchStore (SnmpOutcome SwitchFdbEntry Database Details Call Phase Event)

theorem rows_nil_of_indexedRows {answer : Answer} {base : Oid} {suffixLength : Nat}
    (h : indexedRows answer base suffixLength = some []) :
      answer.rows = [] ∧ ∃ rows, answer = .success rows := by
  obtain ⟨rows, han, hrs⟩ := bind_eq_some_iff.1 h
  cases answer with
  | failed => cases han
  | success given =>
    cases han
    refine ⟨?_, rows, rfl⟩
    change rows = []
    apply eq_nil_iff_forall_not_mem.2
    intro row hrow
    obtain ⟨entry, hen⟩ := isSome_iff_exists.1 ((Dict.foldlM_spec hrs nodup_nil).2.2 row hrow)
    unfold indexedEntry at hen
    split at hen
    · cases hen
    · rename_i suffix hsuf
      split at hen
      · rename_i hlen
        have hmem : (suffix, row) ∈ ([] : List (Oid × VarBind)) := by
          apply (Dict.mem_collect hrs _).2
          refine ⟨row, hrow, ?_⟩
          unfold indexedEntry
          rw [hsuf]
          exact if_pos hlen
        cases hmem
      · cases hen

theorem walkAs_empty {t : Transport} {oid base : Oid} {suffixLength : Nat} (capability : Text)
    (h : indexedRows (t.walk oid) base suffixLength = some []) :
      (t.walkAs oid capability).outcome = .successEmpty := by
  obtain ⟨hnil, rows, hrs⟩ := rows_nil_of_indexedRows h
  unfold Transport.walkAs
  rw [hrs] at hnil ⊢
  change rows = [] at hnil
  rw [hnil]
  rfl

theorem nil_of_sameKeys {κ β γ : Type} [DecidableEq κ] {rows : List (κ × β)}
    (h : sameKeys rows ([] : List (κ × γ)) = true) :
    rows = [] := by
  unfold sameKeys at h
  rw [Bool.and_eq_true, List.all_eq_true] at h
  apply eq_nil_iff_forall_not_mem.2
  intro row hrow
  have hnn := h.1 row.1 (List.mem_map_of_mem hrow)
  cases hnn

/-- The older table has no entries only if none of its walks has rows. -/
theorem legacy_empty {t : Transport} {profile : PortProfile} {tables : PortTables}
    (h : parseLegacyFdb profile tables (t.walk dot1dFdbAddress) (t.walk dot1dFdbPort)
      (t.walk dot1dFdbStatus) = some []) :
    ∀ result ∈ legacyResults t, result.outcome = .successEmpty := by
  unfold parseLegacyFdb at h
  obtain ⟨addresses, hadd, h⟩ := bind_eq_some_iff.1 h
  obtain ⟨portRows, hport, h⟩ := bind_eq_some_iff.1 h
  obtain ⟨statusRows, hstatus, h⟩ := bind_eq_some_iff.1 h
  obtain ⟨entries, hen, h⟩ := bind_eq_some_iff.1 h
  split at h
  · rename_i hji
    cases h
    obtain ⟨hnil, hsm⟩ := mapM_option hen
    have hsr : sortByIndex addresses = [] := by
      apply eq_nil_iff_forall_not_mem.2
      intro row hrow
      obtain ⟨entry, het⟩ := isSome_iff_exists.1 (hsm row hrow)
      have hmem : entry ∈ ([] : List SwitchFdbEntry) := hnil ▸ mem_filterMap.2 ⟨row, hrow, het⟩
      cases hmem
    have haddr : addresses = [] := by
      apply eq_nil_iff_forall_not_mem.2
      intro row hrow
      have hmem := QbridgeRows.mem_sortByIndex.2 hrow
      rw [hsr] at hmem
      cases hmem
    subst haddr
    rw [Bool.and_eq_true] at hji
    have hpr := nil_of_sameKeys hji.1
    have hst := nil_of_sameKeys hji.2
    subst hpr hst
    intro result hrs
    unfold legacyResults at hrs
    simp only [mem_cons, not_mem_nil, or_false] at hrs
    rcases hrs with rfl | rfl | rfl
    · exact walkAs_empty _ hadd
    · exact walkAs_empty _ hport
    · exact walkAs_empty _ hstatus
  · cases h

theorem legacy_successEmpty {t : Transport} {profile : PortProfile} {tables : PortTables}
    (h : (collectLegacyFdb t profile tables none).final.outcome = .successEmpty) :
    ∀ result ∈ legacyResults t, result.outcome = .successEmpty := by
  unfold collectLegacyFdb at h
  split at h
  · rename_i failure hfi
    exact absurd h (outcome_ne_of_not_isUsable (not_isUsable_of_failureOf hfi)).2
  · split at h
    · rename_i hall
      rw [List.all_eq_true] at hall
      intro result hrs
      exact of_decide_eq_true (hall result hrs)
    · split at h
      · cases h
      · rename_i hpr
        exact legacy_empty hpr
      · cases h

/-- The tables of a switch that were asked for addresses are seen to be empty: Q-BRIDGE,
or, where there is no Q-BRIDGE, all of the older table. -/
def SeenEmpty (t : Transport) : Prop :=
  (qbridgePort t).outcome = .successEmpty ∨
    ((qbridgePort t).outcome = .unsupportedNoSuchObject ∧ ∀ result ∈ legacyResults t,
      result.outcome = .successEmpty)

theorem seenEmpty_of_successEmpty {t : Transport} {profile : PortProfile} {tables : PortTables}
    (h : (collectFdb t profile tables).final.outcome = .successEmpty) : SeenEmpty t := by
  unfold collectFdb at h
  split at h
  · rename_i hot
    exact .inl hot
  · unfold collectQbridgeFdb at h
    split at h
    · split at h
      · split at h
        · cases h
        · rename_i rows _
          dsimp only at h
          cases hen : rows.entries profile tables with
          | _ => rw [hen] at h; cases h
      · rename_i hvl
        rw [Bool.or_eq_true, not_or] at hvl
        exact absurd h (outcome_ne_of_not_isUsable (Bool.eq_false_iff.2 hvl.1)).2
    · rename_i hst
      exact absurd h (outcome_ne_of_not_isUsable (Bool.eq_false_iff.2 hst)).2
  · rename_i hot
    exact .inr ⟨hot, legacy_successEmpty h⟩
  · rename_i hem hrs hun
    exact absurd h hem

def Snapshot.fdbOutcome (snapshot : Snapshot) : Option SnmpOutcome := snapshot.stored.outcome? "fdb"

section

variable {rt : Runtime} {t : Transport} {ground : Groundwork} (sound : ground.Sound)
include sound

theorem fdbOutcome_eq : (ground.snapshot rt t).fdbOutcome =
    some ((requiredFailure t.required).getD
      (collectFdb t ground.profile ground.tables).final).outcome := by
  obtain ⟨report⟩ := exists_report rt t sound
  have hmem : (requiredFailure t.required).getD (collectFdb t ground.profile ground.tables).final ∈
      (ground.snapshot rt t).capabilities := by
    have hset : (requiredFailure t.required).getD (collectFdb t ground.profile ground.tables).final ∈
        (settleFdb (requiredFailure t.required) (collectFdb t ground.profile ground.tables)).2 := by
      unfold settleFdb
      cases requiredFailure t.required with
      | some failure => simp
      | none =>
        dsimp only
        split
        · simp
        · simp
    unfold Groundwork.snapshot
    dsimp only
    simp only [mem_append]
    exact .inl (.inl (.inl (.inl (.inr hset))))
  have hnm : ((requiredFailure t.required).getD (collectFdb t ground.profile ground.tables).final).capability =
      "fdb" := by
    cases hrq : requiredFailure t.required with
    | some failure => exact (requiredFailure_outcome hrq).1
    | none => exact (settled_fdb t ground.profile ground.tables).capability
  unfold Snapshot.fdbOutcome
  rw [← hnm]
  exact report.outcome?_eq hmem

theorem seenEmpty_of_isReplacing {outcome : SnmpOutcome}
    (hot : (ground.snapshot rt t).fdbOutcome = some outcome)
    (hrp : outcome.isReplacing = true) (hfdb : (ground.snapshot rt t).fdb = []) :
    requiredFailure t.required = none ∧ SeenEmpty t := by
  rw [fdbOutcome_eq sound] at hot
  cases hot
  cases hrq : requiredFailure t.required with
  | some failure =>
    rw [hrq] at hrp
    obtain ⟨-, hrs, hem⟩ := requiredFailure_outcome hrq
    change failure.outcome.isReplacing = true at hrp
    cases hcs : failure.outcome with
    | successWithRows => exact absurd hcs hrs
    | successEmpty => exact absurd hcs hem
    | _ => rw [hcs] at hrp; cases hrp
  | none =>
    refine ⟨rfl, @seenEmpty_of_successEmpty _ ground.profile ground.tables ?_⟩
    rw [hrq] at hrp
    have hpr : (collectFdb t ground.profile ground.tables).fdb = [] := by
      change (settleFdb _ _).1 = [] at hfdb
      unfold settleFdb at hfdb
      rw [hrq] at hfdb
      dsimp only at hfdb
      split at hfdb
      · exact hfdb
      · exact hfdb
    have hrs : (collectFdb t ground.profile ground.tables).final.outcome ≠ .successWithRows := by
      intro heq
      exact (settled_fdb t ground.profile ground.tables).outcome.1 heq hpr
    change (collectFdb t ground.profile ground.tables).final.outcome.isReplacing = true at hrp
    cases hcs : (collectFdb t ground.profile ground.tables).final.outcome with
    | successWithRows => exact absurd hcs hrs
    | successEmpty => rfl
    | _ => rw [hcs] at hrp; cases hrp

end

/-- A walk of the forwarding database timed out, was refused or could not be read, or
the rows of Q-BRIDGE were malformed, together or each of them. -/
def FdbWalkFailed (t : Transport) (ground : Groundwork) : Prop :=
  (∃ result ∈ (collectFdb t ground.profile ground.tables).reported,
      result.outcome ∈ [SnmpOutcome.timeout, .authOrViewFailure, .parseError]) ∨
    ((qbridgePort t).outcome = .successWithRows ∧
      ∀ rows, t.qbridgeRows = some rows → rows.entries ground.profile ground.tables = [])

theorem not_walkFailed_of_legacy {t : Transport} {ground : Groundwork}
    (hpr : (qbridgePort t).outcome = .unsupportedNoSuchObject)
    (hlg : ∀ result ∈ legacyResults t, result.outcome = .successEmpty) : ¬FdbWalkFailed t ground := by
  rintro (⟨result, hrs, hfi⟩ | ⟨hro, -⟩)
  · have hnn : failureOf (legacyResults t) = none := by
      unfold failureOf
      rw [find?_eq_none]
      intro other hot
      unfold CapabilityResult.isUsable
      rw [hlg other hot]
      decide
    have hall : ((legacyResults t).all fun result => result.outcome = .successEmpty) = true :=
      List.all_eq_true.2 fun other hot => decide_eq_true (hlg other hot)
    unfold collectFdb at hrs
    rw [hpr] at hrs
    dsimp only [FdbPart.after] at hrs
    unfold collectLegacyFdb at hrs
    rw [hnn] at hrs
    dsimp only at hrs
    rw [if_pos hall] at hrs
    rcases mem_cons.1 hrs with rfl | hrs
    · rw [hpr] at hfi
      exact absurd hfi (by decide)
    · rw [hlg result hrs] at hfi
      exact absurd hfi (by decide)
  · rw [hpr] at hro
    cases hro

/-- What is left of a call once its driver has answered. -/
def Event.isClosing {δ : Type} : Event δ → Bool
  | .commit _ | .record _ | .crash => true
  | _ => false

section

variable {δ ρ : Type} (d : Details δ ρ)

def closeCall (state : Database ρ × Phase δ) (events : List (Event δ)) : Database ρ × Phase δ :=
  events.foldl (fun state event => SwitchStore.act d () event state.1 state.2) state

/-- No call in this phase changes the forwarding database. -/
def LeavesFdb : Phase δ → Prop
  | .saving _ _ _ fdbOutcome => fdbOutcome.isReplacing = false
  | .collecting .. => False
  | _ => True

variable {d} {db : Database ρ} {phase : Phase δ}

theorem finishRun_fdb {db' : Database ρ} {id source : Nat} {finish : SwitchStore.Run → SwitchStore.Run}
    (h : SwitchStore.finishRun db id source finish = some db') : db'.fdb = db.fdb := by
  unfold SwitchStore.finishRun at h
  split at h
  · cases h
  · split at h
    · cases h
      rfl
    · cases h

theorem finishCall_fdb {done : Option (Database ρ × SwitchStore.CollectResult)} {fails : Bool}
    {otherwise : Phase δ}
    (hdn : ∀ after result, done = some (after, result) → after.fdb = db.fdb)
    (hot : LeavesFdb otherwise) :
    (SwitchStore.finishCall db done fails otherwise).1.fdb = db.fdb ∧
      LeavesFdb (SwitchStore.finishCall db done fails otherwise).2 := by
  unfold SwitchStore.finishCall
  split
  · rename_i after result
    split
    · exact ⟨rfl, hot⟩
    · exact ⟨hdn after result rfl, trivial⟩
  · exact ⟨rfl, hot⟩

theorem act_leavesFdb {event : Event δ} (hev : Event.isClosing event = true) (hph : LeavesFdb phase) :
    (SwitchStore.act d () event db phase).1.fdb = db.fdb ∧
      LeavesFdb (SwitchStore.act d () event db phase).2 := by
  cases event with
  | crash => exact ⟨rfl, trivial⟩
  | commit fails =>
    cases phase with
    | collecting => exact hph.elim
    | saving run call snapshot fdbOutcome =>
      change SnmpOutcome.isReplacing fdbOutcome = false at hph
      refine @finishCall_fdb _ _ _ _ _ (.failing run call _) ?_ trivial
      intro after result hsv
      unfold SwitchStore.saveSnapshot at hsv
      rw [hph] at hsv
      obtain ⟨finished, hfn, heq⟩ := map_eq_some_iff.1 hsv
      cases heq
      exact finishRun_fdb hfn
    | _ => exact ⟨rfl, trivial⟩
  | record fails =>
    cases phase with
    | collecting => exact hph.elim
    | saving => exact ⟨rfl, hph⟩
    | failing run call failure =>
      have hdn : ∀ after result, SwitchStore.recordFailedRun db run call failure = some (after, result) →
          after.fdb = db.fdb := by
        intro after result hrc
        obtain ⟨finished, hfn, heq⟩ := map_eq_some_iff.1 hrc
        cases heq
        exact finishRun_fdb hfn
      dsimp only [SwitchStore.act]
      split
      · exact ⟨(@finishCall_fdb δ _ _ _ _ (.returned none) hdn trivial).1, trivial⟩
      · exact finishCall_fdb hdn trivial
    | _ => exact ⟨rfl, trivial⟩
  | _ => cases hev

theorem closeCall_fdb {events : List (Event δ)} (heve : ∀ event ∈ events, Event.isClosing event = true)
    (hph : LeavesFdb phase) : (closeCall d (db, phase) events).1.fdb = db.fdb := by
  induction events generalizing db phase with
  | nil => rfl
  | cons event events ih =>
    obtain ⟨hfdb, hnx⟩ := @act_leavesFdb _ _ d db _ _ (heve event mem_cons_self) hph
    exact (ih (fun other hot => heve other (mem_cons_of_mem event hot)) hnx).trans hfdb

theorem judge_leavesFdb {run : Nat} {call : Call} {snapshot : SwitchStore.SwitchSnapshot δ}
    {outcome : SnmpOutcome}
    (hot : snapshot.outcome? "fdb" = some outcome) (hfi : outcome.isReplacing = false) :
    LeavesFdb (SwitchStore.judge d run call (.snapshot snapshot)) := by
  unfold SwitchStore.judge
  dsimp only
  split
  · trivial
  · rename_i fdbOutcome hvl
    unfold SwitchStore.validate at hvl
    split at hvl
    · rw [hot] at hvl
      dsimp only at hvl
      split at hvl
      · cases hvl
        exact hfi
      · cases hvl
    · cases hvl

end

/-- Whatever the store holds, and however its transactions fare, the rest of a call with
this snapshot leaves the forwarding database. -/
def LeavesCurrent (snapshot : Snapshot) : Prop :=
  ∀ (ρ : Type) (save : Nat → Nat → SwitchStore.SwitchSnapshot Snapshot → Text → ρ → Option ρ) (db : Database ρ)
    (run : Nat) (call : Call) (events : List (Event Snapshot)),
    (∀ event ∈ events, Event.isClosing event = true) →
      (closeCall (storeDetails save)
        (db, SwitchStore.judge (storeDetails save) run call (.snapshot snapshot.stored))
        events).1.fdb = db.fdb

/-- An FDB is reported empty only when the walks that ran were answered; a walk that failed
and left no rows leaves the current table in place. -/
theorem empty_fdb_is_seen {rt : Runtime} {t : Transport} {hint : ProfileHint} {snapshot : Snapshot}
    (h : collectSwitchSnapshot rt t hint = some snapshot) : (snapshot.fdbOutcome = some .successEmpty →
        requiredFailure t.required = none ∧ snapshot.fdb = [] ∧ SeenEmpty t) ∧
      ∀ ground, groundwork rt t hint = some ground → FdbWalkFailed t ground →
        (qbridgePort t).outcome ≠ .successEmpty → snapshot.fdb = [] →
          ∃ outcome, snapshot.fdbOutcome = some outcome ∧ outcome.isReplacing = false ∧
            LeavesCurrent snapshot := by
  obtain ⟨ground, hgr, rfl⟩ := map_eq_some_iff.1 h
  have sound := groundwork_sound hgr
  constructor
  · intro hem
    obtain ⟨report⟩ := exists_report rt t sound
    have hfn : (ground.snapshot rt t).fdbOutcome = some report.final.outcome := by
      unfold Snapshot.fdbOutcome
      rw [← report.final_name]
      exact report.outcome?_eq report.final_mem
    have hfdb : (ground.snapshot rt t).fdb = [] := by
      by_contra hne
      rw [hfn, report.final_outcome.2 hne] at hem
      cases hem
    obtain ⟨hrq, hse⟩ := seenEmpty_of_isReplacing sound hem rfl hfdb
    exact ⟨hrq, hfdb, hse⟩
  · intro ground' hgr' hwl hpr hfdb
    rw [hgr] at hgr'
    cases hgr'
    have hot := @fdbOutcome_eq rt t _ sound
    have hfi : ((requiredFailure t.required).getD
        (collectFdb t ground.profile ground.tables).final).outcome.isReplacing = false := by
      by_contra hrp
      rw [Bool.not_eq_false] at hrp
      obtain ⟨-, hse⟩ := seenEmpty_of_isReplacing sound hot hrp hfdb
      rcases hse with hem | ⟨hun, hlg⟩
      · exact hpr hem
      · exact not_walkFailed_of_legacy hun hlg hwl
    refine ⟨_, hot, hfi, ?_⟩
    intro ρ save db run call events heve
    exact closeCall_fdb heve (judge_leavesFdb hot hfi)

/-- A switch without Q-BRIDGE rows whose older table does not answer in time. -/
def silentSwitch : Transport where
  get _ := .success []
  walk oid := if oid = dot1dFdbAddress then .failed .timeout "timeout" "SNMP request timed out" else .success []
  walk_bounded oid := by
    split
    · exact Nat.zero_le _
    · exact Nat.zero_le _

theorem silent_fdb : ((collectSwitchSnapshot asciiRuntime silentSwitch .absent).map fun snapshot =>
      (snapshot.fdb, snapshot.fdbOutcome, snapshot.stored.outcome? "legacy_address")) =
        some ([], some .successEmpty, some .timeout) := by
  decide +kernel

/-- The walk of the older table timed out, and the FDB is reported empty. -/
theorem timed_out_walk_reported_empty :
    ∃ snapshot, collectSwitchSnapshot asciiRuntime silentSwitch .absent = some snapshot ∧
      snapshot.stored.outcome? "legacy_address" = some .timeout ∧ snapshot.fdb = [] ∧
      snapshot.fdbOutcome = some .successEmpty := by
  obtain ⟨snapshot, hsn, heq⟩ := map_eq_some_iff.1 silent_fdb
  obtain ⟨hfdb, hrs⟩ := Prod.mk.inj heq
  obtain ⟨hem, htm⟩ := Prod.mk.inj hrs
  exact ⟨snapshot, hsn, htm, hfdb, hem⟩

/-- A switch whose Q-BRIDGE table does not answer in time. -/
def deafSwitch : Transport where
  get _ := .success []
  walk oid := if oid = dot1qFdbPort then .failed .timeout "timeout" "SNMP request timed out" else .success []
  walk_bounded oid := by
    split
    · exact Nat.zero_le _
    · exact Nat.zero_le _

theorem deaf_fdb :
    ((collectSwitchSnapshot asciiRuntime deafSwitch .absent).any fun snapshot =>
    snapshot.fdb = []) &&
    ((groundwork asciiRuntime deafSwitch .absent).all fun ground =>
      (collectFdb deafSwitch ground.profile ground.tables).reported.any fun result =>
        result.outcome = .timeout) := by
  decide +kernel

/-- An empty table of the first switch was seen, and no table is taken from the second one. -/
theorem empty_fdb_is_seen_of_silent :
    (∃ snapshot, collectSwitchSnapshot asciiRuntime silentSwitch .absent = some snapshot ∧
      requiredFailure silentSwitch.required = none ∧ snapshot.fdb = [] ∧ SeenEmpty silentSwitch) ∧
    ∃ snapshot outcome, collectSwitchSnapshot asciiRuntime deafSwitch .absent = some snapshot ∧
      snapshot.fdbOutcome = some outcome ∧ outcome.isReplacing = false ∧ LeavesCurrent snapshot := by
  constructor
  · obtain ⟨snapshot, hsn, heq⟩ := map_eq_some_iff.1 silent_fdb
    have hem := (Prod.mk.inj (Prod.mk.inj heq).2).1
    exact ⟨snapshot, hsn, (empty_fdb_is_seen hsn).1 hem⟩
  · obtain ⟨hcl, htm⟩ := Bool.and_eq_true_iff.1 deaf_fdb
    obtain ⟨snapshot, hsn, hfdb⟩ := (Option.any_eq_true _ _).1 hcl
    obtain ⟨ground, hgr, -⟩ := map_eq_some_iff.1 hsn
    rw [hgr, Option.all_some, List.any_eq_true] at htm
    obtain ⟨result, hrs, htm⟩ := htm
    have hwl : FdbWalkFailed deafSwitch ground :=
      .inl ⟨result, hrs, by rw [of_decide_eq_true htm]; exact mem_cons_self⟩
    obtain ⟨outcome, hot, hfi, hla⟩ :=
      (empty_fdb_is_seen hsn).2 ground hgr hwl (by decide) (of_decide_eq_true hfdb)
    exact ⟨snapshot, outcome, hsn, hot, hfi, hla⟩

end WebOvpn.Snmp
