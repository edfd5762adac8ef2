/-
What a collection stores: the rows of the families whose queries succeeded, as
long as the outcomes name them as the snapshot does.
-/
import WebOvpn.Lib.Run
import WebOvpn.Netctl.PathFacts

namespace WebOvpn.PathFacts

open List

variable {db db' : Database} {source other run : Nat} {answers : Answers} {observedAt : Text}
    {snapshot : Snapshot}
  {stored stored' rows : List Stored} {family : Family} {families : List Family} {keys failed : List Key}

theorem get?_filter_map {entries : List (Key × Key)} (hnd : (entries.map Prod.snd).Nodup)
    {key outcomeKey : Key}
    (hmem : (key, outcomeKey) ∈ entries) {keeps : Key × Key → Bool} {outcome : Key × Key → Outcome} :
    Outcomes.get? ((entries.filter keeps).map fun entry => (entry.2, outcome entry)) outcomeKey =
      if keeps (key, outcomeKey) then some (outcome (key, outcomeKey)) else none := by
  induction entries with
  | nil => cases hmem
  | cons first rest ih =>
    obtain ⟨hfs, hrs⟩ := nodup_cons.1 hnd
    rcases mem_cons.1 hmem with rfl | hlt
    · have hnn : Outcomes.get? ((rest.filter keeps).map fun entry => (entry.2, outcome entry))
        outcomeKey = none := by
        unfold Outcomes.get?
        rw [Option.map_eq_none_iff, find?_eq_none]
        intro entry hen hkey
        obtain ⟨entry', hen', rfl⟩ := mem_map.1 hen
        apply hfs
        exact mem_map.2 ⟨entry', mem_of_mem_filter hen', of_decide_eq_true hkey⟩
      cases hke : keeps (key, outcomeKey) with
      | true =>
        rw [filter_cons_of_pos hke, if_pos rfl]
        unfold Outcomes.get?
        rw [map_cons, find?_cons, decide_eq_true rfl]
        rfl
      | false =>
        rw [filter_cons_of_neg (by rw [hke]; exact Bool.false_ne_true), if_neg Bool.false_ne_true]
        exact hnn
    · have hne : first.2 ≠ outcomeKey := fun heq => hfs (mem_map.2 ⟨_, hlt, heq.symm⟩)
      cases hke : keeps first with
      | true =>
        rw [filter_cons_of_pos hke, ← ih hrs hlt]
        unfold Outcomes.get?
        rw [map_cons, find?_cons, decide_eq_false hne]
      | false =>
        rw [filter_cons_of_neg (by rw [hke]; exact Bool.false_ne_true)]
        exact ih hrs hlt

theorem mem_pathFactOutcomeKeys (family : Family) :
    (family.rawKey, family.outcomeKey) ∈ pathFactOutcomeKeys := by
  cases family <;> decide

theorem mem_failedKeys (family : Family) : family.rawKey ∈ failedKeys answers ↔
    answers family.rawKey = none := by
  have hpt : family.rawKey ∈ collectPaths ∧ family.rawKey ∈ pathFactKeys := by cases family <;> decide
  unfold failedKeys
  rw [mem_filter, decide_eq_true_eq]
  exact ⟨fun h => h.2.1, fun h => ⟨hpt.1, h, hpt.2⟩⟩

/-- A family whose query failed has that outcome; one whose rows are there is a
success only if the snapshot has its raw key. -/
theorem get?_pathFactOutcomes (family : Family) :
    (pathFactOutcomes snapshotKeys (failedKeys answers)).get? family.outcomeKey =
      if answers family.rawKey = none then some .failed
      else if family = .routingRules then none else some .success := by
  have hnd : (pathFactOutcomeKeys.map Prod.snd).Nodup := by decide
  unfold pathFactOutcomes
  rw [get?_filter_map hnd (mem_pathFactOutcomeKeys family)]
  dsimp only
  by_cases hfi : answers family.rawKey = none
  · rw [if_pos hfi, decide_eq_true (.inr ((mem_failedKeys family).2 hfi)), if_pos rfl,
      if_pos ((mem_failedKeys family).2 hfi)]
  · have hnot : family.rawKey ∉ failedKeys answers := fun h => hfi ((mem_failedKeys family).1 h)
    rw [if_neg hfi, if_neg hnot]
    by_cases hru : family = .routingRules
    · subst hru
      rw [if_pos rfl, if_neg]
      rw [decide_eq_true_eq]
      rintro (hmem | hmem)
      · exact absurd hmem (by decide)
      · exact hnot hmem
    · have hmem : family.rawKey ∈ snapshotKeys := by
        cases family with
        | routingRules => exact absurd rfl hru
        | _ => decide
      rw [if_neg hru, decide_eq_true (.inl hmem), if_pos rfl]

theorem mem_pathFactOutcomes {entry : Key × Outcome}
    (h : entry ∈ pathFactOutcomes snapshotKeys (failedKeys answers)) :
    ∃ family : Family, (pathFactOutcomes snapshotKeys (failedKeys answers)).get? family.outcomeKey =
      some entry.2 := by
  obtain ⟨key, hkey, rfl⟩ := mem_map.1 h
  obtain ⟨hmem, hkp⟩ := mem_filter.1 hkey
  have hfam : ∃ family : Family, key = (family.rawKey, family.outcomeKey) := by
    unfold pathFactOutcomeKeys at hmem
    simp only [mem_cons, not_mem_nil, or_false] at hmem
    rcases hmem with rfl | rfl | rfl | rfl | rfl | rfl
    · exact ⟨.routingRules, rfl⟩
    · exact ⟨.addressLists, rfl⟩
    · exact ⟨.filterRules, rfl⟩
    · exact ⟨.natRules, rfl⟩
    · exact ⟨.mangleRules, rfl⟩
    · exact ⟨.ipsecPolicies, rfl⟩
  obtain ⟨family, rfl⟩ := hfam
  have hnd : (pathFactOutcomeKeys.map Prod.snd).Nodup := by decide
  refine ⟨family, ?_⟩
  unfold pathFactOutcomes
  rw [get?_filter_map hnd (mem_pathFactOutcomeKeys family), if_pos hkp]

theorem get?_mem {outcomes : Outcomes} {key : Key} {outcome : Outcome}
    (h : outcomes.get? key = some outcome) :
    (key, outcome) ∈ outcomes := by
  unfold Outcomes.get? at h
  obtain ⟨entry, hen, rfl⟩ := Option.map_eq_some_iff.1 h
  have hkey : entry.1 = key := of_decide_eq_true (find?_some hen :)
  rw [← hkey]
  exact mem_of_find?_eq_some hen

theorem runStatus_eq_success :
    runStatus (pathFactOutcomes snapshotKeys (failedKeys answers)) = .success ↔
    ∀ family : Family, answers family.rawKey ≠ none := by
  have hst : runStatus (pathFactOutcomes snapshotKeys (failedKeys answers)) = .success ↔
      pathFactOutcomes snapshotKeys (failedKeys answers) ≠ [] ∧
        ∀ entry ∈ pathFactOutcomes snapshotKeys (failedKeys answers), entry.2 = .success := by
    unfold runStatus
    split_ifs with hall hany
    · exact ⟨fun _ => ⟨hall.1, fun entry hen => by simpa using all_eq_true.1 hall.2 entry hen⟩, fun _ => rfl⟩
    · exact ⟨nofun, fun h => absurd ⟨h.1, all_eq_true.2 fun entry hen => decide_eq_true (h.2 entry hen)⟩ hall⟩
    · exact ⟨nofun, fun h => absurd ⟨h.1, all_eq_true.2 fun entry hen => decide_eq_true (h.2 entry hen)⟩ hall⟩
  rw [hst]
  constructor
  · rintro ⟨-, hall⟩ family hfi
    have hget : (pathFactOutcomes snapshotKeys (failedKeys answers)).get? family.outcomeKey = _ :=
      get?_pathFactOutcomes family
    rw [if_pos hfi] at hget
    cases hall _ (get?_mem hget)
  · intro hnn
    refine ⟨fun hem => ?_, fun entry hen => ?_⟩
    · have hget : (pathFactOutcomes snapshotKeys (failedKeys answers)).get? Key.firewallFilterRules = _ :=
        get?_pathFactOutcomes .filterRules
      rw [if_neg (hnn _), if_neg nofun, hem] at hget
      cases hget
    · obtain ⟨family, hfam⟩ := mem_pathFactOutcomes hen
      rw [get?_pathFactOutcomes, if_neg (hnn family)] at hfam
      split_ifs at hfam
      exact (Option.some.inj hfam).symm

def Stored.primary (row : Stored) : Family × Nat × Text := (row.family, row.source, row.ruleKey)

theorem insertAll_eq_some : insertAll stored rows = some stored' ↔
    stored' = stored ++ rows ∧ (rows.map Stored.primary).Nodup ∧ ∀ row ∈ rows,
      row.primary ∉ stored.map Stored.primary := by
  induction rows generalizing stored with
  | nil =>
    unfold insertAll
    rw [append_nil, Option.some_inj]
    exact ⟨fun h => ⟨h.symm, nodup_nil, nofun⟩, fun h => h.1.symm⟩
  | cons row rest ih =>
    have hany : (stored.any fun old => old.family = row.family ∧ old.source = row.source ∧
      old.ruleKey = row.ruleKey) = true ↔
        row.primary ∈ stored.map Stored.primary := by
      simp [Stored.primary]
    unfold insertAll
    by_cases hold : row.primary ∈ stored.map Stored.primary
    · rw [if_pos (hany.2 hold)]
      exact ⟨nofun, fun h => absurd hold (h.2.2 row mem_cons_self)⟩
    · rw [if_neg fun h => hold (hany.1 h), ih, append_assoc, singleton_append, map_cons, nodup_cons]
      constructor
      · rintro ⟨rfl, hnd, hfr⟩
        have hrow : row.primary ∉ rest.map Stored.primary := by
          intro hmem
          obtain ⟨later, hlt, hsm⟩ := mem_map.1 hmem
          exact hfr later hlt (mem_map.2 ⟨row, by simp, hsm.symm⟩)
        refine ⟨rfl, ⟨hrow, hnd⟩, fun later hlt => ?_⟩
        rcases mem_cons.1 hlt with rfl | hmem
        · exact hold
        · intro hmem'
          apply hfr later hmem
          rw [map_append]
          exact mem_append_left _ hmem'
      · rintro ⟨rfl, ⟨hrow, hnd⟩, hfr⟩
        refine ⟨rfl, hnd, fun later hlt => ?_⟩
        rw [map_append, mem_append]
        rintro (hmem | hmem)
        · exact hfr later (mem_cons_of_mem row hlt) hmem
        · have hsm : later.primary = row.primary := mem_singleton.1 hmem
          exact hrow (hsm ▸ mem_map_of_mem hlt)

def rowsIn (stored : List Stored) (family : Family) (source : Nat) : List Stored :=
  stored.filter fun row => row.family = family ∧ row.source = source

theorem rowsIn_append :
    rowsIn (stored ++ rows) family source = rowsIn stored family source ++
    rowsIn rows family source :=
  filter_append ..

def inserted (source run : Nat) (snapshot : Snapshot) (observedAt : Text) (family : Family) :
    List Stored :=
  (snapshot.rows family).zipIdx.map (storedRow family source run observedAt)

theorem of_mem_inserted {row : Stored} (h : row ∈ inserted source run snapshot observedAt family) :
    row.family = family ∧ row.source = source := by
  obtain ⟨entry, -, rfl⟩ := mem_map.1 h
  exact ⟨rfl, rfl⟩

theorem rowsIn_remove_self :
    rowsIn (stored.filter fun row => ¬(row.family = family ∧ row.source = source)) family source =
    [] := by
  unfold rowsIn
  rw [filter_filter, filter_eq_nil_iff]
  simp

theorem rowsIn_remove_ne {family' : Family} (h : ¬(family' = family ∧ other = source)) :
    rowsIn (stored.filter fun row => ¬(row.family = family ∧ row.source = source)) family' other =
      rowsIn stored family' other := by
  unfold rowsIn
  rw [filter_filter]
  apply filter_congr
  intro row _
  by_cases hrow : row.family = family' ∧ row.source = other
  · obtain ⟨rfl, rfl⟩ := hrow
    simp [h]
  · simp [hrow]

theorem rowsIn_inserted_self : rowsIn (inserted source run snapshot observedAt family) family source =
    inserted source run snapshot observedAt family :=
  filter_eq_self.2 fun _ hrow => decide_eq_true (of_mem_inserted hrow)

theorem rowsIn_inserted_ne {family' : Family} (h : ¬(family' = family ∧ other = source)) :
    rowsIn (inserted source run snapshot observedAt family) family' other = [] :=
  filter_eq_nil_iff.2 fun row hrow hsm => by
    obtain ⟨hfam, hsrc⟩ := of_mem_inserted hrow
    obtain ⟨hfam', hsrc'⟩ := of_decide_eq_true hsm
    exact h ⟨hfam'.symm.trans hfam, hsrc'.symm.trans hsrc⟩

def ruleKeys (facts : List Fact) : List Text :=
  facts.zipIdx.map fun entry => if entry.1.key = [] then natText entry.2 else entry.1.key

def Succeeds (snapshot : Snapshot) (family : Family) : Prop :=
  snapshot.outcomes.get? family.outcomeKey = some .success

structure Saves (source run : Nat) (snapshot : Snapshot) (observedAt : Text) (families : List Family)
    (stored stored' : List Stored) : Prop where
  inserted : ∀ family ∈ families, Succeeds snapshot family →
    rowsIn stored' family source = inserted source run snapshot observedAt family
  kept : ∀ family ∈ families, ¬ Succeeds snapshot family →
    rowsIn stored' family source = rowsIn stored family source
  others : ∀ family other, ¬(family ∈ families ∧ other = source) →
    rowsIn stored' family other = rowsIn stored family other

theorem nodup_primary : ((inserted source run snapshot observedAt family).map Stored.primary).Nodup ↔
    (ruleKeys (snapshot.rows family)).Nodup := by
  have hpr : (inserted source run snapshot observedAt family).map Stored.primary =
      (ruleKeys (snapshot.rows family)).map fun key => (family, source, key) := by
    unfold inserted ruleKeys
    rw [map_map, map_map]
    rfl
  rw [hpr]
  constructor
  · exact Nodup.of_map _
  · exact Nodup.map fun a b h => (Prod.mk.inj (Prod.mk.inj h).2).2

theorem saveFamily_isSome : (saveFamily source run snapshot observedAt stored family).isSome = true ↔
    (Succeeds snapshot family → (ruleKeys (snapshot.rows family)).Nodup) := by
  unfold saveFamily
  by_cases hsc : snapshot.outcomes.get? family.outcomeKey = some .success
  · rw [if_pos hsc, Option.isSome_iff_exists]
    constructor
    · rintro ⟨stored', hst'⟩ -
      exact nodup_primary.1 (insertAll_eq_some.1 hst').2.1
    · intro hks
      refine ⟨_, insertAll_eq_some.2 ⟨rfl, nodup_primary.2 (hks hsc), fun row hrow hmem => ?_⟩⟩
      obtain ⟨old, hold, hsm⟩ := mem_map.1 hmem
      obtain ⟨hfam, hsrc⟩ := of_mem_inserted hrow
      have hkp := (mem_filter.1 hold).2
      have hold' : old.family = row.family ∧ old.source = row.source :=
        ⟨(Prod.mk.inj hsm).1, (Prod.mk.inj (Prod.mk.inj hsm).2).1⟩
      exact of_decide_eq_true hkp ⟨hold'.1.trans hfam, hold'.2.trans hsrc⟩
  · rw [if_neg hsc]
    exact ⟨fun _ h => absurd h hsc, fun _ => rfl⟩

theorem saveFamily_saves (h : saveFamily source run snapshot observedAt stored family = some stored') :
    Saves source run snapshot observedAt [family] stored stored' := by
  unfold saveFamily at h
  by_cases hsc : snapshot.outcomes.get? family.outcomeKey = some .success
  · rw [if_pos hsc] at h
    obtain ⟨rfl, -⟩ := insertAll_eq_some.1 h
    constructor
    · intro family' hmem _
      rw [mem_singleton.1 hmem]
      change rowsIn (_ ++ PathFacts.inserted source run snapshot observedAt family) family source = _
      rw [rowsIn_append, rowsIn_remove_self, rowsIn_inserted_self, nil_append]
    · intro family' hmem hfl
      rw [mem_singleton.1 hmem] at hfl
      exact absurd hsc hfl
    · intro family' other hne
      have hne' : ¬(family' = family ∧ other = source) := fun h => hne ⟨mem_singleton.2 h.1, h.2⟩
      change rowsIn (_ ++ PathFacts.inserted source run snapshot observedAt family) family' other = _
      rw [rowsIn_append, rowsIn_remove_ne hne', rowsIn_inserted_ne hne', append_nil]
  · rw [if_neg hsc] at h
    cases h
    exact ⟨fun family' hmem h => absurd (mem_singleton.1 hmem ▸ h) hsc, fun _ _ _ => rfl, fun _ _ _ => rfl⟩

theorem saveFamilies_saves (hnd : families.Nodup)
    (h : families.foldlM (saveFamily source run snapshot observedAt) stored = some stored') :
    Saves source run snapshot observedAt families stored stored' := by
  induction families generalizing stored with
  | nil =>
    cases h
    exact ⟨nofun, nofun, fun _ _ _ => rfl⟩
  | cons first rest ih =>
    obtain ⟨hfs, hrs⟩ := nodup_cons.1 hnd
    rw [foldlM_cons] at h
    obtain ⟨middle, hmid, hrs'⟩ := Option.bind_eq_some_iff.1 h
    have hsv := saveFamily_saves hmid
    have hlt := ih hrs hrs'
    constructor
    · intro family hmem hsc
      rcases mem_cons.1 hmem with rfl | hin
      · rw [hlt.others family source fun h => hfs h.1]
        exact hsv.inserted family (mem_singleton.2 rfl) hsc
      · exact hlt.inserted family hin hsc
    · intro family hmem hfl
      rcases mem_cons.1 hmem with rfl | hin
      · rw [hlt.others family source fun h => hfs h.1]
        exact hsv.kept family (mem_singleton.2 rfl) hfl
      · rw [hlt.kept family hin hfl]
        exact hsv.others family source fun h => hfs (mem_singleton.1 h.1 ▸ hin)
    · intro family other hne
      rw [hlt.others family other fun h => hne ⟨mem_cons_of_mem first h.1, h.2⟩]
      exact hsv.others family other fun h => hne ⟨mem_singleton.1 h.1 ▸ mem_cons_self, h.2⟩

theorem saveFamilies_isSome :
    (families.foldlM (saveFamily source run snapshot observedAt) stored).isSome = true ↔
    ∀ family ∈ families, Succeeds snapshot family → (ruleKeys (snapshot.rows family)).Nodup := by
  induction families generalizing stored with
  | nil => exact ⟨fun _ => nofun, fun _ => rfl⟩
  | cons first rest ih =>
    have hha : (saveFamily source run snapshot observedAt stored first).isSome = true ↔ _ := saveFamily_isSome
    rw [foldlM_cons, forall_mem_cons, ← hha]
    cases hfs : saveFamily source run snapshot observedAt stored first with
    | none => exact ⟨nofun, fun h => nomatch h.1⟩
    | some middle =>
      have hrs : ((rest.foldlM (saveFamily source run snapshot observedAt) middle).isSome = true ↔ _) := ih
      change (rest.foldlM (saveFamily source run snapshot observedAt) middle).isSome = true ↔ _
      rw [hrs]
      exact ⟨fun h => ⟨rfl, h⟩, fun h => h.2⟩

def Collects (answers : Answers) : Prop := ∀ key ∈ collectPaths, key ∉ pathFactKeys → answers key ≠ none

def collectedRows (family : Family) (source run : Nat) (observedAt : Text) (rows : List Row) :
    List Stored :=
  (rows.map family.normalize).zipIdx.map (storedRow family source run observedAt)

def Unambiguous (answers : Answers) : Prop :=
  ∀ family : Family, family ≠ .routingRules → ∀ rows, answers family.rawKey = some rows →
    (ruleKeys (rows.map family.normalize)).Nodup

theorem collect_isSome : (collect answers).isSome = true ↔ Collects answers := by
  unfold collect Collects
  constructor
  · intro h key hkey hfc hfi
    rw [if_pos] at h
    · cases h
    · exact any_eq_true.2 ⟨key, hkey, decide_eq_true ⟨hfi, hfc⟩⟩
  · intro h
    rw [if_neg]
    · rfl
    · intro hany
      obtain ⟨key, hkey, hfi⟩ := any_eq_true.1 hany
      exact h key hkey (of_decide_eq_true hfi).2 (of_decide_eq_true hfi).1

theorem collect_eq_some (h : collect answers = some snapshot) :
    snapshot.outcomes = pathFactOutcomes snapshotKeys (failedKeys answers) ∧
      ∀ family, snapshot.rows family = ((answers family.rawKey).getD []).map family.normalize := by
  unfold collect at h
  split_ifs at h
  cases h
  exact ⟨rfl, fun _ => rfl⟩

theorem succeeds_iff (h : collect answers = some snapshot) :
    Succeeds snapshot family ↔ answers family.rawKey ≠ none ∧ family ≠ .routingRules := by
  unfold Succeeds
  rw [(collect_eq_some h).1, get?_pathFactOutcomes]
  by_cases hfi : answers family.rawKey = none
  · rw [if_pos hfi]
    exact ⟨nofun, fun hsm => absurd hfi hsm.1⟩
  · by_cases hru : family = .routingRules
    · rw [if_neg hfi, if_pos hru]
      exact ⟨nofun, fun hsm => absurd hru hsm.2⟩
    · rw [if_neg hfi, if_neg hru]
      exact ⟨fun _ => ⟨hfi, hru⟩, fun _ => rfl⟩

theorem mem_all (family : Family) : family ∈ Family.all := by cases family <;> decide

theorem savePathFacts_eq_some (h : savePathFacts db source snapshot observedAt = some db') :
    Saves source db.runs.length snapshot observedAt Family.all db.stored db'.stored ∧
      db'.runs = db.runs ++
        [⟨source, observedAt, observedAt, runStatus snapshot.outcomes, snapshot.outcomes⟩] := by
  unfold savePathFacts at h
  obtain ⟨stored, hst, rfl⟩ := Option.map_eq_some_iff.1 h
  have hnd : Family.all.Nodup := by decide
  exact ⟨saveFamilies_saves hnd hst, rfl⟩

theorem collectAndSave_isSome :
    (collectAndSave db source answers observedAt).isSome = true ↔ Collects answers ∧
      Unambiguous answers := by
  unfold collectAndSave
  cases hcl : collect answers with
  | none =>
    rw [← collect_isSome, hcl]
    exact ⟨nofun, fun h => nomatch h.1⟩
  | some snapshot =>
    have hcolle : Collects answers := collect_isSome.1 (by rw [hcl]; rfl)
    rw [Option.bind_some]
    unfold savePathFacts
    rw [Option.isSome_map, saveFamilies_isSome]
    constructor
    · intro h
      refine ⟨hcolle, fun family hru rows hrs => ?_⟩
      have hks := h family (mem_all family)
        ((succeeds_iff hcl).2 ⟨by rw [hrs]; exact Option.some_ne_none _, hru⟩)
      rw [(collect_eq_some hcl).2, hrs] at hks
      exact hks
    · rintro ⟨-, hks⟩ family - hsc
      obtain ⟨han, hru⟩ := (succeeds_iff hcl).1 hsc
      obtain ⟨rows, hrs⟩ := Option.ne_none_iff_exists'.1 han
      rw [(collect_eq_some hcl).2, hrs]
      exact hks family hru rows hrs

structure Flows (db db' : Database) (source : Nat) (answers : Answers) (observedAt : Text) : Prop where
  stored : ∀ family : Family, family ≠ .routingRules → ∀ rows, answers family.rawKey = some rows →
    db'.rowsOf family source = collectedRows family source db.runs.length observedAt rows
  kept : ∀ family : Family, answers family.rawKey = none → db'.rowsOf family source = db.rowsOf family source
  others : ∀ family other, other ≠ source → db'.rowsOf family other = db.rowsOf family other
  recorded : ∃ run, db'.runs = db.runs ++ [run] ∧ run.source = source ∧
    (run.status = .success ↔ ∀ family : Family, answers family.rawKey ≠ none)

/-- **Path facts flow without loss**, except for routing rules: a collection is
saved exactly when its other queries have rows and no family repeats a key, and
then the families that were collected are stored and the failed ones are kept. -/
theorem path_facts_flow (db : Database) (source : Nat) (answers : Answers) (observedAt : Text) :
    ((collectAndSave db source answers observedAt).isSome = true ↔ Collects answers ∧
      Unambiguous answers) ∧
      ∀ db', collectAndSave db source answers observedAt = some db' →
        Flows db db' source answers observedAt := by
  refine ⟨collectAndSave_isSome, fun db' h => ?_⟩
  unfold collectAndSave at h
  obtain ⟨snapshot, hcl, hsave⟩ := Option.bind_eq_some_iff.1 h
  obtain ⟨hsv, hrs⟩ := savePathFacts_eq_some hsave
  obtain ⟨hou, hro⟩ := collect_eq_some hcl
  constructor
  · intro family hru rows han
    have hsc : Succeeds snapshot family :=
      (succeeds_iff hcl).2 ⟨by rw [han]; exact Option.some_ne_none _, hru⟩
    have hins : db'.rowsOf family source = inserted source db.runs.length snapshot observedAt family :=
      hsv.inserted family (mem_all family) hsc
    rw [hins]
    unfold inserted collectedRows
    rw [hro, han]
    rfl
  · intro family hfi
    exact hsv.kept family (mem_all family) fun hsc => ((succeeds_iff hcl).1 hsc).1 hfi
  · intro family other hne
    exact hsv.others family other fun h => hne h.2
  · refine ⟨_, hrs, rfl, ?_⟩
    change runStatus snapshot.outcomes = .success ↔ _
    rw [hou]
    exact runStatus_eq_success

/-- A collection is saved and nothing of it is lost, routing rules included. -/
def FlowsWhole (db : Database) (source : Nat) (answers : Answers) (observedAt : Text) : Prop :=
  ∃ db', collectAndSave db source answers observedAt = some db' ∧ Flows db db' source answers observedAt ∧
    ∀ rows, answers .routingRules = some rows → db'.rowsOf .routingRules source =
      collectedRows .routingRules source db.runs.length observedAt rows

/-- `save_path_facts` is never told of a success of the routing rules. -/
theorem rowsOf_routingRules (h : collectAndSave db source answers observedAt = some db') :
    db'.rowsOf .routingRules source = db.rowsOf .routingRules source := by
  unfold collectAndSave at h
  obtain ⟨snapshot, hcl, hsv⟩ := Option.bind_eq_some_iff.1 h
  exact (savePathFacts_eq_some hsv).1.kept .routingRules (mem_all _)
    fun hsc => ((succeeds_iff hcl).1 hsc).2 rfl

/-- A collection of one routing rule and nothing else. -/
def sampleAnswers : Answers
  | .routingRules => some [fun property => if property = .dotId then some [42, 49] else none]
  | _ => some []

end WebOvpn.PathFacts
