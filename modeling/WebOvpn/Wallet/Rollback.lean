/-
The rollback of the repair: it works out what has happened, and what holds when
it ends.
-/
import WebOvpn.Wallet.Transition

namespace WebOvpn.Wallet

open Text
open Op (Stable Meets)

variable {job : Job} {start w w' : World} {name : Text} {file f g s o : File} {limit : Nat}
    {code : WalletCode}

theorem node_of_sameFile (h : sameFile job (some f) (some g) = true) : f.node = g.node := by
  unfold sameFile at h
  rw [Bool.and_eq_true] at h
  exact congrArg Prod.fst (of_decide_eq_true h.2)

theorem data_of_sameFile (hsha : Function.Injective job.sha256)
    (h : sameFile job (some f) (some g) = true) :
    f.data = g.data := by
  unfold sameFile at h
  rw [Bool.and_eq_true] at h
  exact hsha (of_decide_eq_true h.1)

theorem eq_of_sameFile (hsha : Function.Injective job.sha256) (hf : f.isRegular = true)
    (hg : g.isRegular = true)
    (h : sameFile job (some f) (some g) = true) : f = g := by
  have hdat := data_of_sameFile hsha h
  unfold sameFile at h
  rw [Bool.and_eq_true] at h
  have hide := of_decide_eq_true h.2
  unfold File.identity at hide
  simp only [Prod.mk.injEq] at hide
  cases f
  cases g
  simp_all

theorem sameFile_right {actual expected : Option File} (h : sameFile job actual expected = true) :
    ∃ g, expected = some g := by
  cases actual with
  | none => cases h
  | some f =>
    cases expected with
    | none => cases h
    | some g => exact ⟨g, rfl⟩

/-- The variables of the call during the rollback. -/
structure Rolling (job : Job) (start : World) (created : Bool) (tempState : Option File)
    (w : World) : Prop where
  inv : Inv job start w
  opened : w.opened = true
  created_eq : w.created = created
  tempState_eq : w.tempState = tempState

variable {created : Bool} {tempState saved : Option File}

theorem Rolling.disturbed (h : Rolling job start created tempState w) (hw : Disturbs job w w') :
    Rolling job start created tempState w' := by
  obtain ⟨hop, hcr, -, htm, -, -⟩ := hw.locals
  exact ⟨h.inv.disturbed hw, hop.trans h.opened, hcr.trans h.created_eq, htm.trans h.tempState_eq⟩

theorem reads_rolling : Reads job start (Rolling job start created tempState) :=
  ⟨⟨stable_of_disturbs fun _ _ hw h => h.disturbed hw, fun _ h => h.inv,
    fun _ name file h => ⟨h.inv.sawWallet name file, h.opened, h.created_eq, h.tempState_eq⟩⟩,
    fun _ name file h => ⟨h.inv.sawConfig name file, h.opened, h.created_eq, h.tempState_eq⟩⟩

theorem reads_opened : Reads job start fun w => Inv job start w ∧ w.opened = true :=
  reads_with (fun _ _ hw h => hw.locals.1.trans h) fun _ _ _ h => ⟨h, h⟩

theorem surveyPair_meets (pair : Text × Text) : Meets (fun w => Inv job start w ∧ w.opened = true)
    (surveyPair job pair) (fun _ w => Inv job start w ∧ w.opened = true) (Fails job start) := by
  have hop : Reads job start fun w => Inv job start w ∧ w.opened = true := reads_opened
  unfold surveyPair
  apply hop.readWallet.bind
  rintro (_ | original)
  · apply hop.readWallet.bind
    intro target
    apply (hop.require _).bind
    intro _
    exact Op.meets_pure fun _ hw => hw
  · apply (hop.require _).bind
    intro _
    exact Op.meets_pure fun _ hw => hw

def Saved (job : Job) (start : World) (created : Bool) (tempState saved : Option File)
    (w : World) : Prop :=
  Rolling job start created tempState w ∧ (created = true → w.config.folder.get job.temporary = saved)

theorem readSaved_meets : Meets (Rolling job start created tempState)
    (readSaved job created) (fun saved => Saved job start created tempState saved)
      (Fails job start) := by
  unfold readSaved
  split
  · apply meets_readConfig reads_rolling.stable fun _ => reads_rolling.inv
    exact fun w file hw hget _ => ⟨reads_rolling.sawConfig w _ _ hw, fun _ => hget⟩
  · rename_i hcr
    exact Op.meets_pure fun w hw => ⟨hw, fun h => absurd h hcr⟩

/-- What `kwalletrc` was read as: there is one, it is a version of others or the
file of the call, and it is not the file in the other slot. -/
def Surveyed (job : Job) (start : World) (created : Bool) (tempState saved : Option File) (c : File)
    (w : World) : Prop :=
  Rolling job start created tempState w ∧ w.seenConfig kwalletrc = some (some c) ∧
    (c ∈ w.versions ∨ w.ours = some c) ∧ (created = true → ∀ s, saved = some s → s.node ≠ c.node)

theorem readCurrent_meets :
    Meets (Saved job start created tempState saved) (readConfig job fileLimit kwalletrc)
    (fun current w => ∃ c, current = some c ∧ Surveyed job start created tempState saved c w)
      (Fails job start) := by
  apply meets_readConfig
  · apply stable_of_disturbs
    exact fun w w' hw h => ⟨h.1.disturbed hw, fun hcr => hw.slot.trans (h.2 hcr)⟩
  · exact fun _ w hw => hw.1.inv
  · rintro w file ⟨hw, hsl⟩ hget -
    obtain ⟨c, hc⟩ := Option.isSome_iff_exists.1 (hw.inv.opened hw.opened)
    cases hget.symm.trans hc
    refine ⟨c, rfl, reads_rolling.sawConfig w _ _ hw, seenConfig_sawConfig .., hw.inv.current c hc, ?_⟩
    rintro hcr s rfl hnd
    exact kwalletrc_ne_temporary job (Folder.eq_of_node hc (hsl hcr) hnd.symm)

/-- The last reading of the configuration is a version of others. -/
def Restored (job : Job) (start : World) (created : Bool) (tempState : Option File) (w : World) : Prop :=
  Rolling job start created tempState w ∧ ∃ c ∈ w.versions, w.seenConfig kwalletrc = some (some c)

theorem Restored.disturbed (h : Restored job start created tempState w) (hw : Disturbs job w w') :
    Restored job start created tempState w' := by
  obtain ⟨hrl, c, hc, hse⟩ := h
  refine ⟨hrl.disturbed hw, c, hw.versions hc, ?_⟩
  rw [hw.locals.2.2.2.2.1]
  exact hse

theorem steady_restored : Steady job start (Restored job start created tempState) :=
  ⟨stable_of_disturbs fun _ _ hw h => h.disturbed hw, fun _ h => h.1.inv,
    fun _ name file h => ⟨reads_rolling.sawWallet _ name file h.1, h.2⟩⟩

/-- The exchange did not happen, or was undone by others: what they wrote stays. -/
theorem Surveyed.restored {c : File} (h : Surveyed job start created tempState saved c w)
    (hsv : created = true → sameFile job saved tempState = true) :
      Restored job start created tempState w := by
  obtain ⟨hrl, hse, hves, hnd⟩ := h
  refine ⟨hrl, c, hves.resolve_right fun hours => ?_, hse⟩
  cases hcr : created with
  | false =>
    rw [(hrl.inv.uncreated (hrl.created_eq.trans hcr)).1] at hours
    cases hours
  | true =>
    obtain ⟨s, rfl, hsm⟩ := sameFile_some (hsv hcr)
    obtain ⟨o, rfl⟩ := sameFile_right hsm
    have hours' := hrl.inv.tempState o hrl.tempState_eq
    cases hours.symm.trans hours'
    exact hnd hcr s rfl (node_of_sameFile hsm)

theorem exchangeAgain_meets : Meets (Rolling job start true tempState) (exchangeConfig job)
    (fun _ => Rolling job start true tempState) (Fails job start) := by
  apply Op.meets_own_cases (E := Fails job start) reads_rolling.stable reads_rolling.inv
  · rintro w _ w' h hst
    split at hst
    · rename_i hbot
      cases hst
      rw [Bool.and_eq_true] at hbot
      exact ⟨h.inv.exchangeConfig h.created_eq hbot.1, h.opened, h.created_eq, h.tempState_eq⟩
    · cases hst
  · rintro w _ w' h hst
    split at hst <;> cases hst
    exact h.inv

theorem exchangeBack_meets (hnd : s.node ≠ o.node) : Meets (Rolling job start true (some o))
    (exchangeBack job (some o) (some s)) (fun _ => Restored job start true (some o))
      (Fails job start) := by
  have hrl : Reads job start (Rolling job start true (some o)) := reads_rolling
  unfold exchangeBack
  apply hrl.pass.bind
  intro _
  apply hrl.readConfig.bind
  intro _
  apply (hrl.require _).bind
  intro _
  apply hrl.readConfig.bind
  intro _
  apply (hrl.require _).bind
  intro _
  apply exchangeAgain_meets.bind
  intro _
  apply Meets.bind (Q := fun file w => Rolling job start true (some o) w ∧ w.seenConfig kwalletrc = some file ∧
    ∀ c, file = some c → c ∈ w.versions ∨ w.ours = some c)
  · apply meets_readConfig hrl.stable fun _ => hrl.inv
    rintro w file hw hget -
    exact ⟨hrl.sawConfig w _ _ hw, seenConfig_sawConfig .., fun c hc => hw.inv.current c (hget.trans hc)⟩
  intro file
  apply Meets.bind (Q := fun _ => Restored job start true (some o))
  · apply meets_require fun _ w hw => hw.1.inv
    rintro w hsm ⟨hw, hse, hves⟩
    obtain ⟨c, rfl, hsm⟩ := sameFile_some hsm
    refine ⟨hw, c, (hves c rfl).resolve_right fun hours => hnd ?_, hse⟩
    cases hours.symm.trans (hw.inv.tempState o hw.tempState_eq)
    exact (node_of_sameFile hsm).symm
  intro _
  apply Meets.bind (Q := fun _ => Restored job start true (some o))
  · apply meets_readConfig steady_restored.stable fun _ => steady_restored.inv
    rintro w file ⟨hw, c, hc, hse⟩ - -
    exact ⟨hrl.sawConfig w _ _ hw, c, hc,
      (seenConfig_sawConfig_ne (kwalletrc_ne_temporary job) ..).trans hse⟩
  intro _
  apply (steady_restored.require _).bind
  intro _
  exact steady_restored.pass

theorem restoreConfig_meets {current : Option File}
    (hsv : (!((created && sameFile job current tempState) && saved.isNone)) = true)
    (hsl : (!(created && !(created && sameFile job current tempState) &&
      !sameFile job saved tempState)) = true) :
    Meets (fun w => ∃ c, current = some c ∧ Surveyed job start created tempState saved c w)
      (restoreConfig job (created && sameFile job current tempState) tempState saved)
      (fun _ => Restored job start created tempState) (Fails job start) := by
  unfold restoreConfig
  split
  · rename_i hex
    rw [hex, Bool.true_and, Bool.not_eq_true', Option.isNone_eq_false_iff] at hsv
    rw [Bool.and_eq_true] at hex
    obtain ⟨rfl, hsm⟩ := hex
    obtain ⟨s, rfl⟩ := Option.isSome_iff_exists.1 hsv
    obtain ⟨o, rfl⟩ := sameFile_right hsm
    obtain ⟨c, rfl, hsm⟩ := sameFile_some hsm
    intro scene hsce
    obtain ⟨c', hc', hrl, -, -, hnd⟩ := hsce
    cases hc'
    have hne : s.node ≠ o.node := node_of_sameFile hsm ▸ hnd rfl s rfl
    exact exchangeBack_meets hne scene hrl
  · rename_i hex
    apply Op.meets_pure
    rintro w ⟨c, rfl, hw⟩
    apply hw.restored
    rintro rfl
    rw [Bool.not_eq_true] at hex
    rw [hex] at hsl
    simpa using hsl

theorem restorePair_meets (pair : Text × Text) :
    Meets (Restored job start created tempState) (restorePair job pair)
    (fun _ => Restored job start created tempState) (Fails job start) := by
  unfold restorePair
  apply steady_restored.pass.bind
  intro _
  apply steady_restored.readWallet.bind
  intro _
  apply (steady_restored.require _).bind
  intro _
  apply steady_restored.readWallet.bind
  intro _
  apply (steady_restored.require _).bind
  intro _
  apply Meets.bind (Q := fun _ => Restored job start created tempState)
  · apply renameWallet_meets steady_restored
    rintro w old new ⟨hw, hse⟩
    exact ⟨⟨hw.inv.renameWallet old new, hw.opened, hw.created_eq, hw.tempState_eq⟩, hse⟩
  intro _
  exact steady_restored.pass

def Back (job : Job) (w : World) (pair : Text × Text) : Prop :=
  ∃ f, w.seenWallet pair.1 = some (some f) ∧ sameFile job (some f) (job.file? pair.1) = true

theorem olds_nodup (job : Job) : (job.pairs.map Prod.fst).Nodup := by
  change sources.Nodup
  decide

theorem checkOld_meets {done rest : List (Text × Text)} {pair : Text × Text}
    (hpi : job.pairs = done ++ pair :: rest) :
    Meets (fun w => Restored job start created tempState w ∧ ∀ p ∈ done, Back job w p)
      (checkOld job pair)
      (fun _ w => Restored job start created tempState w ∧ ∀ p ∈ done ++ [pair], Back job w p)
        (Fails job start) := by
  have hnd := olds_nodup job
  rw [hpi, List.map_append] at hnd
  have hot : ∀ p ∈ done, p.1 ≠ pair.1 := fun p hp =>
    (List.nodup_append.1 hnd).2.2 p.1 (List.mem_map_of_mem hp) pair.1 List.mem_cons_self
  unfold checkOld
  apply Meets.bind (Q := fun file w => Restored job start created tempState w ∧ (∀ p ∈ done, Back job w p) ∧
    w.seenWallet pair.1 = some file)
  · apply meets_readWallet
    · apply stable_of_disturbs
      rintro w w' hw ⟨h, hbc⟩
      refine ⟨h.disturbed hw, fun p hp => ?_⟩
      unfold Back
      rw [hw.locals.2.2.2.2.2]
      exact hbc p hp
    · exact fun _ w hw => hw.1.1.inv
    · rintro w file ⟨h, hbc⟩ -
      refine ⟨steady_restored.sawWallet w _ _ h, fun p hp => ?_, seenWallet_sawWallet ..⟩
      obtain ⟨f, hf, hsm⟩ := hbc p hp
      exact ⟨f, (Function.update_of_ne (hot p hp) ..).trans hf, hsm⟩
  intro file
  apply meets_require fun _ w hw => hw.1.1.inv
  rintro w hsm ⟨h, hbc, hse⟩
  obtain ⟨f, rfl, hsm⟩ := sameFile_some hsm
  refine ⟨h, fun p hp => ?_⟩
  rcases List.mem_append.1 hp with hp | hp
  · exact hbc p hp
  · cases List.mem_singleton.1 hp
    exact ⟨f, hse, hsm⟩

/-- All files of the wallet were read last under their old names. -/
def AllBack (job : Job) (start : World) (created : Bool) (tempState : Option File) (w : World) : Prop :=
  Restored job start created tempState w ∧ ∀ pair ∈ job.pairs, Back job w pair

theorem AllBack.disturbed (h : AllBack job start created tempState w) (hw : Disturbs job w w') :
    AllBack job start created tempState w' := by
  refine ⟨h.1.disturbed hw, fun p hp => ?_⟩
  unfold Back
  rw [hw.locals.2.2.2.2.2]
  exact h.2 p hp

/-- What is known after a rollback, as it was read last. -/
structure RolledBack (job : Job) (start w : World) : Prop where
  back : ∀ pair ∈ job.pairs, Back job w pair
  current : ∃ c ∈ w.versions, w.seenConfig kwalletrc = some (some c)
  slot : w.config.folder.get job.temporary = start.config.folder.get job.temporary

theorem RolledBack.disturbed (h : RolledBack job start w) (hw : Disturbs job w w') :
    RolledBack job start w' := by
  obtain ⟨c, hc, hse⟩ := h.current
  refine ⟨fun p hp => ?_, ⟨c, hw.versions hc, ?_⟩, hw.slot.trans h.slot⟩
  · unfold Back
    rw [hw.locals.2.2.2.2.2]
    exact h.back p hp
  · rw [hw.locals.2.2.2.2.1]
    exact hse

theorem unlinkTemporary_meets : Meets (fun w => AllBack job start true tempState w ∧
      ∀ f, w.config.folder.get job.temporary = some f → w.ours = some f) (unlinkTemporary job)
    (fun _ w => Inv job start w ∧ RolledBack job start w) (Fails job start) := by
  unfold unlinkTemporary step
  apply Op.meets_own_cases (E := Fails job start)
  · apply stable_of_disturbs
    rintro w w' hw ⟨h, hours⟩
    refine ⟨h.disturbed hw, fun f hf => ?_⟩
    rw [hw.slot] at hf
    exact hw.locals.2.2.1.trans (hours f hf)
  · exact fun w hw => hw.1.1.1.inv
  · rintro w _ w' ⟨⟨⟨hw, hse⟩, hbc⟩, hours⟩ hst
    split at hst <;> cases hst
    refine ⟨⟨hw.inv.keptConfig.remove hours, hw.inv.keptWallet, ?_, ?_, ?_, hw.inv.created, hw.inv.regular,
      hw.inv.tempState, ?_⟩, hbc, hse, ?_⟩
    · intro f hf
      dsimp only at hf
      rw [Folder.get_remove_ne (kwalletrc_ne_temporary job)] at hf
      exact hw.inv.current f hf
    · intro _ f hf
      dsimp only at hf
      rw [Folder.get_remove_self] at hf
      cases hf
    · intro hcr
      cases hw.created_eq.symm.trans hcr
    · intro hop
      dsimp only
      rw [Folder.get_remove_ne (kwalletrc_ne_temporary job)]
      exact hw.inv.opened hop
    · dsimp only
      rw [Folder.get_remove_self, hw.inv.created hw.created_eq]
  · rintro w _ w' h hst
    split at hst <;> cases hst
    exact h.1.1.1.inv

theorem dropTemporary_meets (hsha : Function.Injective job.sha256) :
    Meets (AllBack job start true tempState) (dropTemporary job tempState)
      (fun _ w => Inv job start w ∧ RolledBack job start w) (Fails job start) := by
  unfold dropTemporary
  apply Meets.bind (Q := fun file w => AllBack job start true tempState w ∧
    w.config.folder.get job.temporary = file ∧
    ∀ f, file = some f → f.isRegular = true)
  · apply meets_readConfig (stable_of_disturbs fun _ _ hw h => h.disturbed hw) fun _ w hw => hw.1.1.inv
    rintro w file ⟨⟨hw, c, hc, hse⟩, hbc⟩ hget hrg
    exact ⟨⟨⟨reads_rolling.sawConfig w _ _ hw, c, hc,
      (seenConfig_sawConfig_ne (kwalletrc_ne_temporary job) ..).trans hse⟩, hbc⟩, hget, hrg⟩
  intro file
  apply Meets.bind (Q := fun _ w => AllBack job start true tempState w ∧
    ∀ f, w.config.folder.get job.temporary = some f → w.ours = some f)
  · apply meets_require fun _ w hw => hw.1.1.1.inv
    rintro w hsm ⟨h, hget, hrg⟩
    refine ⟨h, fun f hf => ?_⟩
    cases hget.symm.trans hf
    obtain ⟨o, rfl⟩ := sameFile_right hsm
    have hours := h.1.1.inv.tempState o h.1.1.tempState_eq
    rw [eq_of_sameFile hsha (hrg f rfl) (h.1.1.inv.regular o hours) hsm]
    exact hours
  intro _
  apply unlinkTemporary_meets.bind
  intro _
  apply meets_pass
  · apply stable_of_disturbs
    exact fun w w' hw h => ⟨h.1.disturbed hw, h.2.disturbed hw⟩
  · exact fun _ w hw => hw.1
  · exact fun w hw => hw

theorem rollback_meets (hsha : Function.Injective job.sha256) :
    Meets (fun w => Inv job start w ∧ w.opened = true)
    (rollback job) (fun _ w => Inv job start w ∧ RolledBack job start w) (Fails job start) := by
  have hop : Reads job start fun w => Inv job start w ∧ w.opened = true := reads_opened
  unfold rollback
  apply hop.pass.bind
  intro _
  apply Meets.bind (Meets.forEach_keeps fun pair _ => surveyPair_meets pair)
  intro moves
  apply Meets.bind (Q := fun created w => (Inv job start w ∧ w.opened = true) ∧ w.created = created)
  · exact Op.meets_view fun w hw => ⟨hw, rfl⟩
  intro created
  apply Meets.bind (Q := fun tempState => Rolling job start created tempState)
  · exact Op.meets_view fun w hw => ⟨hw.1.1, hw.1.2, hw.2, rfl⟩
  intro tempState
  apply readSaved_meets.bind
  intro saved
  apply readCurrent_meets.bind
  intro current
  apply Meets.bind (Q := fun _ w => (∃ c, current = some c ∧ Surveyed job start created tempState saved c w) ∧
    (!((created && sameFile job current tempState) && saved.isNone)) = true)
  · apply meets_require
    · rintro _ w ⟨c, -, hw⟩
      exact hw.1.inv
    · exact fun w hcn hw => ⟨hw, hcn⟩
  intro _
  apply Meets.assuming
  intro hsv
  apply Meets.bind (Q := fun _ w => (∃ c, current = some c ∧ Surveyed job start created tempState saved c w) ∧
    (!(created && !(created && sameFile job current tempState) && !sameFile job saved tempState)) = true)
  · apply meets_require
    · rintro _ w ⟨c, -, hw⟩
      exact hw.1.inv
    · exact fun w hcn hw => ⟨hw, hcn⟩
  intro _
  apply Meets.assuming
  intro hsl
  apply (restoreConfig_meets hsv hsl).bind
  intro _
  apply Meets.bind (Meets.forEach_keeps fun pair _ => restorePair_meets pair)
  intro _
  apply Meets.bind (Q := fun _ => AllBack job start created tempState)
  · apply Meets.mono
      (Meets.forEach (I := fun done _ w => Restored job start created tempState w ∧
      ∀ p ∈ done, Back job w p)
      fun done pair rest _ hpi => checkOld_meets hpi)
    · exact fun w hw => ⟨hw, nofun⟩
    · exact fun _ _ hw => hw
    · exact fun _ _ hw => hw
  intro _
  split
  · rename_i hcr
    subst hcr
    exact dropTemporary_meets hsha
  · rename_i hcr
    apply Op.meets_pure
    rintro w ⟨⟨hw, hcur⟩, hbc⟩
    refine ⟨hw.inv, hbc, hcur, (hw.inv.uncreated ?_).2.2⟩
    rw [hw.created_eq]
    exact Bool.eq_false_iff.2 hcr

end WebOvpn.Wallet
