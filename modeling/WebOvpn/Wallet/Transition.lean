/-
The transition of the repair: what is known when it has been applied, and what
holds when it stops.
-/
import WebOvpn.Wallet.Invariant

namespace WebOvpn.Wallet

open Text List
open Op (Stable Meets)

variable {job : Job} {start w w' : World} {name : Text} {file f g : File} {limit : Nat}
    {code : WalletCode}

/-- A failure leaves the invariant. -/
abbrev Fails (job : Job) (start : World) : WalletCode → World → Prop := fun _ => Inv job start

/-- The configuration is there. -/
def HasConfig (w : World) : Prop := (w.config.folder.get kwalletrc).isSome = true

theorem HasConfig.disturbed (h : HasConfig w) (hw : Disturbs job w w') : HasConfig w' := by
  unfold HasConfig at h ⊢
  rcases hw.current with hsm | ⟨g, -, hget⟩
  · rw [hsm]
    exact h
  · rw [hget]
    rfl

section

variable {α : Type} {P : World → Prop} {f : World → Except WalletCode α}

theorem meets_look (hst : Stable (others job) P) (hP : ∀ w, P w → Inv job start w) :
    Meets P (step job fun w => (f w, w)) (fun _ => P) (Fails job start) := by
  apply Op.meets_own (E := Fails job start) hst hP
  intro w hw
  cases f w with
  | ok a => exact hw
  | error e => exact hP w hw

end

structure Steady (job : Job) (start : World) (P : World → Prop) : Prop where
  stable : Stable (others job) P
  inv : ∀ w, P w → Inv job start w
  sawWallet : ∀ w name file, P w → P (w.sawWallet name file)

/-- What others and all readings keep. -/
structure Reads (job : Job) (start : World) (P : World → Prop) : Prop extends Steady job start P where
  sawConfig : ∀ w name file, P w → P (w.sawConfig name file)

section

variable {P : World → Prop} (hP : Steady job start P)

include hP

theorem Steady.pass : Meets P (pass job) (fun _ => P) (Fails job start) :=
  meets_pass hP.stable (fun _ => hP.inv) fun _ hw => hw

theorem Steady.require (condition : Bool) : Meets P (require condition) (fun _ => P) (Fails job start) :=
  meets_require (fun _ => hP.inv) fun _ _ hw => hw

theorem Steady.readWallet : Meets P (readWallet job limit name) (fun _ => P) (Fails job start) :=
  meets_readWallet hP.stable (fun _ => hP.inv) fun w file hw _ => hP.sawWallet w name file hw

theorem Steady.look {α : Type} (f : World → Except WalletCode α) :
    Meets P (step job fun w => (f w, w)) (fun _ => P) (Fails job start) :=
  meets_look hP.stable hP.inv

theorem Steady.inspectFiles : Meets P (Op.forEach (fun name => do
      match ← Wallet.readWallet job fileLimit name with
      | some file => return (name, file)
      | none => Op.raise .raised) (names : List Text)) (fun _ => P) (Fails job start) := by
  apply Meets.forEach_keeps
  intro name _
  apply hP.readWallet.bind
  rintro (_ | file)
  · exact Op.meets_raise hP.inv
  · exact Op.meets_pure fun _ hw => hw

end

theorem Reads.readConfig {P : World → Prop} (hP : Reads job start P) :
    Meets P (readConfig job limit name) (fun _ => P) (Fails job start) :=
  meets_readConfig hP.stable (fun _ => hP.inv) fun w file hw _ _ => hP.sawConfig w name file hw

/-- The invariant, and something that is no matter of readings. -/
theorem reads_with {P : World → Prop} (hds : ∀ w w', Disturbs job w w' → P w → P w')
    (hsaw : ∀ w name file, P w → P (w.sawConfig name file) ∧ P (w.sawWallet name file)) :
    Reads job start fun w => Inv job start w ∧ P w where
  stable := stable_inv.and (stable_of_disturbs hds)
  inv _ h := h.1
  sawConfig w name file h := ⟨h.1.sawConfig name file, (hsaw w name file h.2).1⟩
  sawWallet w name file h := ⟨h.1.sawWallet name file, (hsaw w name file h.2).2⟩

theorem reads_uncreated : Reads job start fun w => Inv job start w ∧ w.created = false :=
  reads_with (fun _ _ hw h => hw.locals.2.1.trans h) fun _ _ _ h => ⟨h, h⟩

theorem reads_found (found : Bool) :
    Reads job start fun w => Inv job start w ∧ w.created = false ∧ (found = true → HasConfig w) :=
  reads_with (fun _ _ hw h => ⟨hw.locals.2.1.trans h.1, fun hfn => (h.2 hfn).disturbed hw⟩) fun _ _ _ h => ⟨h, h⟩

theorem inspectWallet_meets : Meets (fun w => Inv job start w ∧ w.created = false) (inspectWallet job)
    (fun evidence w => Inv job start w ∧ w.created = false ∧ (evidence.isSome = true → HasConfig w))
      (Fails job start) := by
  have hun : Reads job start fun w => Inv job start w ∧ w.created = false := reads_uncreated
  unfold inspectWallet
  apply (hun.require _).bind
  intro _
  apply hun.pass.bind
  intro _
  have hra : Meets (fun w => Inv job start w ∧ w.created = false) (readConfig job configurationLimit kwalletrc)
      (fun configuration w => Inv job start w ∧ w.created = false ∧ (configuration.isSome = true → HasConfig w))
      (Fails job start) := by
    apply meets_readConfig hun.stable fun _ => hun.inv
    intro w file hw hget _
    refine ⟨hw.1.sawConfig _ _, hw.2, fun hsm => ?_⟩
    unfold HasConfig
    change (w.config.folder.get kwalletrc).isSome = true
    rw [hget]
    exact hsm
  apply hra.bind
  intro configuration
  have hfn : Reads job start fun w => Inv job start w ∧ w.created = false ∧
    (configuration.isSome = true → HasConfig w) :=
    reads_found _
  apply Meets.bind (Op.meets_lift (fun _ _ _ hw => hw) fun _ _ _ hw => hw.1)
  intro sections
  apply hfn.pass.bind
  intro _
  apply Meets.bind (Meets.forEach_keeps fun _ _ => hfn.look _)
  intro present
  split
  · apply Meets.bind (Meets.forEach_keeps fun _ _ => hfn.look _)
    intro targets
    apply (hfn.require _).bind
    intro _
    apply Op.meets_pure
    exact fun w hw => ⟨hw.1, hw.2.1, nofun⟩
  · apply (hfn.require _).bind
    intro _
    apply hfn.pass.bind
    intro _
    apply Meets.bind (Meets.forEach_keeps fun _ _ => hfn.look _)
    intro targets
    apply (hfn.require _).bind
    intro _
    apply (hfn.look _).bind
    intro names
    apply (hfn.require _).bind
    intro _
    apply hfn.inspectFiles.bind
    intro files
    apply (hfn.require _).bind
    intro _
    apply (hfn.look _).bind
    intro again
    apply (hfn.require _).bind
    intro _
    apply Meets.bind (Meets.forEach_keeps fun _ _ => hfn.look _)
    intro _
    apply (hfn.look _).bind
    intro _
    have hrq : Meets (fun w => Inv job start w ∧ w.created = false ∧ (configuration.isSome = true → HasConfig w))
        (require (configuration.any fun file => (repairConfiguration file.data job.walletName).isSome))
        (fun _ w => (Inv job start w ∧ w.created = false ∧ (configuration.isSome = true → HasConfig w)) ∧
          (configuration.any fun file => (repairConfiguration file.data job.walletName).isSome) = true)
        (Fails job start) :=
      meets_require (fun _ => hfn.inv) fun w hcn hw => ⟨hw, hcn⟩
    apply hrq.bind
    intro _
    apply Op.meets_pure
    rintro w ⟨hw, hcn⟩
    obtain ⟨file, rfl, -⟩ := (Option.any_eq_true _ _).1 hcn
    exact ⟨hw.1, hw.2.1, fun _ => hw.2.2 rfl⟩

/-- The file of the call is being written, under the temporary name. -/
structure Writing (job : Job) (start w : World) : Prop where
  inv : Inv job start w
  created : w.created = true
  unread : w.tempState = none
  ours : ∃ o, w.ours = some o ∧ w.config.folder.get job.temporary = some o ∧ ∀ f ∈ w.config.theirs,
    f.node ≠ o.node

theorem Writing.disturbed (h : Writing job start w) (hw : Disturbs job w w') : Writing job start w' := by
  obtain ⟨-, hcr, hours, htm, -, -⟩ := hw.locals
  obtain ⟨o, ho, hget, hnd⟩ := h.ours
  refine ⟨h.inv.disturbed hw, hcr.trans h.created, htm.trans h.unread, o, hours.trans ho, hw.slot.trans hget, ?_⟩
  intro f hf
  rcases hw.theirs f hf with hold | hnew
  · exact hnd f hold
  · exact hnew o hget

theorem stable_writing : Stable (others job) (Writing job start) :=
  stable_of_disturbs fun _ _ hw h => h.disturbed hw

theorem createTemporary_meets (mode : Nat) : Meets (fun w => Inv job start w ∧ w.created = false)
    (createTemporary job mode) (fun _ => Writing job start) (Fails job start) := by
  apply Op.meets_own_cases (E := Fails job start) reads_uncreated.stable fun w hw => hw.1
  · rintro w _ w' ⟨h, hcr⟩ hst
    split at hst
    · rename_i hfr
      obtain ⟨hget, htk⟩ := hfr
      cases hst
      obtain ⟨hours, htm, hsl⟩ := h.uncreated hcr
      have hkp : ∀ f ∈ w.config.theirs, f ∈ w.config.folder.files := by
        intro f hf
        apply (h.keptConfig f hf).resolve_right
        rw [hours]
        rintro ⟨⟩
      have hnd : ∀ f ∈ w.config.theirs, f.node ≠ (job.newFile w mode).node := by
        intro f hf
        obtain ⟨name, hnm⟩ := Folder.mem_files_iff.1 (hkp f hf)
        apply htk.node_ne hnm
        rintro rfl
        cases hget.symm.trans hnm
      refine ⟨⟨?_, h.keptWallet, ?_, ?_, (absurd · Bool.noConfusion), ?_, ?_, ?_, ?_⟩, rfl, htm, _, rfl,
        Folder.get_store_self htk, hnd⟩
      · apply h.keptConfig.store
        · intro f _
          rw [hget]
          rintro ⟨⟩
        · intro f _
          rw [hours]
          rintro ⟨⟩
      · intro f hf
        dsimp only at hf
        rw [Folder.get_store_ne htk (kwalletrc_ne_temporary job)] at hf
        apply (h.current f hf).imp_right
        rw [hours]
        rintro ⟨⟩
      · intro _ f hf
        dsimp only at hf
        rw [Folder.get_store_self] at hf
        exact .inr hf
      · intro _
        exact hsl.symm.trans hget
      · rintro f ⟨⟩
        rfl
      · dsimp only
        rw [htm]
        rintro f ⟨⟩
      · intro hop
        dsimp only
        rw [Folder.get_store_ne htk (kwalletrc_ne_temporary job)]
        exact h.opened hop
    · cases hst
  · rintro w _ w' ⟨h, -⟩ hst
    split at hst <;> cases hst
    exact h

theorem changeTemporary_meets {change : File → File} (hnd : ∀ f, (change f).node = f.node)
    (hrg : ∀ f, (change f).isRegular = f.isRegular) :
    Meets (Writing job start) (changeTemporary job change) (fun _ => Writing job start)
      (Fails job start) := by
  apply Op.meets_own_cases (E := Fails job start) stable_writing fun w hw => hw.inv
  · rintro w _ w' h hst
    obtain ⟨o, ho, hget, hthe⟩ := h.ours
    rw [hget] at hst
    dsimp only at hst
    split at hst
    · rename_i htk
      cases hst
      have hot : ∀ f, w.config.folder.get kwalletrc = some f → w.ours ≠ some f := by
        intro f hf hsm
        cases ho.symm.trans hsm
        exact kwalletrc_ne_temporary job (Folder.eq_of_node hf hget rfl)
      refine ⟨⟨?_, h.inv.keptWallet, ?_, ?_, ?_, h.inv.created, ?_, ?_, ?_⟩, h.created, h.unread, _, rfl,
        Folder.get_store_self htk, ?_⟩
      · apply h.inv.keptConfig.store
        · intro f hf hsm
          cases hget.symm.trans hsm
          exact hthe _ hf rfl
        · intro f hf hsm
          cases ho.symm.trans hsm
          exact hthe _ hf rfl
      · intro f hf
        dsimp only at hf
        rw [Folder.get_store_ne htk (kwalletrc_ne_temporary job)] at hf
        exact .inl ((h.inv.current f hf).resolve_right (hot f hf))
      · intro _ f hf
        dsimp only at hf
        rw [Folder.get_store_self] at hf
        exact .inr hf
      · intro hcr
        cases h.created.symm.trans hcr
      · rintro f ⟨⟩
        rw [hrg]
        exact h.inv.regular o ho
      · dsimp only
        rw [h.unread]
        rintro f ⟨⟩
      · intro hop
        dsimp only
        rw [Folder.get_store_ne htk (kwalletrc_ne_temporary job)]
        exact h.inv.opened hop
      · intro f hf
        rw [hnd]
        exact hthe f hf
    · cases hst
  · rintro w _ w' h hst
    split at hst
    · cases hst
      exact h.inv
    · split at hst <;> cases hst
      exact h.inv

theorem writeTemporary_meets (desired : Bytes) : Meets (fun w => Inv job start w ∧ w.created = false)
    (writeTemporary job desired) (fun _ => Writing job start) (Fails job start) := by
  unfold writeTemporary
  apply (createTemporary_meets _).bind
  intro _
  apply Meets.bind (Q := fun _ => Writing job start)
  · exact changeTemporary_meets (fun _ => rfl) fun _ => rfl
  intro _
  apply Meets.bind (Q := fun _ => Writing job start)
  · exact Meets.forEach_keeps fun byte _ => changeTemporary_meets (fun _ => rfl) fun _ => rfl
  intro _
  exact meets_pass stable_writing (fun _ w hw => hw.inv) fun _ hw => hw

/-- The file of the call has the repaired configuration. -/
structure Written (job : Job) (start : World) (desired : Bytes) (w : World) : Prop where
  inv : Inv job start w
  created : w.created = true
  tempState : ∃ o, w.tempState = some o ∧ o.data = desired

variable {desired : Bytes} {expected : Option File} {pair : Text × Text}

theorem Written.disturbed (h : Written job start desired w) (hw : Disturbs job w w') :
    Written job start desired w' := by
  obtain ⟨-, hcr, -, htm, -, -⟩ := hw.locals
  refine ⟨h.inv.disturbed hw, hcr.trans h.created, ?_⟩
  rw [htm]
  exact h.tempState

theorem reads_written (desired : Bytes) : Reads job start (Written job start desired) :=
  ⟨⟨stable_of_disturbs fun _ _ hw h => h.disturbed hw, fun _ h => h.inv,
    fun _ name file h => ⟨h.inv.sawWallet name file, h.created, h.tempState⟩⟩,
    fun _ name file h => ⟨h.inv.sawConfig name file, h.created, h.tempState⟩⟩

theorem captureTemporary_meets (desired : Bytes) :
    Meets (Writing job start) (captureTemporary job desired)
    (fun _ => Written job start desired) (Fails job start) := by
  unfold captureTemporary
  have hra : Meets (Writing job start) (readConfig job fileLimit job.temporary)
      (fun file w => Writing job start w ∧ w.ours = file) (Fails job start) := by
    apply meets_readConfig stable_writing fun _ w hw => hw.inv
    intro w file hw hget _
    obtain ⟨o, ho, hsl, hthe⟩ := hw.ours
    exact ⟨⟨hw.inv.sawConfig _ _, hw.created, hw.unread, o, ho, hsl, hthe⟩, ho.trans (hsl.symm.trans hget)⟩
  apply hra.bind
  intro file
  have hass : Meets (fun w => Writing job start w ∧ w.ours = file)
      (Op.assign (fun w => { w with tempState := file }) : Step Unit)
        (fun _ w => Inv job start w ∧ w.created = true ∧ w.tempState = file)
      (Fails job start) := by
    apply Op.meets_assign
    rintro w ⟨hw, rfl⟩
    refine ⟨⟨hw.inv.keptConfig, hw.inv.keptWallet, hw.inv.current, hw.inv.slot, ?_, hw.inv.created,
      hw.inv.regular,
      fun _ h => h, hw.inv.opened⟩, hw.created, rfl⟩
    intro hcr
    cases hw.created.symm.trans hcr
  apply hass.bind
  intro _
  apply meets_require fun _ w hw => hw.1
  rintro w hdat ⟨hinv, hcr, htm⟩
  obtain ⟨o, rfl, hdat⟩ := (Option.any_eq_true _ _).1 hdat
  exact ⟨hinv, hcr, o, htm, of_decide_eq_true hdat⟩

theorem exchangeConfig_meets (desired : Bytes) : Meets (Written job start desired) (exchangeConfig job)
    (fun _ => Written job start desired) (Fails job start) := by
  apply Op.meets_own_cases (E := Fails job start) (reads_written desired).stable fun w hw => hw.inv
  · rintro w _ w' h hst
    split at hst
    · rename_i hbot
      cases hst
      rw [Bool.and_eq_true] at hbot
      exact ⟨h.inv.exchangeConfig h.created hbot.1, h.created, h.tempState⟩
    · cases hst
  · rintro w _ w' h hst
    split at hst <;> cases hst
    exact h.inv

theorem renameWallet_meets {P : World → Prop} (hP : Steady job start P)
    (hwl : ∀ w old new, P w →
      P { w with wallet := { w.wallet with folder := w.wallet.folder.exchange old new } })
    (old new : Text) : Meets P (renameWallet job old new) (fun _ => P) (Fails job start) := by
  apply Op.meets_own_cases (E := Fails job start) hP.stable hP.inv
  · rintro w _ w' h hst
    split at hst <;> cases hst
    exact hwl w old new h
  · rintro w _ w' h hst
    split at hst <;> cases hst
    exact hP.inv w h

theorem movePair_meets (desired : Bytes) (pair : Text × Text) :
    Meets (Written job start desired) (movePair job pair)
    (fun _ => Written job start desired) (Fails job start) := by
  have hwr : Reads job start (Written job start desired) := reads_written desired
  unfold movePair
  apply hwr.pass.bind
  intro _
  apply hwr.readWallet.bind
  intro _
  apply (hwr.require _).bind
  intro _
  apply (renameWallet_meets hwr.toSteady
    (fun w old new h => ⟨h.inv.renameWallet old new, h.created, h.tempState⟩) _ _).bind
  intro _
  apply hwr.pass.bind
  intro _
  apply hwr.readWallet.bind
  intro _
  exact hwr.require _

def LastConfig (job : Job) (w : World) (name : Text) (expected : Option File) : Prop :=
  ∃ f, w.seenConfig name = some (some f) ∧ sameFile job (some f) expected = true

def Moved (job : Job) (w : World) (pair : Text × Text) : Prop :=
  w.seenWallet pair.1 = some none ∧
    ∃ f, w.seenWallet pair.2 = some (some f) ∧ sameFile job (some f) (job.file? pair.1) = true

structure Exchanged (job : Job) (start : World) (desired : Bytes) (w : World) : Prop where
  written : Written job start desired w
  slot : LastConfig job w job.temporary job.evidence.configuration
  current : LastConfig job w kwalletrc w.tempState

theorem sameFile_some {file : Option File} (h : sameFile job file expected = true) :
    ∃ f, file = some f ∧ sameFile job (some f) expected = true := by
  cases file with
  | none => cases h
  | some f => exact ⟨f, rfl, h⟩

theorem LastConfig.saw_other {file : Option File} {other : Text} (h : LastConfig job w name expected)
    (hne : name ≠ other) : LastConfig job (w.sawConfig other file) name expected := by
  obtain ⟨f, hf, hsm⟩ := h
  exact ⟨f, (Function.update_of_ne hne ..).trans hf, hsm⟩

theorem LastConfig.of_eq (h : LastConfig job w name expected)
    (hse : w'.seenConfig = w.seenConfig) : LastConfig job w' name expected := by
  unfold LastConfig
  rw [hse]
  exact h

theorem Moved.of_eq (h : Moved job w pair) (hse : w'.seenWallet = w.seenWallet) : Moved job w' pair := by
  unfold Moved
  rw [hse]
  exact h

theorem Moved.saw_other {other : Text} (h : Moved job w pair) (file : Option File)
    (hold : pair.1 ≠ other) (hnew : pair.2 ≠ other) : Moved job (w.sawWallet other file) pair := by
  obtain ⟨hnn, f, hf, hsm⟩ := h
  exact ⟨(Function.update_of_ne hold ..).trans hnn, f, (Function.update_of_ne hnew ..).trans hf, hsm⟩

theorem source_ne_new (h : isWalletName job.walletName = true) {source : Text} (hsrc : source ∈ sources)
    (suffix : Text) : source ≠ job.walletName ++ suffix := by
  cases hnm : job.walletName with
  | nil =>
    rw [hnm] at h
    cases h
  | cons first rest =>
    rw [hnm] at h
    unfold isWalletName at h
    simp only [Bool.and_eq_true] at h
    have hheads : ∀ source ∈ sources, source.head?.all fun c => !c.isAlnum := by decide
    rintro rfl
    have hha := hheads _ hsrc
    rw [cons_append, head?_cons, Option.all_some, h.1.1] at hha
    cases hha

theorem pairs_nodup (h : isWalletName job.walletName = true) :
    (job.pairs.flatMap fun pair => [pair.1, pair.2]).Nodup := by
  have hnew : ∀ s t : Text, s ≠ t → job.walletName ++ s ≠ job.walletName ++ t :=
    fun s t hne heq => hne (append_cancel_left heq)
  have hkwl : ∀ suffix, text ".kwl" ≠ job.walletName ++ suffix := source_ne_new h (by decide)
  have hsal : ∀ suffix, text ".salt" ≠ job.walletName ++ suffix := source_ne_new h (by decide)
  have hatt : ∀ suffix, text "_attributes.json" ≠ job.walletName ++ suffix := source_ne_new h (by decide)
  have h12 : text ".kwl" ≠ text ".salt" := by decide
  have h13 : text ".kwl" ≠ text "_attributes.json" := by decide
  have h23 : text ".salt" ≠ text "_attributes.json" := by decide
  unfold Job.pairs
  simp only [flatMap_cons, flatMap_nil, append_nil, cons_append, nil_append, nodup_cons,
    mem_cons, not_mem_nil, or_false, not_or, not_false_eq_true, nodup_nil, and_true]
  exact ⟨⟨hkwl _, h12, hkwl _, h13, hkwl _⟩, ⟨(hsal _).symm, hnew _ _ h12, (hatt _).symm, hnew _ _ h13⟩,
    ⟨hsal _, h23, hsal _⟩, ⟨(hatt _).symm, hnew _ _ h23⟩, hatt _⟩

theorem Exchanged.disturbed (h : Exchanged job start desired w) (hw : Disturbs job w w') :
    Exchanged job start desired w' := by
  obtain ⟨-, -, -, htm, hse, -⟩ := hw.locals
  refine ⟨h.written.disturbed hw, h.slot.of_eq hse, ?_⟩
  rw [htm]
  exact h.current.of_eq hse

/-- The files of the pairs are found under their new names. -/
theorem checkPair_meets (hnm : isWalletName job.walletName = true) {done rest : List (Text × Text)}
    (hpi : job.pairs = done ++ pair :: rest) :
    Meets (fun w => Exchanged job start desired w ∧ ∀ p ∈ done, Moved job w p) (checkPair job pair)
      (fun _ w => Exchanged job start desired w ∧ ∀ p ∈ done ++ [pair], Moved job w p)
        (Fails job start) := by
  have hnd := pairs_nodup hnm
  rw [hpi, flatMap_append, flatMap_cons] at hnd
  obtain ⟨-, hlt, hds⟩ := nodup_append.1 hnd
  have hown : pair.1 ≠ pair.2 := by
    rw [nodup_append] at hlt
    exact fun heq => (nodup_cons.1 hlt.1).1 (mem_singleton.2 heq)
  have hot : ∀ p ∈ done, ∀ name ∈ [pair.1, pair.2], p.1 ≠ name ∧ p.2 ≠ name := by
    intro p hp name hmem
    have hear : ∀ other ∈ [p.1, p.2], other ≠ name := fun other hmem' =>
      hds other (mem_flatMap.2 ⟨p, hp, hmem'⟩) name (mem_append_left _ hmem)
    exact ⟨hear _ mem_cons_self, hear _ (mem_cons_of_mem _ mem_cons_self)⟩
  have hst : ∀ seen : Text → Option (Option File) → Prop, Stable (others job) fun w =>
      Exchanged job start desired w ∧ (∀ p ∈ done, Moved job w p) ∧ seen pair.1 (w.seenWallet pair.1) := by
    intro seen
    apply stable_of_disturbs
    rintro w w' hw ⟨hex, hmv, hse⟩
    obtain ⟨-, -, -, -, -, hwl⟩ := hw.locals
    rw [hwl]
    exact ⟨hex.disturbed hw, fun p hp => (hmv p hp).of_eq hwl, hse⟩
  have hsaw : ∀ w file, ∀ name ∈ [pair.1, pair.2], Exchanged job start desired w ∧ (∀ p ∈ done, Moved job w p) →
      Exchanged job start desired (w.sawWallet name file) ∧ ∀ p ∈ done, Moved job (w.sawWallet name file) p := by
    rintro w file name hmem ⟨hex, hmv⟩
    refine ⟨⟨(reads_written desired).sawWallet w name file hex.written, hex.slot, hex.current⟩, ?_⟩
    exact fun p hp => (hmv p hp).saw_other file (hot p hp name hmem).1 (hot p hp name hmem).2
  unfold checkPair
  have hfs : Meets (fun w => Exchanged job start desired w ∧ ∀ p ∈ done, Moved job w p)
      (readWallet job fileLimit pair.1) (fun file w => Exchanged job start desired w ∧
        (∀ p ∈ done, Moved job w p) ∧
        w.seenWallet pair.1 = some file) (Fails job start) := by
    apply meets_readWallet
    · exact ((hst fun _ _ => True).congr fun w => by simp)
    · exact fun _ w hw => hw.1.written.inv
    · intro w file hw _
      obtain ⟨hex, hmv⟩ := hsaw w file pair.1 mem_cons_self hw
      exact ⟨hex, hmv, seenWallet_sawWallet ..⟩
  apply hfs.bind
  intro old
  have hnn : Meets (fun w => Exchanged job start desired w ∧ (∀ p ∈ done, Moved job w p) ∧
        w.seenWallet pair.1 = some old) (require old.isNone) (fun _ w => Exchanged job start desired w ∧
        (∀ p ∈ done, Moved job w p) ∧ w.seenWallet pair.1 = some none) (Fails job start) := by
    apply meets_require fun _ w hw => hw.1.written.inv
    rintro w hcn ⟨hex, hmv, hse⟩
    cases Option.isNone_iff_eq_none.1 hcn
    exact ⟨hex, hmv, hse⟩
  apply hnn.bind
  intro _
  have hsn : Meets (fun w => Exchanged job start desired w ∧ (∀ p ∈ done, Moved job w p) ∧
        w.seenWallet pair.1 = some none) (readWallet job fileLimit pair.2) (fun file w =>
        Exchanged job start desired w ∧ (∀ p ∈ done, Moved job w p) ∧ w.seenWallet pair.1 = some none ∧
          w.seenWallet pair.2 = some file) (Fails job start) := by
    apply meets_readWallet (hst fun _ seen => seen = some none) fun _ w hw => hw.1.written.inv
    rintro w file ⟨hex, hmv, hse⟩ _
    obtain ⟨hex, hmv⟩ := hsaw w file pair.2 (mem_cons_of_mem _ mem_cons_self) ⟨hex, hmv⟩
    exact ⟨hex, hmv, (Function.update_of_ne hown ..).trans hse, seenWallet_sawWallet ..⟩
  apply hsn.bind
  intro new
  apply meets_require fun _ w hw => hw.1.written.inv
  rintro w hsm ⟨hex, hmv, hold, hnew⟩
  obtain ⟨f, rfl, hsm⟩ := sameFile_some hsm
  refine ⟨hex, fun p hp => ?_⟩
  rcases mem_append.1 hp with hp | hp
  · exact hmv p hp
  · cases mem_singleton.1 hp
    exact ⟨hold, f, hnew, hsm⟩

theorem isWalletName_of_repair {data result : Bytes} {walletName : Text}
    (h : repairConfiguration data walletName = some result) : isWalletName walletName = true := by
  unfold repairConfiguration at h
  by_cases hnm : isWalletName walletName = true
  · exact hnm
  · rw [Bool.not_eq_true] at hnm
    rw [hnm] at h
    cases h

structure Applied (job : Job) (w : World) : Prop where
  moved : ∀ pair ∈ job.pairs, Moved job w pair
  slot : LastConfig job w job.temporary job.evidence.configuration
  current : ∃ original repaired desired, job.evidence.configuration = some original ∧
    repairConfiguration original.data job.walletName = some desired ∧ repaired.data = desired ∧
    LastConfig job w kwalletrc (some repaired)

theorem lastReadings_meets {original : File} (hor : job.evidence.configuration = some original)
    (hrp : repairConfiguration original.data job.walletName = some desired) :
    Meets (Written job start desired) (do
      require (sameFile job (← readConfig job fileLimit job.temporary) job.evidence.configuration)
      let tempState ← Op.view fun w => .ok w.tempState
      require (sameFile job (← readConfig job fileLimit kwalletrc) tempState)
      let _ ← Op.forEach (checkPair job) job.pairs
      pass job) (fun _ w => Inv job start w ∧ Applied job w) (Fails job start) := by
  have hwr : Reads job start (Written job start desired) := reads_written desired
  apply Meets.bind (Q := fun file w => Written job start desired w ∧ w.seenConfig job.temporary = some file)
  · apply meets_readConfig hwr.stable fun _ => hwr.inv
    exact fun w file hw _ _ => ⟨hwr.sawConfig w _ _ hw, seenConfig_sawConfig ..⟩
  intro file
  apply Meets.bind (Q := fun _ w => Written job start desired w ∧
    LastConfig job w job.temporary job.evidence.configuration)
  · apply meets_require fun _ w hw => hw.1.inv
    rintro w hsm ⟨hw, hse⟩
    obtain ⟨f, rfl, hsm⟩ := sameFile_some hsm
    exact ⟨hw, f, hse, hsm⟩
  intro _
  apply Meets.bind (Q := fun tempState w =>
    (Written job start desired w ∧ LastConfig job w job.temporary job.evidence.configuration) ∧
      w.tempState = tempState)
  · apply Op.meets_view
    exact fun w hw => ⟨hw, rfl⟩
  intro tempState
  apply Meets.bind (Q := fun file w => (Written job start desired w ∧
    LastConfig job w job.temporary job.evidence.configuration) ∧ w.tempState = tempState ∧
      w.seenConfig kwalletrc = some file)
  · apply meets_readConfig _ fun _ w hw => hw.1.1.inv
    · rintro w file ⟨⟨hw, hsl⟩, htm⟩ - -
      exact ⟨⟨hwr.sawConfig w _ _ hw, hsl.saw_other (kwalletrc_ne_temporary job).symm⟩, htm,
        seenConfig_sawConfig ..⟩
    · apply stable_of_disturbs
      rintro w w' hw ⟨⟨h, hsl⟩, htm⟩
      obtain ⟨-, -, -, htm', hse, -⟩ := hw.locals
      exact ⟨⟨h.disturbed hw, hsl.of_eq hse⟩, htm'.trans htm⟩
  intro file
  apply Meets.bind (Q := fun _ w => Exchanged job start desired w ∧ ∀ p ∈ [], Moved job w p)
  · apply meets_require fun _ w hw => hw.1.1.inv
    rintro w hsm ⟨⟨hw, hsl⟩, rfl, hse⟩
    obtain ⟨f, rfl, hsm⟩ := sameFile_some hsm
    exact ⟨⟨hw, hsl, f, hse, hsm⟩, nofun⟩
  intro _
  apply Meets.bind (Q := fun _ w => Exchanged job start desired w ∧ ∀ p ∈ job.pairs, Moved job w p)
  · apply Meets.forEach (I := fun done _ w => Exchanged job start desired w ∧ ∀ p ∈ done, Moved job w p)
    exact fun done pair rest _ hpi => checkPair_meets (isWalletName_of_repair hrp) hpi
  intro _
  apply meets_pass
  · apply stable_of_disturbs
    rintro w w' hw ⟨hex, hmv⟩
    exact ⟨hex.disturbed hw, fun p hp => (hmv p hp).of_eq hw.locals.2.2.2.2.2⟩
  · exact fun _ w hw => hw.1.written.inv
  · rintro w ⟨hex, hmv⟩
    obtain ⟨o, ho, hdat⟩ := hex.written.tempState
    have hcur := hex.current
    rw [ho] at hcur
    exact ⟨hex.written.inv, hmv, hex.slot, original, o, desired, hor, hrp, hdat, hcur⟩

theorem transition_meets : Meets (fun w => Inv job start w ∧ w.created = false) (transition job)
    (fun _ w => Inv job start w ∧ Applied job w) (Fails job start) := by
  have hunc : Reads job start fun w => Inv job start w ∧ w.created = false := reads_uncreated
  unfold transition
  apply hunc.pass.bind
  intro _
  apply inspectWallet_meets.bind
  intro fresh
  have hfn : Reads job start fun w => Inv job start w ∧ w.created = false ∧
    (fresh.isSome = true → HasConfig w) :=
    reads_found _
  apply Meets.bind (Q := fun _ w => Inv job start w ∧ w.created = false ∧ (true = true → HasConfig w))
  · apply meets_require fun _ => hfn.inv
    intro w hcn hw
    obtain ⟨evidence, rfl, -⟩ := (Option.any_eq_true _ _).1 hcn
    exact hw
  intro _
  apply Meets.bind (Meets.forEach_keeps fun _ _ => (reads_found true).pass)
  intro _
  apply Meets.bind (Q := fun _ w => Inv job start w ∧ w.created = false)
  · apply Op.meets_assign
    rintro w ⟨h, hcr, hconf⟩
    exact ⟨{ h with opened := fun _ => hconf rfl }, hcr⟩
  intro _
  apply hunc.pass.bind
  intro _
  apply Meets.bind (Q := fun desired w => (Inv job start w ∧ w.created = false) ∧ ∃ original,
    job.evidence.configuration = some original ∧ repairConfiguration original.data job.walletName = some desired)
  · apply Op.meets_lift
    · intro desired w hlif hw
      refine ⟨hw, ?_⟩
      cases hrp : job.evidence.configuration.bind fun file => repairConfiguration file.data job.walletName with
      | none =>
        rw [hrp] at hlif
        cases hlif
      | some result =>
        rw [hrp] at hlif
        cases hlif
        obtain ⟨original, hor, hrp⟩ := Option.bind_eq_some_iff.1 hrp
        exact ⟨original, hor, hrp⟩
    · exact fun _ w _ hw => hw.1
  intro desired
  apply Meets.assuming
  rintro ⟨original, hor, hrp⟩
  have hwr : Reads job start (Written job start desired) := reads_written desired
  apply (writeTemporary_meets desired).bind
  intro _
  apply (captureTemporary_meets desired).bind
  intro _
  apply Meets.bind (Meets.forEach_keeps fun pair _ => movePair_meets desired pair)
  intro _
  apply hwr.pass.bind
  intro _
  apply hwr.readConfig.bind
  intro _
  apply (hwr.require _).bind
  intro _
  apply (exchangeConfig_meets desired).bind
  intro _
  apply hwr.pass.bind
  intro _
  exact lastReadings_meets hor hrp

end WebOvpn.Wallet
