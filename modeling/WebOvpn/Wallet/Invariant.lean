/-
What every step of the repair keeps: the files that others have stored, and
where the file of the call is.
-/
import WebOvpn.Wallet.Apply

namespace WebOvpn.Wallet

open Text
open Op (Stable Meets)

variable {job : Job} {start w w' : World} {name : Text} {file f g : File} {limit : Nat}
    {code : WalletCode}

/-- What a move of the others leaves, and what it brings. -/
structure Disturbs (job : Job) (w w' : World) : Prop where
  keptConfig : w.config.Kept w.ours → w'.config.Kept w.ours
  keptWallet : w.wallet.Kept none → w'.wallet.Kept none
  slot : w'.config.folder.get job.temporary = w.config.folder.get job.temporary
  current : w'.config.folder.get kwalletrc = w.config.folder.get kwalletrc ∨
    ∃ f ∈ w'.versions, w'.config.folder.get kwalletrc = some f
  versions : w.versions ⊆ w'.versions
  theirs : ∀ f ∈ w'.config.theirs, f ∈ w.config.theirs ∨
    ∀ o, w.config.folder.get job.temporary = some o → f.node ≠ o.node
  locals : w'.opened = w.opened ∧ w'.created = w.created ∧ w'.ours = w.ours ∧ w'.tempState = w.tempState ∧
    w'.seenConfig = w.seenConfig ∧ w'.seenWallet = w.seenWallet

theorem Disturbs.refl (job : Job) (w : World) : Disturbs job w w :=
  ⟨id, id, rfl, .inl rfl, List.Subset.refl _, fun _ h => .inl h, rfl, rfl, rfl, rfl, rfl, rfl⟩

theorem kwalletrc_ne_temporary (job : Job) : kwalletrc ≠ job.temporary := by
  intro h
  have hha : kwalletrc.head? = some (CodePoint.ofChar '.') := h ▸ rfl
  exact absurd hha (by decide)

theorem others_disturb (job : Job) (w : World) (move : Move) : Disturbs job w (others job w move) := by
  cases move with
  | wallet name file =>
    exact ⟨id, fun h => h.stored, rfl, .inl rfl, List.Subset.refl _, fun _ h => .inl h, rfl, rfl,
      rfl, rfl, rfl, rfl⟩
  | config name file =>
    change Disturbs job w (if name = job.temporary then w else _)
    split
    · exact .refl job w
    · rename_i hnm
      refine ⟨fun h => h.stored, id, SharedFolder.get_stored_ne fun h => hnm h.symm, ?_, ?_, ?_,
        rfl, rfl, rfl, rfl,
        rfl, rfl⟩
      · by_cases hcur : name = kwalletrc
        · subst hcur
          unfold SharedFolder.stored
          split
          · rename_i htk
            refine .inr ⟨file, ?_, Folder.get_store_self htk⟩
            dsimp only
            rw [if_pos ⟨rfl, htk⟩]
            exact List.mem_cons_self
          · exact .inl rfl
        · exact .inl (SharedFolder.get_stored_ne fun h => hcur h.symm)
      · dsimp only
        split
        · exact List.subset_cons_self ..
        · exact List.Subset.refl _
      · dsimp only
        unfold SharedFolder.stored
        split
        · rename_i htk
          intro f hf
          rcases List.mem_cons.1 hf with rfl | hf
          · exact .inr fun o ho h => htk.node_ne ho (fun heq => hnm heq.symm) h.symm
          · exact .inl (List.mem_filter.1 hf).1
        · exact fun f hf => .inl hf

theorem stable_of_disturbs {P : World → Prop} (h : ∀ w w', Disturbs job w w' → P w → P w') :
    Stable (others job) P :=
  fun w move hw => h w _ (others_disturb job w move) hw

/-- The invariant of a call that began in `start`. -/
structure Inv (job : Job) (start w : World) : Prop where
  keptConfig : w.config.Kept w.ours
  keptWallet : w.wallet.Kept none
  current : ∀ f, w.config.folder.get kwalletrc = some f → f ∈ w.versions ∨ w.ours = some f
  slot : w.created = true → ∀ f, w.config.folder.get job.temporary = some f → f ∈ w.versions ∨ w.ours = some f
  uncreated : w.created = false → w.ours = none ∧ w.tempState = none ∧
    w.config.folder.get job.temporary = start.config.folder.get job.temporary
  created : w.created = true → start.config.folder.get job.temporary = none
  regular : ∀ f, w.ours = some f → f.isRegular = true
  tempState : ∀ f, w.tempState = some f → w.ours = some f
  opened : w.opened = true → (w.config.folder.get kwalletrc).isSome = true

theorem Inv.disturbed (h : Inv job start w) (hw : Disturbs job w w') : Inv job start w' := by
  obtain ⟨hop, hcr, hours, htm, -, -⟩ := hw.locals
  constructor
  · rw [hours]
    exact hw.keptConfig h.keptConfig
  · exact hw.keptWallet h.keptWallet
  · rw [hours]
    intro f hf
    rcases hw.current with hsm | ⟨g, hg, hget⟩
    · rw [hsm] at hf
      exact (h.current f hf).imp_left fun hmem => hw.versions hmem
    · cases hget.symm.trans hf
      exact .inl hg
  · rw [hours, hcr, hw.slot]
    exact fun hc f hf => (h.slot hc f hf).imp_left fun hmem => hw.versions hmem
  · rw [hcr, hours, htm, hw.slot]
    exact h.uncreated
  · rw [hcr]
    exact h.created
  · rw [hours]
    exact h.regular
  · rw [hours, htm]
    exact h.tempState
  · rw [hop]
    intro ho
    rcases hw.current with hsm | ⟨g, -, hget⟩
    · rw [hsm]
      exact h.opened ho
    · rw [hget]
      rfl

theorem stable_inv : Stable (others job) (Inv job start) :=
  stable_of_disturbs fun _ _ hw h => h.disturbed hw

@[simp]
theorem seenConfig_sawConfig (w : World) (name : Text) (file : Option File) :
    (w.sawConfig name file).seenConfig name = some file :=
  Function.update_self ..

theorem seenConfig_sawConfig_ne {other : Text} (h : name ≠ other) (w : World) (file : Option File) :
    (w.sawConfig other file).seenConfig name = w.seenConfig name :=
  Function.update_of_ne h ..

@[simp]
theorem seenWallet_sawWallet (w : World) (name : Text) (file : Option File) :
    (w.sawWallet name file).seenWallet name = some file :=
  Function.update_self ..

theorem Inv.sawConfig (h : Inv job start w) (name : Text) (file : Option File) :
    Inv job start (w.sawConfig name file) :=
  { h with }

theorem Inv.sawWallet (h : Inv job start w) (name : Text) (file : Option File) :
    Inv job start (w.sawWallet name file) :=
  { h with }

section

variable {P : World → Prop} {α : Type} {E : WalletCode → World → Prop}

theorem meets_pass {Q : Unit → World → Prop} (hst : Stable (others job) P)
    (hE : ∀ code w, P w → E code w)
    (hQ : ∀ w, P w → Q () w) : Meets P (pass job) Q E :=
  Op.meets_own hst (hE _) hQ

theorem fileState_ok {found file : Option File} (h : fileState job limit found = .ok file) :
    found = file ∧ ∀ f, file = some f → f.isRegular = true := by
  unfold fileState at h
  split at h
  · cases h
    exact ⟨rfl, nofun⟩
  · split at h
    · rename_i hown
      cases h
      refine ⟨rfl, ?_⟩
      rintro f ⟨⟩
      unfold isOwned at hown
      simp only [Bool.and_eq_true] at hown
      exact hown.1.1.1.1.1
    · cases h

variable {Q : Option File → World → Prop}

theorem meets_readConfig (hsa : Stable (others job) P)
    (hE : ∀ code w, P w → E code w)
    (hQ : ∀ w file, P w → w.config.folder.get name = file → (∀ f, file = some f → f.isRegular = true) →
      Q file (w.sawConfig name file)) : Meets P (readConfig job limit name) Q E := by
  apply Op.meets_own hsa (hE _)
  intro w hw
  cases hst : fileState job limit (w.config.folder.get name) with
  | error code => exact hE code w hw
  | ok file =>
    obtain ⟨hfn, hrg⟩ := fileState_ok hst
    exact hQ w file hw hfn hrg

theorem meets_readWallet (hsa : Stable (others job) P)
    (hE : ∀ code w, P w → E code w)
    (hQ : ∀ w file, P w → w.wallet.folder.get name = file → Q file (w.sawWallet name file)) :
    Meets P (readWallet job limit name) Q E := by
  apply Op.meets_own hsa (hE _)
  intro w hw
  cases hst : fileState job limit (w.wallet.folder.get name) with
  | error code => exact hE code w hw
  | ok file => exact hQ w file hw (fileState_ok hst).1

theorem meets_require {condition : Bool} {Q : Unit → World → Prop} (hE : ∀ code w, P w → E code w)
    (hQ : ∀ w, condition = true → P w → Q () w) : Meets P (require condition) Q E := by
  apply Op.meets_raiseIf
  · intro w hc hw
    exact hQ w (Bool.not_eq_false _ ▸ hc) hw
  · exact fun w _ hw => hE _ w hw

end

theorem Inv.exchangeConfig (h : Inv job start w) (hcr : w.created = true)
    (hsl : (w.config.folder.get job.temporary).isSome = true) :
    Inv job start { w with config :=
      { w.config with folder := w.config.folder.exchange job.temporary kwalletrc } } where
  keptConfig := h.keptConfig.exchange _ _
  keptWallet := h.keptWallet
  current f hf := by
    dsimp only at hf
    rw [Folder.get_exchange, Equiv.swap_apply_right] at hf
    exact h.slot hcr f hf
  slot _ f hf := by
    dsimp only at hf
    rw [Folder.get_exchange, Equiv.swap_apply_left] at hf
    exact h.current f hf
  uncreated hc := by
    rw [hcr] at hc
    cases hc
  created := h.created
  regular := h.regular
  tempState := h.tempState
  opened _ := by
    dsimp only
    rw [Folder.get_exchange, Equiv.swap_apply_right]
    exact hsl

theorem Inv.renameWallet (h : Inv job start w) (old new : Text) :
    Inv job start { w with wallet := { w.wallet with folder := w.wallet.folder.exchange old new } } :=
  { h with keptWallet := h.keptWallet.exchange _ _ }

end WebOvpn.Wallet
