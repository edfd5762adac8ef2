/-
The law of the repair: it is applied as a whole or taken back as a whole, and no
file of anybody else is lost.
-/
import WebOvpn.Lib.Sha256
import WebOvpn.Wallet.Rollback

namespace WebOvpn.Wallet

open Text
open Op (Stable Meets)

variable {job : Job} {start w : World} {config wallet : Folder Text File.node} {turns : List (Turn Move)}

def World.initial (config wallet : Folder Text File.node) : World where
  config := ⟨config, config.files⟩
  wallet := ⟨wallet, wallet.files⟩
  versions := (config.get kwalletrc).toList
  opened := false
  created := false
  ours := none
  tempState := none
  seenConfig _ := none
  seenWallet _ := none

theorem start_inv (config wallet : Folder Text File.node) :
    Inv job (World.initial config wallet) (World.initial config wallet) where
  keptConfig _ hf := .inl hf
  keptWallet _ hf := .inl hf
  current _ hf := .inl (Option.mem_toList.2 hf)
  slot := nofun
  uncreated _ := ⟨rfl, rfl, rfl⟩
  created := nofun
  regular := nofun
  tempState := nofun
  opened := nofun

/-- The call returns, or it stops with one of its codes. -/
theorem applyWalletFiles_meets (hsha : Function.Injective job.sha256) :
    Meets (fun w => Inv job start w ∧ w.created = false) (applyWalletFiles job)
      (fun _ w => Inv job start w ∧ Applied job w)
      (fun code w => Inv job start w ∧ (code = .rollbackVerified → RolledBack job start w)) := by
  unfold applyWalletFiles
  apply Meets.bind (Q := fun _ w => Inv job start w ∧ w.created = false)
  · apply Op.meets_raiseIf
    · exact fun w _ hw => hw
    · exact fun w _ hw => ⟨hw.1, nofun⟩
  intro _
  apply Meets.bind (Q := fun _ w => Inv job start w ∧ w.created = false)
  · apply Op.meets_raiseIf
    · exact fun w _ hw => hw
    · exact fun w _ hw => ⟨hw.1, nofun⟩
  intro _
  apply Meets.onError transition_meets
  intro code
  apply Meets.bind (Q := fun opened w => Inv job start w ∧ w.opened = opened)
  · exact Op.meets_view fun w hw => ⟨hw, rfl⟩
  intro opened
  apply Meets.bind (Q := fun _ w => Inv job start w ∧ w.opened = true)
  · apply Op.meets_raiseIf
    · exact fun w hop hw => ⟨hw.1, hw.2.trans (Bool.eq_true_of_not_eq_false hop)⟩
    · exact fun w _ hw => ⟨hw.1, nofun⟩
  intro _
  apply Meets.bind (Q := fun _ w => Inv job start w ∧ RolledBack job start w)
  · apply Meets.onError (rollback_meets hsha)
    intro _
    exact Op.meets_raise fun w hw => ⟨hw, nofun⟩
  intro _
  exact Op.meets_raise fun w hw => ⟨hw.1, fun _ => hw.2⟩

def IsOriginal (file original : File) : Prop := file.data = original.data ∧ file.node = original.node

/-- What was read last after a repair: the files of the wallet under their new
names only, the repaired configuration, and the original one in the other slot. -/
structure ReadsApplied (job : Job) (w : World) : Prop where
  wallet : ∀ pair ∈ job.pairs, w.seenWallet pair.1 = some none ∧ ∃ file original,
    w.seenWallet pair.2 = some (some file) ∧ job.file? pair.1 = some original ∧ IsOriginal file original
  configuration : ∃ file original, w.seenConfig kwalletrc = some (some file) ∧
    job.evidence.configuration = some original ∧
      repairConfiguration original.data job.walletName = some file.data
  slot : ∃ file original, w.seenConfig job.temporary = some (some file) ∧
    job.evidence.configuration = some original ∧ IsOriginal file original

/-- What was read last after a rollback: the files of the wallet under their old
names and a configuration that is not the call's. The temporary file is gone. -/
structure ReadsRolledBack (job : Job) (config : Folder Text File.node) (w : World) : Prop where
  wallet : ∀ pair ∈ job.pairs, ∃ file original, w.seenWallet pair.1 = some (some file) ∧
    job.file? pair.1 = some original ∧ IsOriginal file original
  configuration : ∃ file ∈ w.versions, w.seenConfig kwalletrc = some (some file)
  slot : w.config.folder.get job.temporary = config.get job.temporary

section

variable (hsha : Function.Injective job.sha256)
include hsha

theorem isOriginal_of_sameFile {file : File} {expected : Option File}
    (h : sameFile job (some file) expected = true) : ∃ original, expected = some original ∧
      IsOriginal file original := by
  obtain ⟨original, rfl⟩ := sameFile_right h
  exact ⟨original, rfl, data_of_sameFile hsha h, node_of_sameFile h⟩

theorem Applied.reads (h : Applied job w) : ReadsApplied job w where
  wallet pair hpi := by
    obtain ⟨hnn, file, hse, hsm⟩ := h.moved pair hpi
    obtain ⟨original, hor, his⟩ := isOriginal_of_sameFile hsha hsm
    exact ⟨hnn, file, original, hse, hor, his⟩
  configuration := by
    obtain ⟨original, repaired, desired, hor, hrp, hdat, file, hse, hsm⟩ := h.current
    refine ⟨file, original, hse, hor, ?_⟩
    rw [data_of_sameFile hsha hsm, hdat]
    exact hrp
  slot := by
    obtain ⟨file, hse, hsm⟩ := h.slot
    obtain ⟨original, hor, his⟩ := isOriginal_of_sameFile hsha hsm
    exact ⟨file, original, hse, hor, his⟩

theorem RolledBack.reads (h : RolledBack job (World.initial config wallet) w) :
    ReadsRolledBack job config w where
  wallet pair hpi := by
    obtain ⟨file, hse, hsm⟩ := h.back pair hpi
    obtain ⟨original, hor, his⟩ := isOriginal_of_sameFile hsha hsm
    exact ⟨file, original, hse, hor, his⟩
  configuration := h.current
  slot := h.slot

end

/-- A call of `apply_wallet_files` on two folders, among the moves of others. -/
def call (job : Job) (config wallet : Folder Text File.node) (turns : List (Turn Move)) :
    Except WalletCode Unit × World :=
  ((Op.exec (applyWalletFiles job) ⟨World.initial config wallet, turns⟩).1,
    (Op.exec (applyWalletFiles job) ⟨World.initial config wallet, turns⟩).2.state)

/-- A repair that returns reads as applied, one that reports its rollback reads as before,
and at every end what another program wrote is kept. -/
theorem repair_all_or_nothing (hsha : Function.Injective job.sha256)
    (config wallet : Folder Text File.node)
    (turns : List (Turn Move)) :
    ((call job config wallet turns).1 = .ok () → ReadsApplied job (call job config wallet turns).2) ∧
      ((call job config wallet turns).1 = .error .rollbackVerified →
        ReadsRolledBack job config (call job config wallet turns).2) ∧
      (call job config wallet turns).2.config.Kept (call job config wallet turns).2.ours ∧
      (call job config wallet turns).2.wallet.Kept none := by
  have hmee := applyWalletFiles_meets hsha ⟨World.initial config wallet, turns⟩
    ⟨start_inv config wallet, rfl⟩
  unfold Op.Holds at hmee
  unfold call
  dsimp only
  cases hrs : (Op.exec (applyWalletFiles job) ⟨World.initial config wallet, turns⟩).1 with
  | ok _ =>
    rw [hrs] at hmee
    exact ⟨fun _ => hmee.2.reads hsha, nofun, hmee.1.keptConfig, hmee.1.keptWallet⟩
  | error code =>
    rw [hrs] at hmee
    refine ⟨nofun, fun hcd => ?_, hmee.1.keptConfig, hmee.1.keptWallet⟩
    exact (hmee.2 (Except.error.inj hcd)).reads hsha

def sampleFile (inode : Nat) (data : String) : File :=
  ⟨(1, inode), 1000, 1000, 0o600, 1, true, asciiBytes data.toList⟩

def sampleConfiguration : File := sampleFile 5 "[Wallet]\nDefault Wallet=\nFirst Use=false\n"

def replacedConfiguration : File := sampleFile 10 "[Wallet]\nDefault Wallet=mine\n"

def sampleFiles : List (Text × File) :=
  [(".kwl", sampleFile 6 "wallet"), (".salt", sampleFile 7 "salt"),
    ("_attributes.json", sampleFile 8 "\x7b\x7d")]

def sampleDigests : List (Bytes × Text) :=
  [(sampleConfiguration.data, "ed3e017a453da36dec274024ba7e765792d237399d7034222d99534d01091abd"),
    (asciiBytes "[Wallet]\nDefault Wallet=recovered-wallet\nFirst Use=false\n".toList,
      "f46003437f24266e5da7af78fe46cb58e31010e57b97fb6718a4e89edc77a3a3"),
    (asciiBytes "wallet".toList, "e8d44050873dba865aa7c170ab4cce64d90839a34dcfd6cf71d14e0205443b1b"),
    (asciiBytes "salt".toList, "63479ad69a090b258277ec8fba6f99419a2ffb248981510657c944ccd1148e97"),
    (replacedConfiguration.data, "49ebcd9b088bf9a441165406981b1f971e4f86a133cdaf2f7c8e2d7ff3ae8d74"),
    (asciiBytes "\x7b\x7d".toList, "44136fa355b3678a1146ad16f7e8649e94fb4fc21fe77e8310c060f61caaff8a")]

def sampleJob : Job where
  sha256 := digestFrom sampleDigests
  allocate nodes := (1, nodes.foldl (fun most node => max most (node.2 + 1)) 9)
  context := ⟨1000, 1000⟩
  walletName := "recovered-wallet"
  evidence := ⟨some sampleConfiguration, sampleFiles⟩
  operationSha256 := List.replicate 64 '0'
  isWriter := true

def sampleConfig : Folder Text File.node := ⟨[(kwalletrc, sampleConfiguration)], by decide, by decide⟩

def sampleWallet : Folder Text File.node := ⟨sampleFiles, by decide, by decide⟩

/-- `kwalletrc` is replaced just before it is exchanged. -/
def sampleTurns : List (Turn Move) := List.replicate 102 ⟨[], false⟩ ++
  [⟨[.config kwalletrc replacedConfiguration], false⟩]

/-- The law where `kwalletrc` is replaced just before it is exchanged. -/
theorem sampleJob_law : ((call sampleJob sampleConfig sampleWallet sampleTurns).1 = .ok () →
        ReadsApplied sampleJob (call sampleJob sampleConfig sampleWallet sampleTurns).2) ∧
      ((call sampleJob sampleConfig sampleWallet sampleTurns).1 = .error .rollbackVerified →
        ReadsRolledBack sampleJob sampleConfig
          (call sampleJob sampleConfig sampleWallet sampleTurns).2) ∧
      (call sampleJob sampleConfig sampleWallet sampleTurns).2.config.Kept
        (call sampleJob sampleConfig sampleWallet sampleTurns).2.ours ∧
      (call sampleJob sampleConfig sampleWallet sampleTurns).2.wallet.Kept none :=
  repair_all_or_nothing (digestFrom_injective (by decide) (by decide)) sampleConfig sampleWallet sampleTurns

end WebOvpn.Wallet
