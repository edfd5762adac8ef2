/-
The operations on the resolver file keep the invariant, and what an observation shows was
read last.
-/
import WebOvpn.Resolver.Retained

namespace WebOvpn.Resolver

open Text
open Op (Meets Stable)

variable {job : Job} {path slot : Text} {before : Option (Snapshot × Readings)} {bound : Bool} {α : Type}

/-- The slot of the call, with nobody else's file in it. -/
def HasSlot (before : Option (Snapshot × Readings)) (bound : Bool) (slot : Text) (w : World) : Prop :=
  Within before bound w ∧ Mine slot w

theorem steady_slot (hsl : isPrivate slot = true) :
    Steady before bound (HasSlot before bound slot) := steady_mine hsl

theorem Within.withFolder {w : World} (h : Within before bound w) {folder : Folder Text File.node}
    (hinv : Inv { w with folder := folder }) : Within before bound { w with folder := folder } :=
  ⟨hinv, h.before_eq, h.bound_some⟩

theorem HasSlot.store {w : World} {file : File} (h : HasSlot before bound slot w)
    (hsl : isPrivate slot = true)
    (htk : w.folder.Takes slot file) :
    HasSlot before bound slot { w with folder := w.folder.store slot file htk } :=
  ⟨h.1.withFolder (h.1.inv.storeSlot hsl h.2 htk), h.1.inv.mine_storeSlot hsl h.2 htk⟩

theorem makeSlot_meets (path : Text) : Meets (Within before bound) (makeSlot job path)
    (fun slot w => HasSlot before bound slot w ∧ IsSlot path slot) (Fails before bound) := by
  unfold makeSlot step
  apply Op.meets_own_cases stable_within (steady_within.fails _)
  · intro w slot w' hw h
    dsimp only at h
    split at h
    · rename_i hfr
      cases h
      refine ⟨HasSlot.store ⟨hw, mine_of_free hfr.1⟩ hfr.2.1.1 hfr.2.2, hfr.2.1⟩
    · cases h
  · intro w code w' hw h
    dsimp only at h
    split at h <;> cases h
    exact hw

theorem changeSlot_meets (hsl : isPrivate slot = true) (change : File → File) :
    Meets (HasSlot before bound slot) (changeSlot slot change) (fun _ => HasSlot before bound slot)
      (Fails before bound) := by
  apply Op.meets_own_cases (steady_slot hsl).stable ((steady_slot hsl).fails _)
  · intro w _ w' hw h
    split at h
    · cases h
    · split at h
      · rename_i htk
        cases h
        exact HasSlot.store hw hsl htk
      · cases h
  · intro w code w' hw h
    split at h
    · cases h
      exact hw.1
    · split at h <;> cases h
      exact hw.1

theorem Steady.slotNode {P : World → Prop} (hP : Steady before bound P) (slot : Text) :
    Meets P (slotNode slot) (fun _ => P) (Fails before bound) := by
  apply Op.meets_own hP.stable (hP.fails _)
  intro w hw
  cases w.folder.get slot with
  | none => exact hP.within w hw
  | some file => exact hw

theorem Steady.statFile {P : World → Prop} (hP : Steady before bound P) (node : Nat × Nat) :
    Meets P (statFile node) (fun _ => P) (Fails before bound) :=
  Op.meets_own hP.stable (hP.fails _) fun _ hw => hw

theorem fillSlot_meets (hsl : isPrivate slot = true) (mode uid gid mtime : Nat) (attributes : Attributes)
    (data : Bytes) :
      Meets (HasSlot before bound slot) (fillSlot job slot mode uid gid mtime attributes data)
      (fun _ => HasSlot before bound slot) (Fails before bound) := by
  have hst := @steady_slot slot before bound hsl
  unfold fillSlot
  apply (changeSlot_meets hsl _).bind
  intro _
  apply Meets.bind (Q := fun _ => HasSlot before bound slot)
  · exact meets_runIf (fun _ => changeSlot_meets hsl _) fun _ w hw => hw
  intro _
  apply (changeSlot_meets hsl _).bind
  intro _
  apply Meets.bind (Meets.forEach_keeps fun _ _ => changeSlot_meets hsl _)
  intro _
  exact hst.pass

theorem exchange_comm (d : Folder Text File.node) (a b : Text) : d.exchange a b = d.exchange b a := by
  unfold Folder.exchange
  simp only [Equiv.swap_comm]

theorem exchangeNames_meets (hpt : isPrivate path = false) (hsl : IsSlot path slot) :
    Meets (HasSlot before bound slot) (exchangeNames slot path) (fun _ => Within before bound)
      (Fails before bound) := by
  apply Op.meets_own_cases (steady_slot hsl.1).stable ((steady_slot hsl.1).fails _)
  · intro w _ w' hw h
    split at h <;> cases h
    exact hw.1.withFolder (hw.1.inv.exchange hpt hsl (hw.2.displaced path))
  · intro w code w' hw h
    split at h <;> cases h
    exact hw.1

theorem meets_renameFree {P : World → Prop} {old new : Text} {code : DnsCode} {Q : Unit → World → Prop}
    (hP : Steady before bound P)
    (hQ : ∀ w, P w → w.folder.get new = none → Q () { w with folder := w.folder.exchange old new }) :
    Meets P (renameFree old new code) Q (Fails before bound) := by
  apply Op.meets_own_cases hP.stable (hP.fails _)
  · intro w _ w' hw h
    split at h
    · rename_i hfr
      cases h
      apply hQ w hw
      simp only [Bool.and_eq_true, Option.isNone_iff_eq_none] at hfr
      exact hfr.2
    · cases h
  · intro w _ w' hw h
    split at h <;> cases h
    exact hP.within w hw

theorem exchange_meets (hpt : isPrivate path = false) (old new : Bytes) (info : Replacement)
    (attributes : Attributes) (mtime : Nat) : Meets (Within before bound)
      (exchange job path old new info attributes mtime) (fun _ => Within before bound)
        (Fails before bound) := by
  unfold exchange
  apply (steady_within.readPresent _ _ _).bind
  intro current
  apply (steady_within.readAttributes _).bind
  intro currentAttributes
  apply (steady_within.definite _ _).bind
  intro known
  apply (steady_within.require _ _).bind
  intro _
  apply Meets.assuming
  intro _
  apply (makeSlot_meets path).bind
  intro slot
  apply Meets.assuming
  intro hsl
  have hst := @steady_slot slot before bound hsl.1
  apply (hst.slotNode slot).bind
  intro node
  apply (fillSlot_meets hsl.1 _ _ _ _ _ _).bind
  intro _
  apply hst.pass.bind
  intro _
  apply (exchangeNames_meets hpt hsl).bind
  intro _
  apply (steady_within.readPresent _ _ _).bind
  intro moved
  apply (steady_within.readAttributes _).bind
  intro movedAttributes
  apply (steady_within.require _ _).bind
  intro _
  apply Meets.assuming
  intro _
  apply steady_within.pass.bind
  intro _
  exact steady_within.statFile node

theorem publishAbsent_meets (hpt : isPrivate path = false) (data : Bytes) (mtime : Nat) :
    Meets (Within before bound) (publishAbsent job path data mtime) (fun _ => Within before bound)
      (Fails before bound) := by
  unfold publishAbsent
  apply steady_within.pass.bind
  intro _
  apply (makeSlot_meets path).bind
  intro slot
  apply Meets.assuming
  intro hsl
  have hst := @steady_slot slot before bound hsl.1
  apply (hst.slotNode slot).bind
  intro node
  apply (fillSlot_meets hsl.1 _ _ _ _ _ _).bind
  intro _
  apply hst.pass.bind
  intro _
  apply Meets.bind (Q := fun _ => Within before bound)
  · apply meets_renameFree hst
    intro w hw _
    exact hw.1.withFolder (hw.1.inv.exchange hpt hsl (hw.2.displaced path))
  intro _
  apply steady_within.pass.bind
  intro _
  exact steady_within.statFile node

theorem nameSlot_meets (path : Text) : Meets (Within before bound) (nameSlot job path)
    (fun slot w => Within before bound w ∧ IsSlot path slot) (Fails before bound) := by
  unfold nameSlot step
  apply Op.meets_own_cases stable_within (steady_within.fails _)
  · intro w slot w' hw h
    dsimp only at h
    split at h <;> cases h
    exact ⟨hw, ‹_›⟩
  · intro w code w' hw h
    dsimp only at h
    split at h <;> cases h
    exact hw

theorem undoRemoval_meets (hpt : isPrivate path = false) (hsl : IsSlot path slot) :
    Meets (fun w => Within before bound w ∧ Displaced path slot w) (undoRemoval slot path)
      (fun _ => Within before bound) (Fails before bound) := by
  unfold undoRemoval
  apply Meets.bind (Q := fun _ => Within before bound)
  · apply Meets.onError (E := Fails before bound)
    · apply meets_renameFree (steady_displaced hsl.1)
      intro w hw _
      exact hw.1.withFolder (hw.1.inv.exchange hpt hsl hw.2)
    · exact fun _ => Op.meets_pure fun w hw => hw
  · exact fun _ => Op.meets_raise fun w hw => hw

theorem restoreAbsent_meets (hpt : isPrivate path = false) (data : Bytes) (info : Replacement) :
    Meets (Within before bound) (restoreAbsent job path data info) (fun _ => Within before bound)
      (Fails before bound) := by
  unfold restoreAbsent
  apply (steady_within.readPresent _ _ _).bind
  intro current
  apply (steady_within.readAttributes _).bind
  intro currentAttributes
  apply (steady_within.definite _ _).bind
  intro known
  apply (steady_within.require _ _).bind
  intro _
  apply Meets.assuming
  intro _
  apply (nameSlot_meets path).bind
  intro slot
  apply Meets.assuming
  intro hsl
  apply steady_within.pass.bind
  intro _
  have hst : Steady before bound fun w => Within before bound w ∧ Displaced path slot w := steady_displaced hsl.1
  apply Meets.bind (Q := fun _ w => Within before bound w ∧ Displaced path slot w)
  · apply meets_renameFree steady_within
    intro w hw hfr
    refine ⟨hw.withFolder ?_, hw.inv.displaced_exchange hpt⟩
    rw [exchange_comm]
    exact hw.inv.exchange hpt hsl ((mine_of_free hfr).displaced path)
  intro _
  apply (hst.readPresent _ _ _).bind
  intro moved
  apply (hst.readAttributes _).bind
  intro movedAttributes
  split
  · exact hst.pass.post fun _ w hw => hw.1
  · exact undoRemoval_meets hpt hsl

open List
open ConfigParser (isChar)

variable {job : Job} {path source : Text} {file : Option File}
    {before : Option (Snapshot × Readings)} {bound : Bool}
  {α β : Type} {K : Readings → Prop}

theorem baseName_append (front : Text) {name : Text} (h : name.any (isChar '/') = false) :
    baseName (front ++ CodePoint.ofChar '/' :: name) = name := by
  have hall : ∀ c ∈ name.reverse, (!isChar '/' c) = true := by
    intro c hc
    rw [any_eq_false] at h
    simpa using h c (mem_reverse.1 hc)
  unfold baseName
  rw [reverse_append, reverse_cons, append_assoc, takeWhile_append_of_pos hall]
  simp [isChar]

/-- The first characters of a path tell it from another one. -/
theorem ne_of_take {p q : Text} (n : Nat) (h : p.take n ≠ q.take n) : p ≠ q := by
  rintro rfl
  exact h rfl

variable (interface : Text)

theorem interfacePath_eq (name : String) :
    interfacePath interface name = (text "/etc/net/ifaces/" ++ interface) ++
      CodePoint.ofChar '/' :: text name := by
  unfold interfacePath
  rw [append_assoc _ (text "/")]
  rfl

theorem isPrivate_interfacePath : isPrivate (interfacePath interface "resolv.conf") = false := by
  unfold isPrivate
  rw [interfacePath_eq, baseName_append _ (by decide)]
  decide

theorem interfacePath_ne_active : interfacePath interface "resolv.conf" ≠ activePath := by
  apply ne_of_take 6
  unfold interfacePath
  rw [append_assoc, append_assoc, take_append_of_le_length (by decide)]
  decide

theorem interfacePath_ne_source : interfacePath interface "resolv.conf" ≠ sourcePath interface := by
  apply ne_of_take 2
  unfold interfacePath sourcePath
  rw [append_assoc, append_assoc, take_append_of_le_length (by decide),
    take_append_of_le_length (by decide)]
  decide

variable {filename : Text} {snapshot : Snapshot}

theorem keyfilePath_cases (h : isKeyfilePath filename = true) :
    ∃ name, filename = connectionsDirectory ++ name ∧ 13 < name.length ∧ ".nmconnection" <:+ name ∧
      name.any (isChar '/') = false := by
  unfold isKeyfilePath at h
  simp only [Bool.and_eq_true, isPrefixOf_iff_prefix, isSuffixOf_iff_suffix, decide_eq_true_eq] at h
  obtain ⟨⟨⟨⟨name, rfl⟩, hsuf⟩, hlen⟩, hall⟩ := h
  rw [length_append] at hlen
  have hln : 13 < name.length := by omega
  refine ⟨name, rfl, hln, ?_, ?_⟩
  · exact suffix_of_suffix_length_le hsuf (suffix_append _ name) hln.le
  · rw [drop_left] at hall
    rw [any_eq_false]
    intro c hc hsl
    have hch := all_eq_true.1 hall c hc
    unfold isChar at hsl
    rw [decide_eq_true_eq] at hsl
    subst hsl
    revert hch
    decide

theorem isPrivate_keyfilePath (h : isKeyfilePath filename = true) : isPrivate filename = false := by
  obtain ⟨name, rfl, hln, ⟨front, rfl⟩, hsl⟩ := keyfilePath_cases h
  have hdir : connectionsDirectory = text "/etc/NetworkManager/system-connections" ++
    [CodePoint.ofChar '/'] := rfl
  have hbas : baseName (connectionsDirectory ++ (front ++ ".nmconnection")) = front ++ ".nmconnection" := by
    rw [hdir, append_assoc]
    exact baseName_append _ hsl
  unfold isPrivate
  rw [hbas]
  rw [Bool.and_eq_false_imp]
  -- the name goes on before its last dot
  cases front with
  | nil => exact absurd hln (by decide)
  | cons c front =>
    intro _
    rw [Bool.not_eq_false', any_eq_true]
    exact ⟨CodePoint.ofChar '.', mem_append_right front (by decide), by decide⟩

theorem keyfilePath_ne_active (h : isKeyfilePath filename = true) : filename ≠ activePath := by
  obtain ⟨name, rfl, -⟩ := keyfilePath_cases h
  apply ne_of_take 6
  rw [take_append_of_le_length (by decide)]
  decide

/-- A point of an observation: what was read last so far. -/
def At (before : Option (Snapshot × Readings)) (bound : Bool) (K : Readings → Prop) (w : World) : Prop :=
  Within before bound w ∧ K w.readings

theorem stable_at : Stable others (At before bound K) := by
  intro w move h
  refine ⟨stable_within w move h.1, ?_⟩
  rw [(locals_others w move).2.2.1]
  exact h.2

variable (code : DnsCode)

theorem fails_at (w : World) (h : At before bound K w) : Fails before bound code w := h.1

theorem require_bind {condition : Bool} {f : Unit → Step α} {Q : α → World → Prop}
    (hf : condition = true → Meets (At before bound K) (f ()) Q (Fails before bound)) :
    Meets (At before bound K) (require condition code >>= f) Q (Fails before bound) := by
  apply Meets.bind (Q := fun _ w => At before bound K w ∧ condition = true)
  · exact meets_require fails_at fun _ hc hw => ⟨hw, hc⟩
  intro _
  exact Meets.assuming hf

theorem definite_bind {value : Option β} {f : β → Step α} {Q : α → World → Prop}
    (hf : ∀ b, value = some b → Meets (At before bound K) (f b) Q (Fails before bound)) :
    Meets (At before bound K) (definite value code >>= f) Q (Fails before bound) := by
  apply Meets.bind (Q := fun b w => At before bound K w ∧ value = some b)
  · exact meets_definite fails_at fun _ _ ha hw => ⟨hw, ha⟩
  intro b
  exact Meets.assuming (hf b)

theorem ask_meets (f : Status → Option α) :
    Meets (At before bound K) (ask code f) (fun _ => At before bound K) (Fails before bound) :=
  meets_ask stable_at fails_at fun _ _ hw => hw

variable {isPrivateFile allowHardlinks : Bool}

theorem readFile_meets {K' : Option File → Readings → Prop}
    (hK : ∀ file r, K r → K' file { r with files := Function.update r.files path (some file) }) :
    Meets (At before bound K) (readFile job isPrivateFile allowHardlinks path)
      (fun file => At before bound (K' file))
      (Fails before bound) :=
  meets_readFile stable_at fails_at fun file _ hw => ⟨hw.1.readings _, hK file _ hw.2⟩

theorem readPresent_meets {K' : File → Readings → Prop}
    (hK : ∀ file r, K r → K' file { r with files := Function.update r.files path (some (some file)) }) :
    Meets (At before bound K) (readPresent job isPrivateFile allowHardlinks path)
      (fun file => At before bound (K' file)) (Fails before bound) :=
  meets_readPresent stable_at fails_at (fun _ _ hw => hw.1.readings _) fun file _ hw =>
    ⟨hw.1.readings _, hK file _ hw.2⟩

theorem readAttributes_meets {K' : Attributes → Readings → Prop}
    (hK : ∀ attributes r, K r →
      K' attributes { r with attributes := Function.update r.attributes path (some attributes) }) :
    Meets (At before bound K) (readAttributes path) (fun attributes => At before bound (K' attributes))
      (Fails before bound) :=
  meets_readAttributes stable_at fails_at fun attributes _ hw => ⟨hw.1.readings _, hK attributes _ hw.2⟩

theorem readNetwork_meets {K' : Bytes → Readings → Prop}
    (hK : ∀ network r, K r → K' network { r with network := some network }) :
    Meets (At before bound K) readNetwork (fun network => At before bound (K' network))
      (Fails before bound) := by
  apply Op.meets_own stable_at (fails_at _)
  intro w hw
  cases w.status.network with
  | none => exact hw.1
  | some network => exact ⟨hw.1.readings _, hK network _ hw.2⟩

def persistentOf (job : Job) : Backend → Option File → Option (List Text)
  | .nmKeyfile, none => none
  | .nmKeyfile, some file => (keyfile file.data).bind (keyfileServers job.ipAddress)
  | _, none => some []
  | _, some file => resolvers job.ipAddress file.data

def Read (path : Text) (file : Option File) (r : Readings) : Prop := r.files path = some file

theorem read_update (path : Text) (file : Option File) (r : Readings) :
    Read path file { r with files := Function.update r.files path (some file) } :=
      Function.update_self ..

theorem Read.update {other : Text} {r : Readings} (h : Read path file r) (hne : path ≠ other)
    (found : Option File) :
    Read path file { r with files := Function.update r.files other (some found) } :=
  (Function.update_of_ne hne _ _).trans h

structure Found (job : Job) (persistent : Persistent) : Prop where
  servers : persistentOf job persistent.backend persistent.file = some persistent.servers
  shared : isPrivate persistent.path = false
  inactive : persistent.path ≠ activePath

def AtFile (job : Job) (before : Option (Snapshot × Readings)) (bound : Bool)
    (persistent : Persistent) (w : World) : Prop :=
  At before bound (Read persistent.path persistent.file) w ∧ Found job persistent

theorem observeKeyfile_meets (interface connection filename : Text) :
    Meets (At before bound fun _ => True) (observeKeyfile job interface connection filename)
      (AtFile job before bound) (Fails before bound) := by
  unfold observeKeyfile
  apply require_bind
  intro hfl
  apply Meets.bind (Q := fun file => At before bound (Read filename (some file)))
  · exact readPresent_meets fun file r _ => read_update filename (some file) r
  intro file
  apply definite_bind
  intro sections hsc
  apply definite_bind
  intro uuid _
  apply require_bind
  intro _
  apply definite_bind
  intro servers hsr
  apply Op.meets_pure
  intro w hw
  refine ⟨hw, ?_, isPrivate_keyfilePath hfl, keyfilePath_ne_active hfl⟩
  unfold persistentOf
  dsimp only
  rw [hsc]
  exact hsr

variable (owned : Option OwnedRollback)

theorem observeSource_meets (hne : path ≠ source) :
    Meets (At before bound (Read path file)) (observeSource job owned path source file)
      (fun _ => At before bound (Read path file)) (Fails before bound) := by
  unfold observeSource
  apply Meets.bind (Q := fun _ => At before bound (Read path file))
  · exact readPresent_meets fun found r hr => hr.update hne (some found)
  intro found
  split
  · exact Op.meets_pure fun w hw => hw
  · cases owned with
    | none => exact Op.meets_raise fun w hw => hw.1
    | some owned =>
      apply Meets.bind (Q := fun _ => At before bound (Read path file))
      · exact readAttributes_meets fun _ r hr => hr
      intro attributes
      apply require_bind
      intro _
      exact Op.meets_pure fun w hw => hw

theorem observeInterface_meets (interface : Text) (connection : Option Text) :
    Meets (At before bound fun _ => True) (observeInterface job owned interface connection)
      (AtFile job before bound) (Fails before bound) := by
  unfold observeInterface
  apply Meets.bind (Q := fun _ => At before bound fun _ => True)
  · exact readPresent_meets fun _ _ _ => trivial
  intro options
  apply definite_bind
  intro settings _
  apply require_bind
  intro _
  apply require_bind
  intro _
  apply Meets.bind (Q := fun file => At before bound (Read (interfacePath interface "resolv.conf") file))
  · exact readFile_meets fun file r _ => read_update _ file r
  intro file
  apply require_bind
  intro _
  apply Meets.bind (Q := fun servers w => At before bound (Read (interfacePath interface "resolv.conf") file) w ∧
    persistentOf job .etcnet file = some servers)
  · unfold readServers
    cases file with
    | none => exact Op.meets_pure fun w hw => ⟨hw, rfl⟩
    | some file => exact meets_definite fails_at fun _ _ ha hw => ⟨hw, ha⟩
  intro servers
  apply Meets.assuming
  intro hsr
  have hfn (backend : Backend) (hbc : backend ≠ .nmKeyfile) :
      persistentOf job backend file = some servers := by
    cases backend with
    | nmKeyfile => exact absurd rfl hbc
    | nmEtcnet => cases file <;> exact hsr
    | etcnet => exact hsr
  cases connection with
  | some _ =>
    apply Op.meets_pure
    intro w hw
    exact ⟨hw, hfn _ nofun, isPrivate_interfacePath interface, interfacePath_ne_active interface⟩
  | none =>
    apply (observeSource_meets owned (interfacePath_ne_source interface)).bind
    intro found
    apply Op.meets_pure
    intro w hw
    exact ⟨hw, hfn _ nofun, isPrivate_interfacePath interface, interfacePath_ne_active interface⟩

theorem observePersistent_meets (interface : Text) (connection : Option Text)
    (filename : Text) :
      Meets (At before bound fun _ => True)
      (observePersistent job owned interface connection filename)
      (AtFile job before bound) (Fails before bound) := by
  unfold observePersistent
  cases connection with
  | none => exact observeInterface_meets owned interface none
  | some uuid =>
    dsimp only
    split
    · exact observeInterface_meets owned interface (some uuid)
    · exact observeKeyfile_meets interface uuid filename

structure Shown (job : Job) (snapshot : Snapshot) (r : Readings) : Prop where
  persistent : r.files snapshot.path = some snapshot.file
  persistentServers : persistentOf job snapshot.facts.backend snapshot.file =
    some snapshot.facts.persistentServers
  servers : ∃ active, r.files activePath = some (some active) ∧
    resolvers job.ipAddress active.data = some snapshot.facts.servers
  attributes : match snapshot.file with
    | none => snapshot.attributes = []
    | some _ => r.attributes snapshot.path = some snapshot.attributes
  network : r.network = some snapshot.network
  networkSha256 : snapshot.facts.networkSha256 = job.sha256 snapshot.network
  shared : isPrivate snapshot.path = false

theorem observeParts_meets :
    Meets (Within before bound) (observeParts job owned)
      (fun snapshot => At before bound (Shown job snapshot)) (Fails before bound) := by
  apply Meets.pre (P := At before bound fun _ => True)
  swap
  · exact fun w hw => ⟨hw, trivial⟩
  unfold observeParts
  apply require_bind
  intro _
  apply require_bind
  intro _
  apply (ask_meets _ _).bind
  intro machine
  apply (ask_meets _ _).bind
  intro boot
  apply (ask_meets _ _).bind
  intro hostname
  apply require_bind
  intro _
  apply (ask_meets _ _).bind
  intro interface
  apply require_bind
  intro _
  apply (ask_meets _ _).bind
  intro connection
  apply require_bind
  intro _
  apply Meets.bind (Q := fun _ => At before bound fun _ => True)
  · unfold askFilename
    cases connection with
    | none => exact Op.meets_pure fun w hw => hw
    | some _ => exact ask_meets _ _
  intro filename
  apply (observePersistent_meets owned interface connection filename).bind
  intro persistent
  apply Meets.assuming
  intro hfn
  apply Meets.bind (Q := fun active => At before bound fun r =>
    Read persistent.path persistent.file r ∧ Read activePath (some active) r)
  · exact readPresent_meets fun active r hr => ⟨hr.update hfn.inactive (some active), read_update _ _ r⟩
  intro active
  apply definite_bind
  intro servers hsr
  apply Meets.bind
  · apply Meets.forEach_keeps
    rintro ⟨path, file⟩ _
    cases file with
    | none => exact Op.meets_pure fun w hw => hw
    | some file =>
      apply Meets.bind (Q := fun _ => At before bound fun r =>
        Read persistent.path persistent.file r ∧ Read activePath (some active) r)
      · exact readAttributes_meets fun _ r hr => hr
      exact fun _ => Op.meets_pure fun w hw => hw
  intro records
  apply Meets.bind (Q := fun network => At before bound fun r =>
    (Read persistent.path persistent.file r ∧ Read activePath (some active) r) ∧ r.network = some network)
  · exact readNetwork_meets fun network r hr => ⟨hr, rfl⟩
  intro network
  apply Meets.bind (Q := fun attributes => At before bound fun r =>
    ((Read persistent.path persistent.file r ∧ Read activePath (some active) r) ∧ r.network = some network) ∧
      match persistent.file with
      | none => attributes = []
      | some _ => r.attributes persistent.path = some attributes)
  · unfold fileAttributes
    cases persistent.file with
    | none => exact Op.meets_pure fun w hw => ⟨hw.1, hw.2, rfl⟩
    | some _ => exact readAttributes_meets fun attributes r hr => ⟨hr, Function.update_self ..⟩
  intro attributes
  apply Op.meets_pure
  rintro w ⟨hw, ⟨⟨hfl, hact⟩, hnet⟩, hatt⟩
  exact ⟨hw, hfl, hfn.servers, ⟨active, hact, hsr⟩, hatt, hnet, rfl, hfn.shared⟩

theorem observeWith_meets : Meets (Within before bound) (observeWith job owned)
      (fun snapshot => At before bound (Shown job snapshot)) (Fails before bound) := by
  unfold observeWith
  apply (observeParts_meets owned).onError
  exact fun _ => Op.meets_raise fun w hw => hw

/-- The last observation is this one, and it was read last. -/
def Observed (job : Job) (before : Option (Snapshot × Readings)) (bound : Bool)
    (snapshot : Snapshot) (w : World) : Prop :=
  At before bound (Shown job snapshot) w ∧ w.observed = some snapshot

theorem stable_observed : Stable others (Observed job before bound snapshot) := by
  intro w move h
  refine ⟨stable_at w move h.1, ?_⟩
  rw [(locals_others w move).2.2.2]
  exact h.2

theorem Shown.withContext {r : Readings} (h : Shown job snapshot r) (context : Option NmContext) :
    Shown job { snapshot with nmContext := context } r :=
  ⟨h.persistent, h.persistentServers, h.servers, h.attributes, h.network, h.networkSha256, h.shared⟩

theorem Within.observe {w : World} (h : Within before bound w) (snapshot : Option Snapshot) :
    Within before bound { w with observed := snapshot } :=
  ⟨⟨h.inv.shared, h.inv.held, h.inv.claimed, h.inv.once⟩, h.before_eq, h.bound_some⟩

theorem observe_meets :
    Meets (Within before bound) (observe job) (Observed job before bound) (Fails before bound) := by
  unfold observe
  apply (observeWith_meets none).bind
  intro snapshot
  apply Meets.bind (Q := fun snapshot => At before bound (Shown job snapshot))
  · unfold observeContext
    split
    · exact Op.meets_pure fun w hw => hw
    · apply (ask_meets _ _).bind
      intro context
      exact Op.meets_pure fun w hw => ⟨hw.1, hw.2.withContext (some context)⟩
  intro snapshot
  apply Meets.bind (Q := fun _ => Observed job before bound snapshot)
  · apply Op.meets_assign
    exact fun w hw => ⟨⟨hw.1.observe (some snapshot), hw.2⟩, rfl⟩
  exact fun _ => Op.meets_pure fun w hw => hw

end WebOvpn.Resolver
