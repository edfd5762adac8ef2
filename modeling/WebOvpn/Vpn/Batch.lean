/-
Batches of clients: when a batch is refused before anything is made, and when
a dry run foretells the refusal.
-/
import WebOvpn.Vpn.Issuing
import WebOvpn.Vpn.Selections

namespace WebOvpn.Vpn

open Text Prog List

variable {cfg : Settings} {host : Host} {moment : Moment} {request : BatchRequest} {s t : Files}
  {client : Text} {names selected cidrs : List Text} {rows : List NetworkRow}

/-- A successful `easyrsa build-client-full` leaves a certificate and a key of
the client, and touches no other client's. -/
structure Host.Lawful (host : Host) : Prop where
  issues : ∀ name pki pki', host.buildClientFull name pki = some pki' →
    (∃ crt, pki'.issued.lookup name = some crt ∧ hasCert crt = true) ∧ pki'.keys.has name = true
  keepsCa : ∀ name pki pki', host.buildClientFull name pki = some pki' → pki'.caCrt = pki.caCrt
  keepsOthers : ∀ name pki pki', host.buildClientFull name pki = some pki' → ∀ other, other ≠ name →
    pki'.issued.lookup other = pki.issued.lookup other

theorem preflightBatchClients_readsOnly (clients : List Text) :
    (preflightBatchClients clients).ReadsOnly := by
  apply Uses.bind (uses_raiseIf _)
  intro _
  apply Uses.bind (uses_raiseIf _)
  intro _
  apply Uses.bind (uses_raiseIf _)
  intro _
  apply Uses.bind (uses_get trivial)
  intro rows
  apply Uses.bind (uses_get trivial)
  intro pki
  apply Uses.bind (uses_get trivial)
  intro ccd
  apply Uses.bind (Uses.bind (uses_get trivial) fun _ => uses_pure _)
  intro out
  apply Uses.bind (uses_get trivial)
  intro share
  apply Uses.bind (uses_raiseIf _)
  intro _
  exact uses_pure _

theorem checkBatchAccess_readsOnly (cfg : Settings) (request : BatchRequest) :
    (checkBatchAccess cfg request).ReadsOnly := by
  apply Uses.bind (uses_lift _)
  intro selected
  apply Uses.bind (uses_raiseIf _)
  intro _
  split
  · exact Uses.bind (getNetworkTemplate_uses trivial trivial trivial) fun _ => uses_pure _
  · apply Uses.bind (availableNetworkCidrs_uses trivial trivial)
    intro available
    exact Uses.bind (uses_raiseIf _) fun _ => uses_pure _

structure Fresh (s : Files) (client : Text) : Prop where
  named : isClientName client = true
  noDirectory : isDirectoryName client = false
  uncertified : Directory.has (PkiDir.issued (s .pkiDir)) client = false

theorem raiseIf_eq_ok {c : Prop} [Decidable c] {e : Stop} {a : Unit}
    (h : (exec (raiseIf c e : Command Unit) s).1 = .ok a) : ¬ c := by
  intro hc
  rw [exec_raiseIf, if_pos hc] at h
  cases h

theorem preflightBatchClients_eq_ok {clients : List Text}
    (h : (exec (preflightBatchClients clients) s).1 = .ok names) :
    names = clients.map strip ∧ names ≠ [] ∧ names.Nodup ∧
      ∀ name ∈ names, Fresh s name ∧ Directory.has (s .outDir) (tlscryptName name) = false := by
  obtain ⟨_, hnm, h⟩ := (uses_raiseIf _ : Prog.ReadsOnly _).bind_eq_ok h
  obtain ⟨_, hsm, h⟩ := (uses_raiseIf _ : Prog.ReadsOnly _).bind_eq_ok h
  obtain ⟨_, hnd, h⟩ := (uses_raiseIf _ : Prog.ReadsOnly _).bind_eq_ok h
  have hnm := not_not.1 (raiseIf_eq_ok hnm)
  have hsm := raiseIf_eq_ok hsm
  have hnd := not_not.1 (raiseIf_eq_ok hnd)
  obtain ⟨rows, hrs, h⟩ := (uses_get trivial : readRegistry.ReadsOnly).bind_eq_ok h
  obtain ⟨pki, hpki, h⟩ := (uses_get trivial : readPki.ReadsOnly).bind_eq_ok h
  obtain ⟨ccd, hccd, h⟩ := (uses_get trivial : readCcdDir.ReadsOnly).bind_eq_ok h
  obtain ⟨out, hot, h⟩ :=
    (Uses.bind (uses_get trivial) fun _ => uses_pure _ : readOutDir.ReadsOnly).bind_eq_ok h
  obtain ⟨share, hsha, h⟩ := (uses_get trivial : Prog.ReadsOnly (Prog.get File.shareDir)).bind_eq_ok h
  obtain ⟨_, hcn, h⟩ := (uses_raiseIf _ : Prog.ReadsOnly _).bind_eq_ok h
  have hcn := not_not.1 (raiseIf_eq_ok hcn)
  cases h
  cases hpki
  cases hccd
  cases hot
  refine ⟨rfl, hsm, hnd, fun name hna => ?_⟩
  have hfr := filter_eq_nil_iff.1 hcn name hna
  rw [Bool.or_eq_true, not_or] at hfr
  have hfs := hfr.2
  unfold anyFileOf ccdExists at hfs
  simp only [Bool.or_eq_true, not_or, Bool.not_eq_true] at hfs
  refine ⟨⟨hnm name hna, hfs.1.1.2.1, hfs.1.1.1.1.1.1.1.1⟩, ?_⟩
  unfold Directory.has
  rw [lookup_eq_none_of_not_mem]
  · rfl
  · intro hmem
    have htls := hfs.1.1.1.1.1.2
    rw [contains_iff_mem.2 hmem] at htls
    cases htls

theorem checkBatchAccess_eq_ok (h : (exec (checkBatchAccess cfg request) s).1 = .ok selected) :
    ∃ rows, (exec (listNetworks cfg) s).1 = .ok rows ∧
      ((request.template ≠ [] ∧ ∃ template,
        (exec (getNetworkTemplate cfg request.template) s).1 = .ok template ∧
          Normal template.cidrs) ∨ (request.template = [] ∧ Normal selected ∧ selected ≠ [] ∧
          ∀ cidr ∈ selected, cidr ∈ rows.map NetworkRow.cidr)) := by
  obtain ⟨chosen, hch, h⟩ := (uses_lift _ : Prog.ReadsOnly _).bind_eq_ok h
  rw [exec_lift] at hch
  obtain ⟨_, hone, h⟩ := (uses_raiseIf _ : Prog.ReadsOnly _).bind_eq_ok h
  have hone := raiseIf_eq_ok hone
  by_cases htm : request.template ≠ []
  · rw [if_pos htm] at h
    have hget : (getNetworkTemplate cfg request.template).ReadsOnly :=
      getNetworkTemplate_uses trivial trivial trivial
    obtain ⟨template, hfn, h⟩ := hget.bind_eq_ok h
    obtain ⟨hnor, rows, hrs⟩ := getNetworkTemplate_eq_ok hfn
    exact ⟨rows, hrs, .inl ⟨htm, template, hfn, hnor⟩⟩
  · rw [if_neg htm] at h
    have hava : (availableNetworkCidrs cfg).ReadsOnly := availableNetworkCidrs_uses trivial trivial
    obtain ⟨available, hfn, h⟩ := hava.bind_eq_ok h
    obtain ⟨rows, hrs, hsm⟩ := (listNetworks_uses trivial trivial : (listNetworks cfg).ReadsOnly).bind_eq_ok hfn
    cases hsm
    obtain ⟨_, hms, h⟩ := (uses_raiseIf _ : Prog.ReadsOnly _).bind_eq_ok h
    have hms := not_not.1 (raiseIf_eq_ok hms)
    cases h
    refine ⟨rows, hrs, .inr ⟨not_not.1 htm, normal_of_uniqueCidrs hch, ?_, fun cidr hcid => ?_⟩⟩
    · intro hnil
      apply hone
      rw [hnil]
      simp [not_not.1 htm]
    · have hpr := filter_eq_nil_iff.1 hms cidr hcid
      simpa using hpr

structure SameCatalogue (s t : Files) : Prop where
  networks : t .networksDb = s .networksDb
  nets : t .vipnetNets = s .vipnetNets
  templates : t .templatesDb = s .templatesDb

theorem SameCatalogue.refl (s : Files) : SameCatalogue s s := ⟨rfl, rfl, rfl⟩

variable {u : Files}

theorem SameCatalogue.trans (h : SameCatalogue s t) (h' : SameCatalogue t u) : SameCatalogue s u :=
  ⟨h'.networks.trans h.networks, h'.nets.trans h.nets, h'.templates.trans h.templates⟩

theorem SameCatalogue.listNetworks (h : SameCatalogue s t) :
    (exec (listNetworks cfg) t).1 = (exec (listNetworks cfg) s).1 := by
  have huss : (Vpn.listNetworks cfg).Uses (fun f => f = .networksDb ∨ f = .vipnetNets) fun _ => False :=
    listNetworks_uses (.inl rfl) (.inr rfl)
  apply huss.congr
  rintro f (rfl | rfl)
  · exact h.networks
  · exact h.nets

theorem SameCatalogue.getNetworkTemplate {name : Text} (h : SameCatalogue s t) :
    (exec (getNetworkTemplate cfg name) t).1 = (exec (getNetworkTemplate cfg name) s).1 := by
  have huss : (Vpn.getNetworkTemplate cfg name).Uses
      (fun f => f = .networksDb ∨ f = .vipnetNets ∨ f = .templatesDb) fun _ => False :=
    getNetworkTemplate_uses (.inl rfl) (.inr (.inl rfl)) (.inr (.inr rfl))
  apply huss.congr
  rintro f (rfl | rfl | rfl)
  · exact h.networks
  · exact h.nets
  · exact h.templates

structure Kept (s t : Files) : Prop where
  catalogue : SameCatalogue s t
  pki : t .pkiDir = s .pkiDir

theorem Kept.refl (s : Files) : Kept s s := ⟨.refl s, rfl⟩

theorem Kept.trans (h : Kept s t) (h' : Kept t u) : Kept s u :=
  ⟨h.catalogue.trans h'.catalogue, h'.pki.trans h.pki⟩

/-- The command did not stop by a `SystemExit` of its own. -/
def NoExit {α : Type} (r : Except Stop α) : Prop := ∀ refusal, r ≠ .error (.exit refusal)

def ClientFile (f : File) : Prop := f = .ccdDir ∨ f = .outDir ∨ f = .shareDir ∨ f = .registryDb

/-- A command that stops in no other way than `E` allows and writes the files
of clients only. -/
structure Quiet (E : Stop → Prop) {α : Type} (p : Command α) : Prop where
  stops : p.StopsIn E
  uses : p.Uses (fun _ => True) ClientFile

/-- A command that always succeeds and writes the files of clients only. -/
abbrev Sure {α : Type} (p : Command α) : Prop := Quiet (fun _ => False) p

section

variable {α β : Type} {E : Stop → Prop} {p : Command α} {k : α → Command β} {s₀ : Files}

theorem quiet_pure (a : α) : Quiet E (pure a : Command α) :=
  ⟨trivial, trivial⟩

theorem quiet_get (f : File) : Quiet E (Prog.get f : Command (Content f)) :=
  ⟨fun _ => trivial, trivial, fun _ => trivial⟩

theorem quiet_put {f : File} (content : Content f) (h : ClientFile f) :
    Quiet E (Prog.put f content : Command Unit) :=
  ⟨trivial, h, trivial⟩

theorem Quiet.bind (hp : Quiet E p) (hk : ∀ a, Quiet E (k a)) : Quiet E (p >>= k) :=
  ⟨hp.stops.bind fun a => (hk a).stops, hp.uses.bind fun a => (hk a).uses⟩

theorem Quiet.kept (hp : Quiet E p) : Kept s (exec p s).2 := by
  have hfr : ∀ f, ¬ ClientFile f → (exec p s).2 f = s f := fun f hf => hp.uses.frame hf
  unfold ClientFile at hfr
  exact ⟨⟨hfr _ (by simp), hfr _ (by simp), hfr _ (by simp)⟩, hfr _ (by simp)⟩

/-- A command that always succeeds does so. -/
theorem Quiet.exec_eq (hp : Sure p) : ∃ a t, exec p s = (.ok a, t) ∧ Kept s t := by
  cases h : (exec p s).1 with
  | error e => exact absurd h (hp.stops.exec_ne_error id)
  | ok a => exact ⟨a, (exec p s).2, Prod.ext h rfl, hp.kept⟩

theorem Sure.holds (hp : Sure p) : Holds p s fun r t => NoExit r ∧ Kept s t := by
  obtain ⟨a, t, hex, hkp⟩ := hp.exec_eq (s := s)
  unfold Holds
  rw [hex]
  exact ⟨fun _ => nofun, hkp⟩

theorem Quiet.holds_bind {post : Except Stop β → Files → Prop} (hp : Sure p)
    (hk : ∀ a t, exec p s = (.ok a, t) → Kept s t → Holds (k a) t post) : Holds (p >>= k) s post := by
  obtain ⟨a, t, hex, hkp⟩ := hp.exec_eq (s := s)
  unfold Holds
  rw [Prog.exec_bind, hex]
  exact hk a t hex hkp

end

theorem sure_replaceCcd (content : Text) (moment : Moment) (h : isDirectoryName client = false) :
    Sure (replaceCcd client content moment) := by
  apply Quiet.bind (quiet_get _)
  intro ccd
  apply Quiet.bind
  · exact ⟨stopsIn_raiseIf fun hc => by simp [h] at hc, uses_raiseIf _⟩
  · intro _
    exact quiet_put _ (.inl rfl)

theorem sure_backupOut (name : Text) (moment : Moment) : Sure (backupOut name moment) := by
  apply Quiet.bind (quiet_get _)
  intro out
  split
  · exact quiet_put _ (.inr (.inl rfl))
  · exact quiet_pure _

theorem sure_writeOut (name content : Text) : Sure (writeOut name content) :=
  (quiet_get _).bind fun _ => quiet_put _ (.inr (.inl rfl))

theorem sure_archiveOut (name : Text) : Sure (archiveOut name) :=
  (quiet_get _).bind fun _ => quiet_put _ (.inr (.inl rfl))

theorem sure_updateBat (client : Text) (hosts : Bool) : Sure (updateBat client hosts) := by
  unfold updateBat
  split
  · exact sure_writeOut _ _
  · exact sure_archiveOut _

theorem sure_copyToShare (host : Host) (client ovpn : Text) (hosts : Bool) :
    Sure (copyToShare host client ovpn hosts) := by
  unfold copyToShare
  split
  · exact (quiet_get _).bind fun _ => quiet_put _ (.inr (.inr (.inl rfl)))
  · exact quiet_pure _

theorem sure_registerRow (row : ClientRow) : Sure (registerRow row) :=
  (quiet_get _).bind fun _ => quiet_put _ (.inr (.inr (.inr rfl)))

theorem sure_readOutDir : Sure readOutDir :=
  (quiet_get _).bind fun _ => quiet_pure _

theorem sure_readCcd (client : Text) : Sure (readCcd client) :=
  (quiet_get _).bind fun _ => quiet_pure _

theorem sure_filesOf (cfg : Settings) (client : Text) : Sure (filesOf cfg client) :=
  (quiet_get _).bind fun _ => (quiet_get _).bind fun _ => sure_readOutDir.bind fun _ =>
    (quiet_get _).bind fun _ => quiet_pure _

theorem inferProfileOf_ok (hrs : (exec (listNetworks cfg) s).1 = .ok rows) :
    ∃ detected, (exec (inferProfileOf cfg host client) s).1 = .ok detected := by
  have hra : (readCcd client).ReadsOnly := Uses.bind (uses_get trivial) fun _ => uses_pure _
  have hot : readOutDir.ReadsOnly := Uses.bind (uses_get trivial) fun _ => uses_pure _
  have hnet : (listNetworks cfg).ReadsOnly := listNetworks_uses trivial trivial
  have hns : (readVipnetNets cfg).ReadsOnly := readVipnetNets_uses trivial trivial
  have hvip : (exec (readVipnetNets cfg) s).1 = .ok ((rows.filter NetworkRow.nat).map NetworkRow.cidr) :=
    congrArg Prod.fst (hnet.exec_bind hrs)
  unfold inferProfileOf
  rw [hra.exec_bind rfl, hot.exec_bind rfl, hns.exec_bind hvip]
  exact ⟨_, rfl⟩

theorem inferProfileOf_readsOnly (cfg : Settings) (host : Host) (client : Text) :
    (inferProfileOf cfg host client).ReadsOnly :=
  (Uses.bind (uses_get trivial) fun _ => uses_pure _ : (readCcd client).ReadsOnly).bind fun _ =>
    (Uses.bind (uses_get trivial) fun _ => uses_pure _ : readOutDir.ReadsOnly).bind fun _ =>
      (readVipnetNets_uses trivial trivial).bind fun _ => uses_pure _

theorem noExit_inferClientTypeFromCcd (cfg : Settings) (v6 : Ipv6) (parsed : ParsedCcd) :
    NoExit (inferClientTypeFromCcd cfg v6 parsed) := by
  intro refusal h
  unfold inferClientTypeFromCcd at h
  split at h
  · cases h
  · split at h
    · cases h
    · split at h
      · cases h
      · split at h <;> cases h

structure Equipped (host : Host) : Prop where
  easyrsa : host.easyrsaDir = true
  serverKey : host.serverKey = true

def ExternalFails (host : Host) (client : Text) (s : Files) : Prop :=
  host.buildClientFull client (s .pkiDir) = none ∨ host.genTlsCrypt client = none

structure OthersKept (client : Text) (s t : Files) : Prop where
  catalogue : SameCatalogue s t
  ca : PkiDir.caCrt (t .pkiDir) = PkiDir.caCrt (s .pkiDir)
  others : ∀ other, other ≠ client →
    (PkiDir.issued (t .pkiDir)).lookup other = (PkiDir.issued (s .pkiDir)).lookup other

theorem Kept.othersKept (h : OthersKept client s t) (h' : Kept t u) : OthersKept client s u where
  catalogue := h.catalogue.trans h'.catalogue
  ca := by rw [h'.pki, h.ca]
  others := by
    intro other hot
    rw [h'.pki]
    exact h.others other hot

def Certified (client : Text) (t : Files) : Prop :=
  (∃ crt, (PkiDir.issued (t .pkiDir)).lookup client = some crt ∧ hasCert crt = true) ∧
    Directory.has (PkiDir.keys (t .pkiDir)) client = true

theorem Kept.certified (h : Certified client t) (h' : Kept t u) : Certified client u := by
  unfold Certified
  rw [h'.pki]
  exact h

theorem Fresh.missing (hfr : Fresh s client) : ¬ (Directory.has (PkiDir.issued (s .pkiDir)) client &&
    Directory.has (PkiDir.keys (s .pkiDir)) client) = true := by
  rw [hfr.uncertified]
  nofun

theorem issueCertificate_issues (hfr : Fresh s client) {pki : PkiDir}
    (h : host.buildClientFull client (s .pkiDir) = some pki) :
    exec (issueCertificate host client) s = (.ok (), Function.update s File.pkiDir pki) := by
  unfold issueCertificate readPki
  rw [exec_get_bind, if_neg hfr.missing, h]
  rfl

theorem issueCertificate_fails (hfr : Fresh s client)
    (h : host.buildClientFull client (s .pkiDir) = none) :
    (exec (issueCertificate host client) s).1 = .error .command := by
  unfold issueCertificate readPki
  rw [exec_get_bind, if_neg hfr.missing, h]
  rfl

theorem issueCertificate_holds (hlawful : host.Lawful) (hfr : Fresh s client) :
    Holds (issueCertificate host client) s fun r t =>
      match r with
      | .ok _ => OthersKept client s t ∧ Certified client t
      | .error e => e = .command ∧ host.buildClientFull client (s .pkiDir) = none := by
  unfold Holds
  cases hbi : host.buildClientFull client (s .pkiDir) with
  | none =>
    rw [issueCertificate_fails hfr hbi]
    exact ⟨rfl, rfl⟩
  | some pki =>
    rw [issueCertificate_issues hfr hbi]
    refine ⟨⟨⟨rfl, rfl, rfl⟩, hlawful.keepsCa client _ pki hbi, hlawful.keepsOthers client _ pki hbi⟩, ?_⟩
    exact hlawful.issues client _ pki hbi

def InOut (name : Text) (t : Files) : Prop := Directory.has (t .outDir) name = true

theorem Directory.has_write (directory : Directory) (name other content : Text)
    (h : directory.has other = true) : (directory.write name content).has other = true := by
  unfold Directory.has
  rw [directory.lookup_write]
  split
  · rfl
  · exact h

theorem issueTlsCrypt_holds (host : Host) (client : Text) (s : Files) :
    Holds (issueTlsCrypt host client) s fun r t =>
      match r with
      | .ok _ => Kept s t ∧ InOut (tlscryptName client) t
      | .error e => e = .command ∧ host.genTlsCrypt client = none := by
  unfold Holds issueTlsCrypt
  rw [exec_get_bind]
  split
  · exact ⟨Kept.refl s, ‹_›⟩
  · cases hkey : host.genTlsCrypt client with
    | none => exact ⟨rfl, rfl⟩
    | some key =>
      rw [exec_put]
      refine ⟨⟨⟨rfl, rfl, rfl⟩, rfl⟩, ?_⟩
      unfold InOut Directory.has Directory.write
      simp

theorem issueTlsCrypt_fails (hnn : Directory.has (s .outDir) (tlscryptName client) = false)
    (h : host.genTlsCrypt client = none) : (exec (issueTlsCrypt host client) s).1 = .error .command := by
  unfold issueTlsCrypt
  rw [exec_get_bind, if_neg (Bool.eq_false_iff.1 hnn), h]
  rfl

structure Ready (client : Text) (s t : Files) : Prop where
  kept : OthersKept client s t
  certified : Certified client t
  tls : InOut (tlscryptName client) t

theorem Ready.replaceCcd {content : Text} (h : Ready client s t) (hnm : isDirectoryName client = false) :
    ∃ u, exec (replaceCcd client content moment) t = (.ok (), u) ∧ Ready client s u := by
  obtain ⟨_, u, hex, hkp⟩ := (sure_replaceCcd content moment hnm).exec_eq (s := t)
  have huss : (Vpn.replaceCcd client content moment).Uses (fun _ => True) fun f => f = .ccdDir := by
    apply Uses.bind (uses_get trivial)
    intro ccd
    apply Uses.bind (uses_raiseIf _)
    intro _
    exact uses_put rfl
  have hot : u .outDir = t .outDir := by
    have hfr : (exec (Vpn.replaceCcd client content moment) t).2 .outDir = t .outDir :=
      huss.frame fun h => nomatch h
    rwa [hex] at hfr
  refine ⟨u, hex, hkp.othersKept h.kept, hkp.certified h.certified, ?_⟩
  unfold InOut
  rw [hot]
  exact h.tls

theorem Ready.backupOut {name : Text} (h : Ready client s t) :
    ∃ u, exec (backupOut name moment) t = (.ok (), u) ∧ Ready client s u := by
  obtain ⟨_, u, hex, hkp⟩ := (sure_backupOut name moment).exec_eq (s := t)
  refine ⟨u, hex, hkp.othersKept h.kept, hkp.certified h.certified, ?_⟩
  have htls : InOut (tlscryptName client) (exec (Vpn.backupOut name moment) t).2 := by
    unfold Vpn.backupOut
    rw [exec_get_bind]
    split
    · exact Directory.has_write _ _ _ _ h.tls
    · exact h.tls
  rwa [hex] at htls

/-- With everything at hand the profile of the client is put together. -/
theorem Ready.buildOvpn (h : Ready client s t) (hca : (PkiDir.caCrt (s .pkiDir)).isSome = true) :
    ∃ ovpn, exec (buildOvpn client) t = (.ok ovpn, t) := by
  rw [← h.kept.ca] at hca
  obtain ⟨ca, hca⟩ := Option.isSome_iff_exists.1 hca
  obtain ⟨⟨crt, hcrt, hcer⟩, hkey⟩ := h.certified
  obtain ⟨key, hkey⟩ := Option.isSome_iff_exists.1 hkey
  obtain ⟨tls, htls⟩ := Option.isSome_iff_exists.1 h.tls
  refine ⟨joinLines [ca, crt, key, tls], ?_⟩
  unfold Vpn.buildOvpn readPki
  rw [exec_get_bind, exec_get_bind]
  simp only [hca, hcrt, hkey, htls, hcer, if_true]
  rfl

theorem Ready.buildOvpn_missing (h : Ready client s t) (hca : PkiDir.caCrt (s .pkiDir) = none) :
    exec (Vpn.buildOvpn client) t = (.error (.exit .missingForOvpn), t) := by
  rw [← h.kept.ca] at hca
  unfold Vpn.buildOvpn readPki
  rw [exec_get_bind, exec_get_bind]
  simp only [hca]
  rfl

variable {plan : ClientPlan} {clientRequest : ClientRequest}

theorem registerClient_ok (hrs : (exec (listNetworks cfg) s).1 = .ok rows) :
    ∃ a t, exec (registerClient cfg host moment clientRequest plan) s = (.ok a, t) ∧ Kept s t := by
  obtain ⟨detected, hdt⟩ := inferProfileOf_ok hrs
  unfold registerClient
  rw [(inferProfileOf_readsOnly cfg host clientRequest.client).exec_bind hdt]
  apply Quiet.exec_eq
  apply Quiet.bind (sure_readCcd _)
  intro content
  apply Quiet.bind (quiet_get _)
  intro pki
  apply Quiet.bind (sure_filesOf _ _)
  intro files
  exact sure_registerRow _

section

variable (hlawful : host.Lawful) (hequipped : Equipped host)
include hlawful hequipped

theorem makeClient_ready (hfr : Fresh s clientRequest.client) {post : Except Stop Unit → Files → Prop}
    (hfl : ∀ t, ExternalFails host clientRequest.client s → post (.error .command) t)
    (hra : ∀ t, Ready clientRequest.client s t → Holds (do
      let ovpn ← buildOvpn clientRequest.client
      writeOut (ovpnName clientRequest.client) ovpn
      updateBat clientRequest.client plan.profile.hosts
      copyToShare host clientRequest.client ovpn plan.profile.hosts
      registerClient cfg host moment clientRequest plan) t post)
    (hty : plan.clientType = .user) : Holds (makeClient cfg host moment clientRequest plan) s post := by
  unfold makeClient
  apply holds_raiseIf_bind fun h => absurd h (by rw [hequipped.easyrsa]; nofun)
  intro _
  apply holds_raiseIf_bind fun h => absurd h (by rw [hequipped.serverKey]; nofun)
  intro _
  apply Holds.bind (issueCertificate_holds hlawful hfr)
  · rintro e t ⟨rfl, hnn⟩
    exact hfl t (.inl hnn)
  rintro _ t ⟨hot, hcer⟩
  apply Holds.bind (issueTlsCrypt_holds host clientRequest.client t)
  · rintro e t ⟨rfl, hnn⟩
    exact hfl t (.inr hnn)
  rintro _ t' ⟨hkp, htls⟩
  have h : Ready clientRequest.client s t' := ⟨hkp.othersKept hot, hkp.certified hcer, htls⟩
  obtain ⟨_, hex, h⟩ := h.replaceCcd hfr.noDirectory
  unfold Holds
  rw [exec_bind_of_ok hex]
  obtain ⟨_, hex, h⟩ := h.backupOut
  rw [exec_bind_of_ok hex]
  obtain ⟨_, hex, h⟩ := h.backupOut
  rw [exec_bind_of_ok hex, if_neg (by rw [hty]; nofun)]
  exact hra _ h

theorem makeClient_holds (hca : (PkiDir.caCrt (s .pkiDir)).isSome = true)
    (hfr : Fresh s clientRequest.client)
    (hty : plan.clientType = .user) (hrs : (exec (listNetworks cfg) s).1 = .ok rows) :
    Holds (makeClient cfg host moment clientRequest plan) s fun r t =>
      match r with
      | .ok _ => OthersKept clientRequest.client s t
      | .error e => e = .command ∧ ExternalFails host clientRequest.client s := by
  apply makeClient_ready hlawful hequipped hfr _ _ hty
  · intro t hfl
    exact ⟨rfl, hfl⟩
  intro t hra
  obtain ⟨ovpn, hovp⟩ := hra.buildOvpn hca
  unfold Holds
  rw [exec_bind_of_ok hovp]
  obtain ⟨_, t₁, hex, hkp⟩ := (sure_writeOut (ovpnName clientRequest.client) ovpn).exec_eq (s := t)
  rw [exec_bind_of_ok hex]
  have hot := hkp.othersKept hra.kept
  obtain ⟨_, t₂, hex, hkp⟩ := (sure_updateBat clientRequest.client plan.profile.hosts).exec_eq (s := t₁)
  rw [exec_bind_of_ok hex]
  have hot := hkp.othersKept hot
  obtain ⟨_, t₃, hex, hkp⟩ :=
    (sure_copyToShare host clientRequest.client ovpn plan.profile.hosts).exec_eq (s := t₂)
  rw [exec_bind_of_ok hex]
  have hot := hkp.othersKept hot
  obtain ⟨_, t₄, hex, hkp⟩ := registerClient_ok (hot.catalogue.listNetworks.trans hrs)
  rw [hex]
  exact hkp.othersKept hot

/-- Without the certificate of the authority the client is given up half made. -/
theorem makeClient_missing (hca : PkiDir.caCrt (s .pkiDir) = none) (hfr : Fresh s clientRequest.client)
    (hty : plan.clientType = .user) (hex : ¬ ExternalFails host clientRequest.client s) :
    (exec (makeClient cfg host moment clientRequest plan) s).1 = .error (.exit .missingForOvpn) := by
  have hhl : Holds (makeClient cfg host moment clientRequest plan) s fun r _ =>
      r = .error (.exit .missingForOvpn) := by
    apply makeClient_ready hlawful hequipped hfr _ _ hty
    · intro t hfl
      exact absurd hfl hex
    · intro t hra
      unfold Holds
      rw [exec_bind_of_error (hra.buildOvpn_missing hca)]
  exact hhl

end

theorem makeClient_command (hequipped : Equipped host) (hfr : Fresh s clientRequest.client)
    (htls : Directory.has (s .outDir) (tlscryptName clientRequest.client) = false)
    (hex : ExternalFails host clientRequest.client s) :
    (exec (makeClient cfg host moment clientRequest plan) s).1 = .error .command := by
  unfold makeClient
  rw [exec_raiseIf_bind (by rw [hequipped.easyrsa]; nofun),
    exec_raiseIf_bind (by rw [hequipped.serverKey]; nofun)]
  cases hbi : host.buildClientFull clientRequest.client (s .pkiDir) with
  | none => exact exec_bind_fst_error (issueCertificate_fails hfr hbi)
  | some pki =>
    rw [exec_bind_of_ok (issueCertificate_issues hfr hbi)]
    apply exec_bind_fst_error
    apply issueTlsCrypt_fails (s := Function.update s File.pkiDir pki) htls
    rcases hex with hnn | hnn
    · rw [hbi] at hnn
      cases hnn
    · exact hnn

theorem planClient_batch (h : isClientName client = true) :
    ∃ plan, exec (planClient cfg (batchClient request client)) s = (.ok plan, s) ∧
      plan.clientType = .user := by
  have hpr : validateProfile "custom" = .ok .custom := by decide
  have hty : normalizeClientType "user" = .ok .user := by decide
  refine ⟨⟨.custom, .user, [], ccdText []⟩, ?_, rfl⟩
  unfold planClient batchClient
  rw [exec_raiseIf_bind (by rw [h]; nofun), hpr, hty]
  rfl

/-- The access that the batch selects can be given: every network of the
template is in the catalogue, and there is one. -/
def TemplateUsable (cfg : Settings) (request : BatchRequest) (s : Files) : Prop :=
  ∀ template rows, (exec (getNetworkTemplate cfg request.template) s).1 = .ok template →
    (exec (listNetworks cfg) s).1 = .ok rows →
      template.cidrs ≠ [] ∧ ∀ cidr ∈ template.cidrs, cidr ∈ rows.map NetworkRow.cidr

theorem availableNetworkCidrs_ok (hrs : (exec (listNetworks cfg) s).1 = .ok rows) :
    (exec (availableNetworkCidrs cfg) s).1 = .ok (rows.map NetworkRow.cidr) := by
  have huss : (listNetworks cfg).ReadsOnly := listNetworks_uses trivial trivial
  unfold availableNetworkCidrs
  rw [huss.exec_bind hrs]
  rfl

theorem refreshClientRegistry_holds {profile : Option Text} {comment : Text}
    (hrs : (exec (listNetworks cfg) s).1 = .ok rows) :
    Holds (refreshClientRegistry cfg host moment client profile comment) s fun r t => NoExit r ∧
      Kept s t := by
  have hra : (readCcd client).ReadsOnly := Uses.bind (uses_get trivial) fun _ => uses_pure _
  unfold refreshClientRegistry
  apply holds_get_bind
  apply hra.holds_bind_ok rfl
  apply holds_lift_bind
  · intro e he
    refine ⟨fun refusal heq => ?_, Kept.refl s⟩
    cases heq
    exact noExit_inferClientTypeFromCcd _ _ _ refusal he
  intro inferred _
  obtain ⟨detected, hdt⟩ := inferProfileOf_ok hrs
  apply (inferProfileOf_readsOnly cfg host client).holds_bind_ok hdt
  apply Sure.holds
  apply Quiet.bind (quiet_get _)
  intro pki
  apply Quiet.bind (sure_filesOf _ _)
  intro files
  exact (sure_registerRow _).bind fun _ => quiet_pure _

theorem ccdContentFromNetworks_ok (hnor : Normal cidrs) (dns : Bool) :
    ∃ content, ccdContentFromNetworks cfg cidrs [] dns = .ok content := by
  have hrts : ∃ routes, cidrs.mapM routeLineOf = .ok routes := by
    apply mapM_isOk
    intro cidr hcid
    obtain ⟨net, rfl⟩ := hnor.2 cidr hcid
    refine ⟨routeLine net, ?_⟩
    unfold routeLineOf
    rw [Ipv4Network.ofText_text]
  obtain ⟨routes, hrts⟩ := hrts
  unfold ccdContentFromNetworks
  rw [if_neg (not_not.2 rfl), hnor.uniqueCidrs]
  refine ⟨_, bind_eq_ok.2 ⟨cidrs, rfl, bind_eq_ok.2 ⟨routes, hrts, rfl⟩⟩⟩

theorem applyNetworksToClient_usable {dns : Bool} {reason templateName : Text}
    (hnm : isClientName client = true)
    (hdir : isDirectoryName client = false) (hnor : Normal cidrs)
    (hrs : (exec (listNetworks cfg) s).1 = .ok rows) (hsm : cidrs ≠ [])
    (hmem : ∀ cidr ∈ cidrs, cidr ∈ rows.map NetworkRow.cidr) :
    Holds (applyNetworksToClient cfg host moment client cidrs [] dns reason templateName) s fun r t =>
      NoExit r ∧ Kept s t := by
  have hava : (availableNetworkCidrs cfg).ReadsOnly := availableNetworkCidrs_uses trivial trivial
  have hms : cidrs.filter (fun cidr => cidr ∉ rows.map NetworkRow.cidr) = [] := by
    rw [filter_eq_nil_iff]
    intro cidr hcid
    simpa using hmem cidr hcid
  obtain ⟨content, hcn⟩ := ccdContentFromNetworks_ok hnor dns
  unfold applyNetworksToClient
  apply holds_raiseIf_bind fun h => absurd h (by rw [hnm]; nofun)
  intro _
  rw [hnor.uniqueCidrs]
  apply holds_raiseIf_bind fun h => absurd h hsm
  intro _
  apply hava.holds_bind_ok (availableNetworkCidrs_ok hrs)
  apply holds_raiseIf_bind fun h => absurd hms h
  intro _
  change Holds (lift (ccdContentFromNetworks cfg cidrs [] dns) >>= _) s _
  rw [hcn]
  apply (sure_replaceCcd content moment hdir).holds_bind
  intro _ t₁ _ hkp₁
  apply (sure_backupOut (batName client) moment).holds_bind
  intro _ t₂ _ hkp₂
  apply (sure_archiveOut (batName client)).holds_bind
  intro _ t₃ _ hkp₃
  have hkp := (hkp₁.trans hkp₂).trans hkp₃
  apply Holds.bind (refreshClientRegistry_holds (hkp.catalogue.listNetworks.trans hrs))
  · rintro e t ⟨hex, hls⟩
    exact ⟨fun refusal h => hex refusal (by cases h; rfl), hkp.trans hls⟩
  · rintro _ t ⟨-, hls⟩
    exact ⟨fun _ => nofun, hkp.trans hls⟩

theorem applyNetworksToClient_unusable {dns : Bool} {vpnIp reason templateName : Text}
    (hnm : isClientName client = true)
    (hnor : Normal cidrs) (hrs : (exec (listNetworks cfg) s).1 = .ok rows)
    (h : ¬ (cidrs ≠ [] ∧ ∀ cidr ∈ cidrs, cidr ∈ rows.map NetworkRow.cidr)) :
    ∃ refusal, (exec
      (applyNetworksToClient cfg host moment client cidrs vpnIp dns reason templateName) s).1 =
      .error (.exit refusal) := by
  have hava : (availableNetworkCidrs cfg).ReadsOnly := availableNetworkCidrs_uses trivial trivial
  unfold applyNetworksToClient
  rw [exec_raiseIf_bind (by rw [hnm]; nofun), hnor.uniqueCidrs]
  rw [exec_lift_bind_ok]
  by_cases hnil : cidrs = []
  · exact ⟨.noNetworks, exec_bind_fst_error (by rw [exec_raiseIf, if_pos hnil])⟩
  refine ⟨.notInCatalogue (cidrs.filter fun cidr => cidr ∉ rows.map NetworkRow.cidr), ?_⟩
  have hms : cidrs.filter (fun cidr => cidr ∉ rows.map NetworkRow.cidr) ≠ [] := by
    intro hnn
    refine h ⟨hnil, fun cidr hcid => ?_⟩
    simpa using filter_eq_nil_iff.1 hnn cidr hcid
  rw [exec_raiseIf_bind hnil, hava.exec_bind (availableNetworkCidrs_ok hrs)]
  exact exec_bind_fst_error (by rw [exec_raiseIf, if_pos hms])

structure Checked (cfg : Settings) (request : BatchRequest) (s : Files)
    (names selected : List Text) : Prop where
  clients : (exec (preflightBatchClients request.clients) s).1 = .ok names
  access : (exec (checkBatchAccess cfg request) s).1 = .ok selected

structure Chosen (cfg : Settings) (request : BatchRequest) (s : Files) (selected cidrs : List Text)
    (rows : List NetworkRow) : Prop where
  normal : Normal cidrs
  catalogue : (exec (listNetworks cfg) s).1 = .ok rows
  gives : ∀ client host moment t, SameCatalogue s t → ∃ dns reason name,
    exec (giveBatchAccess cfg host moment request selected client) t =
      exec (applyNetworksToClient cfg host moment client cidrs [] dns reason name) t
  usable : (cidrs ≠ [] ∧ ∀ cidr ∈ cidrs, cidr ∈ rows.map NetworkRow.cidr) ↔
    (request.template ≠ [] → TemplateUsable cfg request s)

theorem chosen_of_checkBatchAccess (h : (exec (checkBatchAccess cfg request) s).1 = .ok selected) :
    ∃ cidrs rows, Chosen cfg request s selected cidrs rows := by
  obtain ⟨rows, hrs, ⟨htm, template, hfn, hnor⟩ | ⟨htm, hnor, hsm, hmem⟩⟩ :=
    checkBatchAccess_eq_ok h
  · refine ⟨template.cidrs, rows, hnor, hrs, ?_, ?_⟩
    · intro client host moment t hsa
      refine ⟨template.dns, batchReason request, template.name, ?_⟩
      have hget : (getNetworkTemplate cfg request.template).ReadsOnly :=
        getNetworkTemplate_uses trivial trivial trivial
      unfold giveBatchAccess applyNetworkTemplateToClient
      rw [if_pos htm, hget.exec_bind (hsa.getNetworkTemplate.trans hfn)]
    · constructor
      · intro husa _ template' rows' hfn' hrs'
        cases hfn.symm.trans hfn'
        cases hrs.symm.trans hrs'
        exact husa
      · intro husa
        exact husa htm template rows hfn hrs
  · refine ⟨selected, rows, hnor, hrs, ?_, ?_⟩
    · intro client host moment t _
      refine ⟨request.dns, batchReason request, [], ?_⟩
      unfold giveBatchAccess
      rw [if_neg (not_not.2 htm)]
    · constructor
      · intro _ h
        exact absurd htm h
      · intro _
        exact ⟨hsm, hmem⟩

theorem generateClient_planned {plan : ClientPlan} {clientRequest : ClientRequest}
    (h : exec (planClient cfg clientRequest) s = (.ok plan, s)) :
    exec (generateClient cfg host moment clientRequest false) s =
      exec (do makeClient cfg host moment clientRequest plan; return plan) s := by
  unfold generateClient
  rw [exec_bind_of_ok h]
  rfl

theorem batchTurns_dryRun (hfr : ∀ name ∈ names, Fresh s name) :
    ∃ results, exec (batchTurns cfg host moment request selected true names) s = (.ok results, s) := by
  induction names with
  | nil => exact ⟨[], rfl⟩
  | cons client rest ih =>
    obtain ⟨results, hrs⟩ := ih fun name hnm => hfr name (mem_cons_of_mem _ hnm)
    obtain ⟨plan, hpl, -⟩ := planClient_batch (s := s)
      (hfr client mem_cons_self).named
    have htr : exec (batchTurn cfg host moment request selected true client) s = (.ok none, s) := by
      have hdry : exec (generateClient cfg host moment (batchClient request client) true) s = (.ok plan, s) := by
        unfold generateClient
        rw [exec_bind_of_ok hpl]
        rfl
      unfold batchTurn
      rw [exec_bind_of_ok hdry]
      rfl
    refine ⟨(client, none) :: results, ?_⟩
    unfold batchTurns
    rw [exec_bind_of_ok htr, exec_bind_of_ok hrs]
    rfl

theorem OthersKept.fresh {other : Text} (h : OthersKept client s t) (hot : other ≠ client)
    (hfr : Fresh s other) : Fresh t other := by
  refine ⟨hfr.named, hfr.noDirectory, ?_⟩
  have hunc := hfr.uncertified
  unfold Directory.has at hunc ⊢
  rw [h.others other hot]
  exact hunc

theorem batchTurn_eq (hfr : Fresh s client) : ∃ plan, plan.clientType = .user ∧
    exec (batchTurn cfg host moment request selected false client) s = exec (do
      makeClient cfg host moment (batchClient request client) plan
      let access ← giveBatchAccess cfg host moment request selected client return some access) s := by
  obtain ⟨plan, hpl, hty⟩ := planClient_batch (s := s) hfr.named
  refine ⟨plan, hty, ?_⟩
  have hgen : exec (generateClient cfg host moment (batchClient request client) false) s = _ :=
    generateClient_planned hpl
  unfold batchTurn
  rw [Prog.exec_bind, hgen, Prog.exec_bind, Prog.exec_bind]
  cases exec (makeClient cfg host moment (batchClient request client) plan) s with
  | mk r t => cases r <;> rfl

theorem batchTurn_holds {rows : List NetworkRow} {s₀ : Files} (hlawful : host.Lawful)
    (hequipped : Equipped host)
    (hca : (PkiDir.caCrt (s .pkiDir)).isSome = true) (hfr : Fresh s client) (hsm : SameCatalogue s₀ s)
    (hch : Chosen cfg request s₀ selected cidrs rows)
    (husa : cidrs ≠ [] ∧ ∀ cidr ∈ cidrs, cidr ∈ rows.map NetworkRow.cidr) :
    Holds (batchTurn cfg host moment request selected false client) s fun r t =>
      NoExit r ∧ (r.isOk = true → OthersKept client s t) := by
  have hrs := hsm.listNetworks.trans hch.catalogue
  obtain ⟨plan, hty, htr⟩ := batchTurn_eq hfr
  apply Holds.congr _ htr
  apply Holds.bind (makeClient_holds hlawful hequipped hca hfr hty hrs)
  · rintro e t ⟨rfl, -⟩
    exact ⟨fun _ => nofun, nofun⟩
  · rintro _ t hot
    obtain ⟨dns, reason, name, hgiv⟩ := hch.gives client host moment t (hsm.trans hot.catalogue)
    have hhl : Holds (applyNetworksToClient cfg host moment client cidrs [] dns reason name) t fun r u =>
        NoExit r ∧ Kept t u :=
      applyNetworksToClient_usable hfr.named hfr.noDirectory hch.normal
        (hot.catalogue.listNetworks.trans hrs) husa.1 husa.2
    apply Holds.bind (hhl.congr hgiv)
    · rintro e u ⟨hex, -⟩
      exact ⟨fun refusal h => hex refusal (by cases h; rfl), nofun⟩
    · rintro _ u ⟨-, hkp⟩
      exact ⟨fun _ => nofun, fun _ => hkp.othersKept hot⟩

theorem batchTurns_noExit {rows : List NetworkRow} {s₀ : Files} (hlawful : host.Lawful)
    (hequipped : Equipped host)
    (hca : (PkiDir.caCrt (s .pkiDir)).isSome = true) (hnd : names.Nodup)
    (hfr : ∀ name ∈ names, Fresh s name)
    (hsm : SameCatalogue s₀ s) (hch : Chosen cfg request s₀ selected cidrs rows)
    (husa : cidrs ≠ [] ∧ ∀ cidr ∈ cidrs, cidr ∈ rows.map NetworkRow.cidr) :
    NoExit (exec (batchTurns cfg host moment request selected false names) s).1 := by
  induction names generalizing s with
  | nil => exact fun _ => nofun
  | cons client rest ih =>
    obtain ⟨hnew, hnd⟩ := nodup_cons.1 hnd
    obtain ⟨hexit, hok⟩ := batchTurn_holds hlawful hequipped hca
      (hfr client mem_cons_self) hsm hch husa
    unfold batchTurns
    cases hex : exec (batchTurn cfg host moment request selected false client) s with
    | mk r t =>
      rw [hex] at hexit hok
      cases r with
      | error e =>
        rw [exec_bind_of_error hex]
        exact fun refusal h => hexit refusal (by cases h; rfl)
      | ok access =>
        have hot := hok rfl
        have hca' : (PkiDir.caCrt (t .pkiDir)).isSome = true := by
          rw [hot.ca]
          exact hca
        have hrs : ∀ name ∈ rest, Fresh t name := by
          intro name hnm
          apply hot.fresh _ (hfr name (mem_cons_of_mem _ hnm))
          rintro rfl
          exact hnew hnm
        have hei := ih hca' hnd hrs (hsm.trans hot.catalogue)
        rw [exec_bind_of_ok hex]
        intro refusal h
        cases hls : exec (batchTurns cfg host moment request selected false rest) t with
        | mk r u =>
          rw [hls] at hei
          cases r with
          | error e =>
            rw [exec_bind_of_error hls] at h
            exact hei refusal (by cases h; rfl)
          | ok others =>
            rw [exec_bind_of_ok hls] at h
            cases h

/-- Neither a certificate nor a CCD file, a profile or a registry row of the
client has been made. -/
structure Untouched (client : Text) (s t : Files) : Prop where
  certificate : (PkiDir.issued (t .pkiDir)).lookup client = (PkiDir.issued (s .pkiDir)).lookup client
  ccd : Directory.has (t .ccdDir) client = Directory.has (s .ccdDir) client
  ovpn : Directory.has (t .outDir) (ovpnName client) = Directory.has (s .outDir) (ovpnName client)
  row : getClientRow client (t .registryDb) = getClientRow client (s .registryDb)

def RefusedInAdvance (cfg : Settings) (host : Host) (moment : Moment) (request : BatchRequest)
    (s : Files) : Prop :=
  (∀ refusal, (exec (generateBatch cfg host moment request false) s).1 = .error (.exit refusal) →
    ∀ client ∈ request.clients,
      Untouched (strip client) s (exec (generateBatch cfg host moment request false) s).2) ∧
  ((exec (generateBatch cfg host moment request true) s).1.isOk = true →
    NoExit (exec (generateBatch cfg host moment request false) s).1)

def NothingAmiss (cfg : Settings) (host : Host) (request : BatchRequest) (s : Files)
    (names : List Text) : Prop :=
  Equipped host ∧ ((∃ first ∈ names.head?, ExternalFails host first s) ∨
    ((PkiDir.caCrt (s .pkiDir)).isSome = true ∧ (request.template ≠ [] → TemplateUsable cfg request s)))

theorem generateBatch_checked (h : Checked cfg request s names selected) (dryRun : Bool) :
    exec (generateBatch cfg host moment request dryRun) s =
      exec (batchTurns cfg host moment request selected dryRun names) s := by
  unfold generateBatch
  rw [(preflightBatchClients_readsOnly request.clients).exec_bind h.clients,
    (checkBatchAccess_readsOnly cfg request).exec_bind h.access]

theorem generateBatch_refused (h : ¬ ∃ names selected, Checked cfg request s names selected) :
    ∃ e, ∀ dryRun, exec (generateBatch cfg host moment request dryRun) s = (.error e, s) := by
  have hcl := preflightBatchClients_readsOnly request.clients
  cases hnm : (exec (preflightBatchClients request.clients) s).1 with
  | error e => exact ⟨e, fun dryRun => hcl.exec_bind_error hnm⟩
  | ok names =>
    cases hac : (exec (checkBatchAccess cfg request) s).1 with
    | error e =>
      refine ⟨e, fun dryRun => ?_⟩
      unfold generateBatch
      rw [hcl.exec_bind hnm, (checkBatchAccess_readsOnly cfg request).exec_bind_error hac]
    | ok selected => exact absurd ⟨names, selected, hnm, hac⟩ h

theorem batchTurns_fails {first : Text} {rest : List Text} {e : Stop}
    (h : (exec (batchTurn cfg host moment request selected false first) s).1 = .error e) :
    (exec (batchTurns cfg host moment request selected false (first :: rest)) s).1 = .error e :=
  exec_bind_fst_error h

theorem batchTurn_command {first : Text} (hequipped : Equipped host) (hfr : Fresh s first)
    (htls : Directory.has (s .outDir) (tlscryptName first) = false) (hex : ExternalFails host first s) :
    (exec (batchTurn cfg host moment request selected false first) s).1 = .error .command := by
  obtain ⟨plan, hty, htr⟩ := batchTurn_eq hfr
  rw [htr]
  exact exec_bind_fst_error (makeClient_command hequipped hfr htls
    hex)

theorem batchTurn_exit {first : Text} {rows : List NetworkRow} (hlawful : host.Lawful)
    (hfr : Fresh s first)
    (hch : Chosen cfg request s selected cidrs rows)
    (h : ¬ (Equipped host ∧ (ExternalFails host first s ∨
      ((PkiDir.caCrt (s .pkiDir)).isSome = true ∧
        (request.template ≠ [] → TemplateUsable cfg request s))))) :
    ∃ refusal, (exec (batchTurn cfg host moment request selected false first) s).1 =
      .error (.exit refusal) := by
  obtain ⟨plan, hty, htr⟩ := batchTurn_eq hfr
  rw [htr]
  by_cases hrs : host.easyrsaDir = false
  · refine ⟨.noEasyrsa, exec_bind_fst_error ?_⟩
    unfold makeClient
    rw [exec_raiseIf_bind_error hrs]
  by_cases hser : host.serverKey = false
  · refine ⟨.noServerKey, exec_bind_fst_error ?_⟩
    unfold makeClient
    rw [exec_raiseIf_bind hrs, exec_raiseIf_bind_error hser]
  have hequipped : Equipped host := ⟨eq_true_of_ne_false hrs, eq_true_of_ne_false hser⟩
  have hex : ¬ ExternalFails host first s := fun hfl => h ⟨hequipped, .inl hfl⟩
  cases hca : PkiDir.caCrt (s .pkiDir) with
  | none =>
    exact ⟨.missingForOvpn, exec_bind_fst_error (makeClient_missing
      hlawful hequipped hca hfr hty hex)⟩
  | some ca =>
    have hca : (PkiDir.caCrt (s .pkiDir)).isSome = true := by
      rw [hca]
      rfl
    have hun : ¬ (cidrs ≠ [] ∧ ∀ cidr ∈ cidrs, cidr ∈ rows.map NetworkRow.cidr) := by
      intro husa
      exact h ⟨hequipped, .inr ⟨hca, hch.usable.1 husa⟩⟩
    have hmad : Holds (makeClient cfg host moment (batchClient request first) plan) s _ :=
      makeClient_holds hlawful hequipped hca hfr hty hch.catalogue
    unfold Holds at hmad
    cases hee : exec (makeClient cfg host moment (batchClient request first) plan) s with
    | mk r t =>
      rw [hee] at hmad
      cases r with
      | error e => exact absurd hmad.2 hex
      | ok _ =>
        rw [exec_bind_of_ok hee]
        obtain ⟨dns, reason, name, hgiv⟩ := hch.gives first host moment t hmad.catalogue
        obtain ⟨refusal, href⟩ := applyNetworksToClient_unusable hfr.named hch.normal
          (hmad.catalogue.listNetworks.trans hch.catalogue) hun
        refine ⟨refusal, exec_bind_fst_error ?_⟩
        rw [hgiv]
        exact href

theorem generateBatch_noExit_iff (hlawful : host.Lawful) (hch : Checked cfg request s names selected) :
    NoExit (exec (generateBatch cfg host moment request false) s).1 ↔
      NothingAmiss cfg host request s names := by
  obtain ⟨-, hsm, hnd, hfr⟩ := preflightBatchClients_eq_ok hch.clients
  obtain ⟨cidrs, rows, hcs⟩ := chosen_of_checkBatchAccess hch.access
  obtain ⟨first, rest, rfl⟩ := exists_cons_of_ne_nil hsm
  obtain ⟨hfs, htls⟩ := hfr first mem_cons_self
  have hha : (∃ name ∈ (first :: rest).head?, ExternalFails host name s) ↔ ExternalFails host first s := by
    simp
  rw [generateBatch_checked hch]
  unfold NothingAmiss
  rw [hha]
  constructor
  · intro hex
    by_contra hami
    obtain ⟨refusal, href⟩ := batchTurn_exit hlawful hfs hcs hami
    exact hex refusal (batchTurns_fails href)
  · rintro ⟨hequipped, het | ⟨hca, husa⟩⟩
    · rw [batchTurns_fails (batchTurn_command hequipped hfs htls het)]
      exact fun _ => nofun
    · exact batchTurns_noExit hlawful hequipped hca hnd (fun name hnm => (hfr name hnm).1) (.refl s)
        hcs (hcs.usable.2 husa)

/-- A batch is refused in advance or not at all exactly when, once its checks
have passed, the host is equipped and either the first external command fails
or the authority has its certificate and the chosen template is usable. -/
theorem generateBatch_refused_in_advance_iff (cfg : Settings) (host : Host) (moment : Moment)
    (request : BatchRequest) (s : Files) (hlawful : host.Lawful) :
      RefusedInAdvance cfg host moment request s ↔
      ∀ names selected, Checked cfg request s names selected →
        NothingAmiss cfg host request s names := by
  constructor
  · rintro ⟨-, hfor⟩ names selected hch
    obtain ⟨-, -, -, hfr⟩ := preflightBatchClients_eq_ok hch.clients
    obtain ⟨results, hdry⟩ := batchTurns_dryRun fun name hnm => (hfr name hnm).1
    apply (generateBatch_noExit_iff hlawful hch).1
    apply hfor
    rw [generateBatch_checked hch, hdry]
    rfl
  · intro hcn
    by_cases hps : ∃ names selected, Checked cfg request s names selected
    · obtain ⟨names, selected, hch⟩ := hps
      have hex : NoExit (exec (generateBatch cfg host moment request false) s).1 :=
        (generateBatch_noExit_iff hlawful hch).2 (hcn names selected hch)
      exact ⟨fun refusal h => absurd h (hex refusal), fun _ => hex⟩
    · obtain ⟨e, href⟩ := generateBatch_refused hps
      constructor
      · intro refusal _ client _
        rw [href false]
        exact ⟨rfl, rfl, rfl, rfl⟩
      · intro hok
        rw [href true] at hok
        cases hok

theorem sampleHost_lawful : sampleHost.Lawful := by
  constructor
  · rintro name pki pki' ⟨⟩
    refine ⟨⟨sampleCertificate, ?_, by decide⟩, ?_⟩
    · rw [Directory.lookup_write, if_pos rfl]
    · unfold Directory.has
      rw [Directory.lookup_write, if_pos rfl]
      rfl
  · rintro name pki pki' ⟨⟩
    rfl
  · rintro name pki pki' ⟨⟩ other hot
    rw [Directory.lookup_write, if_neg hot]

/-- A batch of one client with a builtin template whose networks are not in the
catalogue. -/
def sampleBatch : BatchRequest := ⟨["alice"], "vipnet_only", [], false, []⟩

/-- The dry run of the batch succeeds; the batch itself is refused when the
client already has a certificate. -/
theorem vipnet_only_batch_refused_half_made :
    ¬ RefusedInAdvance sampleSettings sampleHost sampleMoment sampleBatch sampleFiles := by
  rintro ⟨hmad, -⟩
  have href : (exec (generateBatch sampleSettings sampleHost sampleMoment sampleBatch false) sampleFiles).1 =
      .error (.exit .noNetworks) := by
    rfl
  have hunt := (hmad _ href "alice" mem_cons_self).certificate
  have his : (PkiDir.issued ((exec (generateBatch sampleSettings sampleHost sampleMoment sampleBatch false)
      sampleFiles).2 .pkiDir)).lookup (strip "alice") = some sampleCertificate := by
    rfl
  rw [his] at hunt
  cases hunt

/-- With the network of the template in the catalogue the same client is made. -/
theorem directum_batch_refused_in_advance :
    RefusedInAdvance sampleSettings sampleHost sampleMoment { sampleBatch with template := "directum" }
      sampleFiles := by
  apply (generateBatch_refused_in_advance_iff _ _ _ _ _ sampleHost_lawful).2
  intro names selected _
  refine ⟨⟨rfl, rfl⟩, .inr ⟨rfl, fun _ template rows htm hrs => ?_⟩⟩
  have hfn : (exec (getNetworkTemplate sampleSettings "directum") sampleFiles).1 =
      .ok ⟨text "directum", (profileDescriptions.lookup (text "directum")).getD [],
        [hostCidr sampleSettings.directumIp], false, true⟩ := by
    rfl
  cases hfn.symm.trans htm
  refine ⟨cons_ne_nil _ _, ?_⟩
  intro cidr hcid
  cases mem_singleton.1 hcid
  have hcat : (match (exec (listNetworks sampleSettings) sampleFiles).1 with
      | .ok rows => decide (hostCidr sampleSettings.directumIp ∈ rows.map NetworkRow.cidr)
      | .error _ => false) = true := by
    rfl
  rw [hrs] at hcat
  exact of_decide_eq_true hcat

end WebOvpn.Vpn
