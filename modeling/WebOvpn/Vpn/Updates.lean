/-
Two commands at once on the catalogue, the templates and `server.conf`: the
steps of the one on whole files fall between those of the other, and only the
commands for clients take the lock.
-/
import WebOvpn.Vpn.Issuing

namespace WebOvpn.Vpn

open Text Prog

/-- The commands that change the catalogue, the templates or `server.conf`. -/
inductive Update where
  | addNetwork (cidr tag : Text) (nat : Bool) (comment : Text)
  | removeNetwork (cidr : Text)
  | addVipnetNet (cidr : Text)
  | removeVipnetNet (cidr : Text)
  | addTemplate (name : Text) (cidrs : List Text) (description : Text) (dns : Bool)
  | removeTemplate (name : Text)
  | addSiteRoute (cidr client : Text)
  | removeSiteRoute (cidr : Text)
  | applyServerConfig (patch : ServerPatch)
  | migratePool (fromCidr toCidr : Text)
  | generate (moment : Moment) (request : ClientRequest)

section

variable (cfg : Settings) (host : Host)

/-- What the branches of `main` call; `generate` is the one with
`--create-server-route`. -/
def Update.prog : Update → Command Unit
  | .addNetwork cidr tag nat comment => do let _ ← Vpn.addOrUpdateNetwork cfg cidr tag nat comment
  | .removeNetwork cidr => do let _ ← Vpn.removeNetwork cfg cidr
  | .addVipnetNet cidr => do let _ ← Vpn.addVipnetNet cfg cidr
  | .removeVipnetNet cidr => do let _ ← Vpn.removeVipnetNet cfg cidr
  | .addTemplate name cidrs description dns => do
      let _ ← addNetworkTemplate cfg name cidrs description dns
  | .removeTemplate name => do let _ ← removeNetworkTemplate cfg name
  | .addSiteRoute cidr client => do let _ ← Vpn.addSiteRoute cfg host.v6 cidr client
  | .removeSiteRoute cidr => do let _ ← Vpn.removeSiteRoute host.v6 cidr
  | .applyServerConfig patch => do let _ ← patchServerConfig cfg patch
  | .migratePool fromCidr toCidr => do let _ ← migrateServerPool cfg fromCidr toCidr
  | .generate moment request => do
      let _ ← generateClient cfg host moment { request with createServerRoute := true } false

/-- Whether the branch of `main` is inside `with lock_exclusive()`. -/
def Update.locks : Update → Bool
  | .generate _ _ => true
  | _ => false

/-- Two commands before their first step; nobody holds the lock. -/
def begin (updates : Bool → Update) (s : Files) : Race Content Stop Unit where
  progs := fun who => (updates who).prog cfg host
  store := s
  holder := none

/-- The two commands take their turns as the schedule says. -/
def interleave (updates : Bool → Update) (s : Files) (schedule : List Bool) :
    Race Content Stop Unit × List (Bool × Prog.Access File) :=
  Race.play (fun who => (updates who).locks) (begin cfg host updates s) schedule

def oneAfterTheOther (updates : Bool → Update) (s : Files) (first : Bool) : Files :=
  (exec ((updates !first).prog cfg host) (exec ((updates first).prog cfg host) s).2).2

end

/-- The groups of files that are read and replaced together. -/
inductive Area where
  | catalogue
  | templates
  | server
  | clients
  deriving DecidableEq

def File.area : File → Area
  | .networksDb => .catalogue
  | .vipnetNets => .catalogue
  | .templatesDb => .templates
  | .serverConf => .server
  | _ => .clients

def Update.reads : Update → Area → Prop
  | .addNetwork _ _ _ _, a => a = .catalogue
  | .removeNetwork _, a => a = .catalogue
  | .addVipnetNet _, a => a = .catalogue
  | .removeVipnetNet _, a => a = .catalogue
  | .addTemplate _ _ _ _, a => a = .catalogue ∨ a = .templates
  | .removeTemplate _, a => a = .catalogue ∨ a = .templates
  | .generate _ _, a => a ≠ .templates
  | _, a => a = .server

def Update.writes : Update → Area → Prop
  | .addNetwork _ _ _ _, a => a = .catalogue
  | .removeNetwork _, a => a = .catalogue
  | .addVipnetNet _, a => a = .catalogue
  | .removeVipnetNet _, a => a = .catalogue
  | .addTemplate _ _ _ _, a => a = .templates
  | .removeTemplate _, a => a = .templates
  | .generate _ _, a => a = .server ∨ a = .clients
  | _, a => a = .server

section

variable {cfg : Settings} {host : Host} {moment : Moment} {request : ClientRequest} {R W : File → Prop}

theorem ccdContent_uses (profile : Profile) (vpnIp : Text) (clientType : ClientType) (remoteLan : Text)
    (hnet : R .networksDb) (hns : R .vipnetNets) :
    (ccdContent cfg profile vpnIp clientType remoteLan).Uses R W := by
  have hpart : ∀ part, (partLines cfg part).Uses R W := by
    intro part
    cases part with
    | vipnetRoutes => exact Uses.bind (readVipnetNets_uses hnet hns) fun _ => uses_lift _
    | lanRoutes => exact uses_lift (lanNetworks.mapM routeLineOf)
    | _ => exact uses_pure _
  have hpr : ∀ parts, (partsLines cfg parts).Uses R W := by
    intro parts
    induction parts with
    | nil => exact uses_pure _
    | cons part rest ih =>
      apply Uses.bind (hpart part)
      intro lines
      exact Uses.bind ih fun _ => uses_pure _
  apply Uses.bind
  · apply Uses.bind (uses_lift _)
    intro remoteLan
    apply Uses.bind (uses_lift _)
    intro front
    exact Uses.bind (hpr _) fun _ => uses_pure _
  · intro lines
    exact uses_pure _

theorem checkVpnIpCollision_uses (client vpnIp : Text) (clientType : ClientType) (hccd : R .ccdDir) :
    (checkVpnIpCollision cfg client vpnIp clientType).Uses R W := by
  unfold checkVpnIpCollision
  split
  · exact uses_pure _
  · apply Uses.bind (uses_lift _)
    intro _
    apply Uses.bind (uses_get hccd)
    intro ccd
    split
    · exact uses_stop _
    · exact uses_pure _

theorem planClient_uses (request : ClientRequest) (hnet : R .networksDb) (hns : R .vipnetNets)
    (hccd : R .ccdDir) : (planClient cfg request).Uses R W := by
  apply Uses.bind (uses_raiseIf _)
  intro _
  apply Uses.bind (uses_lift _)
  intro profile
  apply Uses.bind (uses_lift _)
  intro clientType
  apply Uses.bind (uses_lift _)
  intro remoteLan
  apply Uses.bind (checkVpnIpCollision_uses _ _ _ hccd)
  intro _
  apply Uses.bind (ccdContent_uses _ _ _ _ hnet hns)
  intro ccd
  exact uses_pure _

/-- The commands for clients read everything but the templates and write
`server.conf` and the files of clients. -/
def ReadsAll (R : File → Prop) : Prop := ∀ f, f ≠ .templatesDb → R f

def WritesClients (W : File → Prop) : Prop := ∀ f, f.area = .server ∨ f.area = .clients → W f

theorem registerClient_uses (plan : ClientPlan) (hR : ReadsAll R) (hW : WritesClients W) :
    (registerClient cfg host moment request plan).Uses R W := by
  have hra : ∀ client, (readCcd client).Uses R W := fun client =>
    Uses.bind (uses_get (hR .ccdDir nofun)) fun _ => uses_pure _
  have hot : readOutDir.Uses R W := Uses.bind (uses_get (hR .outDir nofun)) fun _ => uses_pure _
  have hpki : readPki.Uses R W := uses_get (hR .pkiDir nofun)
  apply Uses.bind
  · apply Uses.bind (hra _)
    intro content
    apply Uses.bind hot
    intro out
    apply Uses.bind (readVipnetNets_uses (hR _ nofun) (hR _ nofun))
    intro vipnets
    exact uses_pure _
  intro detected
  apply Uses.bind (hra _)
  intro content
  apply Uses.bind hpki
  intro pki
  apply Uses.bind
  · apply Uses.bind hpki
    intro pki
    apply Uses.bind (uses_get (hR .ccdDir nofun))
    intro ccd
    apply Uses.bind hot
    intro out
    apply Uses.bind (uses_get (hR .shareDir nofun))
    intro share
    exact uses_pure _
  intro files
  apply Uses.bind (uses_get (hR .registryDb nofun))
  intro rows
  exact uses_put (hW .registryDb (.inr rfl))

variable (client : Text)

theorem issueCertificate_uses (hR : ReadsAll R) (hW : WritesClients W) :
    (issueCertificate host client).Uses R W := by
  apply Uses.bind (uses_get (hR .pkiDir nofun))
  intro pki
  split
  · exact uses_pure _
  · split
    · exact uses_put (hW .pkiDir (.inr rfl))
    · exact uses_stop _

theorem issueTlsCrypt_uses (hR : ReadsAll R) (hW : WritesClients W) :
    (issueTlsCrypt host client).Uses R W := by
  apply Uses.bind (uses_get (hR .outDir nofun))
  intro out
  split
  · exact uses_pure _
  · split
    · exact uses_put (hW .outDir (.inr rfl))
    · exact uses_stop _

theorem writeOut_uses (name content : Text) (hR : ReadsAll R) (hW : WritesClients W) :
    (writeOut name content).Uses R W :=
  Uses.bind (uses_get (hR .outDir nofun)) fun _ => uses_put (hW .outDir (.inr rfl))

theorem backupOut_uses (name : Text) (hR : ReadsAll R) (hW : WritesClients W) :
    (backupOut name moment).Uses R W := by
  apply Uses.bind (uses_get (hR .outDir nofun))
  intro out
  split
  · exact uses_put (hW .outDir (.inr rfl))
  · exact uses_pure _

theorem replaceCcd_uses (client content : Text) (hR : ReadsAll R) (hW : WritesClients W) :
    (replaceCcd client content moment).Uses R W := by
  apply Uses.bind (uses_get (hR .ccdDir nofun))
  intro ccd
  apply Uses.bind (uses_raiseIf _)
  intro _
  exact uses_put (hW .ccdDir (.inr rfl))

theorem buildOvpn_uses (hR : ReadsAll R) : (buildOvpn client).Uses R W := by
  apply Uses.bind (uses_get (hR .pkiDir nofun))
  intro pki
  apply Uses.bind (uses_get (hR .outDir nofun))
  intro out
  split
  · split
    · exact uses_pure _
    · exact uses_stop _
  · exact uses_stop _

theorem updateBat_uses (hosts : Bool) (hR : ReadsAll R) (hW : WritesClients W) :
    (updateBat client hosts).Uses R W := by
  unfold updateBat
  split
  · exact writeOut_uses _ _ hR hW
  · exact Uses.bind (uses_get (hR .outDir nofun)) fun _ => uses_put (hW .outDir (.inr rfl))

theorem copyToShare_uses (client ovpn : Text) (hosts : Bool) (hR : ReadsAll R) (hW : WritesClients W) :
    (copyToShare host client ovpn hosts).Uses R W := by
  unfold copyToShare
  split
  · exact Uses.bind (uses_get (hR .shareDir nofun)) fun _ => uses_put (hW .shareDir (.inr rfl))
  · exact uses_pure _

theorem generateClient_uses (hR : ReadsAll R) (hW : WritesClients W) (dryRun : Bool) :
    (generateClient cfg host moment request dryRun).Uses R W := by
  apply Uses.bind (planClient_uses _ (hR _ nofun) (hR _ nofun) (hR _ nofun))
  intro plan
  split
  · exact uses_pure _
  apply Uses.bind _ fun _ => uses_pure _
  apply Uses.bind (uses_raiseIf _)
  intro _
  apply Uses.bind (uses_raiseIf _)
  intro _
  apply Uses.bind (issueCertificate_uses _ hR hW)
  intro _
  apply Uses.bind (issueTlsCrypt_uses _ hR hW)
  intro _
  apply Uses.bind (replaceCcd_uses _ _ hR hW)
  intro _
  apply Uses.bind (backupOut_uses _ hR hW)
  intro _
  apply Uses.bind (backupOut_uses _ hR hW)
  intro _
  have hrs : (do
      let ovpn ← buildOvpn request.client
      writeOut (ovpnName request.client) ovpn
      updateBat request.client plan.profile.hosts
      copyToShare host request.client ovpn plan.profile.hosts
      registerClient cfg host moment request plan).Uses R W := by
    apply Uses.bind (buildOvpn_uses _ hR)
    intro ovpn
    apply Uses.bind (writeOut_uses _ _ hR hW)
    intro _
    apply Uses.bind (updateBat_uses _ _ hR hW)
    intro _
    apply Uses.bind (copyToShare_uses _ _ _ hR hW)
    intro _
    exact registerClient_uses _ hR hW
  split
  · apply Uses.bind (addSiteRoute_uses _ _ ⟨hR .serverConf nofun, hW .serverConf (.inl rfl)⟩)
    intro _
    exact hrs
  · exact hrs

/-- A command works on the files of its groups. -/
theorem Update.prog_uses (update : Update) :
    (update.prog cfg host).Uses (fun f => update.reads f.area) fun f => update.writes f.area := by
  cases update with
  | addNetwork cidr tag nat comment =>
    exact Uses.bind (addOrUpdateNetwork_uses ⟨rfl, rfl⟩ ⟨rfl, rfl⟩) fun _ => uses_pure _
  | addVipnetNet cidr => exact Uses.bind (addOrUpdateNetwork_uses ⟨rfl, rfl⟩ ⟨rfl, rfl⟩) fun _ => uses_pure _
  | addTemplate name cidrs description dns =>
    exact Uses.bind (addNetworkTemplate_uses (.inl rfl) (.inl rfl) ⟨.inr rfl, rfl⟩) fun _ => uses_pure _
  | removeTemplate name =>
    exact Uses.bind (removeNetworkTemplate_uses (.inl rfl) (.inl rfl) ⟨.inr rfl, rfl⟩) fun _ => uses_pure _
  | addSiteRoute cidr client => exact Uses.bind (addSiteRoute_uses _ _ ⟨rfl, rfl⟩) fun _ => uses_pure _
  | removeSiteRoute cidr => exact Uses.bind (removeSiteRoute_uses _ ⟨rfl, rfl⟩) fun _ => uses_pure _
  | applyServerConfig patch => exact Uses.bind (patchServerConfig_uses _ ⟨rfl, rfl⟩) fun _ => uses_pure _
  | migratePool fromCidr toCidr => exact Uses.bind (migrateServerPool_uses _ _ ⟨rfl, rfl⟩) fun _ => uses_pure _
  | generate moment request =>
    have hR : ReadsAll fun f => (Update.generate moment request).reads f.area := by
      intro f hf
      cases f <;> first | exact absurd rfl hf | nofun
    exact Uses.bind (generateClient_uses hR (fun f hf => hf) false) fun _ => uses_pure _
  | _ => exact Uses.bind (removeNetwork_uses ⟨rfl, rfl⟩ ⟨rfl, rfl⟩) fun _ => uses_pure _

variable {updates : Bool → Update} {s : Files} {schedule : List Bool}

def Apart (updates : Bool → Update) : Prop :=
  ∀ who a, (updates who).writes a → ¬ ((updates !who).reads a ∨ (updates !who).writes a)

theorem ordered_of_apart (h : Apart updates) (first : Bool) :
    Race.Ordered first (interleave cfg host updates s schedule).2 :=
  Race.ordered_of_apart (R := fun who f => (updates who).reads f.area)
    (W := fun who f => (updates who).writes f.area) first (fun who => (updates who).prog_uses)
    fun who f => h who f.area

theorem ordered_of_locks (h : ∀ who, (updates who).locks = true) :
    ∃ first, Race.Ordered first (interleave cfg host updates s schedule).2 :=
  Race.ordered_of_locks h rfl

/-- No update is lost between two commands that both take the lock, that work
on different groups of files, or of which one takes no step before a step of
the other that it conflicts with. -/
theorem updates_one_after_the_other (cfg : Settings) (host : Host) (updates : Bool → Update) (s : Files)
    (schedule : List Bool) (hover : (interleave cfg host updates s schedule).1.isOver = true)
    (h : (∀ who, (updates who).locks = true) ∨ Apart updates ∨
      ∃ first, Race.Ordered first (interleave cfg host updates s schedule).2) :
    ∃ first, (interleave cfg host updates s schedule).1.store =
      oneAfterTheOther cfg host updates s first := by
  have hord : ∃ first, Race.Ordered first (interleave cfg host updates s schedule).2 := by
    rcases h with hlc | hap | hord
    · exact ordered_of_locks hlc
    · exact ⟨true, ordered_of_apart hap true⟩
    · exact hord
  obtain ⟨first, hord⟩ := hord
  exact ⟨first, Race.serial_of_ordered hover hord⟩

/-- Two updates that take turns under the lock are both in the file. -/
theorem network_and_site_route_one_after_the_other : ∃ first, (interleave sampleSettings sampleHost
      (fun who => bif who then .addNetwork "10.0.5.0/24" [] false [] else .addSiteRoute "10.0.6.0/24" [])
      sampleFiles [true, false, true, false, true, false, true, false, false, false]).1.store =
    oneAfterTheOther sampleSettings sampleHost
      (fun who => bif who then .addNetwork "10.0.5.0/24" [] false [] else .addSiteRoute "10.0.6.0/24" [])
      sampleFiles first := by
  apply updates_one_after_the_other
  · rfl
  · right
    left
    intro who a hwr
    cases who
    · cases hwr
      rintro (h | h) <;> cases h
    · cases hwr
      rintro (h | h) <;> cases h

def emptyCatalogue : Files := Function.update sampleFiles .networksDb (some [])

def twoNetworks (who : Bool) : Update :=
  .addNetwork (bif who then "10.0.5.0/24" else "10.0.6.0/24") [] false []

/-- Both commands read the catalogue before one of them replaces it: the
network of the first is lost. -/
theorem added_network_lost : ¬ ∀ schedule,
    (interleave sampleSettings sampleHost twoNetworks emptyCatalogue schedule).1.isOver = true →
      ∃ first, (interleave sampleSettings sampleHost twoNetworks emptyCatalogue schedule).1.store =
        oneAfterTheOther sampleSettings sampleHost twoNetworks emptyCatalogue first := by
  intro h
  obtain ⟨first, hsm⟩ := h [true, false, true, true, false, false] rfl
  have hrs := congrArg (fun s : Files => Option.map List.length (s .networksDb)) hsm
  have hlos : Option.map List.length ((interleave sampleSettings sampleHost twoNetworks emptyCatalogue
      [true, false, true, true, false, false]).1.store .networksDb) = some 1 := by
    rfl
  have hkp : Option.map List.length (oneAfterTheOther sampleSettings sampleHost twoNetworks emptyCatalogue first
      .networksDb) = some 2 := by
    cases first <;> rfl
  rw [hlos, hkp] at hrs
  cases hrs

end

end WebOvpn.Vpn
