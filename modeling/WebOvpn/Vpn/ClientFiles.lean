/-
The files of a client.  `client_paths` names nine of them, `backup_file` puts a copy
next to one, and `scan_existing` finds the clients again by the names of their files.
-/
import Mathlib.Data.List.Dedup
import WebOvpn.Lib.Calendar
import WebOvpn.Vpn.Batch

namespace WebOvpn.Vpn

open Text List Prog

/-- The directories that `client_paths` puts files into. -/
inductive Place where
  | issued
  | privateKeys
  | reqs
  | out
  | ccd
  | share
  deriving DecidableEq

/-- The configured directories, by the parts of their paths; no two are the same. -/
structure Layout where
  directory : Place → List Text
  injective : Function.Injective directory

/-- The keys of `client_paths`. -/
inductive PathKey where
  | crt
  | key
  | req
  | tlscrypt
  | ovpn
  | bat
  | ccd
  | shareOvpn
  | shareBat
  deriving DecidableEq

def PathKey.place : PathKey → Place
  | .crt => .issued
  | .key => .privateKeys
  | .req => .reqs
  | .tlscrypt => .out
  | .ovpn => .out
  | .bat => .out
  | .ccd => .ccd
  | .shareOvpn => .share
  | .shareBat => .share

/-- What the name of a file adds to the name of the client. -/
def PathKey.suffix : PathKey → Text
  | .crt => ".crt"
  | .key => ".key"
  | .req => ".req"
  | .tlscrypt => ".tls-crypt-v2.key"
  | .ovpn => ".ovpn"
  | .bat => "-install-hosts-as-admin.bat"
  | .ccd => []
  | .shareOvpn => ".ovpn"
  | .shareBat => "-install-hosts-as-admin.bat"

/-- `directory / name` of a name without a slash. -/
def childOf (directory : List Text) (name : Text) : List Text :=
  if name = "." then directory else directory ++ [name]

def clientPaths (layout : Layout) (client : Text) (file : PathKey) : List Text :=
  childOf (layout.directory file.place) (client ++ file.suffix)

/-- `timestamp`, of the local time. -/
def timestamp (now : Instant) : Text :=
  let (year, month, day) := ordToYmd (now.val / microsPerDay + 1)
  let second := now.val % microsPerDay / 1000000
  digits4 year ++ text "-" ++ digits2 month ++ text "-" ++ digits2 day ++ text "_" ++ digits2 (second / 3600) ++
    text "-" ++ digits2 (second / 60 % 60) ++ text "-" ++ digits2 (second % 60)

/-- The path of the copy that `backup_file` makes. -/
def backupPath (path : List Text) (now : Instant) : List Text :=
  path.dropLast ++ [backupName (path.getLast?.getD []) (timestamp now)]

/-- `PurePath.stem`. -/
def stem (name : Text) : Text :=
  let tail := name.reverse.takeWhile (· ≠ 46)
  if tail ≠ [] ∧ tail.length + 1 < name.length then name.take (name.length - (tail.length + 1)) else name

def ccdClient (name : Text) : Option Text :=
  if contains backupMark name || (text ".").isPrefixOf name then none else some name

def outClient (name : Text) : Option Text :=
  if endswith name ".ovpn" then some (stem name)
  else if endswith name ".tls-crypt-v2.key" then some (name.take (name.length - 17))
  else if endswith name "-install-hosts-as-admin.bat" then some (name.take (name.length - 27))
  else none

/-- The names that `scan_existing` finds, sorted. -/
def scanNames (ccd out : List Text) : List Text :=
  ((ccd.filterMap ccdClient ++ out.filterMap outClient).filter isClientName).dedup.insertionSort
    fun name other => Text.le name other

section

variable (cfg : Settings) (host : Host) (now : Text)

def detectProfile (client : Text) (content : Option Text) : Command Text :=
  if content.isSome then inferProfileOf cfg host client else return "unknown"

def scanRow (client : Text) : Command ClientRow := do
  Prog.raiseIf (isDirectoryName client = true) .raised
  let content ← readCcd client
  let detected ← detectProfile cfg host client content
  let parsed := parseCcdFile host.v6 content
  let inferred ← Prog.lift (inferClientTypeFromCcd cfg host.v6 parsed)
  let pki ← readPki
  let files ← filesOf cfg client
  return { rowOf client files now with
    profile := knownProfile detected
    detectedProfile := some detected
    vpnIp := parsed.vpnIp
    clientType := inferred.name
    remoteLanCidr := firstIroute parsed
    status :=
      match certStatus pki.index client with
      | .valid => "active"
      | status => status.name
    createdAt := none
    comment := some "imported-from-files" }

def scanRows : List Text → Command (List ClientRow)
  | [] => return []
  | name :: rest => do
    let row ← scanRow cfg host now name
    let rows ← scanRows rest
    return row :: rows

def scanExisting : Command (List ClientRow) := do
  let ccd ← readCcdDir
  let out ← readOutDir
  scanRows cfg host now (scanNames (ccd.map Prod.fst) out)

end

/-- A string that `validate_client` accepts. -/
abbrev ClientName := { name : Text // isClientName name = true }

/-- A set of clients with files, of which the CCD, OVPN, tls-crypt and BAT files are exactly theirs. -/
structure ClientStore where
  clients : List ClientName
  files : Files
  ccd : ∀ name, name ∈ (files .ccdDir : Directory).map Prod.fst ↔ ∃ client ∈ clients, name = client.1
  out : ∀ name, name ∈ (files .outDir : Directory).map Prod.fst ↔
    ∃ client ∈ clients, name = ovpnName client.1 ∨ name = tlscryptName client.1 ∨ name = batName client.1

def IsEntryName (name : Text) : Prop := name ≠ [] ∧ slash ∉ name ∧ isDirectoryName name = false

structure OwnFiles (layout : Layout) (cfg : Settings) (host : Host) (now : Text)
    (store : ClientStore) : Prop where
  apart : ∀ a ∈ store.clients, ∀ b ∈ store.clients, a ≠ b →
    ∀ file file', clientPaths layout a.1 file ≠ clientPaths layout b.1 file'
  direct : ∀ a ∈ store.clients, ∀ file, ∃ name,
    clientPaths layout a.1 file = layout.directory file.place ++ [name] ∧ IsEntryName name
  unsaved : ∀ a ∈ store.clients, ∀ b ∈ store.clients, a ≠ b →
    ∀ file file' moment, clientPaths layout a.1 file ≠ backupPath (clientPaths layout b.1 file') moment
  found : ∃ rows, (exec (scanExisting cfg host now) store.files).1 = .ok rows ∧
    (rows.map ClientRow.name).Nodup ∧ ∀ name, name ∈ rows.map ClientRow.name ↔
      ∃ client ∈ store.clients, name = client.1

def Comparable (v6 : Ipv6) (parsed : ParsedCcd) : Prop :=
  parsed.iroutes ≠ [] ∨ ∀ ip ∈ parsed.vpnIp, (Ipv4.ofText ip).isSome = true ∨ v6.isAddress ip = false

/-- No name is that of a directory or of a backup of another client, and the rows can be made. -/
structure Telling (cfg : Settings) (host : Host) (store : ClientStore) : Prop where
  children : ∀ client ∈ store.clients, isDirectoryName client.1 = false
  unsaved : ∀ a ∈ store.clients, ∀ b ∈ store.clients, ∀ moment, a.1 ≠ backupName b.1 (timestamp moment)
  catalogue : store.clients ≠ [] → ∃ rows, (exec (listNetworks cfg) store.files).1 = .ok rows
  addresses : ∀ client ∈ store.clients, ∀ content,
    (store.files .ccdDir : Directory).lookup client.1 = some content →
    Comparable host.v6 (parseCcd host.v6 content)

section Names

variable {name client other : Text} {file file' : PathKey}

theorem isClientName_ne_nil (h : isClientName name = true) : name ≠ [] := by
  rintro rfl
  cases h

theorem slash_notMem_of_isClientName (h : isClientName name = true) : slash ∉ name := by
  intro hsl
  simp only [isClientName, Bool.and_eq_true, all_eq_true] at h
  have hbd := h.2
  split_ifs at hbd with hls
  · obtain ⟨body, rfl⟩ := getLast?_eq_some_iff.1 hls
    rw [dropLast_concat] at hbd
    rcases mem_append.1 hsl with hsl | hsl
    · exact absurd (hbd slash hsl) (by decide)
    · exact absurd (mem_singleton.1 hsl) (by decide)
  · exact absurd (hbd slash hsl) (by decide)

/-- Files of one directory differ in what their names end with. -/
theorem suffix_eq_of_getLast? (hpl : file.place = file'.place)
    (h : file.suffix.getLast? = file'.suffix.getLast?) :
    file.suffix = file'.suffix := by
  cases file <;> cases file' <;> first | (cases hpl; done) | exact absurd h (by decide) | rfl

theorem suffix_eq_nil_iff : (file.suffix = [] ↔ file = .ccd) ∧ (file.place = .ccd ↔ file = .ccd) := by
  cases file <;> decide

theorem exists_getLast?_suffix (h : file ≠ .ccd) : ∃ last, file.suffix.getLast? = some last ∧
    last.isLower = true := by
  cases file with
  | ccd => exact absurd rfl h
  | _ => exact ⟨_, rfl, by decide⟩

theorem slash_notMem_suffix : slash ∉ file.suffix := by
  cases file <;> decide

theorem getLast?_timestamp (moment : Instant) : ∃ n, (timestamp moment).getLast? = some (digitOf n) := by
  refine ⟨moment.val % microsPerDay / 1000000 % 60, ?_⟩
  simp only [timestamp, getLast?_append]
  rfl

theorem isLower_digitOf (n : Nat) : (digitOf n).isLower = false := by
  rw [CodePoint.isLower, Bool.and_eq_false_iff]
  left
  rw [decide_eq_false_iff_not]
  change ¬ 97 ≤ 48 + n % 10
  omega

theorem getLast?_fileName (h : file ≠ .ccd) : ∃ last, (client ++ file.suffix).getLast? = some last ∧
    last.isLower = true := by
  obtain ⟨last, hls, hlow⟩ := exists_getLast?_suffix h
  exact ⟨last, by simp [getLast?_append, hls], hlow⟩

theorem isDirectoryName_fileName (h : isDirectoryName client = false) :
    isDirectoryName (client ++ file.suffix) = false := by
  by_cases hfl : file = .ccd
  · rw [suffix_eq_nil_iff.1.2 hfl, append_nil]
    exact h
  · obtain ⟨last, hls, hlow⟩ := @getLast?_fileName client file hfl
    have hdot : ∀ s : Text, s.getLast? = some 46 → client ++ file.suffix ≠ s := by
      rintro s hs rfl
      rw [hs] at hls
      cases hls
      cases hlow
    simp only [isDirectoryName, Bool.or_eq_false_iff, decide_eq_false_iff_not]
    exact ⟨hdot _ rfl, hdot _ rfl⟩

theorem isEntryName_fileName (hnm : isClientName client = true) (h : isDirectoryName client = false) :
    IsEntryName (client ++ file.suffix) := by
  refine ⟨?_, ?_, isDirectoryName_fileName h⟩
  · simp [isClientName_ne_nil hnm]
  · simp [slash_notMem_of_isClientName hnm, slash_notMem_suffix]

variable {layout : Layout}

theorem clientPaths_eq (h : isDirectoryName client = false) :
    clientPaths layout client file = layout.directory file.place ++ [client ++ file.suffix] := by
  have hnm := @isDirectoryName_fileName client file h
  simp only [isDirectoryName, Bool.or_eq_false_iff, decide_eq_false_iff_not] at hnm
  exact if_neg hnm.1

theorem eq_of_clientPaths_eq (hcl : isDirectoryName client = false) (hot : isDirectoryName other = false)
    (h : clientPaths layout client file = clientPaths layout other file') : client = other := by
  rw [clientPaths_eq hcl, clientPaths_eq hot] at h
  obtain ⟨hdir, hname⟩ := append_inj' h rfl
  have hpl := layout.injective hdir
  have hnm := List.head_eq_of_cons_eq hname
  have hsuf : file.suffix = file'.suffix := by
    by_cases hfl : file = .ccd
    · rw [suffix_eq_nil_iff.1.2 hfl,
        suffix_eq_nil_iff.1.2 (suffix_eq_nil_iff.2.1 (hpl ▸ suffix_eq_nil_iff.2.2 hfl))]
    · have hfl' : file' ≠ .ccd := fun h' => hfl (suffix_eq_nil_iff.2.1 (hpl ▸ suffix_eq_nil_iff.2.2 h'))
      obtain ⟨last, hls, -⟩ := exists_getLast?_suffix hfl
      obtain ⟨last', hls', -⟩ := exists_getLast?_suffix hfl'
      have hen := congrArg getLast? hnm
      simp only [getLast?_append, hls, hls', Option.some_or] at hen
      exact suffix_eq_of_getLast? hpl (by rw [hls, hls', hen])
  rw [hsuf] at hnm
  exact append_cancel_right hnm

theorem eq_backupName_of_clientPaths_eq {moment : Instant} (hcl : isDirectoryName client = false)
    (hot : isDirectoryName other = false)
    (h : clientPaths layout client file = backupPath (clientPaths layout other file') moment) :
    client = backupName other (timestamp moment) := by
  rw [clientPaths_eq hcl, clientPaths_eq hot] at h
  simp only [backupPath, dropLast_concat, getLast?_concat, Option.getD_some] at h
  obtain ⟨hdir, hname⟩ := append_inj' h rfl
  have hpl := layout.injective hdir
  have hnm := List.head_eq_of_cons_eq hname
  have hfl : file = .ccd := by
    by_contra hfl
    obtain ⟨last, hls, hlow⟩ := @getLast?_fileName client file hfl
    obtain ⟨n, hdg⟩ := getLast?_timestamp moment
    rw [hnm, backupName, getLast?_append, hdg] at hls
    cases hls
    rw [isLower_digitOf] at hlow
    cases hlow
  have hfl' : file' = .ccd := suffix_eq_nil_iff.2.1 (hpl ▸ suffix_eq_nil_iff.2.2 hfl)
  rwa [suffix_eq_nil_iff.1.2 hfl, suffix_eq_nil_iff.1.2 hfl', append_nil, append_nil] at hnm

theorem stem_ovpnName (h : client ≠ []) : stem (ovpnName client) = client := by
  have hti : (ovpnName client).reverse.takeWhile (· ≠ 46) = "npvo" := by
    rw [ovpnName, reverse_append]
    rfl
  have hlen : (ovpnName client).length = client.length + 5 := by simp [ovpnName, text]
  have hpos := length_pos_of_ne_nil h
  unfold stem
  rw [hti, hlen, if_pos ⟨by decide, by simp [text]; omega⟩]
  exact take_left' rfl

theorem endswith_append (init suffix : Text) : endswith (init ++ suffix) suffix = true :=
  isSuffixOf_iff_suffix.2 (suffix_append _ _)

theorem outClient_ovpnName (h : client ≠ []) : outClient (ovpnName client) = some client :=
  (if_pos (endswith_append _ _)).trans (congrArg some (stem_ovpnName h))

theorem not_endswith {init s suffix : Text} (hs : s ≠ []) (hsuf : suffix ≠ [])
    (h : s.getLast hs ≠ suffix.getLast hsuf) : ¬ endswith (init ++ s) suffix = true := by
  intro hend
  obtain ⟨init', heq⟩ := isSuffixOf_iff_suffix.1 hend
  have hls := congrArg getLast? heq
  simp only [getLast?_append, getLast?_eq_some_getLast hs, getLast?_eq_some_getLast hsuf, Option.some_or] at hls
  exact h (Option.some.inj hls).symm

theorem outClient_tlscryptName (client : Text) : outClient (tlscryptName client) = some client := by
  have hovp : ¬ endswith (client ++ ".tls-crypt-v2.key") ".ovpn" = true :=
    not_endswith (by decide) (by decide) (by decide)
  unfold outClient tlscryptName
  rw [if_neg hovp, if_pos (endswith_append _ _)]
  exact congrArg some (take_left' (by simp [text]))

theorem outClient_batName (client : Text) : outClient (batName client) = some client := by
  have hovp : ¬ endswith (client ++ "-install-hosts-as-admin.bat") ".ovpn" = true :=
    not_endswith (by decide) (by decide) (by decide)
  have hkey : ¬ endswith (client ++ "-install-hosts-as-admin.bat") ".tls-crypt-v2.key" = true :=
    not_endswith (by decide) (by decide) (by decide)
  unfold outClient batName
  rw [if_neg hovp, if_neg hkey, if_pos (endswith_append _ _)]
  exact congrArg some (take_left' (by simp [text]))

end Names

section Scan

variable {cfg : Settings} {host : Host} {now client content : Text} {s : Files} {row : ClientRow}
    {store : ClientStore}

theorem mem_scanNames {name : Text} :
    name ∈ scanNames ((store.files .ccdDir : Directory).map Prod.fst)
      ((store.files .outDir : Directory).map Prod.fst) ↔
      ∃ client ∈ store.clients, name = client.1 := by
  simp only [scanNames, mem_insertionSort, mem_dedup, mem_filter, mem_append, mem_filterMap]
  constructor
  · rintro ⟨⟨file, hfl, hcl⟩ | ⟨file, hfl, hcl⟩, -⟩
    · unfold ccdClient at hcl
      split_ifs at hcl
      cases hcl
      exact (store.ccd _).1 hfl
    · obtain ⟨client, hmem, hfl⟩ := (store.out _).1 hfl
      refine ⟨client, hmem, ?_⟩
      rcases hfl with rfl | rfl | rfl
      · rw [outClient_ovpnName (isClientName_ne_nil client.2)] at hcl
        exact (Option.some.inj hcl).symm
      · rw [outClient_tlscryptName] at hcl
        exact (Option.some.inj hcl).symm
      · rw [outClient_batName] at hcl
        exact (Option.some.inj hcl).symm
  · rintro ⟨client, hmem, rfl⟩
    exact ⟨.inr ⟨ovpnName client.1, (store.out _).2 ⟨client, hmem, .inl rfl⟩,
      outClient_ovpnName (isClientName_ne_nil client.2)⟩, client.2⟩

theorem inferClientTypeFromCcd_isOk (cfg : Settings) {parsed : ParsedCcd} :
    (∃ inferred, inferClientTypeFromCcd cfg host.v6 parsed = .ok inferred) ↔
      Comparable host.v6 parsed := by
  unfold inferClientTypeFromCcd Comparable
  by_cases hiro : parsed.iroutes = []
  · cases hip : parsed.vpnIp with
    | none => simp [hiro]
    | some ip => cases hadd : Ipv4.ofText ip <;> cases hv6 : host.v6.isAddress ip <;> simp [hiro, hadd, hv6]
  · simp [hiro]

theorem readsOnly_readCcd : (readCcd client).ReadsOnly :=
  Uses.bind (uses_get trivial) fun _ => uses_pure _

theorem readsOnly_detectProfile {content : Option Text} :
    (detectProfile cfg host client content).ReadsOnly := by
  unfold detectProfile
  split_ifs
  · exact inferProfileOf_readsOnly cfg host client
  · exact uses_pure _

theorem readsOnly_filesOf : (filesOf cfg client).ReadsOnly :=
  Uses.bind (uses_get trivial) fun _ => Uses.bind (uses_get trivial) fun _ =>
    Uses.bind (Uses.bind (uses_get trivial) fun _ => uses_pure _) fun _ =>
      Uses.bind (uses_get trivial) fun _ => uses_pure _

theorem readsOnly_scanRow : (scanRow cfg host now client).ReadsOnly :=
  Uses.bind (uses_raiseIf _) fun _ => readsOnly_readCcd.bind fun _ => readsOnly_detectProfile.bind fun _ =>
    Uses.bind (uses_lift _) fun _ => Uses.bind (uses_get trivial) fun _ =>
      readsOnly_filesOf.bind fun _ => uses_pure _

theorem detectProfile_isOk (host : Host) (client content : Text) :
    (∃ detected, (exec (detectProfile cfg host client (some content)) s).1 = .ok detected) ↔
    ∃ rows, (exec (listNetworks cfg) s).1 = .ok rows := by
  constructor
  · rintro ⟨detected, h⟩
    obtain ⟨_, -, h⟩ := readsOnly_readCcd.bind_eq_ok h
    obtain ⟨_, -, h⟩ := (Uses.bind (uses_get trivial) fun _ => uses_pure _ : readOutDir.ReadsOnly).bind_eq_ok h
    obtain ⟨_, hns, -⟩ := (readVipnetNets_uses trivial trivial : (readVipnetNets cfg).ReadsOnly).bind_eq_ok h
    obtain ⟨rows, hrs, -⟩ := (listNetworks_uses trivial trivial : (listNetworks cfg).ReadsOnly).bind_eq_ok hns
    exact ⟨rows, hrs⟩
  · rintro ⟨rows, hrs⟩
    exact inferProfileOf_ok hrs

theorem scanRow_isOk (hcl : isDirectoryName client = false)
    (hcn : (s .ccdDir : Directory).lookup client = some content) :
    (∃ row, (exec (scanRow cfg host now client) s).1 = .ok row) ↔
      (∃ rows, (exec (listNetworks cfg) s).1 = .ok rows) ∧
        Comparable host.v6 (parseCcd host.v6 content) := by
  have hra : (exec (readCcd client) s).1 = .ok (some content) := congrArg Except.ok hcn
  rw [← detectProfile_isOk host client content,
    ← inferClientTypeFromCcd_isOk cfg]
  unfold scanRow
  rw [exec_raiseIf_bind (by simp [hcl]), readsOnly_readCcd.exec_bind hra]
  constructor
  · rintro ⟨row, h⟩
    obtain ⟨detected, hdt, h⟩ := readsOnly_detectProfile.bind_eq_ok h
    obtain ⟨inferred, hin, -⟩ := Uses.bind_eq_ok (R := fun _ => True) (uses_lift _) h
    rw [exec_lift] at hin
    exact ⟨⟨detected, hdt⟩, inferred, hin⟩
  · rintro ⟨⟨detected, hdt⟩, inferred, hin⟩
    rw [readsOnly_detectProfile.exec_bind hdt]
    dsimp only [parseCcdFile]
    rw [hin]
    exact ⟨_, rfl⟩

theorem name_scanRow (h : (exec (scanRow cfg host now client) s).1 = .ok row) :
    row.name = client ∧ isDirectoryName client = false := by
  cases hcl : isDirectoryName client with
  | true =>
    unfold scanRow at h
    rw [exec_raiseIf_bind_error hcl] at h
    cases h
  | false =>
    unfold scanRow at h
    rw [exec_raiseIf_bind (by simp [hcl])] at h
    obtain ⟨_, -, h⟩ := readsOnly_readCcd.bind_eq_ok h
    obtain ⟨_, -, h⟩ := readsOnly_detectProfile.bind_eq_ok h
    obtain ⟨_, -, h⟩ := Uses.bind_eq_ok (R := fun _ => True) (uses_lift _) h
    obtain ⟨_, -, h⟩ := Uses.bind_eq_ok (R := fun _ => True) (uses_get trivial) h
    obtain ⟨_, hfs, h⟩ := readsOnly_filesOf.bind_eq_ok h
    cases h
    exact ⟨rfl, rfl⟩

theorem readsOnly_scanRows (names : List Text) : (scanRows cfg host now names).ReadsOnly := by
  induction names with
  | nil => exact uses_pure _
  | cons name rest ih => exact readsOnly_scanRow.bind fun _ => ih.bind fun _ => uses_pure _

theorem scanRows_isOk {names : List Text} :
    (∃ rows, (exec (scanRows cfg host now names) s).1 = .ok rows) ↔
      ∀ name ∈ names, ∃ row, (exec (scanRow cfg host now name) s).1 = .ok row := by
  induction names with
  | nil => exact ⟨fun _ => nofun, fun _ => ⟨[], rfl⟩⟩
  | cons name rest ih =>
    rw [forall_mem_cons, ← ih, scanRows]
    constructor
    · rintro ⟨rows, h⟩
      obtain ⟨row, hrow, h⟩ := readsOnly_scanRow.bind_eq_ok h
      obtain ⟨more, hmr, -⟩ := (readsOnly_scanRows rest).bind_eq_ok h
      exact ⟨⟨row, hrow⟩, more, hmr⟩
    · rintro ⟨⟨row, hrow⟩, more, hmr⟩
      rw [readsOnly_scanRow.exec_bind hrow, (readsOnly_scanRows rest).exec_bind hmr]
      exact ⟨_, rfl⟩

theorem names_scanRows {names : List Text} {rows : List ClientRow}
    (h : (exec (scanRows cfg host now names) s).1 = .ok rows) : rows.map ClientRow.name = names := by
  induction names generalizing rows with
  | nil =>
    cases h
    rfl
  | cons name rest ih =>
    obtain ⟨row, hrow, h⟩ := readsOnly_scanRow.bind_eq_ok h
    obtain ⟨more, hmr, h⟩ := (readsOnly_scanRows rest).bind_eq_ok h
    cases h
    rw [map_cons, (name_scanRow hrow).1, ih hmr]

theorem nodup_scanNames (ccd out : List Text) : (scanNames ccd out).Nodup :=
  (perm_insertionSort _ _).nodup_iff.2 (nodup_dedup _)

theorem found_iff : (∃ rows, (exec (scanExisting cfg host now) store.files).1 = .ok rows ∧
      (rows.map ClientRow.name).Nodup ∧ ∀ name, name ∈ rows.map ClientRow.name ↔
        ∃ client ∈ store.clients, name = client.1) ↔
    ∀ client ∈ store.clients, ∃ row, (exec (scanRow cfg host now client.1) store.files).1 = .ok row := by
  have hnm : ∀ name, _ ↔ _ := fun name => @mem_scanNames store name
  generalize hsc : scanNames _ _ = names at hnm
  have hex : exec (scanExisting cfg host now) store.files = exec (scanRows cfg host now names) store.files := by
    rw [← hsc]
    rfl
  have hrs : (∀ client ∈ store.clients, ∃ row, (exec (scanRow cfg host now client.1) store.files).1 = .ok row) ↔
      ∀ name ∈ names, ∃ row, (exec (scanRow cfg host now name) store.files).1 = .ok row := by
    simp [hnm]
  rw [hex, hrs, ← scanRows_isOk]
  constructor
  · rintro ⟨rows, h, -⟩
    exact ⟨rows, h⟩
  · rintro ⟨rows, h⟩
    refine ⟨rows, h, ?_⟩
    rw [names_scanRows h]
    exact ⟨hsc ▸ nodup_scanNames _ _, hnm⟩

/-- The clients have files of their own, and are found by them, exactly when no name
is that of a directory or of a backup and the rows of the clients can be made. -/
theorem ownFiles_iff (layout : Layout) (cfg : Settings) (host : Host) (now : Text)
    (store : ClientStore) :
    OwnFiles layout cfg host now store ↔ Telling cfg host store := by
  have hlo : ∀ client ∈ store.clients, ∃ content,
    (store.files .ccdDir : Directory).lookup client.1 = some content := by
    intro client hmem
    obtain ⟨entry, hen, hnm⟩ := mem_map.1 ((store.ccd client.1).2 ⟨client, hmem, rfl⟩)
    apply Option.isSome_iff_exists.1
    by_contra hnn
    rw [Option.not_isSome_iff_eq_none, lookup_eq_none_iff] at hnn
    exact absurd hnm.symm (by simpa using hnn entry hen)
  constructor
  · intro h
    have hrs := found_iff.1 h.found
    have hch : ∀ client ∈ store.clients, isDirectoryName client.1 = false := by
      intro client hmem
      obtain ⟨row, hrow⟩ := hrs client hmem
      exact (name_scanRow hrow).2
    refine ⟨hch, ?_, ?_, ?_⟩
    · intro a ha b hb moment heq
      have hne : a ≠ b := by
        rintro rfl
        have hlen := congrArg length heq
        simp only [backupName, backupMark, text, length_append, length_map] at hlen
        change _ = _ + 8 + _ at hlen
        omega
      apply h.unsaved a ha b hb hne .ccd .ccd moment
      rw [clientPaths_eq (hch a ha), clientPaths_eq (hch b hb)]
      simp [backupPath, heq, PathKey.suffix]
    · intro hne
      obtain ⟨client, hmem⟩ := exists_mem_of_ne_nil _ hne
      obtain ⟨content, hcn⟩ := hlo client hmem
      exact ((scanRow_isOk (hch client hmem) hcn).1 (hrs client hmem)).1
    · intro client hmem content hcn
      exact ((scanRow_isOk (hch client hmem) hcn).1 (hrs client hmem)).2
  · intro h
    refine ⟨?_, ?_, ?_, found_iff.2 ?_⟩
    · intro a ha b hb hne file file' heq
      exact hne (Subtype.ext (eq_of_clientPaths_eq (h.children a ha) (h.children b hb) heq))
    · intro a ha file
      exact ⟨_, clientPaths_eq (h.children a ha), isEntryName_fileName a.2 (h.children a ha)⟩
    · intro a ha b hb _ file file' moment heq
      exact h.unsaved a ha b hb moment (eq_backupName_of_clientPaths_eq (h.children a ha) (h.children b hb) heq)
    · intro client hmem
      obtain ⟨content, hcn⟩ := hlo client hmem
      have hcat := h.catalogue (ne_nil_of_mem hmem)
      exact (scanRow_isOk (h.children client hmem) hcn).2 ⟨hcat, h.addresses client hmem content hcn⟩

def defaultLayout : Layout where
  directory
    | .issued => ["etc", "openvpn", "server", "easy-rsa", "pki", "issued"]
    | .privateKeys => ["etc", "openvpn", "server", "easy-rsa", "pki", "private"]
    | .reqs => ["etc", "openvpn", "server", "easy-rsa", "pki", "reqs"]
    | .out => ["etc", "openvpn", "client-generator", "output"]
    | .ccd => ["etc", "openvpn", "server", "ccd"]
    | .share => ["mnt", "antares_soft", "vpn_config"]
  injective := by
    intro place place' h
    cases place <;> cases place' <;> first | rfl | exact absurd h (by decide)

def savedNames : List ClientName :=
  [⟨"office", by decide⟩, ⟨"office.backup.2026-01-01_00-00-00", by decide⟩]

def savedStore : ClientStore where
  clients := savedNames
  files
    | .ccdDir => savedNames.map fun client => (client.1, [])
    | .outDir => savedNames.flatMap fun client =>
        [(ovpnName client.1, []), (tlscryptName client.1, []), (batName client.1, [])]
    | file => sampleFiles file
  ccd := by simp [savedNames]
  out := by simp [savedNames, or_assoc]

/-- The CCD file of the second client stands where the backup of the first one goes. -/
theorem backup_takes_ccd_file :
    ¬ OwnFiles defaultLayout sampleSettings sampleHost "2026-01-01" savedStore := by
  intro h
  apply h.unsaved ⟨"office.backup.2026-01-01_00-00-00", by decide⟩ (.tail _ (.head _))
    ⟨"office", by decide⟩ (.head _)
    (by decide) .ccd .ccd ⟨739616 * microsPerDay, by decide⟩
  decide

end Scan

end WebOvpn.Vpn
