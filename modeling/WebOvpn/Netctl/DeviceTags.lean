/-
The tags that an operator gives to a device, and their copies in the rows of the
hosts: the writers of both tables.
-/
import WebOvpn.Lib.Ipv6
import WebOvpn.Lib.JsonCanonical
import WebOvpn.Lib.Keyed
import WebOvpn.Netctl.HostProjection

namespace WebOvpn.DeviceTags

open List Option

open HostProjection (normalizeMac)

inductive MatchType where
  | mac
  | ip
  deriving DecidableEq

structure TagRow where
  deviceKey : Text
  matchType : MatchType
  tagsJson : List Char
  createdAt : Text
  updatedAt : Text

structure NetworkHost where
  ip : Text
  mac : Option Text
  hostname : Option Text
  displayName : Option Text
  category : Text
  deviceKey : Text
  deviceType : Text
  deviceConfidence : Int
  deviceEvidenceJson : List Char
  status : Text
  site : Option Text
  firstSeenAt : Text
  lastSeenAt : Text
  lastSource : Option Text
  tagsJson : List Char
  comment : Option Text

structure State where
  hosts : Keyed NetworkHost.ip
  tags : Keyed TagRow.deviceKey

def empty : State := ⟨.empty, .empty⟩

/-- `_json(value)` as a parameter of a query, which cannot hold a surrogate. -/
def jsonText (value : JVal) : Option (List Char) :=
  if value.isEncodable then some (render escapeChar .spaced 0 (sortKeys value)) else none

def textList (items : List Text) : JVal := .arr (items.map .str)

def hostTagsJson (sources : JVal) (tags autoTags manualTags : List Text) : Option (List Char) :=
  jsonText (.obj [("sources", sources), ("tags", textList tags), ("auto_tags", textList autoTags),
    ("manual_tags", textList manualTags)])

def mergedTags (autoTags manualTags : List Text) : List Text :=
  sortedBy id (autoTags ++ manualTags).dedup

def decodeTagsObject (tagsJson : List Char) : Members :=
  match parseDocument floatDialect tagsJson with
  | .ok (.obj members) => members
  | _ => []

def asTexts : JVal → Option (List Text)
  | .arr items => items.mapM fun
      | .str item => some item
      | _ => none
  | _ => none

def tagsField (tagsJson : List Char) (field : Text) : JVal :=
  ((decodeTagsObject tagsJson).lookup field).getD (.arr [])

def NetworkHost.manualTags (host : NetworkHost) : Option (List Text) :=
  asTexts (tagsField host.tagsJson "manual_tags")

section

variable (pyStr : JVal → Text)

def strItem : JVal → Text
  | .str item => item
  | item => pyStr item

def decodeTags (value : Option (List Char)) : List Text :=
  match value with
  | none => []
  | some chars =>
    match parseDocument floatDialect chars with
    | .ok (.arr items) => sortedBy id ((items.map (strItem pyStr)).filter fun item => Text.strip item ≠ [])
    | _ => []

def manualTags (s : State) (deviceKey : Text) : List Text :=
  decodeTags pyStr ((s.tags.find deviceKey).map TagRow.tagsJson)

def normalizeTag (tag : Text) : Option Text :=
  let value := Text.strip tag
  if value = [] then none else if value.any CodePoint.isSpace then none else some value

def macPrefix : Text := "mac:"

def ipPrefix : Text := "ip:"

def deviceKeyForHost (ip : Text) (mac : Option Text) : Text × MatchType :=
  match normalizeMac mac with
  | some mac => (macPrefix ++ mac, .mac)
  | none => (ipPrefix ++ ip, .ip)

def ipText (raw : Text) : Option Text := (IpVersions.ofText raw).map IpVersions.text

def resolveDeviceKey (s : State) (target : Text) : Option (Text × MatchType) :=
  let raw := Text.strip target
  if macPrefix.isPrefixOf raw then
    (normalizeMac (some (raw.drop macPrefix.length))).map fun mac => (macPrefix ++ mac, .mac)
  else if ipPrefix.isPrefixOf raw then
    (ipText (raw.drop ipPrefix.length)).map fun ip => (ipPrefix ++ ip, .ip)
  else
    match normalizeMac (some raw) with
    | some mac => some (macPrefix ++ mac, .mac)
    | none =>
      (ipText raw).map fun ip => deviceKeyForHost ip ((s.hosts.find ip).bind NetworkHost.mac)

def NetworkHost.refresh (host : NetworkHost) (manualTags : List Text) : Option NetworkHost := do
  let autoTags ← asTexts (tagsField host.tagsJson "auto_tags")
  let tagsJson ← hostTagsJson (tagsField host.tagsJson "sources")
    (mergedTags autoTags manualTags) autoTags manualTags
  return { host with tagsJson := tagsJson }

theorem ip_refresh {host refreshed : NetworkHost} {manualTags : List Text}
    (h : host.refresh manualTags = some refreshed) : refreshed.ip = host.ip := by
  unfold NetworkHost.refresh at h
  obtain ⟨autoTags, -, h⟩ := bind_eq_some_iff.1 h
  obtain ⟨tagsJson, -, h⟩ := bind_eq_some_iff.1 h
  cases h
  rfl

def NetworkHost.refreshFor (deviceKey : Text) (manualTags : List Text) (host : NetworkHost) :
    NetworkHost :=
  if host.deviceKey = deviceKey then (host.refresh manualTags).getD host else host

theorem ip_refreshFor (deviceKey : Text) (manualTags : List Text) (host : NetworkHost) :
    (host.refreshFor deviceKey manualTags).ip = host.ip := by
  unfold NetworkHost.refreshFor
  split_ifs
  · cases href : host.refresh manualTags with
    | none => rfl
    | some refreshed => exact ip_refresh href
  · rfl

def refreshHostManualTags (s : State) (deviceKey : Text) : Option State :=
  let manual := manualTags pyStr s deviceKey
  if (s.hosts.rows.filter fun host => host.deviceKey = deviceKey).all fun host =>
    (host.refresh manual).isSome then
    some { s with hosts := s.hosts.map (NetworkHost.refreshFor deviceKey manual) (ip_refreshFor deviceKey manual) }
  else none

def storeTags (s : State) (deviceKey : Text) (matchType : MatchType) (cleanTags : List Text)
    (now : Text) : Option State :=
  if cleanTags = [] then some { s with tags := s.tags.filter fun row => row.deviceKey ≠ deviceKey }
  else
    (jsonText (textList cleanTags)).map fun tagsJson =>
      { s with
        tags := s.tags.put
          { deviceKey := deviceKey
            matchType := matchType
            tagsJson := tagsJson
            createdAt := ((s.tags.find deviceKey).map TagRow.createdAt).getD now
            updatedAt := now } }

def setDeviceTags (s : State) (target : Text) (tags : List Text) (now : Text) : Option State := do
  let (deviceKey, matchType) ← resolveDeviceKey s target
  let cleanTags ← tags.mapM normalizeTag
  let stored ← storeTags s deviceKey matchType (sortedBy id cleanTags.dedup) now
  refreshHostManualTags pyStr stored deviceKey

structure CollectedHost where
  ip : Text
  mac : Option Text
  hostname : Option Text
  displayName : Option Text
  category : Text
  deviceType : Text
  deviceConfidence : Int
  deviceEvidence : List Text
  status : Text
  site : Option Text
  firstSeenAt : Text
  lastSeenAt : Text
  lastSource : Option Text
  sources : List Text
  tags : List Text
  comment : Option Text

def CollectedHost.parameters (host : CollectedHost) : List Text :=
  [host.ip, host.category, host.deviceType, host.status, host.firstSeenAt, host.lastSeenAt] ++
    [host.mac, host.hostname, host.displayName, host.site, host.lastSource, host.comment].filterMap id

def upsertHost (s : State) (host : CollectedHost) : Option State :=
  let deviceKey := (deviceKeyForHost host.ip host.mac).1
  let autoTags := sortedBy id host.tags
  let manual := manualTags pyStr s deviceKey
  if host.parameters.all Text.isEncodable then do
    let evidence ← jsonText (textList host.deviceEvidence)
    let tagsJson ← hostTagsJson (textList host.sources) (mergedTags autoTags manual) autoTags manual
    return { s with
      hosts := s.hosts.put
        { ip := host.ip
          mac := host.mac
          hostname := host.hostname
          displayName := host.displayName
          category := host.category
          deviceKey := deviceKey
          deviceType := host.deviceType
          deviceConfidence := host.deviceConfidence
          deviceEvidenceJson := evidence
          status := host.status
          site := host.site
          firstSeenAt := ((s.hosts.find host.ip).map NetworkHost.firstSeenAt).getD host.firstSeenAt
          lastSeenAt := host.lastSeenAt
          lastSource := host.lastSource
          tagsJson := tagsJson
          comment := host.comment } }
  else none

/-- A rule of `load_active_segment_rules`: its network by version, prefix and membership. -/
structure SegmentRule where
  segmentId : Text
  version : Nat
  prefixlen : Nat
  contains : IpVersions → Bool
  observerCategory : Text

def isStaleNoiseIp (ip : Text) (segmentRules : List SegmentRule) : Option Bool :=
  (IpVersions.ofText ip).map fun address =>
    let found := segmentRules.filter fun rule => rule.version = address.version && rule.contains address
    match (sortedBy (fun rule => (toLex (-(rule.prefixlen : Int), rule.segmentId) : Int ×ₗ Text))
      found).head? with
    | none => false
    | some rule => rule.observerCategory ∈ [text "telephony", text "wan", text "noise"]

/-- What `_demote_absent_noise_hosts` is called with. -/
structure Absence where
  source : Text
  currentIps : List Text
  observedAt : Text
  segmentRules : List SegmentRule

/-- The `WHERE` of its query. -/
def Absence.asks (absence : Absence) (host : NetworkHost) : Bool :=
  host.lastSource = some absence.source &&
    host.category ∈ [text "unknown", text "telephony", text "wan", text "noise"]

def Absence.demotes (absence : Absence) (host : NetworkHost) : Bool :=
  absence.asks host && host.ip ∉ absence.currentIps && isStaleNoiseIp host.ip absence.segmentRules = some true

def staleTags : List Text := ["device:noise", "noise", "stale_arp"]

/-- The columns that a demotion sets. -/
def NetworkHost.demote (observedAt : Text) (host : NetworkHost) : NetworkHost :=
  { host with
    category := "noise"
    deviceKey := ipPrefix ++ host.ip
    deviceType := "noise"
    deviceConfidence := 50
    deviceEvidenceJson := (jsonText (textList ["stale_arp"])).getD []
    status := "seen"
    lastSeenAt := observedAt
    tagsJson := (hostTagsJson (.arr []) staleTags staleTags []).getD [] }

def Absence.apply (absence : Absence) (host : NetworkHost) : NetworkHost :=
  if absence.demotes host then host.demote absence.observedAt else host

theorem ip_apply (absence : Absence) (host : NetworkHost) : (absence.apply host).ip = host.ip := by
  unfold Absence.apply
  split_ifs <;> rfl

/-- `_demote_absent_noise_hosts`; the collection is rolled back when it raises. -/
def demoteAbsentNoiseHosts (s : State) (absence : Absence) : Option State :=
  if (s.hosts.rows.filter absence.asks).all fun host =>
      host.ip ∈ absence.currentIps || (isStaleNoiseIp host.ip absence.segmentRules).isSome then
    some { s with hosts := s.hosts.map absence.apply (ip_apply absence) }
  else none

inductive Op where
  | setDeviceTags (target : Text) (tags : List Text) (now : Text)
  | upsertHost (host : CollectedHost)
  | demoteAbsentNoiseHosts (absence : Absence)

def attempt (s : State) : Op → Option State
  | .setDeviceTags target tags now => setDeviceTags pyStr s target tags now
  | .upsertHost host => upsertHost pyStr s host
  | .demoteAbsentNoiseHosts absence => demoteAbsentNoiseHosts s absence

/-- A writer that raises leaves the tables as they are. -/
def step (s : State) (op : Op) : State := (attempt pyStr s op).getD s

def run (s : State) (ops : List Op) : State := ops.foldl (step pyStr) s

end

theorem sortKeys_textList (items : List Text) : sortKeys (textList items) = textList items := by
  unfold textList
  rw [sortKeys, sortKeysItems_eq, List.map_map]
  rfl

theorem asTexts_textList (items : List Text) : asTexts (textList items) = some items := by
  unfold asTexts textList
  dsimp only
  induction items with
  | nil => rfl
  | cons item items ih =>
    rw [map_cons, mapM_cons, ih]
    rfl

theorem isPython_textList (items : List Text) : IsPython (textList items) := by
  unfold textList
  rw [IsPython, arePython_iff]
  intro v hv
  obtain ⟨item, -, rfl⟩ := List.mem_map.1 hv
  rw [IsPython]
  all_goals simp

theorem isPrintable_textList (items : List Text) : (textList items).isPrintable = true := by
  unfold textList
  rw [JVal.isPrintable, itemsPrintable_iff]
  intro v hv
  obtain ⟨item, -, rfl⟩ := List.mem_map.1 hv
  rfl

/-- What a JSON column holds is read as what was written. -/
theorem parse_jsonText {value : JVal} {chars : List Char} (h : jsonText value = some chars)
    (hpy : IsPython value)
    (hpr : value.isPrintable = true) : parseDocument floatDialect chars = .ok (sortKeys value) := by
  unfold jsonText at h
  split_ifs at h with hen
  cases h
  have hra := isReadable_sortKeys (isReadable_of_isPython hpy hpr hen)
  have hpa := @parseDocument_render _ .spaced _ _ _ floatDialect_reader _ hra [] (forall_mem_nil _)
  rwa [append_nil] at hpa

variable {sources tags autoTags manual : List Text} {tagsJson : List Char}

theorem decodeTagsObject_eq (h : hostTagsJson (textList sources) tags autoTags manual = some tagsJson) :
    decodeTagsObject tagsJson =
      [(text "auto_tags", textList autoTags), (text "manual_tags", textList manual),
      (text "sources", textList sources), (text "tags", textList tags)] := by
  have hfl : ∀ m ∈ [(text "sources", textList sources), (text "tags", textList tags),
      (text "auto_tags", textList autoTags), (text "manual_tags", textList manual)],
      IsPython m.2 ∧ m.2.isPrintable = true := by
    simp only [forall_mem_cons, isPython_textList, isPrintable_textList, and_self, true_and]
    nofun
  have hks : ([text "sources", text "tags", text "auto_tags",
    text "manual_tags"] : List Text).Nodup := by decide +kernel
  have hpr : parseDocument floatDialect tagsJson = .ok (sortKeys (.obj [(text "sources", textList sources),
      (text "tags", textList tags), (text "auto_tags", textList autoTags),
        (text "manual_tags", textList manual)])) := by
    apply parse_jsonText h
    · rw [IsPython, membersPython_iff]
      exact ⟨hks, fun m hm => (hfl m hm).1⟩
    · rw [JVal.isPrintable, membersPrintable_iff]
      exact fun m hm => (hfl m hm).2
  unfold decodeTagsObject
  rw [hpr, sortKeys_obj]
  simp only [map_cons, map_nil, sortKeys_textList]
  have hpe : [(text "sources", textList sources), (text "tags", textList tags),
    (text "auto_tags", textList autoTags),
      (text "manual_tags", textList manual)].Perm [(text "auto_tags", textList autoTags),
        (text "manual_tags", textList manual), (text "sources", textList sources),
          (text "tags", textList tags)] :=
    @List.perm_append_comm _ [_, _] [_, _]
  have hnd : ([(text "sources", textList sources), (text "tags", textList tags),
    (text "auto_tags", textList autoTags),
      (text "manual_tags", textList manual)].map Prod.fst).Nodup := hks
  rw [sortByName_eq_of_perm hnd hpe]
  apply sortByName_of_sorted
  have hsr : ([text "auto_tags", text "manual_tags", text "sources",
    text "tags"] : List Text).Pairwise fun a b =>
      Text.le a b = true := by decide +kernel
  have hmap : ([(text "auto_tags", textList autoTags), (text "manual_tags", textList manual),
      (text "sources", textList sources), (text "tags", textList tags)].map Prod.fst).Pairwise fun a b =>
        Text.le a b = true := hsr
  exact pairwise_map.1 hmap

def IsTagged (tagsJson : List Char) (manual : List Text) : Prop :=
  ∃ sources tags autoTags, hostTagsJson (textList sources) tags autoTags manual = some tagsJson

theorem IsTagged.manualTags {host : NetworkHost} (h : IsTagged host.tagsJson manual) :
    host.manualTags = some manual := by
  obtain ⟨sources, tags, autoTags, h⟩ := h
  unfold NetworkHost.manualTags tagsField
  rw [decodeTagsObject_eq h]
  exact asTexts_textList manual

theorem IsTagged.refresh {host refreshed : NetworkHost} {manual' : List Text}
    (h : IsTagged host.tagsJson manual)
    (href : host.refresh manual' = some refreshed) :
    IsTagged refreshed.tagsJson manual' ∧ refreshed.deviceKey = host.deviceKey := by
  obtain ⟨sources, tags, autoTags, h⟩ := h
  unfold NetworkHost.refresh tagsField at href
  rw [decodeTagsObject_eq h] at href
  have hau : asTexts (textList autoTags) = some autoTags := asTexts_textList autoTags
  obtain ⟨autoTags', hau', href⟩ := bind_eq_some_iff.1 href
  cases hau.symm.trans hau'
  obtain ⟨tagsJson, hjso, href⟩ := bind_eq_some_iff.1 href
  cases href
  exact ⟨⟨sources, _, autoTags, hjso⟩, rfl⟩

variable {pyStr : JVal → Text} {s s' : State}

def Sound (pyStr : JVal → Text) (s : State) : Prop :=
  ∀ host ∈ s.hosts.rows, IsTagged host.tagsJson (manualTags pyStr s host.deviceKey)

theorem sound_empty : Sound pyStr empty := nofun

theorem tags_storeTags {deviceKey : Text} {matchType : MatchType} {cleanTags : List Text}
    {now other : Text}
    (h : storeTags s deviceKey matchType cleanTags now = some s') :
    s'.hosts = s.hosts ∧ (other ≠ deviceKey → manualTags pyStr s' other = manualTags pyStr s other) := by
  unfold storeTags at h
  split_ifs at h
  · cases h
    refine ⟨rfl, fun hne => ?_⟩
    have hfn : (s.tags.filter fun row => row.deviceKey ≠ deviceKey).find other = s.tags.find other := by
      rw [Keyed.find_filter]
      cases hfn : s.tags.find other with
      | none => rfl
      | some row =>
        have hkey := Keyed.key_of_find hfn
        rw [filter_some, if_pos]
        rw [hkey]
        exact decide_eq_true hne
    exact congrArg (fun found => decodeTags pyStr (Option.map TagRow.tagsJson found)) hfn
  · obtain ⟨tagsJson, -, rfl⟩ := map_eq_some_iff.1 h
    refine ⟨rfl, fun hne => ?_⟩
    exact congrArg (fun found => decodeTags pyStr (Option.map TagRow.tagsJson found))
      (Keyed.find_put_of_ne hne.symm)

theorem sound_setDeviceTags {target now : Text} {tags : List Text} (hsn : Sound pyStr s)
    (h : setDeviceTags pyStr s target tags now = some s') : Sound pyStr s' := by
  obtain ⟨⟨deviceKey, matchType⟩, -, h⟩ := bind_eq_some_iff.1 h
  obtain ⟨cleanTags, -, h⟩ := bind_eq_some_iff.1 h
  obtain ⟨stored, hst, h⟩ := bind_eq_some_iff.1 h
  unfold refreshHostManualTags at h
  dsimp only at h
  split_ifs at h with hall
  cases h
  intro host hhs
  obtain ⟨old, hold, rfl⟩ := List.mem_map.1 hhs
  change IsTagged (old.refreshFor deviceKey (manualTags pyStr stored deviceKey)).tagsJson
    (manualTags pyStr stored (old.refreshFor deviceKey (manualTags pyStr stored deviceKey)).deviceKey)
  have hold' := hold
  rw [(@tags_storeTags pyStr _ _ _ _ _ _ deviceKey hst).1] at hold'
  have htag := hsn old hold'
  unfold NetworkHost.refreshFor
  split_ifs with hkey
  · have hsm := List.all_eq_true.1 hall old (mem_filter.2 ⟨hold, decide_eq_true hkey⟩)
    obtain ⟨refreshed, href⟩ := isSome_iff_exists.1 hsm
    obtain ⟨htag', hkey'⟩ := htag.refresh href
    rw [href, getD_some, hkey', hkey]
    exact htag'
  · rw [(tags_storeTags hst).2 hkey]
    exact htag

theorem sound_upsertHost {host : CollectedHost} (hsn : Sound pyStr s)
    (h : upsertHost pyStr s host = some s') :
    Sound pyStr s' := by
  unfold upsertHost at h
  dsimp only at h
  split_ifs at h
  obtain ⟨evidence, -, h⟩ := bind_eq_some_iff.1 h
  obtain ⟨tagsJson, htas, h⟩ := bind_eq_some_iff.1 h
  cases h
  intro row hrow
  rcases Keyed.mem_put.1 hrow with rfl | ⟨hrow, -⟩
  · exact ⟨host.sources, _, _, htas⟩
  · exact hsn row hrow

/-- The segments answer for every address that the demotion asks them about. -/
def Absence.LooksUp (absence : Absence) (s : State) : Prop :=
  ∀ host ∈ s.hosts.rows, absence.asks host = true → host.ip ∉ absence.currentIps →
    (isStaleNoiseIp host.ip absence.segmentRules).isSome = true

theorem demoteAbsentNoiseHosts_ne_none_iff {absence : Absence} :
    demoteAbsentNoiseHosts s absence ≠ none ↔ absence.LooksUp s := by
  unfold demoteAbsentNoiseHosts Absence.LooksUp
  split_ifs with hgos
  · apply iff_of_true (some_ne_none _)
    intro host hhs hask hip
    have hall := List.all_eq_true.1 hgos host (List.mem_filter.2 ⟨hhs, hask⟩)
    rw [Bool.or_eq_true, decide_eq_true_eq] at hall
    exact hall.resolve_left hip
  · apply iff_of_false (fun h => h rfl)
    intro h
    apply hgos
    rw [List.all_eq_true]
    intro host hmem
    obtain ⟨hhs, hask⟩ := List.mem_filter.1 hmem
    rw [Bool.or_eq_true, decide_eq_true_eq]
    by_cases hip : host.ip ∈ absence.currentIps
    · exact .inl hip
    · exact .inr (h host hhs hask hip)

/-- A demotion that goes through takes no host with tags under the key of its address. -/
def Keeps (pyStr : JVal → Text) (s : State) (absence : Absence) : Prop :=
  absence.LooksUp s → ∀ host ∈ s.hosts.rows, absence.demotes host = true →
    manualTags pyStr s (ipPrefix ++ host.ip) = []

theorem isTagged_demote (host : NetworkHost) (observedAt : Text) :
    IsTagged (host.demote observedAt).tagsJson [] := by
  obtain ⟨tagsJson, hjso⟩ : ∃ tagsJson, hostTagsJson (textList []) staleTags staleTags [] = some tagsJson :=
    isSome_iff_exists.1 (by decide +kernel)
  refine ⟨[], staleTags, staleTags, hjso.trans ?_⟩
  change some tagsJson = some ((hostTagsJson (textList []) staleTags staleTags []).getD [])
  rw [hjso, getD_some]

theorem sound_demote_iff {absence : Absence} (hsn : Sound pyStr s) :
    (∀ s', demoteAbsentNoiseHosts s absence = some s' → Sound pyStr s') ↔ Keeps pyStr s absence := by
  unfold Keeps
  rw [← demoteAbsentNoiseHosts_ne_none_iff]
  unfold demoteAbsentNoiseHosts
  split_ifs with hgos
  · constructor
    · intro h _ host hhs hdem
      have hsn' := h _ rfl (absence.apply host) (List.mem_map_of_mem hhs)
      unfold Absence.apply at hsn'
      rw [if_pos hdem] at hsn'
      have hsh := hsn'.manualTags
      rw [(isTagged_demote host absence.observedAt).manualTags] at hsh
      exact (Option.some.inj hsh).symm
    · rintro hke s' h row hrow
      cases h
      obtain ⟨host, hhs, rfl⟩ := List.mem_map.1 hrow
      change IsTagged (absence.apply host).tagsJson (manualTags pyStr s (absence.apply host).deviceKey)
      unfold Absence.apply
      split_ifs with hdem
      · have hnn := hke (some_ne_none _) host hhs hdem
        change IsTagged _ (manualTags pyStr s (ipPrefix ++ host.ip))
        rw [hnn]
        exact isTagged_demote host absence.observedAt
      · exact hsn host hhs
  · exact iff_of_true nofun fun h => absurd rfl h

def Shown (pyStr : JVal → Text) (s : State) : Prop :=
  ∀ host ∈ s.hosts.rows, host.manualTags = some (manualTags pyStr s host.deviceKey)

theorem Sound.shown (h : Sound pyStr s) : Shown pyStr s := fun host hhs => (h host hhs).manualTags

def Shaped (s : State) : Prop := ∀ host ∈ s.hosts.rows, ∃ manual, IsTagged host.tagsJson manual

theorem Shaped.sound (hsha : Shaped s) (h : Shown pyStr s) : Sound pyStr s := by
  intro host hhs
  obtain ⟨manual, hmn⟩ := hsha host hhs
  have hsh := h host hhs
  rw [hmn.manualTags] at hsh
  rw [← Option.some.inj hsh]
  exact hmn

theorem shaped_demote {absence : Absence} (hsn : Sound pyStr s)
    (h : demoteAbsentNoiseHosts s absence = some s') :
    Shaped s' := by
  unfold demoteAbsentNoiseHosts at h
  split_ifs at h
  cases h
  intro row hrow
  obtain ⟨host, hhs, rfl⟩ := List.mem_map.1 hrow
  unfold Absence.apply
  split_ifs
  · exact ⟨[], isTagged_demote host absence.observedAt⟩
  · exact ⟨_, hsn host hhs⟩

/-- One writer: only a demotion can break what the rows show. -/
theorem shown_step_iff {op : Op} (hsn : Sound pyStr s) : Shown pyStr (step pyStr s op) ↔
    ∀ absence, op = .demoteAbsentNoiseHosts absence → Keeps pyStr s absence := by
  unfold step
  cases hatt : attempt pyStr s op with
  | none =>
    apply iff_of_true hsn.shown
    rintro absence rfl hgos
    exact absurd hatt (demoteAbsentNoiseHosts_ne_none_iff.2 hgos)
  | some s' =>
    rw [getD_some]
    cases op with
    | setDeviceTags target tags now => exact iff_of_true (sound_setDeviceTags hsn hatt).shown nofun
    | upsertHost host => exact iff_of_true (sound_upsertHost hsn hatt).shown nofun
    | demoteAbsentNoiseHosts absence =>
      constructor
      · rintro hsh _ ⟨⟩
        apply (sound_demote_iff hsn).1
        intro s'' hdem
        cases hatt.symm.trans hdem
        exact (shaped_demote hsn hatt).sound hsh
      · intro hke
        exact ((sound_demote_iff hsn).2 (hke absence rfl) s' hatt).shown

theorem sound_step {op : Op} (hsn : Sound pyStr s) (hsh : Shown pyStr (step pyStr s op)) :
    Sound pyStr (step pyStr s op) := by
  unfold step at hsh ⊢
  cases hatt : attempt pyStr s op with
  | none => exact hsn
  | some s' =>
    rw [hatt, getD_some] at hsh
    rw [getD_some]
    cases op with
    | setDeviceTags target tags now => exact sound_setDeviceTags hsn hatt
    | upsertHost host => exact sound_upsertHost hsn hatt
    | demoteAbsentNoiseHosts absence => exact (shaped_demote hsn hatt).sound hsh

/-- Every demotion of a run finds no tags under the keys that it gives. -/
def AllKeep (pyStr : JVal → Text) (s : State) (ops : List Op) : Prop :=
  ∀ before absence after, ops = before ++ .demoteAbsentNoiseHosts absence :: after →
    Keeps pyStr (run pyStr s before) absence

theorem shown_run_iff (ops : List Op) (hsn : Sound pyStr s) :
    (∀ before, before <+: ops → Shown pyStr (run pyStr s before)) ↔ AllKeep pyStr s ops := by
  induction ops generalizing s with
  | nil =>
    apply iff_of_true
    · intro before hbf
      rw [prefix_nil.1 hbf]
      exact hsn.shown
    · intro before absence after heq
      exact absurd heq.symm (append_ne_nil_of_right_ne_nil before (cons_ne_nil _ _))
  | cons op ops ih =>
    constructor
    · intro h before absence after heq
      have hst : Shown pyStr (step pyStr s op) := h [op] ⟨ops, rfl⟩
      cases before with
      | nil =>
        cases heq
        exact (shown_step_iff hsn).1 hst absence rfl
      | cons first before =>
        obtain ⟨rfl, hrs⟩ := List.cons.inj heq
        apply (ih (sound_step hsn hst)).1 _ before absence after hrs
        intro more hmr
        exact h (op :: more) (cons_prefix_cons.2 ⟨rfl, hmr⟩)
    · intro h before hbf
      cases before with
      | nil => exact hsn.shown
      | cons first before =>
        obtain ⟨rfl, hrs⟩ := cons_prefix_cons.1 hbf
        have hst : Shown pyStr (step pyStr s first) := by
          apply (shown_step_iff hsn).2
          rintro absence rfl
          exact h [] absence ops rfl
        refine (ih (sound_step hsn hst)).2 ?_ before hrs
        intro before absence after heq
        exact h (first :: before) absence after (congrArg (first :: ·) heq)

/-- In every state of a run the hosts show the tags of their devices, exactly when no demotion meets tags
under the key that it gives. -/
theorem manual_tags_survive_iff (pyStr : JVal → Text) (ops : List Op) :
    (∀ before, before <+: ops → Shown pyStr (run pyStr empty before)) ↔ AllKeep pyStr empty ops :=
  shown_run_iff ops sound_empty

def taggedThenDemoted : List Op :=
  [.setDeviceTags "ip:192.0.2.5" ["printer"] [],
    .upsertHost ⟨"192.0.2.5", none, none, none, "telephony", "unknown", 0, [], "seen", none, [], [],
      some "router", [], [], none⟩,
    .demoteAbsentNoiseHosts ⟨"router", [], [], [⟨"phones", 4, 24, fun _ => true, "telephony"⟩]⟩]

/-- The demotion shows no tags, although the tag of the address is still stored. -/
theorem demotion_drops_tags : ¬ ∀ pyStr ops before, before <+: ops →
    Shown pyStr (run pyStr empty before) := by
  intro h
  have hsh := h (fun _ => []) taggedThenDemoted taggedThenDemoted (prefix_refl _)
  have hch : (run (fun _ => []) empty taggedThenDemoted).hosts.rows.all (fun host =>
      host.manualTags =
        some (manualTags (fun _ => [])
        (run (fun _ => []) empty taggedThenDemoted) host.deviceKey)) =
        false := by decide +kernel
  rw [List.all_eq_true.2 fun host hhs => decide_eq_true (hsh host hhs)] at hch
  cases hch

end WebOvpn.DeviceTags
