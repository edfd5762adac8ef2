/-
The ports of a snapshot: each is one that the store takes, no two have one key, and
what a profile resolves a row to has its numbers in their ranges.
-/
import WebOvpn.Snmp.Collector

namespace WebOvpn.Snmp

open Text List Option
open SwitchStore (validText validOptionalInt validMac isUpperHex)

theorem validText_of_mem {s : Text} {c : CodePoint} (hmem : c ∈ s) (hc : c.isSpace = false) :
    validText s = true := by
  unfold validText
  rw [decide_eq_true_eq, strip_eq]
  intro hnil
  rw [rdropWhile_eq_nil_iff] at hnil
  have hall : ∀ d ∈ s, d.isSpace = true := by
    intro d hd
    rw [← takeWhile_append_dropWhile (p := CodePoint.isSpace) (l := s)] at hd
    rcases mem_append.1 hd with hd | hd
    · exact mem_takeWhile_imp hd
    · exact hnil d hd
  rw [hall c hmem] at hc
  cases hc

theorem isSpace_of_isDigit {c : CodePoint} (h : c.isDigit = true) : c.isSpace = false := by
  apply CodePoint.not_isSpace_of_isLowerHex
  unfold CodePoint.isLowerHex
  rw [h]
  rfl

theorem validText_append_render (s : Text) (n : Nat) : validText (s ++ Decimal.render n) = true := by
  obtain ⟨c, hc⟩ := exists_mem_of_ne_nil _ (Decimal.render_ne_nil n)
  exact validText_of_mem (mem_append_right s hc) (isSpace_of_isDigit (Decimal.isDigit_of_mem_render hc))

theorem validText_adminStatusText (n : Nat) : validText (adminStatusText n) = true := by
  unfold adminStatusText
  split
  · decide
  · decide
  · decide
  · exact validText_append_render _ n

theorem validText_operStatusText (n : Nat) : validText (operStatusText n) = true := by
  unfold operStatusText
  split
  · decide
  · decide
  · decide
  · decide
  · decide
  · decide
  · decide
  · exact validText_append_render _ n

variable {n m : Nat} {mac : Text}

theorem validOptional_some {minimum maximum : Nat} :
    validOptional minimum maximum (some n) = true ↔ minimum ≤ n ∧ n ≤ maximum := by
  unfold validOptional validOptionalInt
  simp

theorem validOptional_of_forall {minimum maximum : Nat} {value : Option Nat}
    (h : ∀ n, value = some n → minimum ≤ n ∧ n ≤ maximum) :
      validOptional minimum maximum value = true := by
  cases value with
  | none => rfl
  | some n => exact validOptional_some.2 (h n rfl)

theorem val_hexDigit (n : Nat) : (hexDigit n).val = if n % 16 < 10 then 48 + n % 16
    else 55 + n % 16 := by
  unfold hexDigit
  rw [Fin.val_ofNat]
  apply Nat.mod_eq_of_lt
  split <;> omega

theorem isUpperHex_hexDigit (n : Nat) : isUpperHex (hexDigit n) = true := by
  unfold isUpperHex CodePoint.isDigit
  rw [val_hexDigit]
  split
  · simp
    omega
  · simp
    omega

theorem hexDigit_injective (hm : m < 16) (hn : n < 16) (h : hexDigit m = hexDigit n) : m = n := by
  have hvl := congrArg Fin.val h
  rw [val_hexDigit, val_hexDigit, Nat.mod_eq_of_lt hm, Nat.mod_eq_of_lt hn] at hvl
  split at hvl <;> split at hvl <;> omega

theorem hexDigit_mod (n : Nat) : hexDigit n = hexDigit (n % 16) := by
  unfold hexDigit
  rw [Nat.mod_mod]

theorem hexOctet_injective (hm : m ≤ 255) (hn : n ≤ 255) (h : hexOctet m = hexOctet n) : m = n := by
  unfold hexOctet at h
  rw [hexDigit_mod m, hexDigit_mod n] at h
  obtain ⟨hhg, hlow⟩ : hexDigit (m / 16) = hexDigit (n / 16) ∧ hexDigit (m % 16) = hexDigit (n % 16) := by
    simpa using h
  have h1 := hexDigit_injective (by omega) (by omega) hhg
  have h2 := hexDigit_injective (by omega) (by omega) hlow
  omega

theorem hexOctets_injective {xs ys : List Nat} (hxs : ∀ n ∈ xs, n ≤ 255) (hys : ∀ n ∈ ys, n ≤ 255)
    (h : hexOctets xs = hexOctets ys) : xs = ys := by
  induction xs using hexOctets.induct generalizing ys with
  | case1 =>
    match ys with
    | [] => rfl
    | [n] => cases h
    | n :: m :: rest => cases h
  | case2 n =>
    match ys with
    | [] => cases h
    | [m] => rw [hexOctet_injective (hxs n (by simp)) (hys m (by simp)) h]
    | m :: k :: rest =>
      have hlen := congrArg List.length h
      simp [hexOctets, hexOctet] at hlen
  | case3 n rest hne ih =>
    match ys with
    | [] => rw [hexOctets.eq_3 n rest hne] at h; cases h
    | [m] =>
      have hlen := congrArg List.length h
      rw [hexOctets.eq_3 n rest hne] at hlen
      simp [hexOctets, hexOctet] at hlen
    | m :: k :: more =>
      rw [hexOctets.eq_3 n rest hne, hexOctets.eq_3 m (k :: more) (by simp)] at h
      obtain ⟨hha, hti⟩ := append_inj h rfl
      have hrs := ih (fun i hi => hxs i (mem_cons_of_mem n hi))
        (fun i hi => hys i (mem_cons_of_mem m hi)) (List.cons.inj hti).2
      rw [hexOctet_injective (hxs n (by simp)) (hys m (by simp)) hha, hrs]

theorem normalizeMac_eq_some {octets : List Nat} (h : normalizeMac octets = some mac) :
    (octets.length = 6 ∧ ∀ n ∈ octets, n ≤ 255) ∧ mac = hexOctets octets := by
  unfold normalizeMac at h
  split at h
  · rename_i hoct
    cases h
    exact ⟨hoct, rfl⟩
  · cases h

theorem normalizeMac_injective {xs ys : List Nat} (hxs : normalizeMac xs = some mac)
    (hys : normalizeMac ys = some mac) : xs = ys := by
  obtain ⟨hx, rfl⟩ := normalizeMac_eq_some hxs
  obtain ⟨hy, heq⟩ := normalizeMac_eq_some hys
  exact hexOctets_injective hx.2 hy.2 heq

theorem validMac_of_normalizeMac {octets : List Nat} (h : normalizeMac octets = some mac) :
    validMac mac = true := by
  obtain ⟨⟨hlen, -⟩, rfl⟩ := normalizeMac_eq_some h
  match octets, hlen with
  | [a, b, c, d, e, f], _ =>
    have hcol : (literal ":") = [fun x => x == CodePoint.ofChar ':'] := rfl
    simp [validMac, hcol, hexOctets, hexOctet, fullmatch, isUpperHex_hexDigit]

theorem cell_physAddress {index : Nat} {row : VarBind}
    (h : cell .physAddress index row = some (.mac (some mac))) : validMac mac = true := by
  unfold cell at h
  obtain ⟨data, -, h⟩ := bind_eq_some_iff.1 h
  split at h
  · cases h
  · obtain ⟨address, hadd, heq⟩ := map_eq_some_iff.1 h
    cases heq
    exact validMac_of_normalizeMac hadd

theorem cell_number {column : Column} {index : Nat} {row : VarBind}
    (h : cell column index row = some (.number n)) :
    n ≤ max32 := by
  unfold cell at h
  split at h
  · obtain ⟨m, hm, h⟩ := bind_eq_some_iff.1 h
    split at h
    · cases h
      have hrn := integer_range hm
      unfold max31 at hrn
      unfold max32
      omega
    · cases h
  · obtain ⟨_, -, heq⟩ := map_eq_some_iff.1 h
    cases heq
  · obtain ⟨_, -, heq⟩ := map_eq_some_iff.1 h
    cases heq
  · obtain ⟨_, -, heq⟩ := map_eq_some_iff.1 h
    cases heq
  · obtain ⟨data, -, h⟩ := bind_eq_some_iff.1 h
    split at h
    · cases h
    · obtain ⟨_, -, heq⟩ := map_eq_some_iff.1 h
      cases heq
  all_goals
    obtain ⟨m, hm, heq⟩ := map_eq_some_iff.1 h
    cases heq
    have hrn := integer_range hm
    unfold max32 at *
    omega

section

variable {table : InterfaceTable} {index : Nat}

theorem number_le (hrs : ∀ entry ∈ table, FromRow entry) {column : Column} {n : Nat}
    (h : table.number index column = some n) : n ≤ max32 := by
  unfold InterfaceTable.number at h
  split at h
  · rename_i m hm
    cases h
    obtain ⟨row, hrow⟩ := (hrs _ (mem_of_lookup hm)).2
    exact cell_number hrow
  · cases h

theorem validMac_of_mac (hrs : ∀ entry ∈ table, FromRow entry) {mac : Text}
    (h : table.mac index = some mac) :
    validMac mac = true := by
  unfold InterfaceTable.mac at h
  split at h
  · rename_i value hv
    cases h
    obtain ⟨row, hrow⟩ := (hrs _ (mem_of_lookup hv)).2
    exact cell_physAddress hrow
  · cases h

theorem speedBps_le {speed highSpeed : Option Nat} {n : Nat} (hsp : ∀ m, speed = some m → m ≤ max32)
    (hhg : ∀ m, highSpeed = some m → m ≤ max32) (h : speedBps speed highSpeed = some n) :
      n ≤ sqliteIntegerMax := by
  have hmax : max32 ≤ sqliteIntegerMax := by decide
  unfold speedBps at h
  split at h
  · rename_i high
    split at h
    · cases h
      calc high * 1000000 ≤ max32 * 1000000 := Nat.mul_le_mul_right _ (hhg high rfl)
        _ ≤ sqliteIntegerMax := by decide
    · exact (hsp n h).trans hmax
  · exact (hsp n h).trans hmax

theorem validPort_portOf {reverse : List (Nat × Nat)} (hidx : 0 < index ∧ index ≤ max31)
    (hrs : ∀ entry ∈ table, FromRow entry)
    (hrv : ∀ bridgePort, reverse.lookup index = some bridgePort → 0 < bridgePort ∧ bridgePort ≤ 65535) :
    validPort (portOf table reverse index) = true := by
  have hmac : (table.mac index).all validMac = true := by
    rw [Option.all_eq_true]
    intro mac hmac
    exact validMac_of_mac hrs hmac
  have hun : validText "unknown" = true := by decide
  have had : validText (portOf table reverse index).adminStatus = true := by
    unfold portOf
    cases table.number index .adminStatus with
    | none => exact hun
    | some n => exact validText_adminStatusText n
  have hop : validText (portOf table reverse index).operStatus = true := by
    unfold portOf
    cases table.number index .operStatus with
    | none => exact hun
    | some n => exact validText_operStatusText n
  have hsp : validOptional 0 sqliteIntegerMax (portOf table reverse index).speedBps = true := by
    apply validOptional_of_forall
    intro n hn
    exact ⟨Nat.zero_le n, speedBps_le (fun m hm => number_le hrs hm) (fun m hm => number_le hrs hm) hn⟩
  unfold validPort
  rw [had, hop, hsp]
  have hkey : validText (portOf table reverse index).portKey = true := validText_append_render _ index
  have hbri : validOptional 1 65535 (portOf table reverse index).bridgePort = true :=
    validOptional_of_forall fun b hb => hrv b hb
  rw [hkey, hbri]
  simp only [Bool.and_true, Bool.true_and]
  rw [Bool.and_eq_true, Bool.and_eq_true]
  exact ⟨⟨validOptional_some.2 hidx, rfl⟩, hmac⟩

end

namespace PlainPorts

variable {bridge : List (Nat × Nat)} {ports : List SwitchPort} (plain : PlainPorts bridge ports)
    {port : SwitchPort}
include plain

theorem valid (hpr : port ∈ ports) : validPort port = true := by
  obtain ⟨table, reverse, index, hidx, hrs, hrv, rfl⟩ := plain.ports port hpr
  apply validPort_portOf hidx hrs
  intro bridgePort hlo
  exact (plain.bridgeMap.range _ ((hrv bridgePort).1 hlo)).1

theorem portKey_eq (hpr : port ∈ ports) : ∃ index, port.ifIndex = some index ∧
    port.portKey = ifIndexKey index := by
  obtain ⟨table, reverse, index, -, -, -, rfl⟩ := plain.ports port hpr
  exact ⟨index, rfl, rfl⟩

theorem bridgePort_iff (hpr : port ∈ ports) {index bridgePort : Nat} (hidx : port.ifIndex = some index) :
    port.bridgePort = some bridgePort ↔ (bridgePort, index) ∈ bridge := by
  obtain ⟨table, reverse, i, -, -, hrv, rfl⟩ := plain.ports port hpr
  cases hidx
  exact hrv bridgePort

end PlainPorts

def frontOf (ports : List SwitchPort) (port : SwitchPort) : PortProfile → Option Nat
  | .dgs => (frontPanelPort port).filter fun physicalPort => isFrontPanel ports port physicalPort
  | .css326 =>
    port.bridgePort.filter fun bridgePort => 1 ≤ bridgePort ∧ bridgePort ≤ 26 ∧
      port.ifIndex = some bridgePort
  | _ => none

def SwitchPort.atFront (port : SwitchPort) : Option Nat → SwitchPort
  | none => port
  | some physicalPort =>
    { port with portKey := physicalKey physicalPort, physicalPort := some physicalPort }

@[simp]
theorem SwitchPort.atFront_ifIndex (port : SwitchPort) (front : Option Nat) :
    (port.atFront front).ifIndex = port.ifIndex := by
  cases front <;> rfl

@[simp]
theorem SwitchPort.atFront_bridgePort (port : SwitchPort) (front : Option Nat) :
    (port.atFront front).bridgePort = port.bridgePort := by
  cases front <;> rfl

theorem normalizePorts_eq (ports : List SwitchPort) (profile : PortProfile) :
    profile.normalizePorts ports = ports.map fun port => port.atFront (frontOf ports port profile) := by
  have hid : ports = ports.map fun port => port.atFront none := (List.map_id ports).symm
  cases profile with
  | dgs =>
    apply map_congr_left
    intro port _
    unfold frontOf
    cases hfr : frontPanelPort port with
    | none => rfl
    | some physicalPort =>
      dsimp only
      rw [filter_some]
      split <;> rfl
  | css326 =>
    apply map_congr_left
    intro port _
    unfold frontOf
    cases hbri : port.bridgePort with
    | none => rfl
    | some bridgePort =>
      dsimp only
      rw [filter_some]
      simp only [decide_eq_true_eq]
      split
      · dsimp only [SwitchPort.atFront]
        rw [hbri]
      · rfl
  | _ => exact hid

theorem frontPanelPort_range {port : SwitchPort} {physicalPort : Nat}
    (h : frontPanelPort port = some physicalPort) :
    1 ≤ physicalPort ∧ physicalPort ≤ 52 := by
  unfold frontPanelPort at h
  split at h
  · dsimp only at h
    split at h
    · rename_i hrn
      cases h
      exact hrn
    · cases h
  · cases h

theorem frontOf_eq_some {ports : List SwitchPort} {port : SwitchPort} {profile : PortProfile}
    {physicalPort : Nat}
    (h : frontOf ports port profile = some physicalPort) :
    (1 ≤ physicalPort ∧ physicalPort ≤ 52) ∧ port.bridgePort = some physicalPort := by
  unfold frontOf at h
  split at h
  · obtain ⟨hfr, his⟩ := filter_eq_some_iff.1 h
    unfold isFrontPanel at his
    rw [Bool.and_eq_true, decide_eq_true_eq] at his
    exact ⟨frontPanelPort_range hfr, his.1⟩
  · obtain ⟨hbri, hrn⟩ := filter_eq_some_iff.1 h
    rw [decide_eq_true_eq] at hrn
    exact ⟨⟨hrn.1, hrn.2.1.trans (by decide)⟩, hbri⟩
  · cases h

structure NormalPorts (bridge : List (Nat × Nat)) (ports : List SwitchPort) : Prop where
  bridgeMap : BridgeMap bridge
  indexes : (ports.map SwitchPort.ifIndex).Nodup
  keys : (ports.map SwitchPort.portKey).Nodup
  known : ∀ entry ∈ bridge, ∃ port ∈ ports, port.ifIndex = some entry.2
  valid : ∀ port ∈ ports, validPort port = true
  index : ∀ port ∈ ports, ∃ index, port.ifIndex = some index
  bridgePort_iff : ∀ port ∈ ports, ∀ index, port.ifIndex = some index →
    ∀ bridgePort, port.bridgePort = some bridgePort ↔ (bridgePort, index) ∈ bridge

theorem validPort_atFront {port : SwitchPort} {front : Option Nat} (h : validPort port = true)
    (hfr : ∀ physicalPort, front = some physicalPort → 1 ≤ physicalPort ∧ physicalPort ≤ 52) :
    validPort (port.atFront front) = true := by
  cases front with
  | none => exact h
  | some physicalPort =>
    have hphs : validOptional 1 65535 (some physicalPort) = true := by
      apply validOptional_some.2
      have := hfr physicalPort rfl
      omega
    have hkey : validText (physicalKey physicalPort) = true := validText_append_render _ physicalPort
    unfold validPort at h ⊢
    simp only [Bool.and_eq_true] at h ⊢
    exact ⟨⟨⟨⟨⟨⟨⟨hkey, h.1.1.1.1.1.1.2⟩, h.1.1.1.1.1.2⟩, hphs⟩, h.1.1.1.2⟩, h.1.1.2⟩, h.1.2⟩, h.2⟩

theorem physicalKey_ne_ifIndexKey (physicalPort index : Nat) :
    physicalKey physicalPort ≠ ifIndexKey index := by
  intro h
  have hha : CodePoint.ofChar 'p' = CodePoint.ofChar 'i' := (List.cons.inj h).1
  exact absurd hha (by decide)

theorem normalPorts_of_plain {bridge : List (Nat × Nat)} {ports : List SwitchPort}
    (plain : PlainPorts bridge ports)
    (profile : PortProfile) : NormalPorts bridge (profile.normalizePorts ports) := by
  rw [normalizePorts_eq]
  refine ⟨plain.bridgeMap, ?_, ?_, ?_, ?_, ?_, ?_⟩
  · rw [List.map_map]
    simpa [Function.comp_def] using plain.indexes
  · rw [List.map_map, Nodup, pairwise_map]
    apply (pairwise_map.1 plain.indexes).imp_of_mem
    intro a b ha hb hne hkey
    obtain ⟨i, hi, hia⟩ := plain.portKey_eq ha
    obtain ⟨j, hj, hjb⟩ := plain.portKey_eq hb
    dsimp only [Function.comp_apply] at hkey
    cases hfa : frontOf ports a profile with
    | none =>
      cases hfb : frontOf ports b profile with
      | none =>
        rw [hfa, hfb] at hkey
        apply hne
        rw [hi, hj, Decimal.render_injective (append_cancel_left (hia.symm.trans (hkey.trans hjb)))]
      | some q =>
        rw [hfa, hfb] at hkey
        exact physicalKey_ne_ifIndexKey q i (hkey.symm.trans hia)
    | some p =>
      cases hfb : frontOf ports b profile with
      | none =>
        rw [hfa, hfb] at hkey
        exact physicalKey_ne_ifIndexKey p j (hkey.trans hjb)
      | some q =>
        rw [hfa, hfb] at hkey
        obtain rfl : p = q := Decimal.render_injective (append_cancel_left hkey)
        have hpi := (plain.bridgePort_iff ha hi).1 (frontOf_eq_some hfa).2
        have hpj := (plain.bridgePort_iff hb hj).1 (frontOf_eq_some hfb).2
        have hlo := (lookup_of_mem plain.bridgeMap.ports hpi).symm.trans
          (lookup_of_mem plain.bridgeMap.ports hpj)
        rw [hi, hj, Option.some.inj hlo] at hne
        exact hne rfl
  · intro entry hen
    obtain ⟨port, hpr, hidx⟩ := plain.known entry hen
    exact ⟨_, List.mem_map_of_mem hpr, by rw [SwitchPort.atFront_ifIndex, hidx]⟩
  · intro port hpr
    obtain ⟨plainPort, hpl, rfl⟩ := List.mem_map.1 hpr
    exact validPort_atFront (plain.valid hpl) fun _ h => (frontOf_eq_some h).1
  · intro port hpr
    obtain ⟨plainPort, hpl, rfl⟩ := List.mem_map.1 hpr
    obtain ⟨index, hidx, -⟩ := plain.portKey_eq hpl
    exact ⟨index, by rw [SwitchPort.atFront_ifIndex, hidx]⟩
  · intro port hpr index hidx bridgePort
    obtain ⟨plainPort, hpl, rfl⟩ := List.mem_map.1 hpr
    rw [SwitchPort.atFront_ifIndex] at hidx
    rw [SwitchPort.atFront_bridgePort]
    exact plain.bridgePort_iff hpl hidx

/-- The numbers of a resolution are those that the store takes. -/
structure PortResolution.Good (resolution : PortResolution) : Prop where
  key : validText resolution.portKey = true
  ifIndex : validOptional 1 2147483647 resolution.ifIndex = true
  bridgePort : validOptional 1 65535 resolution.bridgePort = true
  physicalPort : validOptional 1 65535 resolution.physicalPort = true

theorem portOptionals {port : SwitchPort} (h : validPort port = true) :
    validText port.portKey = true ∧ validOptional 1 2147483647 port.ifIndex = true ∧
      validOptional 1 65535 port.bridgePort = true ∧ validOptional 1 65535 port.physicalPort = true := by
  unfold validPort at h
  simp only [Bool.and_eq_true] at h
  exact ⟨h.1.1.1.1.1.1.1, h.1.1.1.1.1.1.2, h.1.1.1.1.1.2, h.1.1.1.1.2⟩

def tablesOf (bridge : List (Nat × Nat)) (ports : List SwitchPort) : PortTables :=
  ⟨bridge, portsByIfIndex ports⟩

namespace NormalPorts

variable {bridge : List (Nat × Nat)} {ports : List SwitchPort} (normal : NormalPorts bridge ports)
include normal

theorem nodup_indexed :
    ((ports.filterMap fun port => port.ifIndex.map fun index => (index, port)).map Prod.fst).Nodup := by
  rw [Nodup, pairwise_map, pairwise_filterMap]
  apply (pairwise_map.1 normal.indexes).imp
  intro a b hne x hx y hy heq
  obtain ⟨i, hi, rfl⟩ := map_eq_some_iff.1 hx
  obtain ⟨j, hj, rfl⟩ := map_eq_some_iff.1 hy
  dsimp only at heq
  rw [hi, hj, heq] at hne
  exact hne rfl

theorem portsByIfIndex_eq :
    portsByIfIndex ports = ports.filterMap fun port => port.ifIndex.map fun index => (index, port) :=
  Dict.ofList_eq _ normal.nodup_indexed

theorem lookup_iff {index : Nat} {port : SwitchPort} :
    (portsByIfIndex ports).lookup index = some port ↔ port ∈ ports ∧ port.ifIndex = some index := by
  have hmem : (index, port) ∈ portsByIfIndex ports ↔ port ∈ ports ∧ port.ifIndex = some index := by
    rw [normal.portsByIfIndex_eq, mem_filterMap]
    constructor
    · rintro ⟨other, hot, heq⟩
      obtain ⟨i, hi, hpi⟩ := map_eq_some_iff.1 heq
      cases hpi
      exact ⟨hot, hi⟩
    · rintro ⟨hpr, hidx⟩
      exact ⟨port, hpr, by rw [hidx]; rfl⟩
  rw [← hmem]
  constructor
  · exact mem_of_lookup
  · apply lookup_of_mem
    rw [normal.portsByIfIndex_eq]
    exact normal.nodup_indexed

end NormalPorts

section

variable {bridge : List (Nat × Nat)} {ports : List SwitchPort} {raw : Nat} {resolution : PortResolution}

theorem baseResolve_eq_some (normal : NormalPorts bridge ports)
    (h : baseResolveBridgePort (tablesOf bridge ports) raw = some resolution) :
    ∃ index, ∃ port ∈ ports, (raw, index) ∈ bridge ∧ port.ifIndex = some index ∧
      resolution = ⟨port.portKey, port.ifIndex, some raw, port.physicalPort, port.name⟩ := by
  unfold baseResolveBridgePort at h
  obtain ⟨index, hidx, h⟩ := bind_eq_some_iff.1 h
  obtain ⟨port, hpr, h⟩ := bind_eq_some_iff.1 h
  cases h
  obtain ⟨hmem, hifI⟩ := normal.lookup_iff.1 hpr
  exact ⟨index, port, hmem, mem_of_lookup hidx, hifI, rfl⟩

theorem good_baseResolve (normal : NormalPorts bridge ports)
    (h : baseResolveBridgePort (tablesOf bridge ports) raw = some resolution) : resolution.Good := by
  obtain ⟨index, port, hpr, hbri, -, rfl⟩ := baseResolve_eq_some normal h
  obtain ⟨hkey, hidx, -, hphs⟩ := portOptionals (normal.valid port hpr)
  exact ⟨hkey, hidx, validOptional_some.2 (normal.bridgeMap.range _ hbri).1, hphs⟩

variable {mode : FdbMode}

theorem good_dgs (normal : NormalPorts bridge ports)
    (h : dgsResolveFdbPort (tablesOf bridge ports) raw mode = some resolution) : resolution.Good := by
  unfold dgsResolveFdbPort at h
  obtain ⟨base, hbas, h⟩ := bind_eq_some_iff.1 h
  have hgo := good_baseResolve normal hbas
  split at h
  · cases h
    exact hgo
  · split at h
    · cases h
      exact hgo
    · split at h
      · rename_i hfr
        cases h
        refine ⟨validText_append_render _ raw, hgo.ifIndex, hgo.bridgePort, validOptional_some.2 ?_⟩
        have hrn := frontPanelPort_range hfr.1
        omega
      · cases h
        exact hgo

theorem validText_lagKey (digits : Text) : validText (text "lag:po" ++ digits) = true := by
  apply validText_of_mem (c := 'l')
  · exact mem_append_left _ (by decide)
  · decide

theorem good_snrResolutionFromPort {port : SwitchPort} (hpr : validPort port = true)
    (h : snrResolutionFromPort port = some resolution) : resolution.Good := by
  obtain ⟨hkey, hvl, hvali, hphs⟩ := portOptionals hpr
  unfold snrResolutionFromPort at h
  obtain ⟨index, hidx, h⟩ := bind_eq_some_iff.1 h
  obtain ⟨bridgePort, hbri, h⟩ := bind_eq_some_iff.1 h
  rw [hidx] at hvl
  rw [hbri] at hvali
  split at h
  · cases h
    exact ⟨validText_lagKey _, hvl, hvali, rfl⟩
  · split at h
    · cases h
      exact ⟨validText_append_render _ bridgePort, hvl, hvali, hvali⟩
    · cases h
      exact ⟨hkey, hvl, hvali, hphs⟩

section

variable (normal : NormalPorts bridge ports)
include normal

theorem snrResolveBridgePort_eq_some
    (h : snrResolveBridgePort (tablesOf bridge ports) raw = some resolution) :
    ∃ port ∈ ports, snrResolutionFromPort port = some resolution := by
  unfold snrResolveBridgePort at h
  obtain ⟨base, hbas, h⟩ := bind_eq_some_iff.1 h
  obtain ⟨port, hpr, h⟩ := bind_eq_some_iff.1 h
  obtain ⟨index, -, hlo⟩ := bind_eq_some_iff.1 hpr
  exact ⟨port, (normal.lookup_iff.1 hlo).1, h⟩

theorem snrResolutionForIfIndex_eq_some {index : Nat}
    (h : snrResolutionForIfIndex (tablesOf bridge ports) index = some resolution) :
    ∃ port ∈ ports, snrResolutionFromPort port = some resolution := by
  unfold snrResolutionForIfIndex at h
  obtain ⟨port, hpr, h⟩ := bind_eq_some_iff.1 h
  split at h
  · split at h
    · exact ⟨port, (normal.lookup_iff.1 hpr).1, h⟩
    · cases h
  · cases h

theorem snrResolveFdbPort_eq_some
    (h : snrResolveFdbPort (tablesOf bridge ports) raw mode = some resolution) :
    ∃ port ∈ ports, snrResolutionFromPort port = some resolution := by
  cases mode with
  | qbridge => exact snrResolutionForIfIndex_eq_some normal h
  | legacy => exact snrResolveBridgePort_eq_some normal h

theorem good_tplink (hraw : 1 ≤ raw ∧ raw ≤ 65535)
    (h : tplinkResolveFdbPort (tablesOf bridge ports) raw = some resolution) : resolution.Good := by
  unfold tplinkResolveFdbPort at h
  obtain ⟨port, hpr, h⟩ := bind_eq_some_iff.1 h
  obtain ⟨index, hidx, h⟩ := bind_eq_some_iff.1 h
  obtain ⟨bridgePort, hbri, h⟩ := bind_eq_some_iff.1 h
  cases h
  obtain ⟨-, hvl, hvali, -⟩ := portOptionals (normal.valid port (normal.lookup_iff.1 hpr).1)
  rw [hidx] at hvl
  rw [hbri] at hvali
  exact ⟨validText_append_render _ raw, hvl, hvali, validOptional_some.2 hraw⟩

end

theorem good_css326 {tables : PortTables} (h : css326ResolveFdbPort tables raw mode = some resolution) :
    resolution.Good := by
  unfold css326ResolveFdbPort at h
  split at h
  · rename_i hmod
    obtain ⟨port, -, h⟩ := bind_eq_some_iff.1 h
    split at h
    · cases h
      refine ⟨validText_append_render _ raw, validOptional_some.2 ?_, validOptional_some.2 ?_,
        validOptional_some.2 ?_⟩
      all_goals omega
    · cases h
  · cases h

theorem good_resolveFdbPort (normal : NormalPorts bridge ports) (hraw : 1 ≤ raw ∧ raw ≤ 65535)
    {profile : PortProfile}
    (h : profile.resolveFdbPort (tablesOf bridge ports) raw mode = some resolution) :
    resolution.Good := by
  cases profile with
  | generic => exact good_baseResolve normal h
  | dgs => exact good_dgs normal h
  | snr =>
    obtain ⟨port, hpr, h⟩ := snrResolveFdbPort_eq_some normal h
    exact good_snrResolutionFromPort (normal.valid port hpr) h
  | tplink => exact good_tplink normal hraw h
  | css326 => exact good_css326 h

end

end WebOvpn.Snmp
