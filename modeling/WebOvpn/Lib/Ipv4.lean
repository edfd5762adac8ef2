/-
IPv4 addresses and networks as the module `ipaddress` reads and writes them.
-/
import WebOvpn.Lib.Lines

namespace WebOvpn

open Text List

/-- An IPv4 address by its number. -/
abbrev Ipv4 : Type := Fin 0x100000000

instance neZero_addresses : NeZero 0x100000000 := ⟨by decide⟩

instance neZero_prefixlens : NeZero 33 := ⟨by decide⟩

namespace Ipv4

def dot : CodePoint := 46

def decimal (digits : Text) : Nat := digits.foldl (fun n c => 10 * n + (c.val - 48)) 0

def digit (n : Nat) : CodePoint := Fin.ofNat _ (48 + n % 10)

/-- `str` of a number below 1000. -/
def decimalText (n : Nat) : Text :=
  if n < 10 then [digit n]
  else if n < 100 then [digit (n / 10), digit n]
  else [digit (n / 100), digit (n / 10), digit n]

def parseOctet (t : Text) : Option (Fin 256) :=
  if h : decimal t < 256 ∧ t ≠ [] ∧ t.all CodePoint.isDigit ∧ t.length ≤ 3 ∧ (t = [48] ∨ t.head? ≠ some 48) then
    some ⟨decimal t, h.1⟩
  else none

theorem digit_val (n : Nat) : (digit n).val = 48 + n % 10 := by
  unfold digit
  rw [Fin.val_ofNat]
  omega

theorem digit_isDigit (n : Nat) : (digit n).isDigit = true := by
  unfold CodePoint.isDigit
  rw [digit_val, Bool.and_eq_true, decide_eq_true_eq, decide_eq_true_eq]
  omega

theorem decimalText_digits (n : Nat) : ∀ c ∈ decimalText n, c.isDigit = true := by
  intro c hc
  unfold decimalText at hc
  split_ifs at hc <;> simp only [mem_cons, not_mem_nil, or_false] at hc
  · rw [hc]
    exact digit_isDigit _
  · rcases hc with rfl | rfl <;> exact digit_isDigit _
  · rcases hc with rfl | rfl | rfl <;> exact digit_isDigit _

theorem decimal_decimalText {n : Nat} (h : n < 1000) : decimal (decimalText n) = n := by
  unfold decimalText
  split_ifs <;> simp only [decimal, foldl_cons, foldl_nil, digit_val] <;> omega

theorem digit_ne_zero {n : Nat} (h : n % 10 ≠ 0) : digit n ≠ 48 := by
  intro hzr
  have hvl := congrArg Fin.val hzr
  rw [digit_val] at hvl
  change 48 + n % 10 = 48 at hvl
  omega

theorem parseOctet_decimalText (n : Fin 256) : parseOctet (decimalText n) = some n := by
  have hn := n.isLt
  have hv : decimal (decimalText n) = n := decimal_decimalText (by omega)
  unfold parseOctet
  rw [dif_pos]
  · exact congrArg some (Fin.ext hv)
  · refine ⟨by omega, ?_, all_eq_true.2 (decimalText_digits n), ?_, ?_⟩
    · unfold decimalText
      split_ifs <;> exact cons_ne_nil _ _
    · unfold decimalText
      split_ifs <;> simp
    · unfold decimalText
      split_ifs with hone htwo
      · by_cases hzr : n.val = 0
        · left
          rw [hzr]
          rfl
        · right
          simpa using digit_ne_zero (by omega)
      · right
        simpa using digit_ne_zero (by omega)
      · right
        simpa using digit_ne_zero (by omega)

theorem digit_eq {c : CodePoint} {n : Nat} (hc : c.isDigit = true) (hn : n % 10 = c.val - 48) :
    digit n = c := by
  unfold CodePoint.isDigit at hc
  simp only [Bool.and_eq_true, decide_eq_true_eq] at hc
  apply Fin.ext
  unfold digit
  rw [Fin.val_ofNat, hn]
  omega

/-- A number is spelled in one way only. -/
theorem decimalText_of_parseOctet {t : Text} {n : Fin 256} (h : parseOctet t = some n) :
    decimalText n = t := by
  unfold parseOctet at h
  split at h
  · rename_i hoct
    obtain ⟨hlt, hne, hdg, hlen, hzr⟩ := hoct
    cases Option.some.inj h
    change decimalText (decimal t) = t
    rw [all_eq_true] at hdg
    match t, hne, hdg, hlen, hzr, hlt with
    | [a], _, hdg, _, _, _ =>
      have ha := hdg a (by simp)
      have hv : decimal [a] = a.val - 48 := by simp [decimal]
      have hrn := ha
      unfold CodePoint.isDigit at hrn
      simp only [Bool.and_eq_true, decide_eq_true_eq] at hrn
      rw [hv, decimalText, if_pos (by omega), digit_eq ha (by omega)]
    | [a, b], _, hdg, _, hzr, _ =>
      have ha := hdg a (by simp)
      have hb := hdg b (by simp)
      have hv : decimal [a, b] = 10 * (a.val - 48) + (b.val - 48) := by simp [decimal]
      have hfs : a.val ≠ 48 := by
        rintro hvl
        rcases hzr with hone | hha
        · cases hone
        · exact hha (congrArg some (Fin.ext hvl))
      have hrn := ha
      have hrn' := hb
      unfold CodePoint.isDigit at hrn hrn'
      simp only [Bool.and_eq_true, decide_eq_true_eq] at hrn hrn'
      rw [hv, decimalText, if_neg (by omega), if_pos (by omega), digit_eq ha (by omega), digit_eq hb (by omega)]
    | [a, b, c], _, hdg, _, hzr, hlt =>
      have ha := hdg a (by simp)
      have hb := hdg b (by simp)
      have hc := hdg c (by simp)
      have hv : decimal [a, b, c] = 10 * (10 * (a.val - 48) + (b.val - 48)) + (c.val - 48) := by simp [decimal]
      have hfs : a.val ≠ 48 := by
        rintro hvl
        rcases hzr with hone | hha
        · cases hone
        · exact hha (congrArg some (Fin.ext hvl))
      have hrn := ha
      have hrn' := hb
      have hrn'' := hc
      unfold CodePoint.isDigit at hrn hrn' hrn''
      simp only [Bool.and_eq_true, decide_eq_true_eq] at hrn hrn' hrn''
      rw [hv, decimalText, if_neg (by omega), if_neg (by omega), digit_eq ha (by omega),
        digit_eq hb (by omega), digit_eq hc (by omega)]
  · cases h

def octets (a : Ipv4) : List (Fin 256) :=
  [⟨a.val / 0x1000000, by omega⟩, ⟨a.val / 0x10000 % 256, by omega⟩, ⟨a.val / 0x100 % 256, by omega⟩,
    ⟨a.val % 256, by omega⟩]

/-- `str(addr)`. -/
def text (a : Ipv4) : Text := [dot].intercalate (a.octets.map fun n : Fin 256 => decimalText n)

def ofOctets (a b c d : Fin 256) : Ipv4 :=
  ⟨((a.val * 256 + b.val) * 256 + c.val) * 256 + d.val, by omega⟩

/-- `IPv4Address`; `none` is its `ValueError`. -/
def ofText (t : Text) : Option Ipv4 :=
  match t.splitOn dot with
  | [a, b, c, d] => do return ofOctets (← parseOctet a) (← parseOctet b) (← parseOctet c) (← parseOctet d)
  | _ => none

theorem dot_notMem_decimalText (n : Nat) : dot ∉ decimalText n := by
  intro h
  cases decimalText_digits n dot h

theorem splitOn_text (a : Ipv4) :
    a.text.splitOn dot = a.octets.map fun n : Fin 256 => decimalText n := by
  unfold text
  apply splitOn_intercalate
  · intro part hpr
    obtain ⟨n, -, rfl⟩ := mem_map.1 hpr
    exact dot_notMem_decimalText n
  · exact cons_ne_nil _ _

theorem ofOctets_octets (a : Ipv4) : ∀ {b c d e}, a.octets = [b, c, d, e] → ofOctets b c d e = a := by
  intro b c d e h
  cases h
  apply Fin.ext
  simp only [ofOctets]
  omega

theorem octets_ofOctets (a b c d : Fin 256) : (ofOctets a b c d).octets = [a, b, c, d] := by
  simp only [octets, ofOctets, List.cons.injEq, and_true, Fin.ext_iff]
  omega

@[simp]
theorem ofText_text (a : Ipv4) : ofText a.text = some a := by
  obtain ⟨b, c, d, e, hoct⟩ : ∃ b c d e, a.octets = [b, c, d, e] := ⟨_, _, _, _, rfl⟩
  unfold ofText
  rw [splitOn_text, hoct]
  simp only [map_cons, map_nil, parseOctet_decimalText]
  exact congrArg some (ofOctets_octets a hoct)

/-- An address is spelled in one way only. -/
theorem text_of_ofText {t : Text} {a : Ipv4} (h : ofText t = some a) : a.text = t := by
  unfold ofText at h
  split at h
  · rename_i p q r s hsp
    cases hp : parseOctet p with
    | none => simp [hp] at h
    | some b =>
    cases hq : parseOctet q with
    | none => simp [hp, hq] at h
    | some c =>
    cases hr : parseOctet r with
    | none => simp [hp, hq, hr] at h
    | some d =>
    cases hs : parseOctet s with
    | none => simp [hp, hq, hr, hs] at h
    | some e =>
      rw [hp, hq, hr, hs] at h
      cases Option.some.inj h
      unfold text
      rw [octets_ofOctets]
      simp only [map_cons, map_nil, decimalText_of_parseOctet hp, decimalText_of_parseOctet hq,
        decimalText_of_parseOctet hr, decimalText_of_parseOctet hs]
      rw [← hsp, intercalate_splitOn]
  · cases h

theorem text_chars (a : Ipv4) : ∀ c ∈ a.text, c.isDigit = true ∨ c = dot := by
  suffices h : ∀ parts : List (Fin 256), ∀ c ∈ [dot].intercalate (parts.map fun n : Fin 256 => decimalText n),
      c.isDigit = true ∨ c = dot from h a.octets
  intro parts
  induction parts with
  | nil => nofun
  | cons n rest ih =>
    cases rest with
    | nil =>
      intro c hc
      rw [map_cons, map_nil, intercalate_singleton] at hc
      exact .inl (decimalText_digits n c hc)
    | cons m more =>
      intro c hc
      rw [map_cons, map_cons, intercalate_cons_cons, mem_append, mem_append] at hc
      rcases hc with (hdg | hdot) | hmr
      · exact .inl (decimalText_digits n c hdg)
      · exact .inr (mem_singleton.1 hdot)
      · exact ih c hmr

theorem text_ne_nil (a : Ipv4) : a.text ≠ [] := by
  intro h
  have hpr := ofText_text a
  rw [h] at hpr
  cases hpr

end Ipv4

/-- The number of addresses in a network with the given prefix. -/
def hostCount (prefixlen : Fin 33) : Nat := 2 ^ (32 - prefixlen.val)

theorem hostCount_pos (p : Fin 33) : 0 < hostCount p := Nat.two_pow_pos _

theorem hostCount_dvd (p : Fin 33) : hostCount p ∣ 0x100000000 :=
  Nat.pow_dvd_pow 2 (show 32 - p.val ≤ 32 by omega)

/-- The mask with the given number of leading ones. -/
def netmask (p : Fin 33) : Ipv4 :=
  ⟨0x100000000 - hostCount p, Nat.sub_lt (by decide) (hostCount_pos p)⟩

structure Ipv4Network where
  base : Ipv4
  prefixlen : Fin 33
  aligned : hostCount prefixlen ∣ base.val
  deriving DecidableEq

namespace Ipv4Network

variable {a : Ipv4} {p : Fin 33} {net other : Ipv4Network}

theorem eq_of_fields (hbas : net.base = other.base) (hlen : net.prefixlen = other.prefixlen) :
    net = other := by
  cases net
  cases other
  cases hbas
  cases hlen
  rfl

/-- The network of an address, with `strict=False`: the host bits are cleared. -/
def ofAddress (a : Ipv4) (p : Fin 33) : Ipv4Network where
  base := ⟨a.val / hostCount p * hostCount p, (Nat.div_mul_le_self _ _).trans_lt a.isLt⟩
  prefixlen := p
  aligned := Nat.dvd_mul_left _ _

@[simp]
theorem ofAddress_base (net : Ipv4Network) : ofAddress net.base net.prefixlen = net := by
  apply eq_of_fields
  · apply Fin.ext
    exact Nat.div_mul_cancel net.aligned
  · rfl

def prefixOfDigits (t : Text) : Option (Fin 33) :=
  if h : Ipv4.decimal t < 33 ∧ t ≠ [] ∧ t.all CodePoint.isDigit then some ⟨Ipv4.decimal t, h.1⟩ else none

/-- `_prefix_from_ip_int`. -/
def prefixOfMask (mask : Ipv4) : Option (Fin 33) :=
  (List.finRange 33).find? fun p => netmask p = mask

/-- `_prefix_from_ip_string`: a mask, or else the complement of one. -/
def prefixOfAddress (t : Text) : Option (Fin 33) := do
  let mask ← Ipv4.ofText t
  (prefixOfMask mask).orElse fun _ => prefixOfMask ⟨0xffffffff - mask.val, by omega⟩

/-- `_make_netmask`. -/
def parsePrefix (t : Text) : Option (Fin 33) := (prefixOfDigits t).orElse fun _ => prefixOfAddress t

def slash : CodePoint := 47

/-- `IPv4Network(address, strict=False)`; `none` is its `ValueError`. -/
def ofText (t : Text) : Option Ipv4Network :=
  match t.splitOn slash with
  | [address] => do return ofAddress (← Ipv4.ofText address) 32
  | [address, mask] => do return ofAddress (← Ipv4.ofText address) (← parsePrefix mask)
  | _ => none

def text (net : Ipv4Network) : Text := net.base.text ++ slash :: Ipv4.decimalText net.prefixlen

def mask (net : Ipv4Network) : Ipv4 := netmask net.prefixlen

def contains (net : Ipv4Network) (a : Ipv4) : Bool := (ofAddress a net.prefixlen).base = net.base

def broadcast (net : Ipv4Network) : Ipv4 :=
  ⟨net.base.val + (hostCount net.prefixlen - 1), by
    obtain ⟨k, hk⟩ := net.aligned
    obtain ⟨m, hm⟩ := hostCount_dvd net.prefixlen
    have hpos := hostCount_pos net.prefixlen
    have hlt := net.base.isLt
    rw [hk] at hlt ⊢
    change _ < 0x100000000
    rw [hm] at hlt ⊢
    have hkm : k + 1 ≤ m := Nat.lt_of_mul_lt_mul_left hlt
    have hle := Nat.mul_le_mul_left (hostCount net.prefixlen) hkm
    rw [Nat.mul_add, Nat.mul_one] at hle
    omega⟩

def overlaps (net other : Ipv4Network) : Bool :=
  other.contains net.base || other.contains net.broadcast || net.contains other.base ||
    net.contains other.broadcast

theorem slash_notMem_text (a : Ipv4) : slash ∉ a.text := by
  intro h
  rcases Ipv4.text_chars a slash h with hdg | hdot
  · cases hdg
  · cases hdot

theorem splitOn_slash {xs : Text} (a : Ipv4) (h : slash ∉ xs) :
    (a.text ++ slash :: xs).splitOn slash = [a.text, xs] := by
  have hji : a.text ++ slash :: xs = [slash].intercalate [a.text, xs] := by
    rw [intercalate_cons_cons, intercalate_singleton, append_assoc]
    rfl
  rw [hji]
  apply splitOn_intercalate
  · intro part hpr
    rcases mem_cons.1 hpr with rfl | hpr
    · exact slash_notMem_text a
    · rw [mem_singleton.1 hpr]
      exact h
  · exact cons_ne_nil _ _

theorem prefixOfDigits_decimalText (p : Fin 33) : prefixOfDigits (Ipv4.decimalText p) = some p := by
  have hv : Ipv4.decimal (Ipv4.decimalText p) = p := Ipv4.decimal_decimalText (by omega)
  unfold prefixOfDigits
  rw [dif_pos]
  · exact congrArg some (Fin.ext hv)
  · refine ⟨by omega, ?_, all_eq_true.2 (Ipv4.decimalText_digits p)⟩
    unfold Ipv4.decimalText
    split_ifs <;> exact cons_ne_nil _ _

@[simp]
theorem ofText_text (net : Ipv4Network) : ofText net.text = some net := by
  have hsl : slash ∉ Ipv4.decimalText net.prefixlen := by
    intro h
    cases Ipv4.decimalText_digits _ slash h
  unfold ofText text
  rw [splitOn_slash _ hsl]
  simp [parsePrefix, prefixOfDigits_decimalText]

theorem netmask_injective {p q : Fin 33} (h : netmask p = netmask q) : p = q := by
  have hvl := congrArg Fin.val h
  change 0x100000000 - hostCount p = 0x100000000 - hostCount q at hvl
  have hp := Nat.le_of_dvd (by decide) (hostCount_dvd p)
  have hq := Nat.le_of_dvd (by decide) (hostCount_dvd q)
  have hcnt : hostCount p = hostCount q := by omega
  have hex : 32 - p.val = 32 - q.val := Nat.pow_right_injective (le_refl 2) hcnt
  apply Fin.ext
  omega

theorem prefixOfMask_netmask (p : Fin 33) : prefixOfMask (netmask p) = some p := by
  unfold prefixOfMask
  cases hfn : (List.finRange 33).find? (fun q => netmask q = netmask p) with
  | none =>
      have := find?_eq_none.1 hfn p (mem_finRange p)
      simp at this
  | some q =>
      have hq := find?_some hfn
      rw [netmask_injective (of_decide_eq_true hq)]

/-- A dotted mask is no number below 33. -/
theorem prefixOfDigits_address (a : Ipv4) : prefixOfDigits a.text = none := by
  unfold prefixOfDigits
  rw [dif_neg]
  rintro ⟨-, -, hdg⟩
  have hdot : Ipv4.dot ∈ a.text := by
    change Ipv4.dot ∈ [Ipv4.dot].intercalate (_ :: _ :: _)
    rw [intercalate_cons_cons]
    simp
  cases all_eq_true.1 hdg _ hdot

theorem ofText_mask (net : Ipv4Network) :
    ofText (net.base.text ++ slash :: net.mask.text) = some net := by
  unfold ofText mask
  rw [splitOn_slash _ (slash_notMem_text _)]
  simp [parsePrefix, prefixOfDigits_address, prefixOfAddress, prefixOfMask_netmask]

theorem text_injective (h : net.text = other.text) : net = other := by
  have hra := ofText_text net
  rw [h, ofText_text] at hra
  exact (Option.some.inj hra).symm

theorem contains_iff :
    net.contains a = true ↔
      a.val / hostCount net.prefixlen = net.base.val / hostCount net.prefixlen := by
  have hpos := hostCount_pos net.prefixlen
  have hbas : net.base.val / hostCount net.prefixlen * hostCount net.prefixlen = net.base.val :=
    Nat.div_mul_cancel net.aligned
  unfold contains
  rw [decide_eq_true_iff, ← Fin.val_inj]
  change a.val / hostCount net.prefixlen * hostCount net.prefixlen = net.base.val ↔ _
  constructor
  · intro h
    rw [← h, Nat.mul_div_cancel _ hpos]
  · intro h
    rw [h, hbas]

/-- Of two networks with a common address the longer prefix lies in the other one. -/
theorem contains_base_of_le (h : net.contains a = true) (h' : other.contains a = true)
    (hle : net.prefixlen.val ≤ other.prefixlen.val) : net.contains other.base = true := by
  rw [contains_iff] at h h' ⊢
  have hdvd : hostCount other.prefixlen ∣ hostCount net.prefixlen :=
    Nat.pow_dvd_pow 2 (Nat.sub_le_sub_left hle 32)
  obtain ⟨k, hk⟩ := hdvd
  rw [← h, hk, ← Nat.div_div_eq_div_mul, ← Nat.div_div_eq_div_mul, h']

theorem overlaps_of_contains (h : net.contains a = true) (h' : other.contains a = true) :
    net.overlaps other = true := by
  unfold overlaps
  rcases Nat.le_total net.prefixlen.val other.prefixlen.val with hle | hle
  · rw [contains_base_of_le h h' hle, Bool.or_true, Bool.true_or]
  · rw [contains_base_of_le h' h hle, Bool.true_or, Bool.true_or, Bool.true_or]

end Ipv4Network

end WebOvpn
