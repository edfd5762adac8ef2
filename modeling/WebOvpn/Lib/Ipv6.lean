/-
IPv6 addresses as the module `ipaddress` reads and writes them, without scopes.
-/
import WebOvpn.Lib.Ipv4

namespace WebOvpn

open Text List

/-- The eight groups of sixteen bits of an address. -/
structure Ipv6 where
  hextets : List (Fin 65536)
  length_eq : hextets.length = 8
  deriving DecidableEq

namespace Ipv6

def colon : CodePoint := 58

def hexDigit (n : Nat) : CodePoint := if n % 16 < 10 then Fin.ofNat _ (48 + n % 16)
    else Fin.ofNat _ (87 + n % 16)

def hexDigitValue (c : CodePoint) : Nat :=
  if c.isDigit then c.val - 48 else if 97 ≤ c.val then c.val - 87 else c.val - 55

def hexadecimal (digits : Text) : Nat := digits.foldl (fun n c => 16 * n + hexDigitValue c) 0

def hextetText (n : Fin 65536) : Text :=
  if n.val < 0x10 then [hexDigit n]
  else if n.val < 0x100 then [hexDigit (n / 0x10), hexDigit n]
  else if n.val < 0x1000 then [hexDigit (n / 0x100), hexDigit (n / 0x10), hexDigit n]
  else [hexDigit (n / 0x1000), hexDigit (n / 0x100), hexDigit (n / 0x10), hexDigit n]

def parseHextet (t : Text) : Option (Fin 65536) :=
  if h : hexadecimal t < 65536 ∧ t ≠ [] ∧ t.all CodePoint.isHex ∧
    t.length ≤ 4 then some ⟨hexadecimal t, h.1⟩ else none

theorem hexDigit_val (n : Nat) : (hexDigit n).val = if n % 16 < 10 then 48 + n % 16
    else 87 + n % 16 := by
  unfold hexDigit
  split_ifs <;> rw [Fin.val_ofNat] <;> omega

theorem hexDigit_isHex (n : Nat) : (hexDigit n).isHex = true := by
  unfold CodePoint.isHex CodePoint.isLowerHex CodePoint.isDigit
  rw [hexDigit_val]
  split_ifs <;> simp <;> omega

theorem hexDigitValue_hexDigit (n : Nat) : hexDigitValue (hexDigit n) = n % 16 := by
  unfold hexDigitValue CodePoint.isDigit
  rw [hexDigit_val]
  split_ifs with hsma hdg hlow <;> simp at * <;> omega

variable (n : Fin 65536)

theorem hextetText_hex : ∀ c ∈ hextetText n, c.isHex = true := by
  intro c hc
  unfold hextetText at hc
  split_ifs at hc <;> simp only [mem_cons, not_mem_nil, or_false] at hc
  · rw [hc]
    exact hexDigit_isHex _
  · rcases hc with rfl | rfl <;> exact hexDigit_isHex _
  · rcases hc with rfl | rfl | rfl <;> exact hexDigit_isHex _
  · rcases hc with rfl | rfl | rfl | rfl <;> exact hexDigit_isHex _

theorem hextetText_ne_nil : hextetText n ≠ [] := by
  unfold hextetText
  split_ifs <;> exact cons_ne_nil _ _

theorem hextetText_length : (hextetText n).length ≤ 4 := by
  unfold hextetText
  split_ifs <;> simp

theorem hexadecimal_hextetText : hexadecimal (hextetText n) = n := by
  have hn := n.isLt
  unfold hextetText
  split_ifs <;> simp only [hexadecimal, foldl_cons, foldl_nil, hexDigitValue_hexDigit] <;> omega

@[simp]
theorem parseHextet_hextetText : parseHextet (hextetText n) = some n := by
  have hv := hexadecimal_hextetText n
  unfold parseHextet
  rw [dif_pos]
  · exact congrArg some (Fin.ext hv)
  · refine ⟨by rw [hv]; exact n.isLt, hextetText_ne_nil n, all_eq_true.2 (hextetText_hex n), hextetText_length n⟩

theorem not_isHex_colon : colon.isHex = false := by
  decide

theorem not_isHex_dot : Ipv4.dot.isHex = false := by
  decide

theorem colon_notMem_hextetText : colon ∉ hextetText n := by
  intro h
  exact Bool.false_ne_true (not_isHex_colon.symm.trans (hextetText_hex n colon h))

theorem dot_notMem_hextetText : Ipv4.dot ∉ hextetText n := by
  intro h
  exact Bool.false_ne_true (not_isHex_dot.symm.trans (hextetText_hex n Ipv4.dot h))

/-- The runs of zeros found by `_compress_hextets`: the best so far and the one
that ends here. -/
structure Runs where
  bestStart : Nat
  bestLength : Nat
  length : Nat

/-- A step of the loop of `_compress_hextets`.  The current run starts `length`
places back. -/
def Runs.step (runs : Runs) (index : Nat) (hextet : Fin 65536) : Runs :=
  if hextet = 0 then
    if runs.bestLength < runs.length + 1 then ⟨index - runs.length, runs.length + 1, runs.length + 1⟩
    else { runs with length := runs.length + 1 }
  else { runs with length := 0 }

/-- The loop from a place on. -/
def runsFrom (runs : Runs) (index : Nat) : List (Fin 65536) → Runs
  | [] => runs
  | hextet :: rest => runsFrom (runs.step index hextet) (index + 1) rest

def compress (hextets : List (Fin 65536)) : List Text :=
  let runs := runsFrom ⟨0, 0, 0⟩ 0 hextets
  if 1 < runs.bestLength then
    let front := (hextets.take runs.bestStart).map hextetText
    let back := (hextets.drop (runs.bestStart + runs.bestLength)).map hextetText
    (if front.isEmpty then [[]] else front) ++ [] :: (if back.isEmpty then [[]] else back)
  else hextets.map hextetText

/-- `str(addr)`. -/
def text (a : Ipv6) : Text := [colon].intercalate (compress a.hextets)

def expandLast (parts : List Text) : Option (List Text) :=
  match parts.getLast? with
  | some last =>
    if Ipv4.dot ∈ last then do
      let a ← Ipv4.ofText last
      return parts.dropLast ++ [hextetText (Fin.ofNat _ (a.val / 0x10000)), hextetText (Fin.ofNat _ a.val)]
    else some parts
  | none => some parts

def sideParts (outer : Option Text) (parts : List Text) : Option (List Text) :=
  if outer = some [] then if parts.length = 1 then some [] else none else some parts

/-- The hextets of the parts on both sides of `::`, with the zeros it stands for. -/
def joinSides (high low : List Text) : Option (List (Fin 65536)) :=
  if 8 < high.length + low.length + 1 then none
  else do return (← high.mapM parseHextet) ++ (List.replicate (8 - (high.length + low.length)) 0 ++
    (← low.mapM parseHextet))

def hextetsOf (parts : List Text) : Option (List (Fin 65536)) :=
  let middle := parts.tail.dropLast
  if middle.count [] = 0 then
    if parts.length ≠ 8 ∨ parts.head? = some [] ∨ parts.getLast? = some [] then none else parts.mapM parseHextet
  else if middle.count [] = 1 then do
    let skip := middle.idxOf [] + 1
    let high ← sideParts parts.head? (parts.take skip)
    let low ← sideParts parts.getLast? (parts.drop (skip + 1))
    joinSides high low
  else none

/-- `_ip_int_from_string`, by hextets. -/
def hextetsOfText (t : Text) : Option (List (Fin 65536)) :=
  let parts := t.splitOn colon
  if parts.length < 3 then none
  else (expandLast parts).bind fun parts => if 9 < parts.length then none else hextetsOf parts

/-- `IPv6Address` of a text without a scope; `none` is its `ValueError`. -/
def ofText (t : Text) : Option Ipv6 := do
  let hextets ← hextetsOfText t
  if h : hextets.length = 8 then some ⟨hextets, h⟩ else none

structure Runs.Describes (runs : Runs) (seen : List (Fin 65536)) : Prop where
  best_le : runs.bestStart + runs.bestLength ≤ seen.length
  best_zero : (seen.drop runs.bestStart).take runs.bestLength = List.replicate runs.bestLength 0
  length_le : runs.length ≤ seen.length
  run_zero : seen.drop (seen.length - runs.length) = List.replicate runs.length 0

variable {runs : Runs} {hextets : List (Fin 65536)}

theorem Runs.Describes.step {seen : List (Fin 65536)} (h : runs.Describes seen) (hextet : Fin 65536) :
    (runs.step seen.length hextet).Describes (seen ++ [hextet]) := by
  obtain ⟨hbest, hbs, hlen, hrun⟩ := h
  have hold : ((seen ++ [hextet]).drop runs.bestStart).take runs.bestLength =
    List.replicate runs.bestLength 0 := by
    rw [drop_append_of_le_length (by omega), take_append_of_le_length]
    · exact hbs
    · rw [length_drop]
      omega
  unfold Runs.step
  by_cases hzr : hextet = 0
  · subst hzr
    have hnew : (seen ++ [0]).drop (seen.length - runs.length) = List.replicate (runs.length + 1) 0 := by
      rw [drop_append_of_le_length (by omega), hrun, replicate_succ']
    have hpl : (seen ++ [(0 : Fin 65536)]).length - (runs.length + 1) = seen.length - runs.length := by
      rw [length_append, length_singleton]
      omega
    rw [if_pos rfl]
    by_cases hbt : runs.bestLength < runs.length + 1
    · rw [if_pos hbt]
      refine ⟨?_, ?_, ?_, ?_⟩
      · simp only [length_append, length_singleton]
        omega
      · change ((seen ++ [0]).drop (seen.length - runs.length)).take (runs.length + 1) = _
        rw [hnew, take_of_length_le (by rw [length_replicate])]
      · simp only [length_append, length_singleton]
        omega
      · change (seen ++ [0]).drop (_ - (runs.length + 1)) = _
        rw [hpl, hnew]
    · rw [if_neg hbt]
      refine ⟨?_, hold, ?_, ?_⟩
      · simp only [length_append, length_singleton]
        omega
      · simp only [length_append, length_singleton]
        omega
      · change (seen ++ [0]).drop (_ - (runs.length + 1)) = _
        rw [hpl, hnew]
  · rw [if_neg hzr]
    refine ⟨?_, hold, Nat.zero_le _, ?_⟩
    · simp only [length_append, length_singleton]
      omega
    · simp

theorem describes_runsFrom {seen : List (Fin 65536)} (rest : List (Fin 65536))
    (h : runs.Describes seen) :
    (runsFrom runs seen.length rest).Describes (seen ++ rest) := by
  induction rest generalizing runs seen with
  | nil =>
    rw [append_nil]
    exact h
  | cons hextet rest ih =>
    have hnx := ih (h.step hextet)
    rw [append_assoc] at hnx
    rw [length_append] at hnx
    exact hnx

theorem describes_runs (hextets : List (Fin 65536)) :
    (runsFrom ⟨0, 0, 0⟩ 0 hextets).Describes hextets := by
  have hst : Runs.Describes ⟨0, 0, 0⟩ [] := ⟨le_rfl, rfl, le_rfl, rfl⟩
  exact describes_runsFrom hextets hst

theorem hextets_eq_of_runs (h : runs.Describes hextets) :
    hextets = hextets.take runs.bestStart ++
      (List.replicate runs.bestLength 0 ++ hextets.drop (runs.bestStart + runs.bestLength)) := by
  have hrs : hextets.drop runs.bestStart =
      List.replicate runs.bestLength 0 ++ hextets.drop (runs.bestStart + runs.bestLength) := by
    rw [← h.best_zero, ← drop_drop, take_append_drop]
  rw [← hrs, take_append_drop]

def sideTexts (side : List (Fin 65536)) : List Text :=
  if (side.map hextetText).isEmpty then [[]] else side.map hextetText

variable (side : List (Fin 65536))

theorem sideTexts_ne_nil : sideTexts side ≠ [] := by
  unfold sideTexts
  split_ifs with h
  · exact cons_ne_nil _ _
  · exact fun hnil => h (by rw [hnil]; rfl)

theorem mem_sideTexts {side : List (Fin 65536)} {part : Text} (h : part ∈ sideTexts side) :
    part = [] ∨ ∃ n, part = hextetText n := by
  unfold sideTexts at h
  split_ifs at h with hem
  · exact .inl (mem_singleton.1 h)
  · obtain ⟨n, -, rfl⟩ := mem_map.1 h
    exact .inr ⟨n, rfl⟩

theorem compress_eq (hextets : List (Fin 65536)) :
    compress hextets = hextets.map hextetText ∨ ∃ front back n, 1 < n ∧
      hextets = front ++ (List.replicate n 0 ++ back) ∧
      compress hextets = sideTexts front ++ [] :: sideTexts back := by
  by_cases hln : 1 < (runsFrom ⟨0, 0, 0⟩ 0 hextets).bestLength
  · right
    refine ⟨_, _, _, hln, hextets_eq_of_runs (describes_runs hextets), ?_⟩
    unfold compress
    simp only [if_pos hln]
    rfl
  · left
    unfold compress
    simp only [if_neg hln]

theorem mem_compress {part : Text} (h : part ∈ compress hextets) :
    part = [] ∨ ∃ n, part = hextetText n := by
  rcases compress_eq hextets with hpl | ⟨front, back, -, -, -, hsh⟩
  · rw [hpl] at h
    obtain ⟨n, -, rfl⟩ := mem_map.1 h
    exact .inr ⟨n, rfl⟩
  · rw [hsh] at h
    rcases mem_append.1 h with hfr | hbc
    · exact mem_sideTexts hfr
    · rcases mem_cons.1 hbc with rfl | hbc
      · exact .inl rfl
      · exact mem_sideTexts hbc

variable (a : Ipv6)

theorem splitOn_text : a.text.splitOn colon = compress a.hextets := by
  unfold text
  apply splitOn_intercalate
  · intro part hpr
    rcases mem_compress hpr with rfl | ⟨n, rfl⟩
    · exact not_mem_nil
    · exact colon_notMem_hextetText n
  · rcases compress_eq a.hextets with hpl | ⟨front, back, -, -, -, hsh⟩
    · rw [hpl, Ne, map_eq_nil_iff]
      intro hnil
      have := a.length_eq
      rw [hnil] at this
      cases this
    · rw [hsh]
      exact append_ne_nil_of_right_ne_nil _ (cons_ne_nil _ _)

theorem mapM_parseHextet (hextets : List (Fin 65536)) :
    (hextets.map hextetText).mapM parseHextet = some hextets := by
  induction hextets with
  | nil => rfl
  | cons n rest ih => simp [mapM_cons, ih]

theorem sideParts_head :
    sideParts (sideTexts side).head? (sideTexts side) = some (side.map hextetText) := by
  cases side with
  | nil => rfl
  | cons n rest =>
    have hne : (some (hextetText n)) ≠ some [] := fun h => hextetText_ne_nil n (Option.some.inj h)
    simp [sideParts, sideTexts, hextetText_ne_nil]

theorem sideParts_last :
    sideParts (sideTexts side).getLast? (sideTexts side) = some (side.map hextetText) := by
  cases hsid : side with
  | nil => rfl
  | cons n rest =>
    have hls : ((n :: rest).map hextetText).getLast? ≠ some [] := by
      rw [getLast?_map]
      intro h
      obtain ⟨m, -, hm⟩ := Option.map_eq_some_iff.1 h
      exact hextetText_ne_nil m hm
    have htx : sideTexts (n :: rest) = (n :: rest).map hextetText := by
      simp [sideTexts]
    unfold sideParts
    rw [htx, if_neg hls]

theorem nil_notMem_tail_sideTexts : [] ∉ (sideTexts side).tail := by
  cases side with
  | nil => simp [sideTexts]
  | cons n rest =>
    simp only [sideTexts, map_cons, isEmpty_cons, Bool.false_eq_true, if_false, tail_cons]
    intro h
    obtain ⟨m, -, hm⟩ := mem_map.1 h
    exact hextetText_ne_nil m hm

theorem nil_notMem_dropLast_sideTexts : [] ∉ (sideTexts side).dropLast := by
  cases side with
  | nil => simp [sideTexts]
  | cons n rest =>
    intro h
    have hmem := mem_of_mem_dropLast h
    simp only [sideTexts, map_cons, isEmpty_cons, Bool.false_eq_true, if_false] at hmem
    rw [← map_cons] at hmem
    obtain ⟨m, -, hm⟩ := mem_map.1 hmem
    exact hextetText_ne_nil m hm

theorem getLast?_compress {last : Text} (h : (compress hextets).getLast? = some last) :
    Ipv4.dot ∉ last := by
  rcases mem_compress (mem_of_getLast? h) with rfl | ⟨n, rfl⟩
  · exact not_mem_nil
  · exact dot_notMem_hextetText n

theorem expandLast_compress (hextets : List (Fin 65536)) :
    expandLast (compress hextets) = some (compress hextets) := by
  unfold expandLast
  cases hls : (compress hextets).getLast? with
  | none => rfl
  | some last =>
    simp only
    rw [if_neg (getLast?_compress hls)]

theorem hextetsOf_plain (hleng : hextets.length = 8) :
    hextetsOf (hextets.map hextetText) = some hextets := by
  have hne : ∀ part ∈ hextets.map hextetText, part ≠ [] := by
    intro part hpr
    obtain ⟨n, -, rfl⟩ := mem_map.1 hpr
    exact hextetText_ne_nil n
  have hcnt : (hextets.map hextetText).tail.dropLast.count [] = 0 := by
    apply count_eq_zero_of_not_mem
    intro h
    exact hne [] (mem_of_mem_tail (mem_of_mem_dropLast h)) rfl
  unfold hextetsOf
  simp only
  rw [if_pos hcnt, if_neg]
  · exact mapM_parseHextet hextets
  · rintro (hlen | hha | hls)
    · exact hlen (by rw [length_map, hleng])
    · exact hne [] (mem_of_mem_head? hha) rfl
    · exact hne [] (mem_of_getLast? hls) rfl

theorem length_sideTexts : (sideTexts side).length = max 1 side.length := by
  cases side with
  | nil => rfl
  | cons n rest => simp [sideTexts]

theorem hextetsOf_short {front back : List (Fin 65536)} {n : Nat} (hn : 1 < n)
    (hlen : (front ++ (List.replicate n 0 ++ back)).length = 8) :
    hextetsOf (sideTexts front ++ [] :: sideTexts back) =
      some (front ++ (List.replicate n 0 ++ back)) := by
  simp only [length_append, length_replicate] at hlen
  obtain ⟨first, more, hfr⟩ := exists_cons_of_ne_nil (sideTexts_ne_nil front)
  have hmid : (sideTexts front ++ [] :: sideTexts back).tail.dropLast = more ++
    [] :: (sideTexts back).dropLast := by
    rw [hfr, cons_append, tail_cons, dropLast_append_of_ne_nil (cons_ne_nil _ _),
      dropLast_cons_of_ne_nil (sideTexts_ne_nil back)]
  have hmr : [] ∉ more := by
    have := nil_notMem_tail_sideTexts front
    rwa [hfr] at this
  have hcnt : (more ++ [] :: (sideTexts back).dropLast).count [] = 1 := by
    rw [count_append, count_cons_self, count_eq_zero_of_not_mem hmr,
      count_eq_zero_of_not_mem (nil_notMem_dropLast_sideTexts back)]
  have hsk : (more ++ [] :: (sideTexts back).dropLast).idxOf [] + 1 = (sideTexts front).length := by
    rw [idxOf_append_of_notMem hmr, idxOf_cons_self, hfr, length_cons]
  have hha : (sideTexts front ++ [] :: sideTexts back).head? = (sideTexts front).head? := by
    rw [hfr]
    rfl
  have hls : (sideTexts front ++ [] :: sideTexts back).getLast? = (sideTexts back).getLast? := by
    rw [getLast?_append_of_ne_nil _ (cons_ne_nil _ _), getLast?_cons_of_ne_nil (sideTexts_ne_nil back)]
  have hdr : (sideTexts front ++ [] :: sideTexts back).drop ((sideTexts front).length + 1) = sideTexts back := by
    rw [← drop_drop, drop_left]
    rfl
  have hji : joinSides (front.map hextetText) (back.map hextetText) =
    some (front ++ (List.replicate n 0 ++ back)) := by
    unfold joinSides
    rw [length_map, length_map, if_neg (by omega), mapM_parseHextet, mapM_parseHextet,
      show 8 - (front.length + back.length) = n by omega]
    rfl
  unfold hextetsOf
  simp only [hmid, hcnt, hsk, hha, hls, hdr, take_left, sideParts_head, sideParts_last]
  rw [if_neg Nat.one_ne_zero]
  exact hji

theorem hextetsOf_compress : hextetsOf (compress a.hextets) = some a.hextets := by
  rcases compress_eq a.hextets with hpl | ⟨front, back, n, hn, heq, hsh⟩
  · rw [hpl]
    exact hextetsOf_plain a.length_eq
  · have hlen := a.length_eq
    rw [hsh]
    rw [heq] at hlen ⊢
    exact hextetsOf_short hn hlen

theorem length_compress : 3 ≤ (compress a.hextets).length ∧ (compress a.hextets).length ≤ 9 := by
  have hlen := a.length_eq
  rcases compress_eq a.hextets with hpl | ⟨front, back, n, hn, heq, hsh⟩
  · rw [hpl, length_map]
    omega
  · rw [heq] at hlen
    simp only [length_append, length_replicate] at hlen
    rw [hsh, length_append, length_cons, length_sideTexts, length_sideTexts]
    omega

@[simp]
theorem ofText_text : ofText a.text = some a := by
  have hbd := length_compress a
  have hra : hextetsOfText a.text = some a.hextets := by
    unfold hextetsOfText
    simp only [splitOn_text]
    rw [if_neg (by omega), expandLast_compress, Option.bind_some, if_neg (by omega), hextetsOf_compress]
  unfold ofText
  rw [hra]
  simp [a.length_eq]

theorem text_chars : ∀ c ∈ a.text, c.isHex = true ∨ c = colon := by
  suffices h : ∀ parts : List Text, (∀ part ∈ parts, part = [] ∨ ∃ n, part = hextetText n) →
      ∀ c ∈ [colon].intercalate parts, c.isHex = true ∨ c = colon from
    h (compress a.hextets) fun part hpr => mem_compress hpr
  intro parts
  induction parts with
  | nil => nofun
  | cons part rest ih =>
    intro hparts c hc
    have hpr : c ∈ part → c.isHex = true ∨ c = colon := by
      intro hmem
      rcases hparts part mem_cons_self with rfl | ⟨n, rfl⟩
      · cases hmem
      · exact .inl (hextetText_hex n c hmem)
    cases rest with
    | nil =>
      rw [intercalate_singleton] at hc
      exact hpr hc
    | cons next more =>
      rw [intercalate_cons_cons, mem_append, mem_append] at hc
      rcases hc with (hmem | hcl) | hmr
      · exact hpr hmem
      · exact .inr (mem_singleton.1 hcl)
      · exact ih (fun p hp => hparts p (mem_cons_of_mem part hp)) c hmr

end Ipv6

/-- What `ipaddress.ip_address` returns. -/
inductive IpVersions where
  | v4 (address : Ipv4)
  | v6 (address : Ipv6)
  deriving DecidableEq

namespace IpVersions

/-- `ipaddress.ip_address` of a text without a scope; `none` is its `ValueError`. -/
def ofText (t : Text) : Option IpVersions :=
  ((Ipv4.ofText t).map .v4).orElse fun _ => (Ipv6.ofText t).map .v6

/-- `str(addr)`. -/
def text : IpVersions → Text
  | .v4 a => a.text
  | .v6 a => a.text

def version : IpVersions → Nat
  | .v4 _ => 4
  | .v6 _ => 6

def head (a : Ipv6) : Nat := (a.hextets.head?.getD 0).val

def isLoopback : IpVersions → Bool
  | .v4 a => a.val / 0x1000000 = 127
  | .v6 a => a.hextets = [0, 0, 0, 0, 0, 0, 0, 1]

def isUnspecified : IpVersions → Bool
  | .v4 a => a.val = 0
  | .v6 a => a.hextets = [0, 0, 0, 0, 0, 0, 0, 0]

def isMulticast : IpVersions → Bool
  | .v4 a => a.val / 0x10000000 = 14
  | .v6 a => head a / 0x100 = 0xff

def isLinkLocal : IpVersions → Bool
  | .v4 a => a.val / 0x10000 = 0xa9fe
  | .v6 a => head a / 0x40 = 0x3fa

theorem ofText_v6_text (a : Ipv6) : Ipv4.ofText a.text = none := by
  cases h : Ipv4.ofText a.text with
  | none => rfl
  | some b =>
    have htx := Ipv4.text_of_ofText h
    have hdot : Ipv4.dot ∈ b.text := by
      unfold Ipv4.text Ipv4.octets
      simp [intercalate_cons_cons]
    rw [htx] at hdot
    rcases Ipv6.text_chars a _ hdot with hhex | hcl
    · exact absurd hhex (by decide)
    · exact absurd hcl (by decide)

@[simp]
theorem ofText_text (a : IpVersions) : ofText a.text = some a := by
  cases a with
  | v4 a => simp [ofText, text]
  | v6 a => simp [ofText, text, ofText_v6_text]

theorem text_chars (a : IpVersions) : ∀ c ∈ a.text, c.isHex = true ∨ c = Ipv4.dot ∨ c = Ipv6.colon := by
  intro c hc
  cases a with
  | v4 a =>
    rcases Ipv4.text_chars a c hc with hdg | hdot
    · left
      simp [CodePoint.isHex, CodePoint.isLowerHex, hdg]
    · exact .inr (.inl hdot)
  | v6 a =>
    rcases Ipv6.text_chars a c hc with hhex | hcl
    · exact .inl hhex
    · exact .inr (.inr hcl)

end IpVersions

end WebOvpn
