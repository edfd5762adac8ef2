/-
Reading back what the encoder wrote.  A dialect that accepts every part of a
value recovers the value from its encoding, whatever follows it in the text.
-/
import WebOvpn.Lib.JsonParse

namespace WebOvpn

open List

/-- No high surrogate is directly followed by a low one.  Text read from JSON
has this shape, because the reader pairs such halves. -/
def Joined (s : Text) : Prop :=
  s.IsChain fun a b => ¬ (a.isHigh = true ∧ b.isLow = true)

def utf16 (c : CodePoint) : Text :=
  if c.val < 0x10000 then [c]
  else
    [Fin.ofNat _ (0xd800 + (c.val - 0x10000) / 0x400), Fin.ofNat _ (0xdc00 + (c.val - 0x10000) % 0x400)]

theorem CodePoint.combine_not_isSurrogate {high low : CodePoint}
    (hhg : high.isHigh = true) (hlow : low.isLow = true) :
      0x10000 ≤ (CodePoint.combine high low).val := by
  simp only [isHigh, isLow, Bool.and_eq_true, decide_eq_true_eq] at hhg hlow
  simp only [combine, Fin.ofNat]
  omega

theorem joinSurrogates_joined (s : Text) : Joined (joinSurrogates s) := by
  induction s using joinSurrogates.induct with
  | case1 high low rest hpi ih =>
    simp only [Bool.and_eq_true] at hpi
    rw [joinSurrogates, if_pos (by simpa using hpi), Joined, isChain_cons]
    refine ⟨fun c _ hbot => ?_, ih⟩
    have hbig := CodePoint.combine_not_isSurrogate hpi.1 hpi.2
    simp only [CodePoint.isHigh, Bool.and_eq_true, decide_eq_true_eq] at hbot
    omega
  | case2 high low rest hpi ih =>
    rw [joinSurrogates, if_neg hpi, Joined, isChain_cons]
    refine ⟨fun c hc hbot => ?_, ih⟩
    -- The head of what follows is `low` itself or a combined pair.
    cases rest with
    | nil =>
      simp only [joinSurrogates, head?_cons, Option.mem_def, Option.some.injEq] at hc
      subst hc
      exact hpi (by simpa using hbot)
    | cons next rest =>
      rw [joinSurrogates] at hc
      split at hc
      next hcm =>
        simp only [Bool.and_eq_true] at hcm
        simp only [head?_cons, Option.mem_def, Option.some.injEq] at hc
        have hbig := CodePoint.combine_not_isSurrogate hcm.1 hcm.2
        rw [hc] at hbig
        have hlow := hbot.2
        simp only [CodePoint.isLow, Bool.and_eq_true, decide_eq_true_eq] at hlow
        omega
      next =>
        simp only [head?_cons, Option.mem_def, Option.some.injEq] at hc
        subst hc
        exact hpi (by simpa using hbot)
  | _ => simp [joinSurrogates, Joined]

variable {c : CodePoint} {n : Nat}

theorem joinSurrogates_cons_of_not_high (rest : Text) (hc : c.isHigh = false) :
    joinSurrogates (c :: rest) = c :: joinSurrogates rest := by
  cases rest with
  | nil => simp [joinSurrogates]
  | cons next rest => simp [joinSurrogates, hc]

theorem utf16_pair (hc : ¬ c.val < 0x10000) :
    ∃ high low : CodePoint, utf16 c = [high, low] ∧ high.isHigh = true ∧
      low.isLow = true ∧ CodePoint.combine high low = c := by
  have hlt := c.isLt
  refine ⟨Fin.ofNat _ (0xd800 + (c.val - 0x10000) / 0x400),
    Fin.ofNat _ (0xdc00 + (c.val - 0x10000) % 0x400), ?_, ?_, ?_, ?_⟩
  · rw [utf16, if_neg hc]
  · simp only [CodePoint.isHigh, Fin.ofNat, Bool.and_eq_true, decide_eq_true_eq]
    omega
  · simp only [CodePoint.isLow, Fin.ofNat, Bool.and_eq_true, decide_eq_true_eq]
    omega
  · apply Fin.ext
    simp only [CodePoint.combine, Fin.ofNat]
    omega

theorem utf16_head_isLow (d : CodePoint) (rest : Text)
    (hha : (utf16 c ++ rest).head? = some d) (hlow : d.isLow = true) : c.isLow = true := by
  by_cases hc : c.val < 0x10000
  · rw [utf16, if_pos hc] at hha
    simp only [cons_append, head?_cons, Option.some.injEq] at hha
    rwa [hha]
  · obtain ⟨high, low, hun, hhg, _, _⟩ := utf16_pair hc
    rw [hun] at hha
    simp only [cons_append, head?_cons, Option.some.injEq] at hha
    subst hha
    simp only [CodePoint.isHigh, CodePoint.isLow, Bool.and_eq_true, decide_eq_true_eq] at hhg hlow
    omega

theorem joinSurrogates_utf16 {s : Text} (hs : Joined s) : joinSurrogates (s.flatMap utf16) = s := by
  induction s with
  | nil => simp [joinSurrogates]
  | cons c rest ih =>
    rw [Joined, isChain_cons] at hs
    have hrs := ih hs.2
    rw [flatMap_cons]
    by_cases hc : c.val < 0x10000
    · rw [utf16, if_pos hc, singleton_append]
      cases hun : rest.flatMap utf16 with
      | nil =>
        rw [hun, joinSurrogates] at hrs
        simp [joinSurrogates, ← hrs]
      | cons d units =>
        have hpi : ¬ ((c.isHigh && d.isLow) = true) := by
          simp only [Bool.and_eq_true]
          rintro ⟨hhg, hlow⟩
          cases rest with
          | nil => simp at hun
          | cons next rest =>
            refine hs.1 next (by simp) ⟨hhg, ?_⟩
            apply utf16_head_isLow d (rest.flatMap utf16)
            · rw [← flatMap_cons, hun, head?_cons]
            · exact hlow
        rw [joinSurrogates, if_neg hpi, ← hun, hrs]
    · obtain ⟨high, low, hun, hhg, hlow, hcm⟩ := utf16_pair hc
      rw [hun, cons_append, cons_append, nil_append,
        joinSurrogates, if_pos (by simp [hhg, hlow]), hcm, hrs]

theorem hexValue_digitChar (hn : n < 16) : hexValue (Nat.digitChar n) = some n := by
  revert n
  decide

theorem hex4_digitChar (hn : n < 0x10000) :
    hex4 (Nat.digitChar (n / 4096 % 16)) (Nat.digitChar (n / 256 % 16))
      (Nat.digitChar (n / 16 % 16)) (Nat.digitChar (n % 16)) = some (Fin.ofNat _ n) := by
  rw [hex4, hexValue_digitChar (by omega), hexValue_digitChar (by omega),
    hexValue_digitChar (by omega), hexValue_digitChar (by omega)]
  have hsum : n / 4096 % 16 * 4096 + n / 256 % 16 * 256 + n / 16 % 16 * 16 +
      n % 16 = n := by omega
  simp only [hsum]

theorem lexString_unicodeEscape (hn : n < 0x10000) (rest : List Char) :
    lexString (unicodeEscape n ++ rest) =
      (lexString rest).map fun (s, left) => (Fin.ofNat _ n :: s, left) := by
  rw [unicodeEscape]
  simp only [cons_append, nil_append]
  rw [lexString, if_neg (by decide), if_pos rfl]
  simp only [hex4_digitChar hn]

theorem lexString_escape_letter {e : Char} (hesc : simpleEscape e = some c) (rest : List Char) :
    lexString ('\\' :: e :: rest) = (lexString rest).map fun (s, left) => (c :: s, left) := by
  rw [lexString.eq_def]
  simp only [if_neg (show '\\' ≠ '"' by decide), ↓reduceIte]
  split
  next heq =>
    obtain ⟨rfl, -⟩ := List.cons.inj heq
    simp [simpleEscape] at hesc
  next heq =>
    obtain ⟨rfl, rfl⟩ := List.cons.inj heq
    simp only [hesc]
  next heq => simp at heq

theorem lexString_plain {c : Char} (hquo : c ≠ '"') (hsl : c ≠ '\\')
    (hcn : ¬ c.toNat < 0x20) (rest : List Char) :
    lexString (c :: rest) = (lexString rest).map fun (s, left) =>
      (CodePoint.ofChar c :: s, left) := by
  rw [lexString.eq_def]
  simp only [if_neg hquo, if_neg hsl, if_neg hcn]

theorem toNat_ofNat_of_ascii (hn : n < 0x80) : (Char.ofNat n).toNat = n := by
  revert n
  decide

theorem lexString_escapeCodePoint (c : CodePoint) (rest : List Char) :
    lexString (escapeCodePoint c ++ rest) =
      (lexString rest).map fun (s, left) => (utf16 c ++ s, left) := by
  have hlt := c.isLt
  have hle : ∀ {n : Nat} {e : Char}, c.val = n → n < 0x10000 → simpleEscape e = some (Fin.ofNat _ n) →
      lexString ('\\' :: e :: rest) = (lexString rest).map fun (s, left) => (utf16 c ++ s, left) := by
    intro n e hc hn hesc
    have hun : utf16 c = [Fin.ofNat _ n] := by
      rw [utf16, if_pos (by omega), ← hc]
      simp
    rw [lexString_escape_letter hesc, hun]
    rfl
  unfold escapeCodePoint
  split_ifs with hquo hsl hb hf hn hr ht hpl hbmp
  · exact hle hquo (by decide) (by decide)
  · exact hle hsl (by decide) (by decide)
  · exact hle hb (by decide) (by decide)
  · exact hle hf (by decide) (by decide)
  · exact hle hn (by decide) (by decide)
  · exact hle hr (by decide) (by decide)
  · exact hle ht (by decide) (by decide)
  · have hch := toNat_ofNat_of_ascii (n := c.val) (by omega)
    have hne : ∀ d : Char, c.val ≠ d.toNat → Char.ofNat c.val ≠ d := by
      intro d hd heq
      exact hd (by rw [← hch, heq])
    rw [singleton_append, lexString_plain (hne '"' hquo)
      (hne '\\' hsl) (by omega), utf16, if_pos (by omega)]
    have hcd : CodePoint.ofChar (Char.ofNat c.val) = c := Fin.ext hch
    rw [hcd]
    rfl
  · rw [lexString_unicodeEscape hbmp, utf16, if_pos hbmp]
    simp
  · rw [append_assoc, lexString_unicodeEscape (by omega),
      lexString_unicodeEscape (by omega), utf16, if_neg hbmp, Option.map_map]
    rfl

theorem lexString_encodeString (s : Text) (rest : List Char) :
    lexString (s.flatMap escapeCodePoint ++ '"' :: rest) = some (s.flatMap utf16, rest) := by
  induction s with
  | nil =>
    rw [lexString.eq_def]
    simp
  | cons c s ih =>
    rw [flatMap_cons, append_assoc, lexString_escapeCodePoint, ih]
    simp

end WebOvpn
