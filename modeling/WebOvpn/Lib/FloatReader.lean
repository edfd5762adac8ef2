/-
The floats of Python: the number that a decimal token stands for, and the shortest
text that stands for it.  The texts of floats are read back: the reader of numbers takes every token
as it
was written, and what `repr` writes stands for the same float.
-/
import WebOvpn.Lib.JsonRender

namespace WebOvpn

open List

/-- A finite number without its sign, `mantissa * 2 ^ exponent`. -/
structure Binary64 where
  mantissa : Nat
  exponent : Int
deriving DecidableEq

namespace Binary64

def scaled (base num den : Nat) (power : Int) : Nat × Nat :=
  (num * base ^ power.toNat, den * base ^ (-power).toNat)

/-- The nearest integer to a fraction, ties to the even one. -/
def roundHalfEven (num den : Nat) : Nat :=
  if 2 * (num % den) < den ∨ (2 * (num % den) = den ∧ num / den % 2 = 0) then num / den else num / den + 1

/-- The power of two below a positive fraction. -/
def floorLog2 (num den : Nat) : Int :=
  let guess := (num.log2 : Int) - den.log2
  let power := scaled 2 1 1 guess
  if power.1 * den ≤ num * power.2 then guess else guess - 1

def nearest (num den : Nat) : Option Binary64 :=
  if num = 0 then some ⟨0, -1074⟩
  else
    let exponent := max (floorLog2 num den - 52) (-1074)
    let fraction := scaled 2 num den (-exponent)
    let mantissa := roundHalfEven fraction.1 fraction.2
    let rounded : Binary64 := if mantissa = 2 ^ 53 then ⟨2 ^ 52, exponent + 1⟩ else ⟨mantissa, exponent⟩
    if rounded.exponent ≤ 971 then some rounded else none

/-- The number as a fraction. -/
def ratio (x : Binary64) : Nat × Nat := scaled 2 x.mantissa 1 x.exponent

/-- Where the decimal point stands: the fraction is `0.d₁d₂… * 10 ^ point`. -/
def decimalPoint (num den : Nat) : Int :=
  let guess := ((Nat.toDigits 10 num).length : Int) - (Nat.toDigits 10 den).length
  let power := scaled 10 1 1 guess
  if power.1 * den ≤ num * power.2 then guess + 1 else guess

/-- `%+.02d`. -/
def exponentText (power : Int) : List Char :=
  let digits := Nat.toDigits 10 power.natAbs
  (if power < 0 then '-' else '+') :: (List.replicate (2 - digits.length) '0' ++ digits)

def reprDigits (digits : List Char) (point : Int) : List Char :=
  if -4 < point ∧ point ≤ 16 then
    if point ≤ 0 then '0' :: '.' :: (List.replicate (-point).toNat '0' ++ digits)
    else if digits.length ≤ point.toNat then
      digits ++ List.replicate (point.toNat - digits.length) '0' ++ ['.', '0']
    else digits.take point.toNat ++ '.' :: digits.drop point.toNat
  else
    digits.take 1 ++ (if digits.drop 1 = [] then [] else '.' :: digits.drop 1) ++
      'e' :: exponentText (point - 1)

def decimalText (digits count : Nat) (point : Int) : List Char :=
  let chars := Nat.toDigits 10 digits
  reprDigits (chars.rdropWhile (· == '0')) (point + (chars.length - count))

/-- The texts with a given number of digits next to a positive number, the
nearest one first. -/
def textsOf (x : Binary64) (count : Nat) : List (List Char) :=
  let fraction := x.ratio
  let point := decimalPoint fraction.1 fraction.2
  let digits := scaled 10 fraction.1 fraction.2 (count - point)
  let below := digits.1 / digits.2
  let nearest := roundHalfEven digits.1 digits.2
  [decimalText nearest count point, decimalText (if nearest = below then below + 1 else below) count point]

/-- The texts that `repr` chooses from, the shortest ones first. -/
def texts (x : Binary64) : List (List Char) :=
  if x.mantissa = 0 then ["0.0".toList] else (List.range 17).flatMap fun count => x.textsOf (count + 1)

end Binary64

def NumberToken.power (token : NumberToken) : Int :=
  match token.exponent.tail with
  | '-' :: digits => -(Nat.ofDigitChars 10 digits 0 : Int)
  | '+' :: digits => Nat.ofDigitChars 10 digits 0
  | digits => Nat.ofDigitChars 10 digits 0

/-- `float(token)` without its sign, nothing for an infinite one. -/
def NumberToken.toBinary64 (token : NumberToken) : Option Binary64 :=
  let places := token.fraction.tail
  let fraction :=
    Binary64.scaled 10 (Nat.ofDigitChars 10 (token.digits ++ places) 0) 1
    (token.power - places.length)
  Binary64.nearest fraction.1 fraction.2

/-- The text is a float token of the given sign and value. -/
def readsAs (negative : Bool) (x : Binary64) (chars : List Char) : Bool :=
  match lexNumber chars with
  | some (token, []) => !token.isInteger && token.negative == negative && token.toBinary64 == some x
  | _ => false

/-- `repr(float(token))`: the shortest text that reads as the same float. -/
def floatRepr (token : NumberToken) : List Char :=
  match token.toBinary64 with
  | none => if token.negative then "-Infinity".toList else "Infinity".toList
  | some x =>
    let sign := if token.negative then ['-'] else []
    ((x.texts.map (sign ++ ·)).find? (readsAs token.negative x)).getD token.toChars

def floatNumber (token : NumberToken) : Except LoadsError JVal :=
  if token.isInteger then pythonNumber token else .ok (.float (floatRepr token))

def floatDialect : Dialect LoadsError := { pythonDialect with number := floatNumber }

structure NumberToken.WellFormed (token : NumberToken) : Prop where
  digits : ∀ c ∈ token.digits, c.isDigit = true
  integer : token.digits = ['0'] ∨ ∃ c rest, token.digits = c :: rest ∧ c ≠ '0'
  fraction : token.fraction = [] ∨
    ∃ places, token.fraction = '.' :: places ∧ places ≠ [] ∧ ∀ c ∈ places, c.isDigit = true
  exponent : token.exponent = [] ∨ ∃ e sign power, token.exponent = e :: (sign ++ power) ∧ (e = 'e' ∨ e = 'E') ∧
    sign ∈ [[], ['+'], ['-']] ∧ power ≠ [] ∧ ∀ c ∈ power, c.isDigit = true

def StopsDigits (rest : List Char) : Prop := ∀ c ∈ rest.head?, c.isDigit = false

variable {digits rest input chars : List Char} {token : NumberToken}

theorem takeWhile_isDigit_of_stops (hdg : ∀ c ∈ digits, c.isDigit = true) (hrs : StopsDigits rest) :
    (digits ++ rest).takeWhile Char.isDigit = digits ∧
      (digits ++ rest).dropWhile Char.isDigit = rest := by
  have hha : rest.takeWhile Char.isDigit = [] ∧ rest.dropWhile Char.isDigit = rest := by
    cases rest with
    | nil => exact ⟨rfl, rfl⟩
    | cons c rest =>
      have hc := hrs c rfl
      rw [takeWhile_cons_of_neg (by simp [hc]), dropWhile_cons_of_neg (by simp [hc])]
      exact ⟨rfl, rfl⟩
  rw [takeWhile_append_of_pos hdg, dropWhile_append_of_pos hdg, hha.1, hha.2, append_nil]
  exact ⟨rfl, rfl⟩

theorem lexInteger_append (hdg : ∀ c ∈ digits, c.isDigit = true)
    (hint : digits = ['0'] ∨ ∃ c more, digits = c :: more ∧ c ≠ '0') (hrs : StopsDigits rest) :
    lexInteger (digits ++ rest) = some (digits, rest) := by
  rcases hint with rfl | ⟨c, more, rfl, hc⟩
  · rfl
  · have hmr := takeWhile_isDigit_of_stops (fun d hd => hdg d (mem_cons_of_mem c hd)) hrs
    rw [cons_append, lexInteger, if_neg hc, if_pos (hdg c mem_cons_self), hmr.1, hmr.2]

theorem lexFraction_append {places : List Char} (hne : places ≠ [])
    (hpl : ∀ c ∈ places, c.isDigit = true)
    (hrs : StopsDigits rest) : lexFraction ('.' :: places ++ rest) = ('.' :: places, rest) := by
  obtain ⟨htk, hdr⟩ := takeWhile_isDigit_of_stops hpl hrs
  rw [cons_append, lexFraction, htk, if_neg hne, hdr]

theorem lexFraction_of_ne (h : ∀ c ∈ rest.head?, c ≠ '.') : lexFraction rest = ([], rest) := by
  unfold lexFraction
  split
  · exact absurd rfl (h '.' rfl)
  · rfl

theorem lexExponent_append {e : Char} {sign power : List Char} (he : e = 'e' ∨ e = 'E')
    (hsig : sign ∈ [[], ['+'], ['-']]) (hne : power ≠ []) (hpow : ∀ c ∈ power, c.isDigit = true)
    (hrs : StopsDigits rest) :
      lexExponent (e :: (sign ++ power) ++ rest) = (e :: (sign ++ power), rest) := by
  obtain ⟨htk, hdr⟩ := takeWhile_isDigit_of_stops hpow hrs
  obtain ⟨c, more, rfl⟩ := exists_cons_of_ne_nil hne
  have hc := hpow c mem_cons_self
  have hmr : (sign ++ (c :: more) ++ rest).takeWhile (fun c => c == '+' || c == '-') = sign := by
    have hst : ¬ (c == '+' || c == '-') = true := by
      rw [beq_false_of_ne (isDigit_ne hc rfl), beq_false_of_ne (isDigit_ne hc rfl)]
      exact Bool.false_ne_true
    simp only [mem_cons, not_mem_nil, or_false] at hsig
    rcases hsig with rfl | rfl | rfl
    · exact takeWhile_cons_of_neg hst
    · exact congrArg ('+' :: ·) (takeWhile_cons_of_neg hst)
    · exact congrArg ('-' :: ·) (takeWhile_cons_of_neg hst)
  have hlen : sign.length ≤ 1 := by
    simp only [mem_cons, not_mem_nil, or_false] at hsig
    rcases hsig with rfl | rfl | rfl <;> decide
  unfold lexExponent
  simp only [cons_append]
  rw [if_pos he]
  rw [cons_append] at htk hdr
  simp only [append_assoc, cons_append] at hmr ⊢
  rw [hmr, drop_left, htk, hdr, if_pos ⟨hlen, cons_ne_nil c more⟩]

theorem lexNumber_toChars (h : token.WellFormed) (hrs : Stops rest) :
    lexNumber (token.toChars ++ rest) = some (token, rest) := by
  obtain ⟨negative, digits, fraction, exponent⟩ := token
  obtain ⟨hdg, hinte, hfract, hexpo⟩ := h
  dsimp only at hdg hinte hfract hexpo
  have hex : lexExponent (exponent ++ rest) = (exponent, rest) ∧ ∀ c ∈ (exponent ++ rest).head?,
    c.isDigit = false ∧ c ≠ '.' := by
    rcases hexpo with rfl | ⟨e, sign, power, rfl, he, hsig, hne, hpow⟩
    · exact ⟨lexExponent_of_stops hrs, fun c hc => ⟨(hrs c hc).1, (hrs c hc).2.1⟩⟩
    · refine ⟨lexExponent_append he hsig hne hpow fun c hc => (hrs c hc).1, ?_⟩
      intro c hc
      cases hc
      rcases he with rfl | rfl <;> decide
  have hfra : lexFraction (fraction ++ (exponent ++ rest)) = (fraction, exponent ++ rest) ∧
      StopsDigits (fraction ++ (exponent ++ rest)) := by
    rcases hfract with rfl | ⟨places, rfl, hne, hpl⟩
    · exact ⟨lexFraction_of_ne fun c hc => (hex.2 c hc).2, fun c hc => (hex.2 c hc).1⟩
    · refine ⟨lexFraction_append hne hpl fun c hc => (hex.2 c hc).1, ?_⟩
      intro c hc
      cases hc
      rfl
  have hint := lexInteger_append hdg hinte hfra.2
  have hha : ((digits ++ (fraction ++ (exponent ++ rest))).head? == some '-') = false := by
    rw [beq_eq_false_iff_ne]
    intro heq
    rcases hinte with rfl | ⟨c, more, rfl, -⟩
    · cases heq
    · cases heq
      cases hdg '-' mem_cons_self
  unfold lexNumber NumberToken.toChars
  cases negative with
  | false =>
    simp only [Bool.false_eq_true, if_false, nil_append, append_assoc, hha, hint, hfra.1, hex.1]
  | true =>
    simp only [if_true, cons_append, nil_append, append_assoc, head?_cons, BEq.rfl, tail_cons,
      hint, hfra.1, hex.1]

theorem lexInteger_eq_some (h : lexInteger input = some (digits, rest)) :
    input = digits ++ rest ∧ (∀ c ∈ digits, c.isDigit = true) ∧
      (digits = ['0'] ∨ ∃ c more, digits = c :: more ∧ c ≠ '0') := by
  unfold lexInteger at h
  split at h
  · cases h
  · rename_i c tail
    split_ifs at h with hzr hdg
    · cases h
      exact ⟨by rw [hzr]; rfl, forall_mem_singleton.2 rfl, .inl rfl⟩
    · cases h
      refine ⟨by rw [cons_append, takeWhile_append_dropWhile], ?_, .inr ⟨c, _, rfl, hzr⟩⟩
      intro d hd
      rcases mem_cons.1 hd with rfl | hd
      · exact hdg
      · exact mem_takeWhile_imp hd

theorem lexFraction_spec (input : List Char) :
    input = (lexFraction input).1 ++ (lexFraction input).2 ∧ ((lexFraction input).1 = [] ∨
      ∃ places, (lexFraction input).1 = '.' :: places ∧ places ≠ [] ∧ ∀ c ∈ places,
        c.isDigit = true) := by
  unfold lexFraction
  split
  · rename_i rest
    split_ifs with hnn
    · exact ⟨rfl, .inl rfl⟩
    · refine ⟨by rw [cons_append, takeWhile_append_dropWhile], .inr ⟨_, rfl, hnn, ?_⟩⟩
      exact fun c hc => mem_takeWhile_imp hc
  · exact ⟨rfl, .inl rfl⟩

theorem mem_signs (h : (rest.takeWhile fun c => c == '+' || c == '-').length ≤ 1) :
    (rest.takeWhile fun c => c == '+' || c == '-') ∈ [[], ['+'], ['-']] := by
  cases hsig : rest.takeWhile fun c => c == '+' || c == '-' with
  | nil => exact mem_cons_self
  | cons c more =>
    have hc : c ∈ rest.takeWhile fun c => c == '+' || c == '-' := by
      rw [hsig]
      exact mem_cons_self
    have hmr : (c == '+' || c == '-') = true := mem_takeWhile_imp (p := fun c => c == '+' || c == '-') hc
    rw [hsig, length_cons] at h
    have hmo : more = [] := eq_nil_of_length_eq_zero (by omega)
    rw [Bool.or_eq_true, beq_iff_eq, beq_iff_eq] at hmr
    rcases hmr with rfl | rfl
    · rw [hmo]
      decide
    · rw [hmo]
      decide

theorem lexExponent_spec (input : List Char) :
    input = (lexExponent input).1 ++ (lexExponent input).2 ∧ ((lexExponent input).1 = [] ∨
      ∃ e sign power, (lexExponent input).1 = e :: (sign ++ power) ∧ (e = 'e' ∨ e = 'E') ∧
        sign ∈ [[], ['+'], ['-']] ∧ power ≠ [] ∧ ∀ c ∈ power, c.isDigit = true) := by
  cases input with
  | nil => exact ⟨rfl, .inl rfl⟩
  | cons e rest =>
    unfold lexExponent
    simp only
    split_ifs with he hpow
    · refine ⟨?_, .inr ⟨e, _, _, rfl, he, mem_signs hpow.1, hpow.2, fun c hc => mem_takeWhile_imp hc⟩⟩
      have hsig : rest.takeWhile (fun c => c == '+' || c == '-') <+: rest := takeWhile_prefix _
      dsimp only
      rw [cons_append, cons_append, append_assoc, takeWhile_append_dropWhile]
      exact congrArg (e :: ·) (prefix_append_drop hsig)
    · exact ⟨rfl, .inl rfl⟩
    · exact ⟨rfl, .inl rfl⟩

theorem wellFormed_of_lexNumber (h : lexNumber input = some (token, rest)) :
    token.WellFormed ∧ input = token.toChars ++ rest := by
  unfold lexNumber at h
  simp only at h
  split at h
  · cases h
  · rename_i digits more hint
    cases h
    obtain ⟨hin, hdg, hfor⟩ := lexInteger_eq_some hint
    obtain ⟨hfra, hfrac⟩ := lexFraction_spec more
    obtain ⟨hex, hexpo⟩ := lexExponent_spec (lexFraction more).2
    refine ⟨⟨hdg, hfor, hfrac, hexpo⟩, ?_⟩
    unfold NumberToken.toChars
    rw [append_assoc, ← hex, append_assoc, ← hfra, append_assoc, ← hin]
    dsimp only
    split_ifs with hsig
    · cases input with
      | nil => cases hsig
      | cons c tail =>
        cases Option.some.inj (beq_iff_eq.1 hsig)
        rfl
    · rfl

theorem lexNumber_toChars_nil (h : lexNumber input = some (token, rest)) :
    lexNumber token.toChars = some (token, []) := by
  have hst : Stops [] := nofun
  have hra := lexNumber_toChars (wellFormed_of_lexNumber h).1 hst
  rwa [append_nil] at hra

def IsFloatText (chars : List Char) : Prop :=
  chars = "NaN".toList ∨ chars = "Infinity".toList ∨ chars = "-Infinity".toList ∨
    ∃ token, lexNumber chars = some (token, []) ∧ token.isInteger = false ∧ floatRepr token = chars

theorem readsAs_iff {negative : Bool} {x : Binary64} : readsAs negative x chars = true ↔
    ∃ token, lexNumber chars = some (token, []) ∧ token.isInteger = false ∧ token.negative = negative ∧
      token.toBinary64 = some x := by
  unfold readsAs
  split
  · rename_i token hra
    rw [Bool.and_eq_true, Bool.and_eq_true, Bool.not_eq_true', beq_iff_eq, beq_iff_eq]
    constructor
    · rintro ⟨⟨hflo, hsig⟩, hv⟩
      exact ⟨token, hra, hflo, hsig, hv⟩
    · rintro ⟨other, hot, hflo, hsig, hv⟩
      cases hra.symm.trans hot
      exact ⟨⟨hflo, hsig⟩, hv⟩
  · rename_i hnn
    constructor
    · intro h
      cases h
    · rintro ⟨token, hra, -⟩
      exact absurd hra (hnn token)

theorem floatRepr_of_find {x : Binary64} (hv : token.toBinary64 = some x)
    (hfn : ((x.texts.map ((if token.negative then ['-'] else []) ++ ·)).find?
      (readsAs token.negative x)) = some chars) :
    floatRepr token = chars := by
  unfold floatRepr
  rw [hv]
  dsimp only
  rw [hfn]
  rfl

theorem isFloatText_floatRepr
    (hra : lexNumber input = some (token, rest)) (hflo : token.isInteger = false) :
      IsFloatText (floatRepr token) := by
  cases hv : token.toBinary64 with
  | none =>
    have hrp : floatRepr token = if token.negative then "-Infinity".toList else "Infinity".toList := by
      unfold floatRepr
      rw [hv]
    rw [hrp]
    split_ifs
    · exact .inr (.inr (.inl rfl))
    · exact .inr (.inl rfl)
  | some x =>
    cases hfn : (x.texts.map ((if token.negative then ['-'] else []) ++ ·)).find?
      (readsAs token.negative x) with
    | some chars =>
      -- the chosen text reads as the same float, so it is chosen for its own token too
      rw [floatRepr_of_find hv hfn]
      obtain ⟨other, hot, hothe, hsig, hotherValue⟩ := readsAs_iff.1 (find?_some hfn)
      refine .inr (.inr (.inr ⟨other, hot, hothe, ?_⟩))
      apply floatRepr_of_find hotherValue
      rw [hsig]
      exact hfn
    | none =>
      have hrp : floatRepr token = token.toChars := by
        unfold floatRepr
        rw [hv]
        dsimp only
        rw [hfn]
        rfl
      refine .inr (.inr (.inr ⟨token, ?_, hflo, rfl⟩))
      rw [hrp]
      exact lexNumber_toChars_nil hra

theorem toChars_cases (h : token.WellFormed) :
    ∃ c rest, c.isDigit = true ∧ (token.toChars = c :: rest ∨ token.toChars = '-' :: c :: rest) := by
  have hdg : ∃ c rest, token.digits = c :: rest := by
    rcases h.integer with heq | ⟨c, rest, heq, -⟩
    · exact ⟨_, _, heq⟩
    · exact ⟨_, _, heq⟩
  obtain ⟨c, rest, heq⟩ := hdg
  have hc : c.isDigit = true := h.digits c (by rw [heq]; exact mem_cons_self)
  unfold NumberToken.toChars
  rw [heq]
  split_ifs
  · exact ⟨c, _, hc, .inr rfl⟩
  · exact ⟨c, _, hc, .inl rfl⟩

theorem not_prefix_toChars (h : token.WellFormed) (rest : List Char) {e : Char}
    (he : e.isDigit = false) (hsig : e ≠ '-') (word : List Char) :
      ¬ (e :: word) <+: (token.toChars ++ rest) := by
  obtain ⟨c, more, hc, heq | heq⟩ := toChars_cases h
  · rw [heq, cons_append, cons_prefix_cons]
    exact fun hwr => isDigit_ne hc he hwr.1.symm
  · rw [heq, cons_append, cons_prefix_cons]
    exact fun hwr => hsig hwr.1

theorem not_infinity_prefix_toChars (h : token.WellFormed) (rest : List Char) :
    ¬ ('-' :: 'I' :: "nfinity".toList) <+: (token.toChars ++ rest) := by
  obtain ⟨c, more, hc, heq | heq⟩ := toChars_cases h
  · rw [heq, cons_append, cons_prefix_cons]
    exact fun hwr => isDigit_ne hc rfl hwr.1.symm
  · rw [heq, cons_append, cons_append, cons_prefix_cons, cons_prefix_cons]
    exact fun hwr => isDigit_ne hc rfl hwr.2.1.symm

theorem parseScalar_token {ε : Type} {d : Dialect ε} (hd : d.nonFinite = true) {v : JVal}
    (hnum : d.number token = .ok v) (h : token.WellFormed) (hrs : Stops rest) :
    parseScalar d (token.toChars ++ rest) = .ok (v, rest) := by
  have hnan : ¬ ['N', 'a', 'N'] <+: (token.toChars ++ rest) := not_prefix_toChars h rest rfl (by decide) _
  have hin : ¬ "Infinity".toList <+: (token.toChars ++ rest) := not_prefix_toChars h rest rfl (by decide) _
  have hmin : ¬ "-Infinity".toList <+: (token.toChars ++ rest) := not_infinity_prefix_toChars h rest
  have hnn : lexNonFinite (token.toChars ++ rest) = none := by
    unfold lexNonFinite
    rw [if_neg hnan, if_neg hin, if_neg hmin]
  unfold parseScalar
  rw [hd, if_pos rfl]
  simp only [hnn]
  rw [if_neg (not_prefix_toChars h rest rfl (by decide) _),
    if_neg (not_prefix_toChars h rest rfl (by decide) _),
    if_neg (not_prefix_toChars h rest rfl (by decide) _), lexNumber_toChars h hrs]
  simp only [hnum]
  rfl

theorem isFloatText_head (h : IsFloatText chars) : ∃ c rest, chars = c :: rest ∧ IsScalarHead c := by
  have hlt : IsScalarHead 'N' ∧ IsScalarHead 'I' := by
    constructor
    · exact ⟨by decide, by decide, by decide, by decide, by decide⟩
    · exact ⟨by decide, by decide, by decide, by decide, by decide⟩
  have hmin : IsScalarHead '-' := ⟨by decide, by decide, by decide, by decide, by decide⟩
  rcases h with rfl | rfl | rfl | ⟨token, hra, -⟩
  · exact ⟨'N', _, rfl, hlt.1⟩
  · exact ⟨'I', _, rfl, hlt.2⟩
  · exact ⟨'-', _, rfl, hmin⟩
  · obtain ⟨hfor, hin⟩ := wellFormed_of_lexNumber hra
    rw [append_nil] at hin
    obtain ⟨c, rest, hc, heq | heq⟩ := toChars_cases hfor
    · exact ⟨c, rest, hin.trans heq, isScalarHead_digit hc⟩
    · exact ⟨'-', _, hin.trans heq, hmin⟩

end WebOvpn
