/-
The timestamps of the manifest on the side of Go: `time.Parse` of RFC 3339 and
the text that the helper compares with the one it read.
-/
import WebOvpn.Lib.CalendarRoundTrip

namespace WebOvpn

open List

/-- A `time.Time`, as nanoseconds since 0001-01-01T00:00; the years from 10000 on
and before 1 are left out. -/
abbrev GoTime := Fin (315537897600000000 * 1000)

def parseUint (count least most : Nat) (s : Text) : Option (Nat × Text) :=
  (takeDigits count s).filter fun parsed => least ≤ parsed.1 ∧ parsed.1 ≤ most

def skipMark (mark : Char) : Text → Option Text
  | c :: rest => if c = CodePoint.ofChar mark then some rest else none
  | [] => none

def parseNanoseconds (digits : Text) : Nat :=
  digitsValue (digits.take 9) * 10 ^ (9 - (digits.take 9).length)

/-- The nanoseconds of a fraction, if one comes next, and what follows it. -/
def parseNanos : Text → Nat × Text
  | c :: rest =>
    if c = '.' ∧ rest.head?.any CodePoint.isDigit then
      (parseNanoseconds (rest.takeWhile CodePoint.isDigit), rest.dropWhile CodePoint.isDigit)
    else (0, c :: rest)
  | [] => (0, [])

/-- The seconds of `Z` or of `+hh:mm`. -/
def parseGoZone : Text → Option Int
  | [] => none
  | sign :: rest =>
    if sign = 'Z' ∧ rest = [] then some 0
    else do
      let (hour, rest) ← parseUint 2 0 23 rest
      let (minute, rest) ← parseUint 2 0 59 (← skipMark ':' rest)
      if rest ≠ [] then none
      else if sign = '+' then some ((hour * 60 + minute) * 60)
      else if sign = '-' then some (-((hour * 60 + minute) * 60))
      else none

def goTime? (nanos : Int) : Option GoTime :=
  if h : 0 ≤ nanos ∧ nanos < 315537897600000000 * 1000 then some ⟨nanos.toNat, by omega⟩ else none

/-- `time.Parse(time.RFC3339, s)`. -/
def parseRFC3339 (s : Text) : Option GoTime := do
  let (year, s) ← parseUint 4 1 9999 s
  let (month, s) ← parseUint 2 1 12 (← skipMark '-' s)
  let (day, s) ← parseUint 2 1 (daysInMonth (isLeap year) month) (← skipMark '-' s)
  let (hour, s) ← parseUint 2 0 23 (← skipMark 'T' s)
  let (minute, s) ← parseUint 2 0 59 (← skipMark ':' s)
  let (second, s) ← parseUint 2 0 59 (← skipMark ':' s)
  let offset ← parseGoZone (parseNanos s).2
  let seconds := (((ymdToOrd year month day - 1) * 24 + hour) * 60 + minute) * 60 + second
  goTime? ((seconds - offset) * 1000000000 + (parseNanos s).1)

def digits9 (n : Nat) : Text := digits6 (n / 1000) ++ [digitOf (n / 100), digitOf (n / 10), digitOf n]

/-- `value.UTC().Format(time.RFC3339Nano)`. -/
def GoTime.formatRFC3339Nano (value : GoTime) : Text :=
  let t : Instant := ⟨value.val / 1000, by omega⟩
  let fraction := stripZeros (digits9 (value.val % 1000000000))
  t.seconds ++ (if fraction = [] then [] else text "." ++ fraction) ++ "Z"

def trimSuffix (s suffix : Text) : Text :=
  if suffix.isSuffixOf s then s.take (s.length - suffix.length) else s

def canonicalExecutionTimestamp (value : GoTime) : Text :=
  trimSuffix value.formatRFC3339Nano (text "Z") ++ "+00:00"

variable {n least most : Nat}

theorem parseUint_digits2 (hn : n < 100) (hla : least ≤ n) (hmos : n ≤ most) (rest : Text) :
    parseUint 2 least most (digits2 n ++ rest) = some (n, rest) := by
  simp [parseUint, takeDigits_digits2 hn, hla, hmos]

theorem parseUint_digits4 (hn : n < 10000) (hla : least ≤ n) (hmos : n ≤ most) (rest : Text) :
    parseUint 4 least most (digits4 n ++ rest) = some (n, rest) := by
  simp [parseUint, takeDigits_digits4 hn, hla, hmos]

theorem parseNanos_trimmed (hn : n < 1000000) :
    parseNanos ((if stripZeros (digits6 n) = [] then [] else text "." ++ stripZeros (digits6 n)) ++
      text "+00:00") = (n * 1000, text "+00:00") := by
  by_cases hdg : stripZeros (digits6 n) = []
  · rw [if_pos hdg, eq_zero_of_stripZeros hn hdg]
    rfl
  · have hps := parseFraction_stripZeros hn hdg
    have hall := parseFraction_all_digits hps
    have hlen : (stripZeros (digits6 n)).length ≤ 6 := by
      simpa [stripZeros, digits6, digits4, digits2] using
        length_dropWhile_le (· == CodePoint.ofChar '0') (digits6 n).reverse
    simp only [parseFraction, hdg, ne_eq, not_false_eq_true, true_and, all_eq_true.2 hall, if_true,
      take_of_length_le hlen, Option.some.injEq] at hps
    generalize stripZeros (digits6 n) = digits at *
    have hha : (digits ++ "+00:00").head?.any CodePoint.isDigit = true := by
      cases digits with
      | nil => exact absurd rfl hdg
      | cons c rest => simpa using hall c mem_cons_self
    have hst : (text "+00:00").takeWhile CodePoint.isDigit = [] := by decide
    have hrs : (text "+00:00").dropWhile CodePoint.isDigit = "+00:00" := by decide
    have hnan : parseNanoseconds digits = n * 1000 := by
      rw [parseNanoseconds, take_of_length_le (by omega), ← hps, Nat.mul_assoc,
        show 9 - digits.length = 6 - digits.length + 3 by omega, Nat.pow_add]
    rw [if_neg hdg]
    change parseNanos (CodePoint.ofChar '.' :: (digits ++ "+00:00")) = _
    simp only [parseNanos, hha, and_self, if_true, takeWhile_append_of_pos hall,
      dropWhile_append_of_pos hall, hst,
      hrs, append_nil, hnan]

theorem goTime?_cast (hn : n < 315537897600000000 * 1000) : goTime? n = some ⟨n, hn⟩ := by
  rw [goTime?, dif_pos ⟨Int.natCast_nonneg n, by omega⟩]
  exact congrArg some (Fin.ext (Int.toNat_natCast n))

variable (t : Instant)

theorem parseRFC3339_trimmed : parseRFC3339 t.trimmed = some ⟨t.val * 1000, by omega⟩ := by
  obtain ⟨year, month, day, second, ⟨h1, hm1, hm2, hd1, hd2⟩, hyea, hlt, hvl, hsc⟩ := t.exists_seconds
  have hday := daysInMonth_le hd2
  have hdas (rest : Text) : skipMark '-' (text "-" ++ rest) = some rest := rfl
  have hmr (rest : Text) : skipMark 'T' (text "T" ++ rest) = some rest := rfl
  have hcl (rest : Text) : skipMark ':' (text ":" ++ rest) = some rest := rfl
  have hzon : parseGoZone (text "+00:00") = some 0 := by decide
  simp only [Instant.trimmed, hsc, append_assoc]
  simp only [parseRFC3339, parseUint_digits4 hyea h1 (Nat.le_of_lt_succ hyea), Option.bind_eq_bind,
    Option.bind_some,
    hdas, hmr, hcl, parseUint_digits2 (show month < 100 by omega) hm1 hm2,
    parseUint_digits2 (show day < 100 by omega) hd1 hd2,
    parseUint_digits2 (show second / 3600 < 100 by omega) (Nat.zero_le _) (show second / 3600 ≤ 23 by omega),
    parseUint_digits2 (show second / 60 % 60 < 100 by omega) (Nat.zero_le _)
      (show second / 60 % 60 ≤ 59 by omega),
    parseUint_digits2 (show second % 60 < 100 by omega) (Nat.zero_le _) (show second % 60 ≤ 59 by omega),
    parseNanos_trimmed (Nat.mod_lt t.val (show 0 < 1000000 by decide))]
  have hnan : ((((((ymdToOrd year month day - 1) * 24 + second / 3600) * 60 + second / 60 % 60) * 60 +
      second % 60 : Nat) : Int) - 0) * 1000000000 + (t.val % 1000000 * 1000 : Nat) = (t.val * 1000 : Nat) := by
    simp only [microsPerDay] at hvl
    omega
  rw [hzon, Option.bind_some, hnan]
  exact goTime?_cast (by omega)

theorem stripZeros_digits9 (n : Nat) : stripZeros (digits9 (n * 1000)) = stripZeros (digits6 n) := by
  have hzr (m : Nat) (hm : m % 10 = 0) : digitOf m = '0' := by simp [digitOf, hm]; rfl
  simp [digits9, stripZeros, hzr (n * 1000 / 100) (by omega), hzr (n * 1000 / 10) (by omega),
    hzr (n * 1000) (by omega)]

theorem trimSuffix_append (s suffix : Text) : trimSuffix (s ++ suffix) suffix = s := by
  simp [trimSuffix]

theorem canonicalExecutionTimestamp_trimmed :
    canonicalExecutionTimestamp ⟨t.val * 1000, by omega⟩ = t.trimmed := by
  have hfra : t.val * 1000 % 1000000000 = t.val % 1000000 * 1000 := by omega
  simp only [canonicalExecutionTimestamp, GoTime.formatRFC3339Nano, trimSuffix_append, hfra, stripZeros_digits9,
    Nat.mul_div_cancel t.val (show 0 < 1000 by decide), Instant.trimmed]

/-- The Go reader accepts what Python writes, writes it back, and orders it the same way. -/
theorem timestamps_agree (t u : Instant) : ∃ g h : GoTime,
    parseRFC3339 t.trimmed = some g ∧ parseRFC3339 u.trimmed = some h ∧
      canonicalExecutionTimestamp g = t.trimmed ∧ canonicalExecutionTimestamp h = u.trimmed ∧
        (g < h ↔ t < u) := by
  refine ⟨_, _, parseRFC3339_trimmed t, parseRFC3339_trimmed u, canonicalExecutionTimestamp_trimmed t,
    canonicalExecutionTimestamp_trimmed u, ?_⟩
  simp only [Fin.lt_def]
  omega

end WebOvpn
