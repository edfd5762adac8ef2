/-
What `isoformat` writes, `fromisoformat` reads back.  The argument goes from
the day cycles of the calendar up to the digits of a timestamp.
-/
import WebOvpn.Lib.Calendar

namespace WebOvpn

open List

def IsDate (year month day : Nat) : Prop :=
  1 ≤ year ∧ 1 ≤ month ∧ month ≤ 12 ∧ 1 ≤ day ∧ day ≤ daysInMonth (isLeap year) month

theorem daysInMonth_le {leap : Bool} {month day : Nat} (h : day ≤ daysInMonth leap month) :
    day ≤ 31 := by
  refine h.trans ?_
  unfold daysInMonth
  split <;> (try split) <;> omega

theorem monthAndDay_spec : ∀ (leap : Bool), ∀ n < (if leap then 366 else 365),
    1 ≤ (monthAndDay leap n).1 ∧ (monthAndDay leap n).1 ≤ 12 ∧ 1 ≤ (monthAndDay leap n).2 ∧
      (monthAndDay leap n).2 ≤ daysInMonth leap (monthAndDay leap n).1 ∧
      daysBeforeMonth leap (monthAndDay leap n).1 + (monthAndDay leap n).2 = n + 1 := by
  decide +kernel

theorem isLeap_of_cycles (n400 n1 : Nat) {n100 n4 : Nat} (h100 : n100 < 4) (h4 : n4 < 25)
    (h1 : n1 < 4) :
    isLeap (n400 * 400 + n100 * 100 + n4 * 4 + n1 + 1) = (n1 == 3 && (n4 != 24 || n100 == 3)) := by
  rw [Bool.eq_iff_iff]
  simp only [isLeap, Bool.and_eq_true, Bool.or_eq_true, beq_iff_eq, bne_iff_ne]
  omega

theorem daysBeforeYear_of_cycles (n400 n1 : Nat) {n100 n4 : Nat} (h100 : n100 < 4)
    (h4 : n4 < 25) (h1 : n1 < 4) : daysBeforeYear (n400 * 400 + n100 * 100 + n4 * 4 + n1 + 1) =
      n400 * 146097 + n100 * 36524 + n4 * 1461 + n1 * 365 := by
  simp only [daysBeforeYear, Nat.add_sub_cancel]
  omega

variable {year ordinal n micros : Nat} {c : CodePoint} {fraction : Text}

theorem ymdToOrd_december (hla : isLeap year = true) (hdas : daysBeforeYear year + 366 = ordinal) :
    ymdToOrd year 12 31 = ordinal := by
  have hmon : daysBeforeMonth true 12 = 335 := by decide
  rw [ymdToOrd, hla, hmon]
  omega

theorem ordToYmd_spec (hpos : 1 ≤ ordinal) :
    IsDate (ordToYmd ordinal).1 (ordToYmd ordinal).2.1 (ordToYmd ordinal).2.2 ∧
      ymdToOrd (ordToYmd ordinal).1 (ordToYmd ordinal).2.1 (ordToYmd ordinal).2.2 = ordinal := by
  obtain ⟨n, rfl⟩ := Nat.exists_eq_add_of_le' hpos
  simp only [ordToYmd, Nat.add_sub_cancel]
  generalize h400 : n / 146097 = n400
  generalize hr400 : n % 146097 = r400
  generalize h100 : r400 / 36524 = n100
  generalize hr100 : r400 % 36524 = r100
  generalize h4 : r100 / 1461 = n4
  generalize hr4 : r100 % 1461 = r4
  generalize h1 : r4 / 365 = n1
  generalize hr1 : r4 % 365 = r1
  have hn : n = n400 * 146097 + n100 * 36524 + n4 * 1461 + n1 * 365 + r1 := by
    omega
  by_cases hls : n1 = 4 ∨ n100 = 4
  · -- The year before the overshot one closes its cycle, so it is leap.
    obtain ⟨c100, c4, hc100, hc4, hcl, hyea, hdas⟩ :
        ∃ c100 c4, c100 < 4 ∧ c4 < 25 ∧ (c4 ≠ 24 ∨ c100 = 3) ∧ n400 * 400 + n100 * 100 + n4 * 4 + n1 =
            n400 * 400 + c100 * 100 + c4 * 4 + 3 + 1 ∧
          n400 * 146097 + c100 * 36524 + c4 * 1461 + 3 * 365 + 366 = n + 1 := by
      rcases hls with hls | hls
      · exact ⟨n100, n4, by omega, by omega, by omega, by omega, by omega⟩
      · exact ⟨3, 24, by omega, by omega, by omega, by omega, by omega⟩
    have hla := isLeap_of_cycles n400 3 hc100 hc4 (by omega)
    have hbf :=
      daysBeforeYear_of_cycles n400 3 hc100 hc4 (by omega)
    simp only [if_pos hls, hyea]
    refine ⟨⟨Nat.le_add_left 1 _, by decide, by decide, by decide, ?_⟩, ?_⟩
    · exact Nat.le_refl 31
    · refine ymdToOrd_december ?_ (by omega)
      simpa [hla] using hcl
  · have h100lt : n100 < 4 := by omega
    have h4lt : n4 < 25 := by omega
    have h1lt : n1 < 4 := by omega
    have hla := isLeap_of_cycles n400 n1 h100lt h4lt h1lt
    have hdas := daysBeforeYear_of_cycles n400 n1 h100lt h4lt h1lt
    obtain ⟨hm1, hm2, hd1, hd2, hsum⟩ :=
      monthAndDay_spec (n1 == 3 && (n4 != 24 || n100 == 3)) r1
        (by split <;> omega)
    simp only [if_neg hls, IsDate, ymdToOrd, hla, hdas]
    refine ⟨⟨Nat.le_add_left 1 _, hm1, hm2, hd1, hd2⟩, ?_⟩
    omega

theorem ordToYmd_year_lt (hpos : 1 ≤ ordinal) (hmax : ordinal ≤ 3652059) :
    (ordToYmd ordinal).1 < 10000 := by
  obtain ⟨⟨_, _, _, _, _⟩, hord⟩ := ordToYmd_spec hpos
  by_contra hbig
  simp only [ymdToOrd, daysBeforeYear] at hord
  omega

theorem digitOf_isDigit (n : Nat) : (digitOf n).isDigit = true := by
  have hlt := Nat.mod_lt n (show 0 < 10 by decide)
  rw [CodePoint.isDigit, Bool.and_eq_true, decide_eq_true_eq, decide_eq_true_eq]
  dsimp only [digitOf]
  omega

@[simp] theorem digitOf_val (n : Nat) : (digitOf n).val - 48 = n % 10 := by
  simp only [digitOf]
  omega

theorem digitOf_ne (hc : c.isDigit = false) : digitOf n ≠ c := by
  rintro rfl
  rw [digitOf_isDigit] at hc
  contradiction

theorem takeDigits_digits2 (hn : n < 100) (rest : Text) :
    takeDigits 2 (digits2 n ++ rest) = some (n, rest) := by
  simp [takeDigits, digits2, digitOf_isDigit, digitsValue]
  omega

theorem takeDigits_digits4 (hn : n < 10000) (rest : Text) :
    takeDigits 4 (digits4 n ++ rest) = some (n, rest) := by
  simp [takeDigits, digits4, digits2, digitOf_isDigit, digitsValue]
  omega

theorem parseFraction_digits6 (hn : n < 1000000) : parseFraction (digits6 n) = some n := by
  simp [parseFraction, digits6, digits4, digits2, digitOf_isDigit, digitsValue]
  omega

theorem stripZeros_append (s : Text) : ∃ count,
    s = stripZeros s ++ List.replicate count (CodePoint.ofChar '0') := by
  refine ⟨(s.reverse.takeWhile (· == CodePoint.ofChar '0')).length, ?_⟩
  have hzer : s.reverse.takeWhile (· == CodePoint.ofChar '0') =
      List.replicate (s.reverse.takeWhile (· == CodePoint.ofChar '0')).length
        (CodePoint.ofChar '0') :=
    eq_replicate_iff.2 ⟨rfl, fun c hc =>
      by simpa using all_eq_true.1 all_takeWhile c hc⟩
  have hspl := congrArg List.reverse
    (takeWhile_append_dropWhile (p := (· == CodePoint.ofChar '0')) (l := s.reverse))
  rw [hzer, reverse_append, reverse_replicate, reverse_reverse] at hspl
  exact hspl.symm

theorem digitsValue_append_zeros (s : Text) (count : Nat) :
    digitsValue (s ++ List.replicate count (CodePoint.ofChar '0')) = digitsValue s * 10 ^ count := by
  induction count with
  | zero => simp
  | succ count ih =>
    rw [replicate_succ', ← append_assoc, digitsValue, List.foldl_append, ← digitsValue, ih]
    simp [show (CodePoint.ofChar '0').val - 48 = 0 from rfl, Nat.pow_succ, Nat.mul_assoc]

theorem parseFraction_stripZeros (hn : n < 1000000) (hdig : stripZeros (digits6 n) ≠ []) :
    parseFraction (stripZeros (digits6 n)) = some n := by
  obtain ⟨count, hspl⟩ := stripZeros_append (digits6 n)
  have hv := parseFraction_digits6 hn
  have hlen := congrArg List.length hspl
  rw [length_append, length_replicate] at hlen
  change 6 = _ at hlen
  have hall : ∀ c ∈ digits6 n, c.isDigit = true := by
    simp [digits6, digits4, digits2, digitOf_isDigit]
  have hstr : (stripZeros (digits6 n)).all CodePoint.isDigit = true :=
    all_eq_true.2 fun c hc => hall c (hspl ▸ mem_append_left _ hc)
  have htak : (stripZeros (digits6 n)).take 6 = stripZeros (digits6 n) :=
    take_of_length_le (by omega)
  have hful : digitsValue (digits6 n) = n := by
    simpa [parseFraction, digits6, digits4, digits2, digitOf_isDigit] using hv
  rw [parseFraction, if_pos ⟨hdig, hstr⟩, htak,
    show 6 - (stripZeros (digits6 n)).length = count by omega,
    ← digitsValue_append_zeros, ← hspl, hful]

theorem eq_zero_of_stripZeros (hn : n < 1000000) (hdg : stripZeros (digits6 n) = []) : n = 0 := by
  obtain ⟨count, hsp⟩ := stripZeros_append (digits6 n)
  rw [hdg, nil_append] at hsp
  have hful : digitsValue (digits6 n) = n := by
    simpa [parseFraction, digits6, digits4, digits2, digitOf_isDigit] using
      parseFraction_digits6 hn
  have hzr := digitsValue_append_zeros [] count
  rw [nil_append, ← hsp, hful] at hzr
  simpa [digitsValue] using hzr

variable (t : Instant)

theorem Instant.seconds_not_mem (hdg : c.isDigit = false)
    (hmr : c ∉ text "-T:") : c ∉ t.seconds := by
  have hdi (n : Nat) : c ≠ digitOf n := (digitOf_ne hdg).symm
  have hsp : text "-T:" = text "-" ++ text "T" ++ text ":" := rfl
  simp only [hsp, mem_append, not_or] at hmr
  simp only [Instant.seconds, mem_append, digits4, digits2, mem_cons, hdi,
    not_mem_nil, hmr, or_self, not_false_eq_true]

theorem Instant.isoformat_not_mem (hdg : c.isDigit = false)
    (hmr : c ∉ text "-T:") (hpi : c ∉ text ".") (hzon : c ∉ text "+00:00") : c ∉ t.isoformat := by
  have hdi (n : Nat) : c ≠ digitOf n := (digitOf_ne hdg).symm
  rw [Instant.isoformat]
  split <;>
    simp [digits6, digits4, digits2, hdi, t.seconds_not_mem hdg hmr, hpi, hzon]

def IsFraction (fraction : Text) (micros : Nat) : Prop :=
  (fraction = [] ∧ micros = 0) ∨ ∃ digits, fraction = CodePoint.ofChar '.' :: digits ∧
      parseFraction digits = some micros

theorem parseIsoDate_digits {month day : Nat} (hdat : IsDate year month day) (hyea : year < 10000) :
    parseIsoDate (digits4 year ++ text "-" ++ digits2 month ++ text "-" ++
      digits2 day) = some (ymdToOrd year month day) := by
  obtain ⟨h1, hm1, hm2, hd1, hd2⟩ := hdat
  have hday := daysInMonth_le hd2
  have hw : startsWith 'W' (digits2 month ++ (text "-" ++ digits2 day)) = false := by
    simp [startsWith, digits2, digitOf_ne (c := 'W') (by decide)]
  have hdas (rest : Text) : startsWith '-' (text "-" ++ rest) = true := by
    simp [startsWith, text]
  have hti (rest : Text) : (text "-" ++ rest).tail = rest := by
    simp [text]
  have hls := takeDigits_digits2 (n := day) (by omega) []
  rw [append_nil] at hls
  simp only [append_assoc, parseIsoDate, takeDigits_digits4 hyea,
    Option.bind_eq_bind, Option.bind_some, hdas, hti, ↓reduceIte, hw,
    Bool.false_eq_true, takeDigits_digits2 (show month < 100 by omega), bne_self_eq_false, hls]
  rw [if_pos ⟨trivial, h1, hm1, hm2, hd1, hd2⟩]

theorem parseClock_digits {hour minute second : Nat} (hh : hour < 100) (hm : minute < 100)
    (hs : second < 100)
    (hfra : IsFraction fraction micros) :
    parseClock (digits2 hour ++ text ":" ++ digits2 minute ++ text ":" ++
      digits2 second ++ fraction) = some (hour, minute, second, micros) := by
  have hcl (rest : Text) : startsWith ':' (text ":" ++ rest) = true := by
    simp [startsWith, text]
  have hti (rest : Text) : (text ":" ++ rest).tail = rest := by
    simp [text]
  have hne (rest : Text) : text ":" ++ rest ≠ [] := by
    simp [text]
  simp only [append_assoc, parseClock, takeDigits_digits2 hh,
    takeDigits_digits2 hm, takeDigits_digits2 hs, Option.bind_eq_bind,
    Option.bind_some, hcl, hti, ↓reduceIte, hne, Bool.not_true, Bool.and_false,
    Bool.false_eq_true, pure]
  rcases hfra with ⟨rfl, rfl⟩ | ⟨digits, rfl, hdg⟩
  · rfl
  · simp [startsWith, hdg]

theorem isZoneMark_of_isDigit (hc : c.isDigit = true) : isZoneMark c = false := by
  simp only [CodePoint.isDigit, Bool.and_eq_true, decide_eq_true_eq] at hc
  simp only [isZoneMark, Bool.or_eq_false_iff, beq_eq_false_iff_ne]
  refine ⟨⟨?_, ?_⟩, ?_⟩ <;> rintro rfl <;> revert hc <;> decide

theorem digits2_no_zoneMark : ∀ c ∈ digits2 n, (!isZoneMark c) = true := by
  simp [digits2, isZoneMark_of_isDigit, digitOf_isDigit]

theorem parseFraction_all_digits {digits : Text} (hdg : parseFraction digits = some micros) :
    ∀ c ∈ digits, c.isDigit = true := by
  unfold parseFraction at hdg
  split at hdg
  next h => exact all_eq_true.1 h.2
  next => simp at hdg

theorem IsFraction.no_zoneMark (hfra : IsFraction fraction micros) :
    ∀ c ∈ fraction, (!isZoneMark c) = true := by
  rcases hfra with ⟨rfl, -⟩ | ⟨digits, rfl, hdg⟩
  · simp
  · intro c hc
    rcases mem_cons.1 hc with rfl | hc
    · decide
    · rw [isZoneMark_of_isDigit (parseFraction_all_digits hdg c hc)]
      rfl

theorem parseIsoTime_digits {hour minute second : Nat} (hh : hour < 24) (hm : minute < 60)
    (hs : second < 60)
    (hfra : IsFraction fraction micros) :
    parseIsoTime (digits2 hour ++ text ":" ++ digits2 minute ++ text ":" ++
      digits2 second ++ fraction ++ "+00:00") =
      some (((hour * 60 + minute) * 60 + second) * 1000000 + micros, some 0) := by
  have hpl : ∀ c ∈ digits2 hour ++ text ":" ++ digits2 minute ++ text ":" ++
      digits2 second ++ fraction, (!isZoneMark c) = true := by
    have hcl : ∀ c ∈ text ":", (!isZoneMark c) = true :=
      all_eq_true.1 (by decide)
    intro c hc
    simp only [mem_append] at hc
    rcases hc with ((((hc | hc) | hc) | hc) | hc) | hc
    · exact digits2_no_zoneMark c hc
    · exact hcl c hc
    · exact digits2_no_zoneMark c hc
    · exact hcl c hc
    · exact digits2_no_zoneMark c hc
    · exact hfra.no_zoneMark c hc
  have hzon : parseZone "+00:00" = some (some 0) := by decide
  rw [parseIsoTime, takeWhile_append_of_pos hpl, dropWhile_append_of_pos hpl]
  have hmr : (text "+00:00").takeWhile (fun c => !isZoneMark c) = [] := by
    decide
  have hrs : (text "+00:00").dropWhile (fun c => !isZoneMark c) = "+00:00" := by
    decide
  simp only [hmr, hrs, append_nil, hzon, parseClock_digits
    (show hour < 100 by omega) (show minute < 100 by omega)
    (show second < 100 by omega) hfra, Option.bind_eq_bind,
    Option.bind_some, pure]
  rw [if_pos ⟨hh, hm, hs⟩]

/-- A date written with dashes ends at its tenth character. -/
theorem fromisoformat_at_ten {month day : Nat} {zone : Option Int}
    {clock : Text} (hdat : IsDate year month day) (hyea : year < 10000)
    (hcl : clock ≠ []) (htm : parseIsoTime clock = some (micros, zone)) :
    fromisoformat (digits4 year ++ text "-" ++ digits2 month ++ text "-" ++
      digits2 day ++ text "T" ++
        clock) = (instantOf (ymdToOrd year month day) micros).map (⟨·, zone⟩) := by
  generalize hs : digits4 year ++ text "-" ++ digits2 month ++ text "-" ++
    digits2 day ++ text "T" ++ clock = s
  have hlen : s.length = 11 + clock.length := by
    rw [← hs]
    simp [digits4, digits2, text]
    omega
  have hsep : datetimeSeparator s = 10 := by
    have hdas : startsWith '-' (s.drop 4) = true := by
      rw [← hs]
      rfl
    have hwee : startsWith 'W' (s.drop 5) = false := by
      rw [← hs]
      simp [startsWith, digits4, digits2, text, digitOf_ne (c := 'W') (by decide)]
    rw [datetimeSeparator, if_neg (by omega), if_pos hdas, hwee]
    rfl
  have htk : s.take 10 = digits4 year ++ text "-" ++ digits2 month ++
      text "-" ++ digits2 day := by
    rw [← hs]
    rfl
  have hdr : s.drop 11 = clock := by
    rw [← hs]
    rfl
  rw [fromisoformat, if_neg (show ¬ s.length < 7 by omega), hsep, htk,
    hdr, parseIsoDate_digits hdat hyea, if_neg hcl, htm]

theorem instantOf_eq_some {t : Instant} (hvl : (ordinal - 1) * microsPerDay + micros = t.val) :
    instantOf ordinal micros = some t := by
  have ht := t.isLt
  rw [← hvl] at ht
  rw [instantOf, dif_pos ht]
  exact congrArg some (Fin.ext hvl)

theorem Instant.exists_seconds : ∃ year month day second, IsDate year month day ∧ year < 10000 ∧
    second < 86400 ∧
    (ymdToOrd year month day - 1) * microsPerDay + (second * 1000000 + t.val % 1000000) = t.val ∧
    t.seconds = digits4 year ++ text "-" ++ digits2 month ++ text "-" ++ digits2 day ++ text "T" ++
      (digits2 (second / 3600) ++ text ":" ++ digits2 (second / 60 % 60) ++ text ":" ++
        digits2 (second % 60)) := by
  have ht := t.isLt
  have hpos : 1 ≤ t.val / microsPerDay + 1 := Nat.le_add_left 1 _
  obtain ⟨hdat, hord⟩ := ordToYmd_spec hpos
  refine ⟨_, _, _, t.val % microsPerDay / 1000000, hdat, ordToYmd_year_lt hpos ?_, ?_, ?_, ?_⟩
  · simp only [microsPerDay]
    omega
  · simp only [microsPerDay]
    omega
  · rw [hord]
    simp only [microsPerDay]
    omega
  · simp only [Instant.seconds, append_assoc]

theorem fromisoformat_seconds (hfra : IsFraction fraction (t.val % 1000000)) :
    fromisoformat (t.seconds ++ fraction ++ "+00:00") = some ⟨t, some 0⟩ := by
  obtain ⟨year, month, day, second, hdat, hyea, hlt, hvl, hsc⟩ := t.exists_seconds
  rw [hsc, append_assoc _ fraction, append_assoc _ _ (fraction ++ _)]
  generalize hcl : digits2 (second / 3600) ++ text ":" ++
    digits2 (second / 60 % 60) ++ text ":" ++ digits2 (second % 60) = clock
  have htm := parseIsoTime_digits (show second / 3600 < 24 by omega)
    (show second / 60 % 60 < 60 by omega) (show second % 60 < 60 by omega) hfra
  have hmic : (ymdToOrd year month day - 1) * microsPerDay + (((second / 3600 * 60 + second / 60 % 60) * 60 +
      second % 60) * 1000000 + t.val % 1000000) = t.val := by
    have hcl : (second / 3600 * 60 + second / 60 % 60) * 60 + second % 60 = second := by omega
    rw [hcl, hvl]
  rw [hcl, append_assoc] at htm
  rw [fromisoformat_at_ten hdat hyea (by rw [← hcl]; simp [digits2]) htm, instantOf_eq_some hmic]
  rfl

theorem fromisoformat_isoformat : fromisoformat t.isoformat = some ⟨t, some 0⟩ := by
  refine fromisoformat_seconds t ?_
  split
  next hzr => exact .inl ⟨rfl, hzr⟩
  next =>
    exact .inr ⟨_, rfl, parseFraction_digits6 (Nat.mod_lt _ (by decide))⟩

theorem fromisoformat_trimmed : fromisoformat t.trimmed = some ⟨t, some 0⟩ := by
  refine fromisoformat_seconds t ?_
  have hlt : t.val % 1000000 < 1000000 := Nat.mod_lt _ (by decide)
  split
  next hzr => exact .inl ⟨rfl, eq_zero_of_stripZeros hlt hzr⟩
  next hdg => exact .inr ⟨_, rfl, parseFraction_stripZeros hlt hdg⟩

theorem digitOf_not_isSpace (n : Nat) : (digitOf n).isSpace = false := by
  have hall : ∀ m : Fin 10, CodePoint.isSpace ⟨48 + m.val, by omega⟩ = false := by decide
  exact hall ⟨n % 10, Nat.mod_lt n (by decide)⟩

theorem strip_isoformat : Text.strip t.isoformat = t.isoformat := by
  have hen : ∃ n middle, t.isoformat = digitOf n :: (middle ++ [CodePoint.ofChar '0']) := by
    have hzon : "+00:00" = text "+00:0" ++ [CodePoint.ofChar '0'] := rfl
    have hsc : ∃ n rest, t.seconds = digitOf n :: rest := ⟨_, _, rfl⟩
    obtain ⟨n, rest, hsc⟩ := hsc
    unfold Instant.isoformat
    rw [hsc, hzon, ← append_assoc]
    exact ⟨n, _, rfl⟩
  obtain ⟨n, middle, hen⟩ := hen
  rw [hen]
  exact Text.strip_of_ends middle (digitOf_not_isSpace n) rfl

end WebOvpn
