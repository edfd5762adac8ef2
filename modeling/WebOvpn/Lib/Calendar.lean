/-
Points in time as Python's `datetime` holds them: the proleptic Gregorian
calendar of the years 1 to 9999 with microseconds, `isoformat` and
`fromisoformat`.
-/
import WebOvpn.Lib.Text

namespace WebOvpn

/-- An aware `datetime` in UTC, as microseconds since 0001-01-01T00:00. -/
abbrev Instant := Fin 315537897600000000

instance neZero_instants : NeZero 315537897600000000 := ⟨by decide⟩

instance neZero_minutes : NeZero 60 := ⟨by decide⟩

def microsPerDay : Nat := 86400000000

def microsPerMinute : Nat := 60000000

theorem minute_lt (minutes : Fin 60) :
    63876418200000000 + minutes * microsPerMinute < 315537897600000000 := by
  unfold microsPerMinute
  omega

theorem second_lt : 63876418200000000 < 315537897600000000 := by decide

/-- `t + timedelta`, which overflows after the year 9999. -/
def Instant.add? (t : Instant) (micros : Nat) : Option Instant :=
  if h : t.val + micros < 315537897600000000 then some ⟨t.val + micros, h⟩
  else none

def isLeap (year : Nat) : Bool :=
  year % 4 == 0 && (year % 100 != 0 || year % 400 == 0)

def daysInMonth (leap : Bool) : Nat → Nat
  | 2 => if leap then 29 else 28
  | 4 | 6 | 9 | 11 => 30
  | _ => 31

def daysBeforeMonth (leap : Bool) (month : Nat) : Nat :=
  ((List.range (month - 1)).map fun i => daysInMonth leap (i + 1)).sum

def daysBeforeYear (year : Nat) : Nat :=
  (year - 1) * 365 + (year - 1) / 4 - (year - 1) / 100 + (year - 1) / 400

/-- The proleptic Gregorian ordinal; 0001-01-01 is day 1. -/
def ymdToOrd (year month day : Nat) : Nat :=
  daysBeforeYear year + daysBeforeMonth (isLeap year) month + day

def monthAndDay (leap : Bool) (n : Nat) : Nat × Nat :=
  let month := (n + 50) / 32
  if n < daysBeforeMonth leap month then
    (month - 1, n - daysBeforeMonth leap (month - 1) + 1)
  else (month, n - daysBeforeMonth leap month + 1)

def ordToYmd (ordinal : Nat) : Nat × Nat × Nat :=
  let n := ordinal - 1
  let n400 := n / 146097
  let n := n % 146097
  let n100 := n / 36524
  let n := n % 36524
  let n4 := n / 1461
  let n := n % 1461
  let n1 := n / 365
  let n := n % 365
  let year := n400 * 400 + n100 * 100 + n4 * 4 + n1 + 1
  if n1 = 4 ∨ n100 = 4 then (year - 1, 12, 31)
  else
    let leap := n1 == 3 && (n4 != 24 || n100 == 3)
    let (month, day) := monthAndDay leap n
    (year, month, day)

/-- Monday is day zero of the week. -/
def weekdayOfOrd (ordinal : Nat) : Nat := (ordinal + 6) % 7

def isoWeekOneMonday (year : Nat) : Nat :=
  let firstDay := ymdToOrd year 1 1
  let firstWeekday := weekdayOfOrd firstDay
  if 3 < firstWeekday then firstDay - firstWeekday + 7
  else firstDay - firstWeekday

/-- The ordinal of an ISO week date.  A year has a week 53 when it starts on a
Thursday, or on a Wednesday in a leap year. -/
def isoWeekToOrd (year week day : Nat) : Option Nat :=
  let firstWeekday := weekdayOfOrd (ymdToOrd year 1 1)
  let longYear := firstWeekday == 3 || (firstWeekday == 2 && isLeap year)
  if year < 1 ∨ week < 1 ∨ 53 < week ∨ (week = 53 ∧ !longYear) ∨ day < 1 ∨ 7 < day
  then none
  else some (isoWeekOneMonday year + (week - 1) * 7 + day - 1)

def digitOf (n : Nat) : CodePoint := ⟨48 + n % 10, by omega⟩

def digits2 (n : Nat) : Text := [digitOf (n / 10), digitOf n]

def digits4 (n : Nat) : Text := digits2 (n / 100) ++ digits2 n

def digits6 (n : Nat) : Text := digits2 (n / 10000) ++ digits4 n

def Instant.seconds (t : Instant) : Text :=
  let (year, month, day) := ordToYmd (t.val / microsPerDay + 1)
  let second := t.val % microsPerDay / 1000000
  digits4 year ++ text "-" ++ digits2 month ++ text "-" ++ digits2 day ++
    text "T" ++ digits2 (second / 3600) ++ text ":" ++
    digits2 (second / 60 % 60) ++ text ":" ++ digits2 (second % 60)

def Instant.isoformat (t : Instant) : Text :=
  t.seconds ++
    (if t.val % 1000000 = 0 then [] else text "." ++ digits6 (t.val % 1000000)) ++
    "+00:00"

/-- `text.rstrip("0")`. -/
def stripZeros (digits : Text) : Text :=
  (digits.reverse.dropWhile (· == CodePoint.ofChar '0')).reverse

def Instant.trimmed (t : Instant) : Text :=
  let fraction := stripZeros (digits6 (t.val % 1000000))
  t.seconds ++ (if fraction = [] then [] else text "." ++ fraction) ++ "+00:00"

/-- The result of `fromisoformat`: wall-clock time and, when the text has one,
the offset from UTC in microseconds. -/
structure Datetime where
  wall : Instant
  offset : Option Int

/-- Microseconds of the same moment in UTC, possibly outside the calendar. -/
def Datetime.utcMicros (d : Datetime) (offset : Int) : Int :=
  (d.wall.val : Int) - offset

theorem Datetime.toNat_utcMicros_lt (d : Datetime) (offset : Int)
    (h : 0 ≤ d.utcMicros offset ∧ d.utcMicros offset < 315537897600000000) :
    (d.utcMicros offset).toNat < 315537897600000000 := by omega

theorem Datetime.lt_of_utcMicros (d : Datetime) (offset : Int)
    (h : 0 ≤ d.utcMicros offset ∧ (d.utcMicros offset).toNat < 315537897600000000) :
    (d.utcMicros offset).toNat < 315537897600000000 := h.2

def digitsValue (s : Text) : Nat :=
  s.foldl (fun acc c => acc * 10 + (c.val - 48)) 0

def takeDigits (count : Nat) (s : Text) : Option (Nat × Text) :=
  if (s.take count).length = count ∧ (s.take count).all CodePoint.isDigit then
    some (digitsValue (s.take count), s.drop count)
  else none

def startsWith (c : Char) (s : Text) : Bool :=
  s.head? == some (CodePoint.ofChar c)

/-- Where the date ends.  Week dates are told apart by the run of digits that
follows them. -/
def datetimeSeparator (s : Text) : Nat :=
  if s.length = 7 then 7
  else if startsWith '-' (s.drop 4) then
    if startsWith 'W' (s.drop 5) then
      if startsWith '-' (s.drop 8) then
        if ((s.drop 10).take 1).any CodePoint.isDigit then 8 else 10
      else 8
    else 10
  else if startsWith 'W' (s.drop 4) then
    let stop := 7 + ((s.drop 7).takeWhile CodePoint.isDigit).length
    if stop < 9 then stop else if stop % 2 = 0 then 7 else 8
  else 8

def parseIsoDate (s : Text) : Option Nat := do
  let (year, rest) ← takeDigits 4 s
  let dashed := startsWith '-' rest
  let rest := if dashed then rest.tail else rest
  if startsWith 'W' rest then
    let (week, rest) ← takeDigits 2 rest.tail
    if rest = [] then isoWeekToOrd year week 1
    else if startsWith '-' rest != dashed then none
    else
      let (day, rest) ← takeDigits 1 (if dashed then rest.tail else rest)
      if rest = [] then isoWeekToOrd year week day else none
  else
    let (month, rest) ← takeDigits 2 rest
    if startsWith '-' rest != dashed then none
    else
      let (day, rest) ← takeDigits 2 (if dashed then rest.tail else rest)
      if rest = [] ∧ 1 ≤ year ∧ 1 ≤ month ∧ month ≤ 12 ∧ 1 ≤ day ∧ day ≤ daysInMonth (isLeap year) month then
        some (ymdToOrd year month day)
      else none

/-- The digits after the decimal mark as microseconds; digits past the sixth
are dropped. -/
def parseFraction (s : Text) : Option Nat :=
  if s ≠ [] ∧ s.all CodePoint.isDigit then
    some (digitsValue (s.take 6) * 10 ^ (6 - (s.take 6).length))
  else none

/-- Hour, minute, second and microsecond of `HH[:MM[:SS[.ffffff]]]`, the colons
either all present or all absent. -/
def parseClock (s : Text) : Option (Nat × Nat × Nat × Nat) := do
  let (hour, rest) ← takeDigits 2 s
  if rest = [] then return (hour, 0, 0, 0)
  let colons := startsWith ':' rest
  let (minute, rest) ← takeDigits 2 (if colons then rest.tail else rest)
  if rest = [] then return (hour, minute, 0, 0)
  if colons && !startsWith ':' rest then none
  else
    let (second, rest) ← takeDigits 2 (if colons then rest.tail else rest)
    if rest = [] then return (hour, minute, second, 0)
    if startsWith '.' rest || startsWith ',' rest then
      let micros ← parseFraction rest.tail
      return (hour, minute, second, micros)
    else none

def isZoneMark (c : CodePoint) : Bool :=
  c == '+' || c == '-' ||
    c == 'Z'

def parseOffset (negative : Bool) (s : Text) : Option Int := do
  if s.length < 2 ∨ s.length = 3 then none
  else
    let (hour, minute, second, micros) ← parseClock s
    let total := ((hour * 60 + minute) * 60 + second) * 1000000 + micros
    if microsPerDay ≤ total then none
    else some (if negative then -(total : Int) else total)

def parseZone (s : Text) : Option (Option Int) :=
  match s with
  | [] => some none
  | mark :: rest =>
    if mark == 'Z' then
      if rest = [] then some (some 0) else none
    else (parseOffset (mark == '-') rest).map some

/-- Microseconds of the day and the offset. -/
def parseIsoTime (s : Text) : Option (Nat × Option Int) := do
  let (hour, minute, second, micros) ←
    parseClock (s.takeWhile fun c => !isZoneMark c)
  let zone ← parseZone (s.dropWhile fun c => !isZoneMark c)
  if hour < 24 ∧ minute < 60 ∧ second < 60 then
    return (((hour * 60 + minute) * 60 + second) * 1000000 + micros, zone)
  else none

/-- The wall-clock time of a day and the microseconds passed in it. -/
def instantOf (ordinal micros : Nat) : Option Instant :=
  if h : (ordinal - 1) * microsPerDay + micros < 315537897600000000 then
    some ⟨(ordinal - 1) * microsPerDay + micros, h⟩
  else none

/-- `datetime.fromisoformat`; `none` is its `ValueError`.  Without a time of day
the result is midnight and has no offset. -/
def fromisoformat (s : Text) : Option Datetime :=
  let clock := s.drop (datetimeSeparator s + 1)
  if s.length < 7 then none
  else
    match parseIsoDate (s.take (datetimeSeparator s)),
      (if clock = [] then some (0, none) else parseIsoTime clock) with
    | some ordinal, some (micros, zone) =>
      (instantOf ordinal micros).map (⟨·, zone⟩)
    | _, _ => none

end WebOvpn
