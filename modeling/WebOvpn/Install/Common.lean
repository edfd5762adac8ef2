/-
What the modules of the control plane share: exceptions, guards, identifier
patterns and the conversion of timestamps to UTC.
-/
import WebOvpn.Lib.Calendar
import WebOvpn.Lib.Json
import WebOvpn.Lib.Run

namespace WebOvpn

/-- `ControlError`, the exception with a code that a command reports. -/
structure ControlError where
  code : String
  message : String
  exitCode : Nat
deriving DecidableEq

/-- What can end an operation early.  `killed` is the process being stopped,
which no handler sees. -/
inductive Exc where
  | control (error : ControlError)
  | value (code message : String)
  | overflow
  | type
  | key
  | os
  | killed
deriving DecidableEq

/-- `exc.code` of a `ControlError`; other exceptions have none. -/
def Exc.code : Exc → String
  | .control error => error.code
  | _ => ""

/-- `raise` under a condition. -/
def raiseWhen (c : Prop) [Decidable c] (e : Exc) : Except Exc Unit :=
  if c then .error e else .ok ()

/-- With `bind_eq_ok` and `exists_const` this turns a successful chain of guards
into the list of what they checked. -/
theorem raiseWhen_eq_ok {c : Prop} [Decidable c] {e : Exc} {u : Unit} :
    raiseWhen c e = .ok u ↔ ¬ c := by
  unfold raiseWhen
  split <;> simp_all

namespace Text

/-- A literal prefix and then between `least` and `most` characters of a class. -/
def isTagged (tag : String) (cls : CodePoint → Bool) (least most : Nat) (s : Text) : Bool :=
  (text tag).isPrefixOf s && least ≤ (s.drop tag.length).length &&
    (s.drop tag.length).length ≤ most && (s.drop tag.length).all cls

/-- `[A-Za-z0-9._+-]`. -/
def isNameChar (c : CodePoint) : Bool :=
  c.isAlnum || decide (c ∈ text "._+-")

def isDevice : Text → Bool := isTagged "/dev/" isNameChar 1 63

/-- `^[A-Za-z0-9][A-Za-z0-9._+-]{0,127}$`. -/
def isIdentifier (s : Text) : Bool :=
  (s.head?.any CodePoint.isAlnum) && s.length ≤ 128 && s.all isNameChar

/-- `^install-\d{8}T\d{6}Z-[0-9a-f]{8}$`.  In a `str` pattern `\d` matches the
decimal digits of every script. -/
def isSessionId (s : Text) : Bool :=
  fullmatch (literal "install-" ++ List.replicate 8 CodePoint.isDecimal ++
    literal "T" ++ List.replicate 6 CodePoint.isDecimal ++ literal "Z-" ++
    List.replicate 8 CodePoint.isLowerHex) s

end Text

/-- `astimezone(timezone.utc)`, which overflows at the ends of the calendar. -/
def Datetime.astimezone (d : Datetime) (offset : Int) : Except Exc Instant :=
  let micros := d.utcMicros offset
  if h : 0 ≤ micros ∧ micros < 315537897600000000 then
    .ok ⟨micros.toNat, by omega⟩
  else .error .overflow

theorem Datetime.astimezone_utc (t : Instant) : Datetime.astimezone ⟨t, some 0⟩ 0 = .ok t := by
  have ht := t.isLt
  have hmic : Datetime.utcMicros ⟨t, some 0⟩ 0 = t.val := by
    simp [Datetime.utcMicros]
  rw [Datetime.astimezone]
  simp only [hmic]
  rw [dif_pos ⟨by omega, by omega⟩]
  exact congrArg Except.ok (Fin.ext (by simp))

def awareTimestamp (invalid : Exc) (value : JVal) : Except Exc Instant :=
  match value with
  | .str s =>
    match fromisoformat s with
    | some d =>
      match d.offset with
      | some offset => d.astimezone offset
      | none => .error invalid
    | none => .error invalid
  | _ => .error invalid

end WebOvpn
