/-
A JSON reader with two dialects in mind: Python's `json.loads` and Go's
`encoding/json` token stream.  Both share the grammar of the text; what a
dialect does with a number, a string, a key or a finished object is given by
hooks that may refuse it.  `json.loads` is given with the dictionary it builds for an
object, and with the hook that refuses repeated keys.
-/
import WebOvpn.Lib.Json

namespace WebOvpn

def isContinuation (b : UInt8) : Bool := 0x80 ≤ b && b < 0xC0

/-- The character of a multi-byte sequence, which must not be overlong and
must be a scalar value. -/
def scalarFrom (least value : Nat) : Option Char :=
  if least ≤ value ∧ value.isValidChar then some (Char.ofNat value) else none

/-- Strict UTF-8: the sequences `bytes.decode("utf-8")` accepts, which are the
ones `utf8.Valid` accepts. -/
def decodeUtf8 : Bytes → Option (List Char)
  | [] => some []
  | a :: rest =>
    if a < 0x80 then
      (decodeUtf8 rest).map (Char.ofNat a.toNat :: ·)
    else
      match rest with
      | [] => none
      | b :: rest =>
        if !isContinuation b then none
        else if 0xC0 ≤ a && a < 0xE0 then
          match scalarFrom 0x80 (a.toNat % 32 * 64 + b.toNat % 64) with
          | none => none
          | some c => (decodeUtf8 rest).map (c :: ·)
        else
          match rest with
          | [] => none
          | c :: rest =>
            if !isContinuation c then none
            else if 0xE0 ≤ a && a < 0xF0 then
              match scalarFrom 0x800 (a.toNat % 16 * 4096 +
                  b.toNat % 64 * 64 + c.toNat % 64) with
              | none => none
              | some c => (decodeUtf8 rest).map (c :: ·)
            else
              match rest with
              | [] => none
              | d :: rest =>
                if !isContinuation d || a < 0xF0 || 0xF8 ≤ a then none
                else
                  match scalarFrom 0x10000 (a.toNat % 8 * 262144 +
                      b.toNat % 64 * 4096 + c.toNat % 64 * 64 +
                      d.toNat % 64) with
                  | none => none
                  | some c => (decodeUtf8 rest).map (c :: ·)

def hexValue (c : Char) : Option Nat :=
  if c.isDigit then some (c.toNat - 48)
  else if 97 ≤ c.toNat ∧ c.toNat ≤ 102 then some (c.toNat - 87)
  else if 65 ≤ c.toNat ∧ c.toNat ≤ 70 then some (c.toNat - 55)
  else none

/-- The UTF-16 unit written by four hexadecimal digits. -/
def hex4 (a b c d : Char) : Option CodePoint :=
  match hexValue a, hexValue b, hexValue c, hexValue d with
  | some a, some b, some c, some d =>
    some (Fin.ofNat _ (a * 4096 + b * 256 + c * 16 + d))
  | _, _, _, _ => none

def simpleEscape : Char → Option CodePoint
  | '"' => some 0x22
  | '\\' => some 0x5c
  | '/' => some 0x2f
  | 'b' => some 0x08
  | 'f' => some 0x0c
  | 'n' => some 0x0a
  | 'r' => some 0x0d
  | 't' => some 0x09
  | _ => none

/-- Reads string content up to the closing quote.  Each `\u` escape yields its
own UTF-16 unit; surrogate halves are paired by `joinSurrogates`. -/
def lexString : List Char → Option (Text × List Char)
  | [] => none
  | c :: rest =>
    if c = '"' then some ([], rest)
    else if c = '\\' then
      match rest with
      | 'u' :: a :: b :: c :: d :: rest =>
        match hex4 a b c d with
        | none => none
        | some unit => (lexString rest).map fun (s, left) => (unit :: s, left)
      | e :: rest =>
        match simpleEscape e with
        | none => none
        | some unit => (lexString rest).map fun (s, left) => (unit :: s, left)
      | [] => none
    else if c.toNat < 0x20 then none
    else (lexString rest).map fun (s, left) => (CodePoint.ofChar c :: s, left)

/-- Replaces each high surrogate directly followed by a low one by the
character the pair encodes.  Any other surrogate stays as it is. -/
def joinSurrogates : Text → Text
  | high :: low :: rest =>
    if high.isHigh && low.isLow then
      CodePoint.combine high low :: joinSurrogates rest
    else high :: joinSurrogates (low :: rest)
  | [c] => [c]
  | [] => []

def isWhitespace (c : Char) : Bool :=
  c == ' ' || c == '\t' || c == '\n' || c == '\r'

def skipWs (input : List Char) : List Char := input.dropWhile isWhitespace

def lexFraction (input : List Char) : List Char × List Char :=
  match input with
  | '.' :: rest =>
    if rest.takeWhile Char.isDigit = [] then ([], input)
    else ('.' :: rest.takeWhile Char.isDigit, rest.dropWhile Char.isDigit)
  | _ => ([], input)

def lexExponent (input : List Char) : List Char × List Char :=
  match input with
  | e :: rest =>
    if e = 'e' ∨ e = 'E' then
      let sign := rest.takeWhile fun c => c == '+' || c == '-'
      let digits := (rest.drop sign.length).takeWhile Char.isDigit
      if sign.length ≤ 1 ∧ digits ≠ [] then
        (e :: sign ++ digits, (rest.drop sign.length).dropWhile Char.isDigit)
      else ([], input)
    else ([], input)
  | [] => ([], input)

def lexInteger (input : List Char) : Option (List Char × List Char) :=
  match input with
  | [] => none
  | c :: rest =>
    if c = '0' then some (['0'], rest)
    else if c.isDigit then
      some (c :: rest.takeWhile Char.isDigit, rest.dropWhile Char.isDigit)
    else none

def lexNumber (input : List Char) : Option (NumberToken × List Char) :=
  let negative := input.head? == some '-'
  match lexInteger (if negative then input.tail else input) with
  | none => none
  | some (digits, rest) =>
    let (fraction, rest) := lexFraction rest
    let (exponent, rest) := lexExponent rest
    some (⟨negative, digits, fraction, exponent⟩, rest)

def NumberToken.toInt (token : NumberToken) : Int :=
  if token.negative then -(Nat.ofDigitChars 10 token.digits 0 : Int)
  else Nat.ofDigitChars 10 token.digits 0

def NumberToken.isInteger (token : NumberToken) : Bool :=
  token.fraction.isEmpty && token.exponent.isEmpty

def NumberToken.toChars (token : NumberToken) : List Char :=
  (if token.negative then ['-'] else []) ++ token.digits ++ token.fraction ++
    token.exponent

/-- Literal names outside the JSON grammar that `json.loads` reads as floats. -/
def lexNonFinite (input : List Char) : Option (JVal × List Char) :=
  if ['N', 'a', 'N'] <+: input then some (.float ['N', 'a', 'N'], input.drop 3)
  else if "Infinity".toList <+: input then
    some (.float "Infinity".toList, input.drop 8)
  else if "-Infinity".toList <+: input then
    some (.float "-Infinity".toList, input.drop 9)
  else none

/-- What a reader does with the parts of a document.  `key` sees the members
read so far, `item` the items read so far, `enter` the nesting depth. -/
structure Dialect (ε : Type) where
  malformed : ε
  nonFinite : Bool
  number : NumberToken → Except ε JVal
  string : Text → Except ε Text
  key : List (Text × JVal) → Text → Except ε Text
  item : List JVal → Except ε Unit
  object : List (Text × JVal) → Except ε (List (Text × JVal))
  enter : Nat → Except ε Unit

variable {ε : Type}

/-- A value that is neither a container nor a string. -/
def parseScalar (d : Dialect ε) (input : List Char) : Except ε (JVal × List Char) :=
  match (if d.nonFinite then lexNonFinite input else none) with
  | some result => .ok result
  | none =>
    if ['n', 'u', 'l', 'l'] <+: input then .ok (.null, input.drop 4)
    else if ['t', 'r', 'u', 'e'] <+: input then .ok (.bool true, input.drop 4)
    else if ['f', 'a', 'l', 's', 'e'] <+: input then
      .ok (.bool false, input.drop 5)
    else
      match lexNumber input with
      | none => .error d.malformed
      | some (token, rest) => do
          let v ← d.number token
          return (v, rest)

mutual

/-- Reads one value.  Fuel bounds the number of nested calls; twice the length
of the text always suffices, since every second call consumes a character. -/
def parseValue (d : Dialect ε) (depth : Nat) : Nat → List Char → Except ε (JVal × List Char)
  | 0, _ => .error d.malformed
  | fuel + 1, input => do
      d.enter depth
      match skipWs input with
      | [] => .error d.malformed
      | c :: rest =>
        if c = '{' then
          if (skipWs rest).head? = some '}' then do
            let members ← d.object []
            return (.obj members, (skipWs rest).tail)
          else do
            let (members, rest) ← parseMembers d depth [] fuel rest
            let members ← d.object members
            return (.obj members, rest)
        else if c = '[' then
          if (skipWs rest).head? = some ']' then
            return (.arr [], (skipWs rest).tail)
          else do
            let (items, rest) ← parseItems d depth [] fuel rest
            return (.arr items, rest)
        else if c = '"' then
          match lexString rest with
          | none => .error d.malformed
          | some (s, rest) => do
              let s ← d.string (joinSurrogates s)
              return (.str s, rest)
        else parseScalar d (c :: rest)

/-- Reads the items of an array up to and including its bracket. -/
def parseItems (d : Dialect ε) (depth : Nat) (acc : List JVal) :
    Nat → List Char → Except ε (List JVal × List Char)
  | 0, _ => .error d.malformed
  | fuel + 1, input => do
      d.item acc
      let (v, rest) ← parseValue d (depth + 1) fuel input
      match skipWs rest with
      | [] => .error d.malformed
      | c :: rest =>
        if c = ',' then parseItems d depth (acc ++ [v]) fuel rest
        else if c = ']' then return (acc ++ [v], rest)
        else .error d.malformed

/-- Reads the members of an object up to and including its brace. -/
def parseMembers (d : Dialect ε) (depth : Nat) (acc : List (Text × JVal)) :
    Nat → List Char → Except ε (List (Text × JVal) × List Char)
  | 0, _ => .error d.malformed
  | fuel + 1, input =>
    if (skipWs input).head? = some '"' then
      match lexString (skipWs input).tail with
      | none => .error d.malformed
      | some (k, rest) => do
          let k ← d.key acc (joinSurrogates k)
          if (skipWs rest).head? = some ':' then do
            let (v, rest) ← parseValue d (depth + 1) fuel (skipWs rest).tail
            match skipWs rest with
            | [] => .error d.malformed
            | c :: rest =>
              if c = ',' then
                parseMembers d depth (acc ++ [(k, v)]) fuel rest
              else if c = '}' then return (acc ++ [(k, v)], rest)
              else .error d.malformed
          else .error d.malformed
    else .error d.malformed

end

def parseDocument (d : Dialect ε) (input : List Char) : Except ε JVal := do
  let (v, rest) ← parseValue d 0 (2 * input.length + 2) input
  if skipWs rest = [] then return v else .error d.malformed

/-- Why a document cannot be loaded; each is a `ValueError`. -/
inductive LoadsError where
  | unicode
  | malformed
  | digits
  | duplicate
deriving DecidableEq

def dictInsert (members : List (Text × JVal)) (key : Text) (value : JVal) : List (Text × JVal) :=
  match members with
  | [] => [(key, value)]
  | (k, v) :: rest =>
    if k = key then (k, value) :: rest else (k, v) :: dictInsert rest key value

/-- `dict(pairs)`: the last value of a repeated key wins. -/
def dictOf (pairs : List (Text × JVal)) : List (Text × JVal) :=
  pairs.foldl (fun d p => dictInsert d p.1 p.2) []

/-- The longest decimal numeral `int` reads, `sys.int_info.default_max_str_digits`. -/
def maxStrDigits : Nat := 4300

def pythonNumber (token : NumberToken) : Except LoadsError JVal :=
  if token.isInteger then
    if maxStrDigits < token.digits.length then .error .digits
    else .ok (.int token.toInt)
  else .ok (.float token.toChars)

/-- `json.loads`.  Nesting that would exhaust the interpreter's stack is not
modelled: no caller accepts a document of such depth. -/
def pythonDialect : Dialect LoadsError where
  malformed := .malformed
  nonFinite := true
  number := pythonNumber
  string := .ok
  key := fun _ k => .ok k
  item := fun _ => .ok ()
  object := fun pairs => .ok (dictOf pairs)
  enter := fun _ => .ok ()

/-- An `object_pairs_hook` that raises on a repeated key. -/
def strictObject (pairs : List (Text × JVal)) : Except LoadsError (List (Text × JVal)) :=
  if (pairs.map Prod.fst).Nodup then .ok pairs else .error .duplicate

def strictDialect : Dialect LoadsError :=
  { pythonDialect with object := strictObject }

/-- `json.loads(raw.decode("utf-8"))`. -/
def loads (raw : Bytes) : Except LoadsError JVal :=
  match decodeUtf8 raw with
  | none => .error .unicode
  | some input => parseDocument pythonDialect input

/-- `json.loads(raw.decode("utf-8"), object_pairs_hook=strict_object)`. -/
def strictLoads (raw : Bytes) : Except LoadsError JVal :=
  match decodeUtf8 raw with
  | none => .error .unicode
  | some input => parseDocument strictDialect input

end WebOvpn
