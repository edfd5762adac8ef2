/-
JSON values and their canonical encoding: `json.dumps` with `ensure_ascii`,
`sort_keys` and explicit separators.
-/
import Mathlib.Data.List.Sort
import WebOvpn.Lib.Text

namespace WebOvpn

/-- A value as `json.loads` returns it.  An object keeps its members in
insertion order; a number with a fraction or an exponent keeps its token. -/
inductive JVal where
  | null
  | bool (value : Bool)
  | int (value : Int)
  | float (token : List Char)
  | str (value : Text)
  | arr (items : List JVal)
  | obj (members : List (Text × JVal))
deriving Inhabited

mutual

/-- Equality of values is decidable; the deriving handler does not reach
through the nested lists. -/
def JVal.decEq : (a b : JVal) → Decidable (a = b)
  | .null, .null => isTrue rfl
  | .bool a, .bool b => decidable_of_iff (a = b) (by simp)
  | .int a, .int b => decidable_of_iff (a = b) (by simp)
  | .float a, .float b => decidable_of_iff (a = b) (by simp)
  | .str a, .str b => decidable_of_iff (a = b) (by simp)
  | .arr a, .arr b =>
    match JVal.decEqItems a b with
    | isTrue h => isTrue (congrArg JVal.arr h)
    | isFalse h => isFalse fun heq => h (JVal.arr.inj heq)
  | .obj a, .obj b =>
    match JVal.decEqMembers a b with
    | isTrue h => isTrue (congrArg JVal.obj h)
    | isFalse h => isFalse fun heq => h (JVal.obj.inj heq)
  | .null, .bool _ | .null, .int _ | .null, .float _ | .null, .str _
  | .null, .arr _ | .null, .obj _
  | .bool _, .null | .bool _, .int _ | .bool _, .float _ | .bool _, .str _
  | .bool _, .arr _ | .bool _, .obj _
  | .int _, .null | .int _, .bool _ | .int _, .float _ | .int _, .str _
  | .int _, .arr _ | .int _, .obj _
  | .float _, .null | .float _, .bool _ | .float _, .int _ | .float _, .str _
  | .float _, .arr _ | .float _, .obj _
  | .str _, .null | .str _, .bool _ | .str _, .int _ | .str _, .float _
  | .str _, .arr _ | .str _, .obj _
  | .arr _, .null | .arr _, .bool _ | .arr _, .int _ | .arr _, .float _
  | .arr _, .str _ | .arr _, .obj _
  | .obj _, .null | .obj _, .bool _ | .obj _, .int _ | .obj _, .float _
  | .obj _, .str _ | .obj _, .arr _ => isFalse (by simp)

def JVal.decEqItems : (a b : List JVal) → Decidable (a = b)
  | [], [] => isTrue rfl
  | [], _ :: _ => isFalse (by simp)
  | _ :: _, [] => isFalse (by simp)
  | x :: xs, y :: ys =>
    match JVal.decEq x y, JVal.decEqItems xs ys with
    | isTrue h, isTrue hs => isTrue (by rw [h, hs])
    | isFalse h, _ => isFalse fun heq => h (List.cons.inj heq).1
    | _, isFalse hs => isFalse fun heq => hs (List.cons.inj heq).2

def JVal.decEqMembers : (a b : List (Text × JVal)) → Decidable (a = b)
  | [], [] => isTrue rfl
  | [], _ :: _ => isFalse (by simp)
  | _ :: _, [] => isFalse (by simp)
  | (k, x) :: xs, (l, y) :: ys =>
    match instDecidableEqList k l, JVal.decEq x y, JVal.decEqMembers xs ys with
    | isTrue hk, isTrue h, isTrue hs => isTrue (by rw [hk, h, hs])
    | isFalse hk, _, _ =>
      isFalse fun heq => hk (Prod.ext_iff.1 (List.cons.inj heq).1).1
    | _, isFalse h, _ =>
      isFalse fun heq => h (Prod.ext_iff.1 (List.cons.inj heq).1).2
    | _, _, isFalse hs => isFalse fun heq => hs (List.cons.inj heq).2

end

instance : DecidableEq JVal := JVal.decEq

/-- A number as it stands in the text: sign, integer digits, and the fraction
and exponent with their introducing characters, empty when absent. -/
structure NumberToken where
  negative : Bool
  digits : List Char
  fraction : List Char
  exponent : List Char

structure Separators where
  item : List Char
  key : List Char

def compact : Separators := ⟨[','], [':']⟩

/-- The default separators of `json.dumps`. -/
def spaced : Separators := ⟨[',', ' '], [':', ' ']⟩

/-- A `\uXXXX` escape with lower-case hexadecimal digits. -/
def unicodeEscape (unit : Nat) : List Char :=
  ['\\', 'u', Nat.digitChar (unit / 4096 % 16), Nat.digitChar (unit / 256 % 16),
    Nat.digitChar (unit / 16 % 16), Nat.digitChar (unit % 16)]

def escapeCodePoint (c : CodePoint) : List Char :=
  if c.val = 0x22 then ['\\', '"']
  else if c.val = 0x5c then ['\\', '\\']
  else if c.val = 0x08 then ['\\', 'b']
  else if c.val = 0x0c then ['\\', 'f']
  else if c.val = 0x0a then ['\\', 'n']
  else if c.val = 0x0d then ['\\', 'r']
  else if c.val = 0x09 then ['\\', 't']
  else if 0x20 ≤ c.val ∧ c.val ≤ 0x7e then [Char.ofNat c.val]
  else if c.val < 0x10000 then unicodeEscape c.val
  else
    unicodeEscape (0xd800 + (c.val - 0x10000) / 0x400) ++
      unicodeEscape (0xdc00 + (c.val - 0x10000) % 0x400)

def encodeString (s : Text) : List Char :=
  '"' :: s.flatMap escapeCodePoint ++ ['"']

def encodeInt : Int → List Char
  | .ofNat n => Nat.toDigits 10 n
  | .negSucc n => '-' :: Nat.toDigits 10 (n + 1)

mutual

/-- The encoding of a value with its members in the order they stand. -/
def encode (sep : Separators) : JVal → List Char
  | .null => ['n', 'u', 'l', 'l']
  | .bool true => ['t', 'r', 'u', 'e']
  | .bool false => ['f', 'a', 'l', 's', 'e']
  | .int n => encodeInt n
  | .float token => token
  | .str s => encodeString s
  | .arr items => '[' :: (encodeItems sep items ++ [']'])
  | .obj members => '{' :: (encodeMembers sep members ++ ['}'])

def encodeItems (sep : Separators) : List JVal → List Char
  | [] => []
  | [v] => encode sep v
  | v :: w :: rest => encode sep v ++ sep.item ++ encodeItems sep (w :: rest)

def encodeMembers (sep : Separators) : List (Text × JVal) → List Char
  | [] => []
  | [(k, v)] => encodeString k ++ sep.key ++ encode sep v
  | (k, v) :: m :: rest =>
    encodeString k ++ sep.key ++ encode sep v ++ sep.item ++
      encodeMembers sep (m :: rest)

end

/-- Members in key order, as `sort_keys` emits them. -/
def sortMembers (members : List (Text × JVal)) : List (Text × JVal) :=
  members.insertionSort fun a b => Text.le a.1 b.1 = true

mutual

def sortKeys : JVal → JVal
  | .arr items => .arr (sortKeysItems items)
  | .obj members => .obj (sortMembers (sortKeysMembers members))
  | .null => .null
  | .bool b => .bool b
  | .int n => .int n
  | .float token => .float token
  | .str s => .str s

def sortKeysItems : List JVal → List JVal
  | [] => []
  | v :: rest => sortKeys v :: sortKeysItems rest

def sortKeysMembers : List (Text × JVal) → List (Text × JVal)
  | [] => []
  | (k, v) :: rest => (k, sortKeys v) :: sortKeysMembers rest

end

/-- `json.dumps(value, ensure_ascii=True, sort_keys=True, separators=sep)`. -/
def dumps (sep : Separators) (v : JVal) : List Char :=
  encode sep (sortKeys v)

/-- `.encode("utf-8")` of ASCII text: one byte a character. -/
def asciiBytes (chars : List Char) : Bytes :=
  chars.map fun c => UInt8.ofNat c.toNat

def memberOf (members : List (Text × JVal)) (key : String) : Option JVal :=
  members.lookup (text key)

abbrev Members := List (Text × JVal)

/-- `mapping.get(key)`, with `None` for an absent key. -/
def Members.field (members : Members) (key : String) : JVal :=
  (memberOf members key).getD .null

end WebOvpn
