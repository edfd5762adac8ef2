/-
JSON text without `ensure_ascii`, and its bytes: a document can be encoded in
UTF-8 when none of its texts holds a surrogate.
-/
import WebOvpn.Lib.Json

namespace WebOvpn

def escapePlain (c : CodePoint) : Text :=
  if c.val = 0x22 ∨ c.val = 0x5c ∨ c.val < 0x20 then
    (escapeCodePoint c).map CodePoint.ofChar
  else [c]

def plainString (s : Text) : Text := text "\"" ++ s.flatMap escapePlain ++ "\""

mutual

/-- `json.dumps(value, ensure_ascii=False, separators=(",", ":"))`. -/
def encodePlain : JVal → Text
  | .null => "null"
  | .bool b => if b then "true" else "false"
  | .int n => (encodeInt n).map CodePoint.ofChar
  | .float token => token.map CodePoint.ofChar
  | .str s => plainString s
  | .arr items => [CodePoint.ofChar '['] ++ encodePlainItems items ++ [CodePoint.ofChar ']']
  | .obj members => [CodePoint.ofChar '{'] ++ encodePlainMembers members ++ [CodePoint.ofChar '}']

def encodePlainItems : List JVal → Text
  | [] => []
  | [v] => encodePlain v
  | v :: w :: rest => encodePlain v ++ text "," ++ encodePlainItems (w :: rest)

def encodePlainMembers : List (Text × JVal) → Text
  | [] => []
  | [(k, v)] => plainString k ++ text ":" ++ encodePlain v
  | (k, v) :: m :: rest =>
    plainString k ++ text ":" ++ encodePlain v ++ text "," ++ encodePlainMembers (m :: rest)

end

def utf8Of (c : CodePoint) : Bytes :=
  if c.val < 0x80 then [UInt8.ofNat c.val]
  else if c.val < 0x800 then
    [UInt8.ofNat (0xC0 + c.val / 64), UInt8.ofNat (0x80 + c.val % 64)]
  else if c.val < 0x10000 then
    [UInt8.ofNat (0xE0 + c.val / 4096), UInt8.ofNat (0x80 + c.val / 64 % 64), UInt8.ofNat (0x80 + c.val % 64)]
  else
    [UInt8.ofNat (0xF0 + c.val / 262144), UInt8.ofNat (0x80 + c.val / 4096 % 64),
      UInt8.ofNat (0x80 + c.val / 64 % 64), UInt8.ofNat (0x80 + c.val % 64)]

/-- `.encode("utf-8")`; `none` is its `UnicodeEncodeError`. -/
def utf8Bytes (s : Text) : Option Bytes :=
  if s.any CodePoint.isSurrogate then none else some (s.flatMap utf8Of)

/-- `json.dumps(value, ensure_ascii=False, sort_keys=True, separators=(",", ":"))`
in UTF-8. -/
def canonicalBytes (v : JVal) : Option Bytes := utf8Bytes (encodePlain (sortKeys v))

namespace Text

def isEncodable (s : Text) : Bool := !s.any CodePoint.isSurrogate

@[simp] theorem isEncodable_append (s t : Text) :
    (s ++ t).isEncodable = (s.isEncodable && t.isEncodable) := by
  unfold isEncodable
  rw [List.any_append, Bool.not_or]

theorem isEncodable_iff {s : Text} : s.isEncodable = true ↔ ∀ c ∈ s, c.isSurrogate = false := by
  unfold isEncodable
  simp

end Text

open Text

theorem isSurrogate_ofChar (c : Char) : (CodePoint.ofChar c).isSurrogate = false := by
  have hvl := c.valid
  unfold UInt32.isValidChar Nat.isValidChar at hvl
  unfold CodePoint.isSurrogate CodePoint.ofChar
  change (decide (0xD800 ≤ c.val.toNat) && decide (c.val.toNat < 0xE000)) = false
  rw [Bool.and_eq_false_iff, decide_eq_false_iff_not, decide_eq_false_iff_not]
  omega

theorem isEncodable_map_ofChar (chars : List Char) :
    Text.isEncodable (chars.map CodePoint.ofChar) = true := by
  rw [isEncodable_iff]
  intro c hc
  obtain ⟨char, -, rfl⟩ := List.mem_map.1 hc
  exact isSurrogate_ofChar char

@[simp] theorem isEncodable_text (s : String) : (text s).isEncodable = true :=
  isEncodable_map_ofChar s.toList

theorem isEncodable_escapePlain (c : CodePoint) : (escapePlain c).isEncodable = !c.isSurrogate := by
  unfold escapePlain
  split_ifs with h
  · rw [isEncodable_map_ofChar]
    have hc : c.isSurrogate = false := by
      unfold CodePoint.isSurrogate
      rw [Bool.and_eq_false_iff, decide_eq_false_iff_not, decide_eq_false_iff_not]
      omega
    rw [hc]
    rfl
  · simp [Text.isEncodable]

@[simp] theorem isEncodable_plainString (s : Text) : (plainString s).isEncodable = s.isEncodable := by
  unfold plainString
  rw [isEncodable_append, isEncodable_append, isEncodable_text, Bool.true_and, Bool.and_true]
  induction s with
  | nil => rfl
  | cons c rest ih =>
    rw [List.flatMap_cons, isEncodable_append, ih, isEncodable_escapePlain]
    unfold Text.isEncodable
    rw [List.any_cons, Bool.not_or]

mutual

/-- No text of the value holds a surrogate. -/
def JVal.isEncodable : JVal → Bool
  | .str s => s.isEncodable
  | .arr items => itemsEncodable items
  | .obj members => membersEncodable members
  | _ => true

def itemsEncodable : List JVal → Bool
  | [] => true
  | v :: rest => v.isEncodable && itemsEncodable rest

def membersEncodable : List (Text × JVal) → Bool
  | [] => true
  | (k, v) :: rest => k.isEncodable && v.isEncodable && membersEncodable rest

end

mutual

theorem isEncodable_encodePlain : ∀ v : JVal, (encodePlain v).isEncodable = v.isEncodable
  | .null => by simp [encodePlain, JVal.isEncodable]
  | .bool b => by cases b <;> simp [encodePlain, JVal.isEncodable]
  | .int n => by simp [encodePlain, JVal.isEncodable, isEncodable_map_ofChar]
  | .float token => by simp [encodePlain, JVal.isEncodable, isEncodable_map_ofChar]
  | .str s => by simp [encodePlain, JVal.isEncodable]
  | .arr items => by
    have hits := isEncodable_encodePlainItems items
    have hop := isEncodable_map_ofChar ['[']
    have hcl := isEncodable_map_ofChar [']']
    rw [List.map_singleton] at hop hcl
    rw [encodePlain, JVal.isEncodable, isEncodable_append, isEncodable_append, hits, hop, hcl,
      Bool.true_and, Bool.and_true]
  | .obj members => by
    have hms := isEncodable_encodePlainMembers members
    have hop := isEncodable_map_ofChar ['{']
    have hcl := isEncodable_map_ofChar ['}']
    rw [List.map_singleton] at hop hcl
    rw [encodePlain, JVal.isEncodable, isEncodable_append, isEncodable_append, hms, hop, hcl,
      Bool.true_and, Bool.and_true]

theorem isEncodable_encodePlainItems :
    ∀ items : List JVal, (encodePlainItems items).isEncodable = itemsEncodable items
  | [] => rfl
  | [v] => by
    rw [encodePlainItems, isEncodable_encodePlain v, itemsEncodable, itemsEncodable, Bool.and_true]
  | v :: w :: rest => by
    rw [encodePlainItems, isEncodable_append, isEncodable_append, isEncodable_encodePlain v,
      isEncodable_encodePlainItems (w :: rest), isEncodable_text, Bool.and_true]
    rfl

theorem isEncodable_encodePlainMembers :
    ∀ members : List (Text × JVal), (encodePlainMembers members).isEncodable = membersEncodable members
  | [] => rfl
  | [(k, v)] => by
    rw [encodePlainMembers, isEncodable_append, isEncodable_append, isEncodable_encodePlain v,
      membersEncodable, membersEncodable, isEncodable_text, isEncodable_plainString, Bool.and_true,
      Bool.and_true]
  | (k, v) :: m :: rest => by
    rw [encodePlainMembers, isEncodable_append, isEncodable_append, isEncodable_append,
      isEncodable_append, isEncodable_encodePlain v, isEncodable_encodePlainMembers (m :: rest),
      isEncodable_text, isEncodable_text, isEncodable_plainString, Bool.and_true, Bool.and_true]
    rfl

end

variable (members : List (Text × JVal))

theorem membersEncodable_eq_all :
    membersEncodable members = members.all fun m => m.1.isEncodable && m.2.isEncodable := by
  induction members with
  | nil => rfl
  | cons m rest ih => rw [membersEncodable, List.all_cons, ih]

theorem membersEncodable_sortMembers :
    membersEncodable (sortMembers members) = membersEncodable members := by
  rw [membersEncodable_eq_all, membersEncodable_eq_all]
  exact (List.perm_insertionSort _ members).all_eq

mutual

theorem isEncodable_sortKeys : ∀ v : JVal, (sortKeys v).isEncodable = v.isEncodable
  | .null => rfl
  | .bool _ => rfl
  | .int _ => rfl
  | .float _ => rfl
  | .str _ => rfl
  | .arr items => itemsEncodable_sortKeys items
  | .obj members => by
    rw [sortKeys, JVal.isEncodable, membersEncodable_sortMembers, JVal.isEncodable]
    exact membersEncodable_sortKeys members

theorem itemsEncodable_sortKeys :
    ∀ items : List JVal, itemsEncodable (sortKeysItems items) = itemsEncodable items
  | [] => rfl
  | v :: rest => by
    rw [sortKeysItems, itemsEncodable, itemsEncodable, isEncodable_sortKeys v,
      itemsEncodable_sortKeys rest]

theorem membersEncodable_sortKeys :
    ∀ members : List (Text × JVal),
      membersEncodable (sortKeysMembers members) = membersEncodable members
  | [] => rfl
  | (k, v) :: rest => by
    rw [sortKeysMembers, membersEncodable, membersEncodable, isEncodable_sortKeys v,
      membersEncodable_sortKeys rest]

end

theorem canonicalBytes_isSome (v : JVal) : (canonicalBytes v).isSome = v.isEncodable := by
  rw [← isEncodable_sortKeys, ← isEncodable_encodePlain]
  unfold canonicalBytes utf8Bytes Text.isEncodable
  cases h : (encodePlain (sortKeys v)).any CodePoint.isSurrogate <;> simp

end WebOvpn
