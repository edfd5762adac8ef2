/-
Text as the two runtimes of the installation path see it.  A Python `str` is
a sequence of Unicode code points in which an unpaired surrogate may occur; a
Go string decoded by `encoding/json` never holds one.  Character classes of
the regular expressions are executable predicates on code points.
-/
import Mathlib.Algebra.Order.Ring.Int
import Mathlib.Data.List.Chain
import Mathlib.Data.List.DropRight
import Mathlib.Data.List.Infix

namespace WebOvpn

open List

abbrev CodePoint := Fin 0x110000

/-- A Python `str`. -/
abbrev Text := List CodePoint

abbrev Bytes := List UInt8

instance neZero_codePoints : NeZero 0x110000 := ⟨by decide⟩

instance lawfulBEq_codePoint : LawfulBEq CodePoint := inferInstance

instance lawfulBEq_text : LawfulBEq Text := inferInstance

instance lawfulBEq_pair : LawfulBEq (Text × Text) := inferInstance

theorem Char.toNat_lt_codePoints (c : Char) : c.toNat < 0x110000 := by
  have hvl := c.valid
  unfold UInt32.isValidChar Nat.isValidChar at hvl
  change c.val.toNat < 0x110000
  omega

namespace CodePoint

def ofChar (c : Char) : CodePoint :=
  ⟨c.toNat, Char.toNat_lt_codePoints c⟩

/-- The first half of a UTF-16 surrogate pair. -/
def isHigh (c : CodePoint) : Bool := 0xD800 ≤ c.val && c.val < 0xDC00

/-- The second half of a UTF-16 surrogate pair. -/
def isLow (c : CodePoint) : Bool := 0xDC00 ≤ c.val && c.val < 0xE000

def isSurrogate (c : CodePoint) : Bool := 0xD800 ≤ c.val && c.val < 0xE000

def isDigit (c : CodePoint) : Bool := 48 ≤ c.val && c.val ≤ 57

def isLower (c : CodePoint) : Bool := 97 ≤ c.val && c.val ≤ 122

def isUpper (c : CodePoint) : Bool := 65 ≤ c.val && c.val ≤ 90

def isLowerHex (c : CodePoint) : Bool :=
  c.isDigit || (97 ≤ c.val && c.val ≤ 102)

def isHex (c : CodePoint) : Bool :=
  c.isLowerHex || (65 ≤ c.val && c.val ≤ 70)

def isAlnum (c : CodePoint) : Bool :=
  c.isDigit || c.isLower || c.isUpper

/-- The zero of each block of ten decimal digits (general category `Nd`,
Unicode 15), which is what `\d` matches in a Python `str` pattern. -/
def decimalZeros : List Nat :=
  [0x30, 0x660, 0x6f0, 0x7c0, 0x966, 0x9e6, 0xa66, 0xae6, 0xb66, 0xbe6,
    0xc66, 0xce6, 0xd66, 0xde6, 0xe50, 0xed0, 0xf20, 0x1040, 0x1090, 0x17e0,
    0x1810, 0x1946, 0x19d0, 0x1a80, 0x1a90, 0x1b50, 0x1bb0, 0x1c40, 0x1c50,
    0xa620, 0xa8d0, 0xa900, 0xa9d0, 0xa9f0, 0xaa50, 0xabf0, 0xff10, 0x104a0,
    0x10d30, 0x11066, 0x110f0, 0x11136, 0x111d0, 0x112f0, 0x11450, 0x114d0,
    0x11650, 0x116c0, 0x11730, 0x118e0, 0x11950, 0x11c50, 0x11d50, 0x11da0,
    0x11f50, 0x16a60, 0x16ac0, 0x16b50, 0x1d7ce, 0x1d7d8, 0x1d7e2, 0x1d7ec,
    0x1d7f6, 0x1e140, 0x1e2f0, 0x1e4f0, 0x1e950, 0x1fbf0]

def isDecimal (c : CodePoint) : Bool :=
  decimalZeros.any fun base => base ≤ c.val && c.val < base + 10

/-- `str.isspace`, the characters removed by `str.strip`. -/
def isSpace (c : CodePoint) : Bool :=
  (9 ≤ c.val && c.val ≤ 13) || (28 ≤ c.val && c.val ≤ 32) ||
    (0x2000 ≤ c.val && c.val ≤ 0x200a) ||
    [0x85, 0xa0, 0x1680, 0x2028, 0x2029, 0x202f, 0x205f, 0x3000].contains c.val

theorem not_isSpace_of_isDecimal {c : CodePoint} (h : c.isDecimal = true) : c.isSpace = false := by
  unfold isDecimal at h
  obtain ⟨base, hbas, hc⟩ := any_eq_true.1 h
  simp only [Bool.and_eq_true, decide_eq_true_eq] at hc
  have hall : ∀ base ∈ decimalZeros, ∀ i < 10, isSpace (Fin.ofNat _ (base + i)) = false := by decide +kernel
  have hsm : (Fin.ofNat _ (base + (c.val - base)) : CodePoint) = c := by
    apply Fin.ext
    rw [Fin.val_ofNat, Nat.add_sub_cancel' hc.1, Nat.mod_eq_of_lt c.isLt]
  rw [← hsm]
  exact hall base hbas (c.val - base) (by omega)

theorem not_isSpace_of_isLowerHex {c : CodePoint} (h : c.isLowerHex = true) : c.isSpace = false := by
  unfold isLowerHex isDigit at h
  unfold isSpace
  simp only [Bool.or_eq_true, Bool.and_eq_true, decide_eq_true_eq] at h
  rw [Bool.eq_false_iff]
  intro hspa
  simp only [Bool.or_eq_true, Bool.and_eq_true, decide_eq_true_eq, contains_eq_mem,
    mem_cons, not_mem_nil, or_false] at hspa
  omega

/-- ASCII lower case.  The sources call `lower` only on text whose letters a
pattern has already restricted to ASCII. -/
def lower (c : CodePoint) : CodePoint :=
  if h : c.isUpper then
    ⟨c.val + 32, by simp only [isUpper, Bool.and_eq_true, decide_eq_true_eq] at h; omega⟩
  else c

/-- The scalar value of a surrogate pair. -/
def combine (high low : CodePoint) : CodePoint :=
  Fin.ofNat _ (0x10000 + (high.val - 0xD800) * 0x400 + (low.val - 0xDC00))

end CodePoint

def text (s : String) : Text := s.toList.map CodePoint.ofChar

/-- A string literal where a text is expected. -/
instance : Coe String Text := ⟨text⟩

/-- The same for a character. -/
instance : Coe Char CodePoint := ⟨CodePoint.ofChar⟩

namespace Text

def lower (s : Text) : Text := s.map CodePoint.lower

def strip (s : Text) : Text :=
  ((s.dropWhile CodePoint.isSpace).reverse.dropWhile CodePoint.isSpace).reverse

theorem strip_eq (s : Text) : strip s = (s.dropWhile CodePoint.isSpace).rdropWhile CodePoint.isSpace :=
  rfl

theorem strip_of_ends {first last : CodePoint} (middle : Text) (hfs : first.isSpace = false)
    (hls : last.isSpace = false) :
      strip (first :: (middle ++ [last])) = first :: (middle ++ [last]) := by
  rw [strip_eq, dropWhile_cons_of_neg (by rw [hfs]; exact Bool.false_ne_true),
    rdropWhile_eq_self_iff]
  intro _
  change ¬ (((first :: middle) ++ [last]).getLast _).isSpace = true
  rw [getLast_append_singleton, hls]
  exact Bool.false_ne_true

theorem strip_of_forall {s : Text} (h : ∀ c ∈ s, c.isSpace = false) : strip s = s := by
  have hlf : s.dropWhile CodePoint.isSpace = s := by
    cases s with
    | nil => rfl
    | cons c rest =>
      apply dropWhile_cons_of_neg
      rw [h c mem_cons_self]
      exact Bool.false_ne_true
  rw [strip_eq, hlf, rdropWhile_eq_self_iff]
  intro hne
  rw [h _ (getLast_mem hne)]
  exact Bool.false_ne_true

theorem strip_strip (s : Text) : strip (strip s) = strip s := by
  rw [strip_eq (strip s), strip_eq s]
  generalize hl : s.dropWhile CodePoint.isSpace = l
  have hidem : l.dropWhile CodePoint.isSpace = l := by
    rw [← hl, dropWhile_idempotent]
  suffices h : (l.rdropWhile CodePoint.isSpace).dropWhile CodePoint.isSpace =
      l.rdropWhile CodePoint.isSpace by
    rw [h, rdropWhile_idempotent]
  -- what is left begins with the first character of the text, which is no space
  rw [dropWhile_eq_self_iff] at hidem ⊢
  intro hlen
  have hst := rdropWhile_prefix CodePoint.isSpace l
  rw [hst.getElem hlen]
  exact hidem (hlen.trans_le hst.length_le)

def contains (needle s : Text) : Bool :=
  s.tails.any needle.isPrefixOf

theorem contains_eq_false {c : CodePoint} {rest s : Text} (h : c ∉ s) :
    contains (c :: rest) s = false := by
  rw [contains, any_eq_false]
  intro tail hti hst
  obtain ⟨more, hmr⟩ := isPrefixOf_iff_prefix.1 hst
  refine h (((mem_tails _ _).1 hti).subset ?_)
  rw [← hmr]
  simp

/-- Lexicographic order by code point, the order of `sorted` and
`sort.Strings` alike. -/
def le : Text → Text → Bool
  | [], _ => true
  | _ :: _, [] => false
  | a :: as, b :: bs => a.val < b.val || (a.val == b.val && le as bs)

/-- `fullmatch` of a pattern that is a fixed sequence of character classes. -/
def fullmatch : List (CodePoint → Bool) → Text → Bool
  | [], s => s.isEmpty
  | _ :: _, [] => false
  | p :: ps, c :: cs => p c && fullmatch ps cs

/-- What all classes of a pattern have in common holds of every matched character. -/
theorem forall_of_fullmatch {q : CodePoint → Prop} {pattern : List (CodePoint → Bool)} {s : Text}
    (hpt : ∀ p ∈ pattern, ∀ c, p c = true → q c) (h : fullmatch pattern s = true) : ∀ c ∈ s, q c := by
  induction pattern generalizing s with
  | nil =>
    intro c hc
    rw [fullmatch, List.isEmpty_iff] at h
    rw [h] at hc
    cases hc
  | cons p rest ih =>
    cases s with
    | nil =>
      intro c hc
      cases hc
    | cons d tail =>
      rw [fullmatch, Bool.and_eq_true] at h
      intro c hc
      rcases mem_cons.1 hc with rfl | hc
      · exact hpt p mem_cons_self c h.1
      · exact ih (fun p' hp' => hpt p' (mem_cons_of_mem p hp')) h.2 c hc

def literal (s : String) : List (CodePoint → Bool) :=
  (text s).map fun c d => d == c

/-- `^[0-9a-f]{64}$`. -/
def isSha256 (s : Text) : Bool :=
  fullmatch (List.replicate 64 CodePoint.isLowerHex) s

/-- `^sha256:[0-9a-f]{64}$`. -/
def isFingerprint (s : Text) : Bool :=
  fullmatch (literal "sha256:" ++ List.replicate 64 CodePoint.isLowerHex) s

end Text

abbrev Sha256Hex := { s : Text // Text.isSha256 s = true }

end WebOvpn
