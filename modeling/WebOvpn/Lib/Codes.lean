/-
Codes for texts and numbers: numbers as `str` writes them, Base64 over the standard
and the URL-safe alphabet, and texts put together from parts, when the parts can be
told from the text.
-/
import WebOvpn.Lib.Text

namespace WebOvpn

open List

namespace Decimal

variable {n m : Nat}

/-- `str` of a number that is not negative. -/
def render (n : Nat) : Text := (Nat.toDigits 10 n).map CodePoint.ofChar

def value (digits : Text) : Nat := digits.foldl (fun acc c => acc * 10 + (c.val - 48)) 0

theorem render_ne_nil (n : Nat) : render n ≠ [] := by
  unfold render
  rw [ne_eq, map_eq_nil_iff]
  exact Nat.toDigits_ne_nil

theorem isDigit_of_mem_render {c : CodePoint} (h : c ∈ render n) : c.isDigit = true := by
  obtain ⟨char, hch, rfl⟩ := mem_map.1 h
  have hdg : char.isDigit = true := Nat.isDigit_of_mem_toDigits (by decide) (by decide) hch
  unfold Char.isDigit at hdg
  unfold CodePoint.isDigit CodePoint.ofChar
  exact hdg

theorem length_render (h : n < 10 ^ m) (hm : 0 < m) : (render n).length ≤ m := by
  unfold render
  rw [length_map]
  exact (Nat.length_toDigits_le_iff (by decide) hm).2 h

theorem render_of_lt (h : n < 10) : render n = [Fin.ofNat _ (48 + n)] := by
  have hall : ∀ n < 10, render n = [Fin.ofNat _ (48 + n)] := by decide
  exact hall n h

/-- The last digit of a number that has others. -/
theorem render_of_le (h : 10 ≤ n) : render n = render (n / 10) ++ render (n % 10) := by
  have hmod : n % 10 < 10 := Nat.mod_lt n (by decide)
  unfold render
  rw [← map_append, Nat.toDigits_of_base_le (by decide) h, Nat.toDigits_of_lt_base hmod]

theorem value_append (s t : Text) :
    value (s ++ t) = t.foldl (fun acc c => acc * 10 + (c.val - 48)) (value s) := by
  unfold value
  rw [List.foldl_append]

/-- A number is read again from its digits. -/
theorem value_render (n : Nat) : value (render n) = n := by
  induction n using Nat.strongRecOn with
  | ind n ih =>
    by_cases hsma : n < 10
    · rw [render_of_lt hsma]
      change 0 * 10 + ((48 + n) % 0x110000 - 48) = n
      omega
    · have hmod : n % 10 < 10 := Nat.mod_lt n (by decide)
      rw [render_of_le (Nat.le_of_not_lt hsma), value_append, ih (n / 10) (by omega), render_of_lt hmod]
      change n / 10 * 10 + ((48 + n % 10) % 0x110000 - 48) = n
      omega

theorem render_injective : Function.Injective render := by
  intro n m h
  rw [← value_render n, h, value_render]

/-- There is no leading zero. -/
theorem head_render (h : 0 < n) : ∃ c rest, render n = c :: rest ∧ c.val ≠ 48 := by
  induction n using Nat.strongRecOn with
  | ind n ih =>
    by_cases hsma : n < 10
    · refine ⟨_, [], render_of_lt hsma, ?_⟩
      change (48 + n) % 0x110000 ≠ 48
      omega
    · obtain ⟨c, rest, hrs, hc⟩ := ih (n / 10) (by omega) (by omega)
      refine ⟨c, rest ++ render (n % 10), ?_, hc⟩
      rw [render_of_le (Nat.le_of_not_lt hsma), hrs, cons_append]

end Decimal

namespace Base64

/-- The last two characters of an alphabet; the other sixty-two are shared. -/
structure Alphabet where
  plus : Char
  slash : Char

def standard : Alphabet := ⟨'+', '/'⟩

def urlsafe : Alphabet := ⟨'-', '_'⟩

def pad : CodePoint := '='

/-- The character of a six-bit group. -/
def digit (alphabet : Alphabet) (n : Nat) : CodePoint :=
  if n < 26 then Fin.ofNat _ (65 + n)
  else if n < 52 then Fin.ofNat _ (97 + (n - 26))
  else if n < 62 then Fin.ofNat _ (48 + (n - 52))
  else CodePoint.ofChar (if n = 62 then alphabet.plus else alphabet.slash)

/-- The six-bit group of a character. -/
def value (alphabet : Alphabet) (c : CodePoint) : Option Nat :=
  if c.isUpper then some (c.val - 65)
  else if c.isLower then some (c.val - 97 + 26)
  else if c.isDigit then some (c.val - 48 + 52)
  else if c = CodePoint.ofChar alphabet.plus then some 62
  else if c = CodePoint.ofChar alphabet.slash then some 63
  else none

def encode (alphabet : Alphabet) : Bytes → Text
  | [] => []
  | [a] =>
    [digit alphabet (a.toNat / 4), digit alphabet (a.toNat % 4 * 16), pad, pad]
  | [a, b] =>
    [digit alphabet (a.toNat / 4), digit alphabet (a.toNat % 4 * 16 + b.toNat / 16),
      digit alphabet (b.toNat % 16 * 4), pad]
  | a :: b :: c :: rest =>
    digit alphabet (a.toNat / 4) ::
      digit alphabet (a.toNat % 4 * 16 + b.toNat / 16) ::
      digit alphabet (b.toNat % 16 * 4 + c.toNat / 64) ::
      digit alphabet (c.toNat % 64) :: encode alphabet rest

/-- `b64decode(s, validate=True)`: groups of four, padding only at the end. -/
def decode (alphabet : Alphabet) : Text → Option Bytes
  | [] => some []
  | a :: b :: c :: d :: rest =>
    match value alphabet a, value alphabet b with
    | some a, some b =>
      let first := UInt8.ofNat (a * 4 + b / 16)
      if rest = [] ∧ c = pad ∧ d = pad then some [first]
      else
        match value alphabet c with
        | none => none
        | some c =>
          let second := UInt8.ofNat (b % 16 * 16 + c / 4)
          if rest = [] ∧ d = pad then some [first, second]
          else
            match value alphabet d, decode alphabet rest with
            | some d, some bytes =>
              some (first :: second :: UInt8.ofNat (c % 4 * 64 + d) :: bytes)
            | _, _ => none
    | _, _ => none
  | _ => none

end Base64

/-- A part without the separator is told from the text that goes on with it. -/
theorem append_cons_inj {α : Type} {c : α} {a b x y : List α} (ha : c ∉ a) (hb : c ∉ b)
    (h : a ++ c :: x = b ++ c :: y) : a = b ∧ x = y := by
  rcases append_eq_append_iff.1 h with ⟨s, hlf, hrg⟩ | ⟨s, hlf, hrg⟩
  · cases s with
    | nil =>
      rw [append_nil] at hlf
      exact ⟨hlf.symm, (List.cons.inj hrg).2⟩
    | cons d s =>
      rw [hlf, ← (List.cons.inj hrg).1] at hb
      exact absurd (mem_append_right a mem_cons_self) hb
  · cases s with
    | nil =>
      rw [append_nil] at hlf
      exact ⟨hlf, (List.cons.inj hrg).2.symm⟩
    | cons d s =>
      rw [hlf, ← (List.cons.inj hrg).1] at ha
      exact absurd (mem_append_right b mem_cons_self) ha

theorem flatMap_inj_of_step {α β : Type} {text : α → List β} {Left Right : α → Prop}
    {Rest : List β → Prop}
    (hlf : ∀ items : List α, (∀ a ∈ items, Left a) → Rest (items.flatMap text))
    (hrg : ∀ items : List α, (∀ a ∈ items, Right a) → Rest (items.flatMap text))
    (hlne : ∀ a, Left a → text a ≠ []) (hrne : ∀ a, Right a → text a ≠ [])
    (hst : ∀ a b x y, Left a → Right b → Rest x → Rest y → text a ++ x = text b ++ y → a = b) :
    ∀ {items items' : List α}, (∀ a ∈ items, Left a) → (∀ a ∈ items', Right a) →
      items.flatMap text = items'.flatMap text → items = items' := by
  intro items
  induction items with
  | nil =>
    intro items' _ hits' h
    cases items' with
    | nil => rfl
    | cons b rest =>
      rw [flatMap_nil, flatMap_cons] at h
      exact absurd (append_eq_nil_iff.1 h.symm).1 (hrne b (hits' b mem_cons_self))
  | cons a rest ih =>
    intro items' hits hits' h
    rw [forall_mem_cons] at hits
    cases items' with
    | nil =>
      rw [flatMap_nil, flatMap_cons] at h
      exact absurd (append_eq_nil_iff.1 h).1 (hlne a hits.1)
    | cons b rest' =>
      rw [forall_mem_cons] at hits'
      rw [flatMap_cons, flatMap_cons] at h
      have hfs := hst a b _ _ hits.1 hits'.1 (hlf rest hits.2) (hrg rest' hits'.2) h
      subst hfs
      rw [ih hits.2 hits'.2 (append_cancel_left h)]

end WebOvpn
