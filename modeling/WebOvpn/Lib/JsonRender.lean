/-
The printing of JSON values in any layout, and its reading: what is printed of a
value is read as that value.
-/
import WebOvpn.Lib.JsonRoundTrip
import WebOvpn.Lib.JsonText

namespace WebOvpn

/-- The whitespace that a printer puts between the parts of a document, by the
depth of the container. -/
structure Layout where
  first : Nat → List Char
  next : Nat → List Char
  last : Nat → List Char
  colon : List Char
  first_blank : ∀ depth, ∀ c ∈ first depth, isWhitespace c = true
  next_blank : ∀ depth, ∀ c ∈ next depth, isWhitespace c = true
  last_blank : ∀ depth, ∀ c ∈ last depth, isWhitespace c = true
  colon_blank : ∀ c ∈ colon, isWhitespace c = true

namespace Layout

/-- `separators=(",", ":")`. -/
def dense : Layout where
  first := fun _ => []
  next := fun _ => []
  last := fun _ => []
  colon := []
  first_blank := nofun
  next_blank := nofun
  last_blank := nofun
  colon_blank := nofun

/-- The separators that `json.dumps` takes by itself. -/
def spaced : Layout where
  first := fun _ => []
  next := fun _ => [' ']
  last := fun _ => []
  colon := [' ']
  first_blank := nofun
  next_blank := fun _ => List.forall_mem_singleton.2 rfl
  last_blank := nofun
  colon_blank := List.forall_mem_singleton.2 rfl

def newline (depth : Nat) : List Char := '\n' :: List.replicate (2 * depth) ' '

theorem isWhitespace_of_mem_newline (depth : Nat) : ∀ c ∈ newline depth, isWhitespace c = true := by
  intro c hc
  rcases List.mem_cons.1 hc with rfl | hc
  · rfl
  · rw [List.eq_of_mem_replicate hc]
    rfl

def indented : Layout where
  first := fun depth => newline (depth + 1)
  next := fun depth => newline (depth + 1)
  last := newline
  colon := [' ']
  first_blank := fun depth => isWhitespace_of_mem_newline (depth + 1)
  next_blank := fun depth => isWhitespace_of_mem_newline (depth + 1)
  last_blank := isWhitespace_of_mem_newline
  colon_blank := List.forall_mem_singleton.2 rfl

end Layout

variable (esc : CodePoint → List Char) (layout : Layout)

def renderString (s : Text) : List Char := '"' :: (s.flatMap esc ++ ['"'])

mutual

/-- The text of a value in a container of the given depth. -/
def render (depth : Nat) : JVal → List Char
  | .null => ['n', 'u', 'l', 'l']
  | .bool true => ['t', 'r', 'u', 'e']
  | .bool false => ['f', 'a', 'l', 's', 'e']
  | .int n => encodeInt n
  | .float token => token
  | .str s => renderString esc s
  | .arr items => '[' :: (renderItems depth items ++ [']'])
  | .obj members => '{' :: (renderMembers depth members ++ ['}'])

def renderItems (depth : Nat) : List JVal → List Char
  | [] => []
  | v :: rest => layout.first depth ++ (render (depth + 1) v ++ renderMoreItems depth rest)

def renderMoreItems (depth : Nat) : List JVal → List Char
  | [] => layout.last depth
  | v :: rest => ',' :: (layout.next depth ++ (render (depth + 1) v ++ renderMoreItems depth rest))

def renderMembers (depth : Nat) : List (Text × JVal) → List Char
  | [] => []
  | (k, v) :: rest =>
    layout.first depth ++
      (renderString esc k ++
        ':' :: (layout.colon ++ (render (depth + 1) v ++ renderMoreMembers depth rest)))

def renderMoreMembers (depth : Nat) : List (Text × JVal) → List Char
  | [] => layout.last depth
  | (k, v) :: rest =>
    ',' :: (layout.next depth ++
      (renderString esc k ++
        ':' :: (layout.colon ++ (render (depth + 1) v ++ renderMoreMembers depth rest))))

end

def Spells (s : Text) : Prop :=
  ∀ rest, ∃ units, lexString (s.flatMap esc ++ '"' :: rest) = some (units, rest) ∧ joinSurrogates units = s

/-- No number goes on in the text. -/
def Stops (rest : List Char) : Prop :=
  ∀ c ∈ rest.head?, c.isDigit = false ∧ c ≠ '.' ∧ c ≠ 'e' ∧ c ≠ 'E'

theorem Stops.cons {c : Char} {rest : List Char} (h : c.isDigit = false ∧ c ≠ '.' ∧ c ≠ 'e' ∧ c ≠ 'E') :
    Stops (c :: rest) := by
  intro d hd
  cases hd
  exact h

theorem Stops.blank {blank rest : List Char} (hbl : ∀ c ∈ blank, isWhitespace c = true)
    (h : Stops rest) :
    Stops (blank ++ rest) := by
  cases blank with
  | nil => exact h
  | cons c blank =>
    apply Stops.cons
    have hc := hbl c List.mem_cons_self
    unfold isWhitespace at hc
    simp only [Bool.or_eq_true, beq_iff_eq] at hc
    rcases hc with ((rfl | rfl) | rfl) | rfl <;> decide

/-- A character that begins a value which is no container and no string. -/
structure IsScalarHead (c : Char) : Prop where
  blank : isWhitespace c = false
  brace : c ≠ '{'
  bracket : c ≠ '['
  quote : c ≠ '"'
  close : c ≠ ']'

/-- A reader that keeps what it reads: texts and keys as they are, integers up to
the limit of digits, and the floats that `IsFloat` describes. -/
structure Reader {ε : Type} (d : Dialect ε) (IsFloat : List Char → Prop) : Prop where
  nonFinite : d.nonFinite = true
  string : ∀ s, d.string s = .ok s
  key : ∀ members k, d.key members k = .ok k
  item : ∀ items, d.item items = .ok ()
  enter : ∀ depth, d.enter depth = .ok ()
  object : ∀ pairs, (pairs.map Prod.fst).Nodup → d.object pairs = .ok pairs
  int : ∀ token, token.isInteger = true → token.digits.length ≤ maxStrDigits →
    d.number token = .ok (.int token.toInt)
  float : ∀ token, IsFloat token → ∃ c rest, token = c :: rest ∧ IsScalarHead c
  scalar : ∀ token rest, IsFloat token → Stops rest → parseScalar d (token ++ rest) = .ok (.float token, rest)

variable (IsFloat : List Char → Prop)

mutual

/-- A value whose printed text is read back. -/
def IsReadable : JVal → Prop
  | .int n => n.natAbs < 10 ^ maxStrDigits
  | .float token => IsFloat token
  | .str s => Spells esc s
  | .arr items => AreReadable items
  | .obj members => (members.map Prod.fst).Nodup ∧ MembersReadable members
  | _ => True

def AreReadable : List JVal → Prop
  | [] => True
  | v :: rest => IsReadable v ∧ AreReadable rest

def MembersReadable : List (Text × JVal) → Prop
  | [] => True
  | (k, v) :: rest => Spells esc k ∧ IsReadable v ∧ MembersReadable rest

end

variable {ε : Type} {d : Dialect ε} {esc layout IsFloat}

theorem takeWhile_isDigit {digits rest : List Char} (hdg : ∀ c ∈ digits, c.isDigit = true)
    (hrs : Stops rest) :
    (digits ++ rest).takeWhile Char.isDigit = digits ∧
      (digits ++ rest).dropWhile Char.isDigit = rest := by
  induction digits with
  | nil =>
    cases rest with
    | nil => exact ⟨rfl, rfl⟩
    | cons c rest =>
      have hc := (hrs c rfl).1
      rw [List.nil_append, List.takeWhile_cons_of_neg (by simp [hc]), List.dropWhile_cons_of_neg (by simp [hc])]
      exact ⟨rfl, rfl⟩
  | cons c digits ih =>
    have hc := hdg c List.mem_cons_self
    obtain ⟨htk, hdr⟩ := ih fun d hd => hdg d (List.mem_cons_of_mem _ hd)
    rw [List.cons_append, List.takeWhile_cons_of_pos hc, List.dropWhile_cons_of_pos hc, htk, hdr]
    exact ⟨rfl, rfl⟩

theorem lexFraction_of_stops {rest : List Char} (h : Stops rest) : lexFraction rest = ([], rest) := by
  unfold lexFraction
  split
  · exact absurd rfl (h '.' rfl).2.1
  · rfl

theorem lexExponent_of_stops {rest : List Char} (h : Stops rest) : lexExponent rest = ([], rest) := by
  cases rest with
  | nil => rfl
  | cons c rest =>
    unfold lexExponent
    simp only
    rw [if_neg]
    rintro (rfl | rfl)
    · exact (h 'e' rfl).2.2.1 rfl
    · exact (h 'E' rfl).2.2.2 rfl

theorem toDigits_digits (n : Nat) : ∀ c ∈ Nat.toDigits 10 n, c.isDigit = true := fun _ hc =>
  Nat.isDigit_of_mem_toDigits (by decide) (by decide) hc

theorem head_toDigits (n : Nat) : ∃ c rest, Nat.toDigits 10 n = c :: rest ∧ c.isDigit = true ∧
    (c = '0' → n = 0) := by
  induction n using Nat.strongRecOn with
  | ind n ih =>
    by_cases hsma : n < 10
    · refine ⟨_, _, Nat.toDigits_of_lt_base hsma, ?_, ?_⟩
      · clear ih
        revert n
        decide
      · clear ih
        revert n
        decide
    · obtain ⟨c, rest, hdg, hc, hzr⟩ := ih (n / 10) (by omega)
      refine ⟨c, rest ++ [(n % 10).digitChar], ?_, hc, ?_⟩
      · rw [Nat.toDigits_of_base_le (by decide) (by omega), hdg, List.cons_append]
      · intro h
        have := hzr h
        omega

theorem lexInteger_toDigits (n : Nat) {rest : List Char} (h : Stops rest) :
    lexInteger (Nat.toDigits 10 n ++ rest) = some (Nat.toDigits 10 n, rest) := by
  obtain ⟨c, more, hdg, hc, hzr⟩ := head_toDigits n
  have hmr : ∀ d ∈ more, d.isDigit = true := by
    intro d hd
    apply toDigits_digits n
    rw [hdg]
    exact List.mem_cons_of_mem c hd
  by_cases hc0 : c = '0'
  · have hn := hzr hc0
    subst hn
    rw [Nat.toDigits_zero]
    rfl
  · rw [hdg, List.cons_append, lexInteger, if_neg hc0, if_pos hc, (takeWhile_isDigit hmr h).1,
      (takeWhile_isDigit hmr h).2]

def intToken : Int → NumberToken
  | .ofNat n => ⟨false, Nat.toDigits 10 n, [], []⟩
  | .negSucc n => ⟨true, Nat.toDigits 10 (n + 1), [], []⟩

theorem head?_toDigits_ne (n : Nat) (rest : List Char) :
    (Nat.toDigits 10 n ++ rest).head? ≠ some '-' := by
  obtain ⟨c, more, hdg, hc, -⟩ := head_toDigits n
  rw [hdg]
  intro h
  cases Option.some.inj h
  cases hc

theorem lexNumber_encodeInt (n : Int) {rest : List Char} (h : Stops rest) :
    lexNumber (encodeInt n ++ rest) = some (intToken n, rest) := by
  cases n with
  | ofNat n =>
    have hha : ((encodeInt (.ofNat n) ++ rest).head? == some '-') = false :=
      beq_eq_false_iff_ne.2 (head?_toDigits_ne n rest)
    unfold lexNumber
    simp only [hha, Bool.false_eq_true, if_false]
    rw [show lexInteger (encodeInt (.ofNat n) ++ rest) = _ from lexInteger_toDigits n h]
    simp only [lexFraction_of_stops h, lexExponent_of_stops h]
    rfl
  | negSucc n =>
    unfold lexNumber
    have hlex : lexInteger
      (if (encodeInt (.negSucc n) ++ rest).head? ==
      some '-' then (encodeInt (.negSucc n) ++ rest).tail
        else encodeInt (.negSucc n) ++ rest) = _ := lexInteger_toDigits (n + 1) h
    dsimp only
    rw [hlex]
    simp only [lexFraction_of_stops h, lexExponent_of_stops h]
    rfl

theorem toInt_intToken (n : Int) : (intToken n).toInt = n := by
  cases n with
  | ofNat n => simp [intToken, NumberToken.toInt, Nat.ofDigitChars_ten_toDigits]
  | negSucc n =>
    simp only [intToken, NumberToken.toInt, if_true, Nat.ofDigitChars_ten_toDigits]
    rfl

theorem length_digits_intToken {n : Int} (h : n.natAbs < 10 ^ maxStrDigits) :
    (intToken n).digits.length ≤ maxStrDigits := by
  cases n with
  | _ => exact (Nat.length_toDigits_le_iff (by decide) (by decide)).2 h

theorem encodeInt_cases (n : Int) : ∃ c rest, c.isDigit = true ∧
    (encodeInt n = c :: rest ∨ encodeInt n = '-' :: c :: rest) := by
  cases n with
  | ofNat n =>
    obtain ⟨c, rest, hdg, hc, -⟩ := head_toDigits n
    exact ⟨c, rest, hc, .inl hdg⟩
  | negSucc n =>
    obtain ⟨c, rest, hdg, hc, -⟩ := head_toDigits (n + 1)
    exact ⟨c, rest, hc, .inr (congrArg ('-' :: ·) hdg)⟩

theorem skipWs_blank {blank : List Char} (hbl : ∀ c ∈ blank, isWhitespace c = true) (rest : List Char) :
    skipWs (blank ++ rest) = skipWs rest := by
  unfold skipWs
  rw [List.dropWhile_append, List.dropWhile_eq_nil_iff.2 hbl]
  rfl

theorem skipWs_cons {c : Char} (hc : isWhitespace c = false) (rest : List Char) :
    skipWs (c :: rest) = c :: rest := by
  unfold skipWs
  rw [List.dropWhile_cons_of_neg (by simp [hc])]

theorem parseValue_blank {blank : List Char} (hbl : ∀ c ∈ blank, isWhitespace c = true)
    (depth fuel : Nat)
    (rest : List Char) : parseValue d depth fuel (blank ++ rest) = parseValue d depth fuel rest := by
  cases fuel with
  | zero => rw [parseValue, parseValue]
  | succ fuel => rw [parseValue, parseValue, skipWs_blank hbl]

/-- Reading what begins with a sign of its own. -/
theorem parseValue_scalar (hd : Reader d IsFloat) (depth : Nat) {fuel : Nat} (hfe : 0 < fuel)
    {c : Char} {rest : List Char}
    (hc : IsScalarHead c) : parseValue d depth fuel (c :: rest) = parseScalar d (c :: rest) := by
  obtain ⟨fuel, rfl⟩ := Nat.exists_eq_succ_of_ne_zero (Nat.pos_iff_ne_zero.1 hfe)
  rw [parseValue, hd.enter, skipWs_cons hc.blank]
  simp only [if_neg hc.brace, if_neg hc.bracket, if_neg hc.quote]
  rfl

theorem isDigit_ne {c e : Char} (hc : c.isDigit = true) (he : e.isDigit = false) : c ≠ e := by
  rintro rfl
  rw [hc] at he
  cases he

/-- An integer is none of the other scalars. -/
theorem not_prefix_encodeInt (n : Int) (rest : List Char) {e : Char} (he : e.isDigit = false)
    (hsig : e ≠ '-')
    (word : List Char) : ¬ (e :: word) <+: (encodeInt n ++ rest) := by
  obtain ⟨c, more, hc, heq | heq⟩ := encodeInt_cases n
  · rw [heq, List.cons_append, List.cons_prefix_cons]
    exact fun h => isDigit_ne hc he h.1.symm
  · rw [heq, List.cons_append, List.cons_prefix_cons]
    exact fun h => hsig h.1

theorem not_prefix_infinity (n : Int) (rest : List Char) :
    ¬ ('-' :: 'I' :: "nfinity".toList) <+: (encodeInt n ++ rest) := by
  obtain ⟨c, more, hc, heq | heq⟩ := encodeInt_cases n
  · rw [heq, List.cons_append, List.cons_prefix_cons]
    exact fun h => isDigit_ne hc rfl h.1.symm
  · rw [heq, List.cons_append, List.cons_append, List.cons_prefix_cons, List.cons_prefix_cons]
    exact fun h => isDigit_ne hc rfl h.2.1.symm

theorem parseScalar_int (hd : Reader d IsFloat) {n : Int} (hn : n.natAbs < 10 ^ maxStrDigits)
    {rest : List Char}
    (hrs : Stops rest) : parseScalar d (encodeInt n ++ rest) = .ok (.int n, rest) := by
  have hnum : d.number (intToken n) = .ok (.int n) := by
    rw [hd.int _ (by cases n <;> rfl) (length_digits_intToken hn), toInt_intToken]
  have hnan : ¬ ['N', 'a', 'N'] <+: (encodeInt n ++ rest) := not_prefix_encodeInt n rest rfl (by decide) _
  have hin : ¬ "Infinity".toList <+: (encodeInt n ++ rest) := not_prefix_encodeInt n rest rfl (by decide) _
  have hmin : ¬ "-Infinity".toList <+: (encodeInt n ++ rest) := not_prefix_infinity n rest
  have hnn : lexNonFinite (encodeInt n ++ rest) = none := by
    unfold lexNonFinite
    rw [if_neg hnan, if_neg hin, if_neg hmin]
  unfold parseScalar
  rw [hd.nonFinite, if_pos rfl]
  simp only [hnn]
  rw [if_neg (not_prefix_encodeInt n rest rfl (by decide) _),
    if_neg (not_prefix_encodeInt n rest rfl (by decide) _),
    if_neg (not_prefix_encodeInt n rest rfl (by decide) _), lexNumber_encodeInt n hrs]
  simp only [hnum]
  rfl

theorem isScalarHead_digit {c : Char} (hc : c.isDigit = true) : IsScalarHead c := by
  have hbl : isWhitespace c = false := by
    unfold isWhitespace
    rw [beq_false_of_ne (isDigit_ne hc rfl), beq_false_of_ne (isDigit_ne hc rfl),
      beq_false_of_ne (isDigit_ne hc rfl),
      beq_false_of_ne (isDigit_ne hc rfl)]
    rfl
  exact ⟨hbl, isDigit_ne hc rfl, isDigit_ne hc rfl, isDigit_ne hc rfl, isDigit_ne hc rfl⟩

theorem encodeInt_head (n : Int) : ∃ c rest, encodeInt n = c :: rest ∧ IsScalarHead c := by
  obtain ⟨c, more, hc, heq | heq⟩ := encodeInt_cases n
  · exact ⟨c, more, heq, isScalarHead_digit hc⟩
  · exact ⟨'-', c :: more, heq, by decide, by decide, by decide, by decide, by decide⟩

/-- What is printed of a value begins with a sign that is neither blank nor a
bracket at the end. -/
theorem render_head (layout : Layout) (hd : Reader d IsFloat) (depth : Nat) {v : JVal}
    (hv : IsReadable esc IsFloat v) :
    ∃ c rest, render esc layout depth v = c :: rest ∧ isWhitespace c = false ∧ c ≠ ']' := by
  cases v with
  | bool b => cases b <;> exact ⟨_, _, by rw [render], by decide, by decide⟩
  | int n =>
    obtain ⟨c, rest, heq, hc⟩ := encodeInt_head n
    exact ⟨c, rest, by rw [render, heq], hc.blank, hc.close⟩
  | float token =>
    rw [IsReadable] at hv
    obtain ⟨c, rest, heq, hc⟩ := hd.float token hv
    exact ⟨c, rest, by rw [render, heq], hc.blank, hc.close⟩
  | str s => exact ⟨_, _, by rw [render, renderString], by decide, by decide⟩
  | _ => exact ⟨_, _, by rw [render], by decide, by decide⟩

theorem length_render_pos (layout : Layout) (hd : Reader d IsFloat) (depth : Nat) {v : JVal}
    (hv : IsReadable esc IsFloat v) :
    0 < (render esc layout depth v).length := by
  obtain ⟨c, rest, heq, -⟩ := render_head layout hd depth hv
  rw [heq]
  exact Nat.succ_pos _

theorem stops_renderMoreItems (depth : Nat) (items : List JVal) (rest : List Char) :
    Stops (renderMoreItems esc layout depth items ++ ']' :: rest) := by
  cases items with
  | nil =>
    rw [renderMoreItems]
    exact Stops.blank (layout.last_blank depth) (Stops.cons (by decide))
  | cons v items =>
    rw [renderMoreItems]
    exact Stops.cons (by decide)

theorem stops_renderMoreMembers (depth : Nat) (members : List (Text × JVal)) (rest : List Char) :
    Stops (renderMoreMembers esc layout depth members ++ '}' :: rest) := by
  cases members with
  | nil =>
    rw [renderMoreMembers]
    exact Stops.blank (layout.last_blank depth) (Stops.cons (by decide))
  | cons entry members =>
    rw [renderMoreMembers]
    exact Stops.cons (by decide)

section

variable (hd : Reader d IsFloat) (depth fuel : Nat)
include hd depth fuel

theorem parseValue_items {input rest : List Char} {items : List JVal}
    (hha : (skipWs input).head? ≠ some ']') (h : parseItems d depth [] fuel input = .ok (items, rest)) :
    parseValue d depth (fuel + 1) ('[' :: input) = .ok (.arr items, rest) := by
  rw [parseValue, hd.enter, skipWs_cons (by decide)]
  simp only [if_neg (show '[' ≠ '{' by decide), if_true, if_neg hha, h]
  rfl

theorem parseValue_members {input rest : List Char}
    {members : List (Text × JVal)} (hnd : (members.map Prod.fst).Nodup)
    (hha : (skipWs input).head? ≠ some '}')
    (h : parseMembers d depth [] fuel input = .ok (members, rest)) :
    parseValue d depth (fuel + 1) ('{' :: input) = .ok (.obj members, rest) := by
  rw [parseValue, hd.enter, skipWs_cons (by decide)]
  simp only [if_true, if_neg hha, h]
  change (do
    let members ← d.object members
    return (JVal.obj members, rest)) = _
  rw [hd.object members hnd]
  rfl

theorem parseItems_step {acc : List JVal} {input rest : List Char} {v : JVal}
    (h : parseValue d (depth + 1) fuel input = .ok (v, rest)) :
      parseItems d depth acc (fuel + 1) input =
      match skipWs rest with
      | [] => .error d.malformed
      | c :: rest =>
        if c = ',' then parseItems d depth (acc ++ [v]) fuel rest
        else if c = ']' then .ok (acc ++ [v], rest)
        else .error d.malformed := by
  rw [parseItems, hd.item, h]
  rfl

theorem parseMembers_step {acc : List (Text × JVal)} {k units : Text}
    {blank body input rest : List Char} {v : JVal} (hbl : ∀ c ∈ blank, isWhitespace c = true)
    (hkey : lexString body = some (units, ':' :: input)) (hji : joinSurrogates units = k)
    (h : parseValue d (depth + 1) fuel input = .ok (v, rest)) :
    parseMembers d depth acc (fuel + 1) (blank ++ '"' :: body) = match skipWs rest with
      | [] => .error d.malformed
      | c :: rest =>
        if c = ',' then parseMembers d depth (acc ++ [(k, v)]) fuel rest
        else if c = '}' then .ok (acc ++ [(k, v)], rest)
        else .error d.malformed := by
  rw [parseMembers, skipWs_blank hbl, skipWs_cons (by decide)]
  simp only [List.head?_cons, if_true, List.tail_cons, hkey, hji, hd.key]
  simp only [skipWs_cons (show isWhitespace ':' = false by decide), List.head?_cons, if_true, List.tail_cons, h]
  rfl

end

mutual

theorem parseValue_render (hd : Reader d IsFloat) (depth indent : Nat) :
    ∀ (v : JVal) (fuel : Nat) (rest : List Char), IsReadable esc IsFloat v →
      2 * (render esc layout indent v).length ≤ fuel → Stops rest →
      parseValue d depth fuel (render esc layout indent v ++ rest) = .ok (v, rest)
  | .null, fuel, rest, _, hfe, _ => by
    rw [render] at hfe ⊢
    rw [List.cons_append,
      parseValue_scalar hd depth (by simp at hfe; omega)
      ⟨rfl, by decide, by decide, by decide, by decide⟩]
    unfold parseScalar
    rw [hd.nonFinite]
    simp [lexNonFinite]
  | .bool true, fuel, rest, _, hfe, _ => by
    rw [render] at hfe ⊢
    rw [List.cons_append,
      parseValue_scalar hd depth (by simp at hfe; omega)
      ⟨rfl, by decide, by decide, by decide, by decide⟩]
    unfold parseScalar
    rw [hd.nonFinite]
    simp [lexNonFinite]
  | .bool false, fuel, rest, _, hfe, _ => by
    rw [render] at hfe ⊢
    rw [List.cons_append,
      parseValue_scalar hd depth (by simp at hfe; omega)
      ⟨rfl, by decide, by decide, by decide, by decide⟩]
    unfold parseScalar
    rw [hd.nonFinite]
    simp [lexNonFinite]
  | .int n, fuel, rest, hv, hfe, hrs => by
    rw [IsReadable] at hv
    rw [render] at hfe ⊢
    obtain ⟨c, more, heq, hc⟩ := encodeInt_head n
    have hsc := parseScalar_int hd hv hrs
    rw [heq, List.cons_append] at hsc ⊢
    rw [heq, List.length_cons] at hfe
    rw [parseValue_scalar hd depth (by omega) hc]
    exact hsc
  | .float token, fuel, rest, hv, hfe, hrs => by
    rw [IsReadable] at hv
    rw [render] at hfe ⊢
    have hsc := hd.scalar token rest hv hrs
    obtain ⟨c, more, rfl, hc⟩ := hd.float token hv
    rw [List.cons_append] at hsc ⊢
    rw [List.length_cons] at hfe
    rw [parseValue_scalar hd depth (by omega) hc]
    exact hsc
  | .str s, fuel, rest, hv, hfe, _ => by
    rw [IsReadable] at hv
    rw [render, renderString, List.length_cons] at hfe
    obtain ⟨units, hlex, hji⟩ := hv rest
    obtain ⟨fuel, rfl⟩ := Nat.exists_eq_succ_of_ne_zero (show fuel ≠ 0 by omega)
    rw [render, renderString, List.cons_append, parseValue, hd.enter, skipWs_cons (by decide),
      List.append_assoc,
      List.singleton_append]
    simp only [if_neg (show '"' ≠ '{' by decide), if_neg (show '"' ≠ '[' by decide), if_true, hlex,
      hji, hd.string]
    rfl
  | .arr [], fuel, rest, _, hfe, _ => by
    rw [render, renderItems] at hfe ⊢
    simp only [List.nil_append, List.length_cons, List.length_nil] at hfe
    obtain ⟨fuel, rfl⟩ := Nat.exists_eq_succ_of_ne_zero (show fuel ≠ 0 by omega)
    change parseValue d depth (fuel + 1) ('[' :: ']' :: rest) = _
    rw [parseValue, hd.enter, skipWs_cons (by decide)]
    simp only [skipWs_cons (show isWhitespace ']' = false by decide)]
    rfl
  | .arr (v :: items), fuel, rest, hv, hfe, _ => by
    rw [IsReadable, AreReadable] at hv
    rw [render, renderItems, List.length_cons, List.length_append, List.length_singleton, List.length_append,
      List.length_append] at hfe
    obtain ⟨fuel, rfl⟩ := Nat.exists_eq_succ_of_ne_zero (show fuel ≠ 0 by omega)
    have hra := parseItems_render hd depth indent items v fuel (layout.first indent) rest []
      (layout.first_blank indent)
      hv.1 hv.2 (by omega)
    obtain ⟨c, more, heq, hbl, hcl⟩ := render_head layout hd (indent + 1) hv.1
    rw [render, renderItems, List.cons_append, List.append_assoc, List.append_assoc,
      List.append_assoc, List.singleton_append]
    apply parseValue_items hd depth fuel _ hra
    rw [skipWs_blank (layout.first_blank indent), heq, List.cons_append, skipWs_cons hbl]
    exact fun h => hcl (Option.some.inj h)
  | .obj [], fuel, rest, _, hfe, _ => by
    rw [render, renderMembers] at hfe ⊢
    simp only [List.nil_append, List.length_cons, List.length_nil] at hfe
    obtain ⟨fuel, rfl⟩ := Nat.exists_eq_succ_of_ne_zero (show fuel ≠ 0 by omega)
    change parseValue d depth (fuel + 1) ('{' :: '}' :: rest) = _
    rw [parseValue, hd.enter, skipWs_cons (by decide)]
    simp only [skipWs_cons (show isWhitespace '}' = false by decide)]
    change (do
      let members ← d.object []
      return (JVal.obj members, rest)) = _
    rw [hd.object [] List.nodup_nil]
    rfl
  | .obj ((k, v) :: members), fuel, rest, hv, hfe, _ => by
    rw [IsReadable, MembersReadable] at hv
    simp only [render, renderMembers, renderString, List.length_cons, List.length_append,
      List.length_nil] at hfe
    obtain ⟨fuel, rfl⟩ := Nat.exists_eq_succ_of_ne_zero (show fuel ≠ 0 by omega)
    have hra := parseMembers_render hd depth indent members k v fuel (layout.first indent) rest []
      (layout.first_blank indent) hv.2.1 hv.2.2.1 hv.2.2.2 (by omega)
    simp only [render, renderMembers, List.cons_append, List.append_assoc, List.nil_append]
    apply parseValue_members hd depth fuel hv.1 _ hra
    rw [skipWs_blank (layout.first_blank indent), renderString, List.cons_append, skipWs_cons (by decide)]
    exact fun h => absurd (Option.some.inj h) (by decide)
termination_by _ fuel => fuel

theorem parseItems_render (hd : Reader d IsFloat) (depth indent : Nat) :
    ∀ (items : List JVal) (v : JVal) (fuel : Nat) (blank rest : List Char) (acc : List JVal),
      (∀ c ∈ blank, isWhitespace c = true) → IsReadable esc IsFloat v → AreReadable esc IsFloat items →
      2 * (blank.length + (render esc layout (indent + 1) v).length +
        (renderMoreItems esc layout indent items).length + 1) ≤
        fuel → parseItems d depth acc fuel
        (blank ++ (render esc layout (indent + 1) v ++
          (renderMoreItems esc layout indent items ++ ']' :: rest))) =
        .ok (acc ++ v :: items, rest)
  | [], v, fuel, blank, rest, acc, hbl, hv, _, hfe => by
    obtain ⟨fuel, rfl⟩ := Nat.exists_eq_succ_of_ne_zero (show fuel ≠ 0 by omega)
    have hvl := parseValue_render hd (depth + 1) (indent + 1) v fuel
      (renderMoreItems esc layout indent [] ++ ']' :: rest)
      hv (by omega) (stops_renderMoreItems indent [] rest)
    rw [parseItems_step hd depth fuel ((parseValue_blank hbl _ _ _).trans hvl), renderMoreItems,
      skipWs_blank (layout.last_blank indent), skipWs_cons (by decide)]
    rfl
  | w :: items, v, fuel, blank, rest, acc, hbl, hv, hits, hfe => by
    rw [AreReadable] at hits
    have hpos := length_render_pos layout hd (indent + 1) hv
    simp only [renderMoreItems, List.length_cons, List.length_append] at hfe
    obtain ⟨fuel, rfl⟩ := Nat.exists_eq_succ_of_ne_zero (show fuel ≠ 0 by omega)
    have hvl := parseValue_render hd (depth + 1) (indent + 1) v fuel
      (renderMoreItems esc layout indent (w :: items) ++ ']' :: rest) hv (by omega)
      (stops_renderMoreItems indent (w :: items) rest)
    have hmr := parseItems_render hd depth indent items w fuel (layout.next indent) rest (acc ++ [v])
      (layout.next_blank indent) hits.1 hits.2 (by omega)
    rw [parseItems_step hd depth fuel ((parseValue_blank hbl _ _ _).trans hvl), renderMoreItems]
    simp only [List.cons_append, List.append_assoc,
      skipWs_cons (show isWhitespace ',' = false by decide), if_true]
    rw [hmr, List.append_assoc]
    rfl
termination_by _ _ fuel => fuel

theorem parseMembers_render (hd : Reader d IsFloat) (depth indent : Nat) :
    ∀ (members : List (Text × JVal)) (k : Text) (v : JVal) (fuel : Nat) (blank rest : List Char)
      (acc : List (Text × JVal)), (∀ c ∈ blank, isWhitespace c = true) → Spells esc k →
        IsReadable esc IsFloat v →
      MembersReadable esc IsFloat members →
      2 * (blank.length + layout.colon.length + (render esc layout (indent + 1) v).length +
        (renderMoreMembers esc layout indent members).length + 1) ≤ fuel → parseMembers d depth acc fuel
        (blank ++ (renderString esc k ++ ':' :: (layout.colon ++ (render esc layout (indent + 1) v ++
          (renderMoreMembers esc layout indent members ++ '}' :: rest))))) =
        .ok (acc ++ (k, v) :: members, rest)
  | [], k, v, fuel, blank, rest, acc, hbl, hk, hv, _, hfe => by
    obtain ⟨fuel, rfl⟩ := Nat.exists_eq_succ_of_ne_zero (show fuel ≠ 0 by omega)
    have hvl := parseValue_render hd (depth + 1) (indent + 1) v fuel
      (renderMoreMembers esc layout indent [] ++ '}' :: rest) hv (by omega)
        (stops_renderMoreMembers indent [] rest)
    obtain ⟨units, hlex, hji⟩ := hk (':' :: (layout.colon ++ (render esc layout (indent + 1) v ++
      (renderMoreMembers esc layout indent [] ++ '}' :: rest))))
    simp only [renderString, List.cons_append, List.append_assoc, List.nil_append]
    rw [parseMembers_step hd depth fuel hbl hlex hji ((parseValue_blank layout.colon_blank _ _ _).trans hvl),
      renderMoreMembers, skipWs_blank (layout.last_blank indent), skipWs_cons (by decide)]
    rfl
  | (l, w) :: members, k, v, fuel, blank, rest, acc, hbl, hk, hv, hms, hfe => by
    rw [MembersReadable] at hms
    simp only [renderMoreMembers, renderString, List.length_cons, List.length_append, List.length_nil] at hfe
    obtain ⟨fuel, rfl⟩ := Nat.exists_eq_succ_of_ne_zero (show fuel ≠ 0 by omega)
    have hvl := parseValue_render hd (depth + 1) (indent + 1) v fuel
      (renderMoreMembers esc layout indent ((l, w) :: members) ++ '}' :: rest) hv
      (by omega) (stops_renderMoreMembers indent ((l, w) :: members) rest)
    have hmr := parseMembers_render hd depth indent members l w fuel (layout.next indent) rest (acc ++ [(k, v)])
      (layout.next_blank indent) hms.1 hms.2.1 hms.2.2 (by omega)
    obtain ⟨units, hlex, hji⟩ := hk (':' :: (layout.colon ++ (render esc layout (indent + 1) v ++
      (renderMoreMembers esc layout indent ((l, w) :: members) ++ '}' :: rest))))
    simp only [renderString, List.cons_append, List.append_assoc, List.nil_append]
    rw [parseMembers_step hd depth fuel hbl hlex hji ((parseValue_blank layout.colon_blank _ _ _).trans hvl),
      renderMoreMembers]
    simp only [List.cons_append, List.append_assoc,
      skipWs_cons (show isWhitespace ',' = false by decide), if_true]
    rw [hmr, List.append_assoc]
    rfl
termination_by _ _ _ fuel => fuel

end

theorem parseDocument_render (hd : Reader d IsFloat) {v : JVal} (hv : IsReadable esc IsFloat v)
    {blank : List Char}
    (hbl : ∀ c ∈ blank, isWhitespace c = true) :
      parseDocument d (render esc layout 0 v ++ blank) = .ok v := by
  have hst : Stops blank := by
    have h : Stops (blank ++ []) := Stops.blank hbl nofun
    rwa [List.append_nil] at h
  have hra : parseValue d 0 (2 * (render esc layout 0 v ++ blank).length + 2) (render esc layout 0 v ++ blank) =
      .ok (v, blank) := by
    apply parseValue_render hd 0 0 v _ blank hv _ hst
    rw [List.length_append]
    omega
  unfold parseDocument
  rw [hra]
  change (if skipWs blank = [] then _ else _) = _
  have hend : skipWs blank = [] := List.dropWhile_eq_nil_iff.2 hbl
  rw [if_pos hend]
  rfl

theorem spells_escapeCodePoint {s : Text} (h : Joined s) : Spells escapeCodePoint s := by
  intro rest
  exact ⟨_, lexString_encodeString s rest, joinSurrogates_utf16 h⟩

def escapeChar (c : CodePoint) : List Char :=
  if c.val = 0x22 ∨ c.val = 0x5c ∨ c.val < 0x20 then escapeCodePoint c else [Char.ofNat c.val]

theorem toNat_ofNat_of_not_isSurrogate {c : CodePoint} (h : c.isSurrogate = false) :
    (Char.ofNat c.val).toNat = c.val := by
  have hlt := c.isLt
  unfold CodePoint.isSurrogate at h
  simp only [Bool.and_eq_false_imp, decide_eq_true_eq, decide_eq_false_iff_not] at h
  have hvl : c.val.isValidChar := by
    unfold Nat.isValidChar
    omega
  rw [Char.ofNat, dif_pos hvl]
  rfl

theorem lexString_escapeChar {c : CodePoint} (hc : c.isSurrogate = false) (rest : List Char) :
    lexString (escapeChar c ++ rest) = (lexString rest).map fun (s, left) => (c :: s, left) := by
  unfold escapeChar
  split_ifs with hesc
  · rw [lexString_escapeCodePoint, utf16, if_pos (by omega)]
    rfl
  · have hch := toNat_ofNat_of_not_isSurrogate hc
    have hne : ∀ d : Char, c.val ≠ d.toNat → Char.ofNat c.val ≠ d := by
      intro d hd heq
      exact hd (by rw [← hch, heq])
    have hcd : CodePoint.ofChar (Char.ofNat c.val) = c := Fin.ext hch
    rw [List.singleton_append, lexString_plain (hne '"' fun h => hesc (.inl h))
      (hne '\\' fun h => hesc (.inr (.inl h))) (by omega), hcd]

theorem joinSurrogates_of_isEncodable {s : Text} (h : s.isEncodable = true) : joinSurrogates s = s := by
  rw [Text.isEncodable_iff] at h
  induction s with
  | nil => rfl
  | cons c rest ih =>
    have hc := h c List.mem_cons_self
    have hhg : ¬ c.isHigh = true := by
      unfold CodePoint.isSurrogate at hc
      unfold CodePoint.isHigh
      simp only [Bool.and_eq_false_imp, decide_eq_true_eq, decide_eq_false_iff_not] at hc
      simp only [Bool.and_eq_true, decide_eq_true_eq]
      omega
    rw [joinSurrogates_cons_of_not_high rest (by simpa using hhg),
      ih fun d hd => h d (List.mem_cons_of_mem c hd)]

theorem spells_escapeChar {s : Text} (h : s.isEncodable = true) : Spells escapeChar s := by
  intro rest
  refine ⟨s, ?_, joinSurrogates_of_isEncodable h⟩
  rw [Text.isEncodable_iff] at h
  induction s with
  | nil =>
    rw [List.flatMap_nil, List.nil_append, lexString.eq_def]
    simp
  | cons c s ih =>
    rw [List.flatMap_cons, List.append_assoc, lexString_escapeChar (h c List.mem_cons_self),
      ih fun d hd => h d (List.mem_cons_of_mem c hd)]
    rfl

end WebOvpn
