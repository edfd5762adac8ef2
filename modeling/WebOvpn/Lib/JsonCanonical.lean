/-
Canonical documents of Python values: `json.loads` builds values that
`json.dumps` writes, the document of a value is read back as the value up to the
order of keys, and different values have different documents.
-/
import WebOvpn.Lib.FloatReader
import WebOvpn.Lib.JsonBytes
import WebOvpn.Lib.Run
import WebOvpn.Lib.Sorted

namespace WebOvpn

open List

theorem JVal.induction {P : JVal → Prop} (null : P .null) (bool : ∀ b, P (.bool b))
    (int : ∀ n, P (.int n))
    (float : ∀ token, P (.float token)) (str : ∀ s, P (.str s))
    (arr : ∀ items, (∀ v ∈ items, P v) → P (.arr items))
    (obj : ∀ members, (∀ m ∈ members, P m.2) → P (.obj members)) (v : JVal) : P v := by
  apply @JVal.rec P (fun items => ∀ v ∈ items, P v) (fun members => ∀ m ∈ members, P m.2)
    (fun m => P m.2) null bool int float
    str arr obj
  · intro v hv
    cases hv
  · intro v rest hv hrs w hw
    rcases mem_cons.1 hw with rfl | hw
    · exact hv
    · exact hrs w hw
  · intro m hm
    cases hm
  · intro m rest hm hrs n hn
    rcases mem_cons.1 hn with rfl | hn
    · exact hm
    · exact hrs n hn
  · intro k v hv
    exact hv

theorem sortKeysItems_eq (items : List JVal) : sortKeysItems items = items.map sortKeys := by
  induction items with
  | nil => rfl
  | cons v rest ih => rw [sortKeysItems, ih, map_cons]

variable (members : List (Text × JVal))

theorem sortKeysMembers_eq :
    sortKeysMembers members = members.map fun m => (m.1, sortKeys m.2) := by
  induction members with
  | nil => rfl
  | cons m rest ih => rw [sortKeysMembers, ih, map_cons]

theorem sortKeys_obj :
    sortKeys (.obj members) = .obj (sortByName (members.map fun m => (m.1, sortKeys m.2))) := by
  rw [sortKeys, sortKeysMembers_eq]
  rfl

theorem itemsEncodable_iff {items : List JVal} : itemsEncodable items = true ↔
    ∀ v ∈ items, v.isEncodable = true := by
  induction items with
  | nil => simp [itemsEncodable]
  | cons v rest ih => rw [itemsEncodable, Bool.and_eq_true, ih, forall_mem_cons]

theorem membersEncodable_iff {members : List (Text × JVal)} :
    membersEncodable members = true ↔ ∀ m ∈ members, m.1.isEncodable = true ∧
      m.2.isEncodable = true := by
  rw [membersEncodable_eq_all, all_eq_true]
  simp only [Bool.and_eq_true]

variable {esc : CodePoint → List Char} {IsFloat : List Char → Prop}

theorem areReadable_iff {items : List JVal} : AreReadable esc IsFloat items ↔
    ∀ v ∈ items, IsReadable esc IsFloat v := by
  induction items with
  | nil => simp [AreReadable]
  | cons v rest ih => rw [AreReadable, ih, forall_mem_cons]

theorem membersReadable_iff {members : List (Text × JVal)} :
    MembersReadable esc IsFloat members ↔ ∀ m ∈ members, Spells esc m.1 ∧
      IsReadable esc IsFloat m.2 := by
  induction members with
  | nil => simp [MembersReadable]
  | cons m rest ih => rw [MembersReadable, ih, forall_mem_cons, and_assoc]

@[simp]
theorem sortKeys_sortKeys (v : JVal) : sortKeys (sortKeys v) = sortKeys v := by
  induction v using JVal.induction with
  | arr items ih =>
    rw [sortKeys, sortKeysItems_eq, sortKeys, sortKeysItems_eq, map_map]
    exact congrArg JVal.arr (map_congr_left ih)
  | obj members ih =>
    rw [sortKeys_obj, sortKeys_obj, map_sortByName (fun m => (m.1, sortKeys m.2)) fun _ => rfl,
      sortByName_sortByName,
      map_map]
    have hms : members.map ((fun m => (m.1, sortKeys m.2)) ∘ fun m => (m.1, sortKeys m.2)) =
        members.map fun m => (m.1, sortKeys m.2) := by
      apply map_congr_left
      intro m hm
      exact congrArg (m.1, ·) (ih m hm)
    rw [hms]
  | _ => rfl

theorem isReadable_sortKeys {v : JVal} (h : IsReadable esc IsFloat v) :
    IsReadable esc IsFloat (sortKeys v) := by
  induction v using JVal.induction with
  | arr items ih =>
    rw [IsReadable, areReadable_iff] at h
    rw [sortKeys, sortKeysItems_eq, IsReadable, areReadable_iff]
    intro v hv
    obtain ⟨w, hw, rfl⟩ := mem_map.1 hv
    exact ih w hw (h w hw)
  | obj members ih =>
    rw [IsReadable, membersReadable_iff] at h
    rw [sortKeys_obj, IsReadable, membersReadable_iff]
    have hpr := sortByName_perm (members.map fun m => (m.1, sortKeys m.2))
    have hks : ((members.map fun m => (m.1, sortKeys m.2)).map Prod.fst) = members.map Prod.fst := by
      rw [map_map]
      rfl
    constructor
    · rw [(hpr.map Prod.fst).nodup_iff, hks]
      exact h.1
    · intro m hm
      obtain ⟨n, hn, rfl⟩ := mem_map.1 (mem_sortByName.1 hm)
      exact ⟨(h.2 n hn).1, ih n hn (h.2 n hn).2⟩
  | _ => exact h

/-- The hooks of a reader keep what holds of keys and of values. -/
structure Builder {ε : Type} (d : Dialect ε) (Key : Text → Prop) (Value : JVal → Prop) : Prop where
  null : Value .null
  bool : ∀ b, Value (.bool b)
  nonFinite : ∀ input v rest, d.nonFinite = true → lexNonFinite input = some (v, rest) → Value v
  number : ∀ input token rest v, lexNumber input = some (token, rest) → d.number token = .ok v → Value v
  string : ∀ units s, d.string (joinSurrogates units) = .ok s → Value (.str s)
  key : ∀ members units k, d.key members (joinSurrogates units) = .ok k → Key k
  arr : ∀ items, (∀ v ∈ items, Value v) → Value (.arr items)
  obj : ∀ pairs members, (∀ m ∈ pairs, Key m.1 ∧ Value m.2) → d.object pairs = .ok members →
    Value (.obj members)

variable {ε : Type} {d : Dialect ε} {Key : Text → Prop} {Value : JVal → Prop}

theorem parseScalar_builds (hd : Builder d Key Value) {input rest : List Char} {v : JVal}
    (h : parseScalar d input = .ok (v, rest)) : Value v := by
  unfold parseScalar at h
  split at h
  · rename_i result hsp
    cases h
    split_ifs at hsp with hnn
    exact hd.nonFinite _ _ _ hnn hsp
  · split_ifs at h
    · cases h
      exact hd.null
    · cases h
      exact hd.bool true
    · cases h
      exact hd.bool false
    · split at h
      · cases h
      · rename_i token more hlex
        obtain ⟨w, hw, hrs⟩ := bind_eq_ok.1 h
        cases hrs
        exact hd.number _ _ _ _ hlex hw

theorem parse_builds (hd : Builder d Key Value) (fuel : Nat) :
    (∀ depth input v rest, parseValue d depth fuel input = .ok (v, rest) → Value v) ∧
    (∀ depth acc input items rest, (∀ v ∈ acc, Value v) →
      parseItems d depth acc fuel input = .ok (items, rest) →
      ∀ v ∈ items, Value v) ∧ (∀ depth acc input members rest, (∀ m ∈ acc, Key m.1 ∧ Value m.2) →
      parseMembers d depth acc fuel input = .ok (members, rest) → ∀ m ∈ members, Key m.1 ∧
        Value m.2) := by
  induction fuel with
  | zero =>
    refine ⟨?_, ?_, ?_⟩
    · intro depth input v rest h
      rw [parseValue] at h
      cases h
    · intro depth acc input items rest _ h
      rw [parseItems] at h
      cases h
    · intro depth acc input members rest _ h
      rw [parseMembers] at h
      cases h
  | succ fuel ih =>
    obtain ⟨hvl, hits, hms⟩ := ih
    refine ⟨?_, ?_, ?_⟩
    · intro depth input v rest h
      rw [parseValue] at h
      obtain ⟨_, -, h⟩ := bind_eq_ok.1 h
      split at h
      · cases h
      · rename_i c more _
        split_ifs at h with hbra hem hbrac hnn hquo
        · obtain ⟨members, hobj, h⟩ := bind_eq_ok.1 h
          cases h
          exact hd.obj [] members (forall_mem_nil _) hobj
        · obtain ⟨⟨pairs, left⟩, hpi, h⟩ := bind_eq_ok.1 h
          obtain ⟨members, hobj, h⟩ := bind_eq_ok.1 h
          cases h
          exact hd.obj pairs members (hms _ _ _ _ _ (forall_mem_nil _) hpi) hobj
        · cases h
          exact hd.arr [] (forall_mem_nil _)
        · obtain ⟨⟨items, left⟩, hra, h⟩ := bind_eq_ok.1 h
          cases h
          exact hd.arr items (hits _ _ _ _ _ (forall_mem_nil _) hra)
        · split at h
          · cases h
          · obtain ⟨s, hs, h⟩ := bind_eq_ok.1 h
            cases h
            exact hd.string _ s hs
        · exact parseScalar_builds hd h
    · intro depth acc input items rest hac h
      rw [parseItems] at h
      obtain ⟨_, -, h⟩ := bind_eq_ok.1 h
      obtain ⟨⟨v, left⟩, hv, h⟩ := bind_eq_ok.1 h
      have hmr : ∀ w ∈ acc ++ [v], Value w := by
        intro w hw
        rcases mem_append.1 hw with hw | hw
        · exact hac w hw
        · rw [mem_singleton.1 hw]
          exact hvl _ _ _ _ hv
      dsimp only at h
      split at h
      · cases h
      · split_ifs at h
        · exact hits _ _ _ _ _ hmr h
        · cases h
          exact hmr
    · intro depth acc input members rest hac h
      rw [parseMembers] at h
      split_ifs at h
      split at h
      · cases h
      · obtain ⟨k, hk, h⟩ := bind_eq_ok.1 h
        split_ifs at h
        obtain ⟨⟨v, left⟩, hv, h⟩ := bind_eq_ok.1 h
        have hmr : ∀ m ∈ acc ++ [(k, v)], Key m.1 ∧ Value m.2 := by
          intro m hm
          rcases mem_append.1 hm with hm | hm
          · exact hac m hm
          · rw [mem_singleton.1 hm]
            exact ⟨hd.key _ _ k hk, hvl _ _ _ _ hv⟩
        dsimp only at h
        split at h
        · cases h
        · split_ifs at h
          · exact hms _ _ _ _ _ hmr h
          · cases h
            exact hmr

theorem parseDocument_builds (hd : Builder d Key Value) {input : List Char} {v : JVal}
    (h : parseDocument d input = .ok v) : Value v := by
  unfold parseDocument at h
  obtain ⟨⟨w, rest⟩, hra, h⟩ := bind_eq_ok.1 h
  dsimp only at h
  split_ifs at h
  cases h
  exact (parse_builds hd _).1 _ _ _ _ hra

variable {members : List (Text × JVal)} {v : JVal}

theorem dictInsert_of_not_mem {key : Text} (h : key ∉ members.map Prod.fst) (value : JVal) :
    dictInsert members key value = members ++ [(key, value)] := by
  induction members with
  | nil => rfl
  | cons m rest ih =>
    rw [map_cons, mem_cons, not_or] at h
    rw [dictInsert, if_neg (Ne.symm h.1), ih h.2, cons_append]

theorem keys_dictInsert (members : List (Text × JVal)) (key : Text) (value : JVal) :
    (dictInsert members key value).map Prod.fst =
      if key ∈ members.map Prod.fst then members.map Prod.fst else members.map Prod.fst ++ [key] := by
  induction members with
  | nil => rfl
  | cons m rest ih =>
    rw [dictInsert]
    split_ifs with hkey hmem hmem
    · rfl
    · exact absurd (mem_cons.2 (.inl hkey.symm)) hmem
    · rcases mem_cons.1 hmem with heq | hrs
      · exact absurd heq.symm hkey
      · rw [map_cons, ih, if_pos hrs, map_cons]
    · rw [map_cons, ih, if_neg fun hrs => hmem (mem_cons_of_mem _ hrs), map_cons, cons_append]

theorem mem_dictInsert {key : Text} {value : JVal} {m : Text × JVal}
    (h : m ∈ dictInsert members key value) : m ∈ members ∨ m = (key, value) := by
  induction members with
  | nil => exact .inr (mem_singleton.1 h)
  | cons n rest ih =>
    rw [dictInsert] at h
    split_ifs at h with hkey
    · rcases mem_cons.1 h with rfl | h
      · exact .inr (by rw [hkey])
      · exact .inl (mem_cons_of_mem _ h)
    · rcases mem_cons.1 h with rfl | h
      · exact .inl mem_cons_self
      · exact (ih h).imp_left (mem_cons_of_mem _)

theorem nodup_dictOf (pairs : List (Text × JVal)) : ((dictOf pairs).map Prod.fst).Nodup := by
  induction pairs using List.reverseRecOn with
  | nil => exact nodup_nil
  | append_singleton pairs p ih =>
    unfold dictOf at ih ⊢
    rw [List.foldl_append, foldl_cons, foldl_nil, keys_dictInsert]
    split_ifs with hmem
    · exact ih
    · exact nodup_append.2 ⟨ih, nodup_singleton _, fun a ha b hb => by
        rw [mem_singleton.1 hb]
        rintro rfl
        exact hmem ha⟩

theorem mem_dictOf {pairs : List (Text × JVal)} {m : Text × JVal} (h : m ∈ dictOf pairs) :
    m ∈ pairs := by
  induction pairs using List.reverseRecOn with
  | nil => exact h
  | append_singleton pairs p ih =>
    unfold dictOf at ih h
    rw [List.foldl_append, foldl_cons, foldl_nil] at h
    rcases mem_dictInsert h with h | h
    · exact mem_append_left _ (ih h)
    · exact mem_append_right _ (mem_singleton.2 h)

theorem dictOf_of_nodup {pairs : List (Text × JVal)} (h : (pairs.map Prod.fst).Nodup) :
    dictOf pairs = pairs := by
  induction pairs using List.reverseRecOn with
  | nil => rfl
  | append_singleton pairs p ih =>
    rw [map_append, nodup_append] at h
    have hdc := ih h.1
    have hnew : p.1 ∉ pairs.map Prod.fst := fun hmem => h.2.2 _ hmem _ (mem_singleton.2 rfl) rfl
    unfold dictOf at hdc ⊢
    rw [List.foldl_append, foldl_cons, foldl_nil, hdc, dictInsert_of_not_mem hnew]

/-- What `json.loads` makes of numbers and what `json.dumps` writes for them agree. -/
theorem floatDialect_reader : Reader floatDialect IsFloatText where
  nonFinite := rfl
  string := fun _ => rfl
  key := fun _ _ => rfl
  item := fun _ => rfl
  enter := fun _ => rfl
  object := fun _ hpi => congrArg Except.ok (dictOf_of_nodup hpi)
  int := fun _ hint hdg => by
    change floatNumber _ = _
    rw [floatNumber, if_pos hint, pythonNumber, if_pos hint, if_neg (Nat.not_lt.2 hdg)]
  float := fun _ => isFloatText_head
  scalar := fun chars rest hch hrs => by
    rcases hch with rfl | rfl | rfl | ⟨token, hra, hflo, hrp⟩
    · rfl
    · rfl
    · rfl
    · obtain ⟨hfor, hin⟩ := wellFormed_of_lexNumber hra
      rw [append_nil] at hin
      have hnum : floatDialect.number token = .ok (.float chars) := by
        change floatNumber token = _
        rw [floatNumber, if_neg (by rw [hflo]; exact Bool.false_ne_true), hrp]
      rw [hin] at hnum ⊢
      exact parseScalar_token rfl hnum hfor hrs

mutual

/-- A value as Python holds it: the keys of a dictionary are distinct, and a float
is given by its `repr`. -/
def IsPython : JVal → Prop
  | .float token => IsFloatText token
  | .arr items => ArePython items
  | .obj members => (members.map Prod.fst).Nodup ∧ MembersPython members
  | _ => True

def ArePython : List JVal → Prop
  | [] => True
  | v :: rest => IsPython v ∧ ArePython rest

def MembersPython : List (Text × JVal) → Prop
  | [] => True
  | (_, v) :: rest => IsPython v ∧ MembersPython rest

end

mutual

/-- `json.dumps` can write the integers of the value: `int.__repr__` refuses
integers with more than `maxStrDigits` digits. -/
def JVal.isPrintable : JVal → Bool
  | .int n => decide (n.natAbs < 10 ^ maxStrDigits)
  | .arr items => itemsPrintable items
  | .obj members => membersPrintable members
  | _ => true

def itemsPrintable : List JVal → Bool
  | [] => true
  | v :: rest => v.isPrintable && itemsPrintable rest

def membersPrintable : List (Text × JVal) → Bool
  | [] => true
  | (_, v) :: rest => v.isPrintable && membersPrintable rest

end

theorem arePython_iff {items : List JVal} : ArePython items ↔ ∀ v ∈ items, IsPython v := by
  induction items with
  | nil => simp [ArePython]
  | cons v rest ih => rw [ArePython, ih, List.forall_mem_cons]

theorem membersPython_iff : MembersPython members ↔ ∀ m ∈ members, IsPython m.2 := by
  induction members with
  | nil => simp [MembersPython]
  | cons m rest ih => rw [MembersPython, ih, List.forall_mem_cons]

theorem itemsPrintable_iff {items : List JVal} : itemsPrintable items = true ↔
    ∀ v ∈ items, v.isPrintable = true := by
  induction items with
  | nil => simp [itemsPrintable]
  | cons v rest ih => rw [itemsPrintable, Bool.and_eq_true, ih, List.forall_mem_cons]

theorem membersPrintable_iff : membersPrintable members = true ↔
    ∀ m ∈ members, m.2.isPrintable = true := by
  induction members with
  | nil => simp [membersPrintable]
  | cons m rest ih => rw [membersPrintable, Bool.and_eq_true, ih, List.forall_mem_cons]

variable {esc : CodePoint → List Char} {IsFloat : List Char → Prop}

theorem isPrintable_of_isReadable (h : IsReadable esc IsFloat v) : v.isPrintable = true := by
  induction v using JVal.induction with
  | int n =>
    rw [IsReadable] at h
    rw [JVal.isPrintable, decide_eq_true_eq]
    exact h
  | arr items ih =>
    rw [IsReadable, areReadable_iff] at h
    rw [JVal.isPrintable, itemsPrintable_iff]
    exact fun v hv => ih v hv (h v hv)
  | obj members ih =>
    rw [IsReadable, membersReadable_iff] at h
    rw [JVal.isPrintable, membersPrintable_iff]
    exact fun m hm => ih m hm (h.2 m hm).2
  | _ => rfl

theorem isReadable_of_isPython (h : IsPython v) (hpr : v.isPrintable = true)
    (hen : v.isEncodable = true) : IsReadable escapeChar IsFloatText v := by
  induction v using JVal.induction with
  | int n =>
    rw [JVal.isPrintable, decide_eq_true_eq] at hpr
    rw [IsReadable]
    exact hpr
  | float token =>
    rw [IsPython] at h
    rw [IsReadable]
    exact h
  | str s =>
    rw [JVal.isEncodable] at hen
    rw [IsReadable]
    exact spells_escapeChar hen
  | arr items ih =>
    rw [IsPython, arePython_iff] at h
    rw [JVal.isPrintable, itemsPrintable_iff] at hpr
    rw [JVal.isEncodable, itemsEncodable_iff] at hen
    rw [IsReadable, areReadable_iff]
    exact fun v hv => ih v hv (h v hv) (hpr v hv) (hen v hv)
  | obj members ih =>
    rw [IsPython, membersPython_iff] at h
    rw [JVal.isPrintable, membersPrintable_iff] at hpr
    rw [JVal.isEncodable, membersEncodable_iff] at hen
    rw [IsReadable, membersReadable_iff]
    refine ⟨h.1, fun m hm => ⟨spells_escapeChar (hen m hm).1, ?_⟩⟩
    exact ih m hm (h.2 m hm) (hpr m hm) (hen m hm).2
  | _ => trivial

theorem lexNonFinite_eq_some {input rest : List Char} (h : lexNonFinite input = some (v, rest)) :
    ∃ token, v = .float token ∧ IsFloatText token := by
  unfold lexNonFinite at h
  split_ifs at h
  · cases h
    exact ⟨_, rfl, .inl rfl⟩
  · cases h
    exact ⟨_, rfl, .inr (.inl rfl)⟩
  · cases h
    exact ⟨_, rfl, .inr (.inr (.inl rfl))⟩

theorem ofDigitChars_lt {digits : List Char} (hdg : ∀ c ∈ digits, c.isDigit = true) (init : Nat) :
    Nat.ofDigitChars 10 digits init < 10 ^ digits.length * (init + 1) := by
  induction digits generalizing init with
  | nil =>
    rw [Nat.ofDigitChars_nil, List.length_nil, Nat.pow_zero, Nat.one_mul]
    exact Nat.lt_succ_self init
  | cons c rest ih =>
    have hc : c.toNat - '0'.toNat < 10 := by
      have h := hdg c List.mem_cons_self
      simp only [Char.isDigit, Bool.and_eq_true, decide_eq_true_eq, UInt32.le_iff_toNat_le] at h
      have hzr : '0'.toNat = 48 := rfl
      change 48 ≤ c.toNat ∧ c.toNat ≤ 57 at h
      omega
    have hrs := ih (fun d hd => hdg d (List.mem_cons_of_mem c hd)) (10 * init + (c.toNat - '0'.toNat))
    rw [Nat.ofDigitChars_cons, List.length_cons, Nat.pow_succ, Nat.mul_assoc]
    apply hrs.trans_le
    apply Nat.mul_le_mul_left
    omega

theorem natAbs_toInt_lt {token : NumberToken} (hdg : ∀ c ∈ token.digits, c.isDigit = true)
    (hlen : token.digits.length ≤ maxStrDigits) : token.toInt.natAbs < 10 ^ maxStrDigits := by
  have hv : Nat.ofDigitChars 10 token.digits 0 < 10 ^ maxStrDigits := by
    have hlt := ofDigitChars_lt hdg 0
    rw [Nat.zero_add, Nat.mul_one] at hlt
    exact hlt.trans_le (Nat.pow_le_pow_right (by decide) hlen)
  unfold NumberToken.toInt
  split_ifs
  · rw [Int.natAbs_neg, Int.natAbs_natCast]
    exact hv
  · rw [Int.natAbs_natCast]
    exact hv

/-- What `json.loads` builds, `json.dumps` writes so that it is read back. -/
theorem floatDialect_builder :
    Builder floatDialect (Spells escapeCodePoint) (IsReadable escapeCodePoint IsFloatText) where
  null := trivial
  bool := fun _ => trivial
  nonFinite := fun input v rest _ h => by
    obtain ⟨token, rfl, htok⟩ := lexNonFinite_eq_some h
    rw [IsReadable]
    exact htok
  number := fun input token rest v hra h => by
    change floatNumber token = .ok v at h
    unfold floatNumber pythonNumber at h
    split_ifs at h with hint hln
    · cases h
      rw [IsReadable]
      exact natAbs_toInt_lt (wellFormed_of_lexNumber hra).1.digits (Nat.not_lt.1 hln)
    · cases h
      rw [IsReadable]
      exact isFloatText_floatRepr hra (Bool.eq_false_iff.2 hint)
  string := fun units s h => by
    cases h
    rw [IsReadable]
    exact spells_escapeCodePoint (joinSurrogates_joined units)
  key := fun members units k h => by
    cases h
    exact spells_escapeCodePoint (joinSurrogates_joined units)
  arr := fun items h => by
    rw [IsReadable, areReadable_iff]
    exact h
  obj := fun pairs members h hobj => by
    cases hobj
    rw [IsReadable, membersReadable_iff]
    exact ⟨nodup_dictOf pairs, fun m hm => h m (mem_dictOf hm)⟩

def canonicalChars (v : JVal) : List Char := render escapeChar Layout.dense 0 (sortKeys v)

theorem canonicalBytes_eq (h : v.isEncodable = true) :
    canonicalBytes v = some (utf8Chars (canonicalChars v)) := by
  have hsr : (sortKeys v).isEncodable = true := by rw [isEncodable_sortKeys, h]
  unfold canonicalBytes canonicalChars
  rw [← map_render 0 (sortKeys v) hsr, utf8Bytes_map_ofChar]

theorem isEncodable_of_canonicalBytes {raw : Bytes} (h : canonicalBytes v = some raw) :
    v.isEncodable = true := by
  rw [← canonicalBytes_isSome, h]
  rfl

variable {ε : Type} {d : Dialect ε}

theorem parseDocument_canonicalChars (hd : Reader d IsFloat) (hv : IsReadable escapeChar IsFloat v) :
    parseDocument d (canonicalChars v) = .ok (sortKeys v) := by
  have hbl : ∀ c ∈ ([] : List Char), isWhitespace c = true := List.forall_mem_nil _
  have hra : parseDocument d (render escapeChar Layout.dense 0 (sortKeys v) ++ []) = .ok (sortKeys v) :=
    parseDocument_render hd (isReadable_sortKeys hv) hbl
  rwa [List.append_nil] at hra

theorem sortKeys_eq_of_canonicalBytes (hd : Reader d IsFloat) {w : JVal}
    (hv : IsReadable escapeChar IsFloat v)
    (hw : IsReadable escapeChar IsFloat w) {raw : Bytes} (hvra : canonicalBytes v = some raw)
    (hwra : canonicalBytes w = some raw) : sortKeys v = sortKeys w := by
  have hch : canonicalChars v = canonicalChars w := by
    rw [canonicalBytes_eq (isEncodable_of_canonicalBytes hvra)] at hvra
    rw [canonicalBytes_eq (isEncodable_of_canonicalBytes hwra), ← hvra] at hwra
    exact (utf8Chars_injective (Option.some.inj hwra)).symm
  have hra := parseDocument_canonicalChars hd hv
  rw [hch, parseDocument_canonicalChars hd hw] at hra
  exact (Except.ok.inj hra).symm

end WebOvpn
