/-
Documents as bytes: what the printers of JSON write in UTF-8 is what the readers
decode, and different values have different documents.
-/
import WebOvpn.Lib.JsonRender

namespace WebOvpn

open List

theorem isContinuation_iff {b : UInt8} : isContinuation b = true ↔ 0x80 ≤ b.toNat ∧ b.toNat < 0xC0 := by
  unfold isContinuation
  rw [Bool.and_eq_true, decide_eq_true_eq, decide_eq_true_eq, UInt8.le_iff_toNat_le, UInt8.lt_iff_toNat_lt]
  exact Iff.rfl

theorem inRange_iff {a low high : UInt8} : (decide (low ≤ a) && decide (a < high)) = true ↔
    low.toNat ≤ a.toNat ∧ a.toNat < high.toNat := by
  rw [Bool.and_eq_true, decide_eq_true_eq, decide_eq_true_eq, UInt8.le_iff_toNat_le, UInt8.lt_iff_toNat_lt]

/-- A first byte of a sequence is no byte of its own. -/
theorem not_lt_of_le {a : UInt8} (ha : 0x80 ≤ a.toNat) : ¬ a < 0x80 := by
  rw [UInt8.lt_iff_toNat_lt]
  exact Nat.not_lt.2 ha

theorem not_inRange {a low high : UInt8} (ha : high.toNat ≤ a.toNat) :
    ¬ (decide (low ≤ a) && decide (a < high)) = true := by
  rw [inRange_iff]
  omega

theorem not_continuation {b : UInt8} (hb : 0x80 ≤ b.toNat ∧ b.toNat < 0xC0) :
    ¬ (!isContinuation b) = true := by
  rw [isContinuation_iff.2 hb]
  exact Bool.false_ne_true

theorem decodeUtf8_one {a : UInt8} (ha : a.toNat < 0x80) (rest : Bytes) :
    decodeUtf8 (a :: rest) = (decodeUtf8 rest).map (Char.ofNat a.toNat :: ·) := by
  have hsma : a < 0x80 := UInt8.lt_iff_toNat_lt.2 ha
  delta decodeUtf8
  exact if_pos hsma

theorem decodeUtf8_two {a b : UInt8} (ha : 0xC0 ≤ a.toNat ∧ a.toNat < 0xE0)
    (hb : 0x80 ≤ b.toNat ∧ b.toNat < 0xC0)
    {c : Char} (hc : scalarFrom 0x80 (a.toNat % 32 * 64 + b.toNat % 64) = some c) (rest : Bytes) :
    decodeUtf8 (a :: b :: rest) = (decodeUtf8 rest).map (c :: ·) := by
  have hlar := not_lt_of_le (show 0x80 ≤ a.toNat by omega)
  have hrn : (decide (0xC0 ≤ a) && decide (a < 0xE0)) = true := inRange_iff.2 ha
  delta decodeUtf8
  apply (if_neg hlar).trans
  apply (if_neg (not_continuation hb)).trans
  apply (if_pos hrn).trans
  rw [hc]

theorem decodeUtf8_three {a b c : UInt8} (ha : 0xE0 ≤ a.toNat ∧ a.toNat < 0xF0)
    (hb : 0x80 ≤ b.toNat ∧ b.toNat < 0xC0)
    (hc : 0x80 ≤ c.toNat ∧ c.toNat < 0xC0) {e : Char}
    (he : scalarFrom 0x800 (a.toNat % 16 * 4096 + b.toNat % 64 * 64 + c.toNat % 64) = some e)
    (rest : Bytes) :
    decodeUtf8 (a :: b :: c :: rest) = (decodeUtf8 rest).map (e :: ·) := by
  have hlar := not_lt_of_le (show 0x80 ≤ a.toNat by omega)
  have htwo : ¬ (decide (0xC0 ≤ a) && decide (a < 0xE0)) = true := not_inRange ha.1
  have hthr : (decide (0xE0 ≤ a) && decide (a < 0xF0)) = true := inRange_iff.2 ha
  delta decodeUtf8
  apply (if_neg hlar).trans
  apply (if_neg (not_continuation hb)).trans
  apply (if_neg htwo).trans
  apply (if_neg (not_continuation hc)).trans
  apply (if_pos hthr).trans
  rw [he]

theorem decodeUtf8_four {a b c d : UInt8} (ha : 0xF0 ≤ a.toNat ∧ a.toNat < 0xF8)
    (hb : 0x80 ≤ b.toNat ∧ b.toNat < 0xC0)
    (hc : 0x80 ≤ c.toNat ∧ c.toNat < 0xC0) (hd : 0x80 ≤ d.toNat ∧ d.toNat < 0xC0) {e : Char}
    (he : scalarFrom 0x10000
      (a.toNat % 8 * 262144 + b.toNat % 64 * 4096 + c.toNat % 64 * 64 + d.toNat % 64) = some e)
    (rest : Bytes) : decodeUtf8 (a :: b :: c :: d :: rest) = (decodeUtf8 rest).map (e :: ·) := by
  have hlar := not_lt_of_le (show 0x80 ≤ a.toNat by omega)
  have htwo : ¬ (decide (0xC0 ≤ a) && decide (a < 0xE0)) = true := not_inRange (le_trans (by decide) ha.1)
  have hthr : ¬ (decide (0xE0 ≤ a) && decide (a < 0xF0)) = true := not_inRange ha.1
  have hfou : ¬ (!isContinuation d || decide (a < 0xF0) || decide (0xF8 ≤ a)) = true := by
    rw [Bool.or_eq_true, Bool.or_eq_true, decide_eq_true_eq, decide_eq_true_eq,
      UInt8.lt_iff_toNat_lt, UInt8.le_iff_toNat_le]
    rintro ((h | h) | h)
    · exact not_continuation hd h
    · exact absurd h (Nat.not_lt.2 ha.1)
    · exact absurd h (Nat.not_le.2 ha.2)
  delta decodeUtf8
  apply (if_neg hlar).trans
  apply (if_neg (not_continuation hb)).trans
  apply (if_neg htwo).trans
  apply (if_neg (not_continuation hc)).trans
  apply (if_neg hthr).trans
  apply (if_neg hfou).trans
  rw [he]

theorem scalarFrom_toNat {least : Nat} {c : Char} (h : least ≤ c.toNat) :
    scalarFrom least c.toNat = some c := by
  unfold scalarFrom
  rw [if_pos ⟨h, c.valid⟩, Char.ofNat_toNat]

theorem decodeUtf8_utf8Of (c : Char) (rest : Bytes) :
    decodeUtf8 (utf8Of (CodePoint.ofChar c) ++ rest) = (decodeUtf8 rest).map (c :: ·) := by
  have hlt : c.toNat < 0x110000 := (CodePoint.ofChar c).isLt
  unfold utf8Of
  change decodeUtf8 ((if c.toNat < 0x80 then [UInt8.ofNat c.toNat]
    else if c.toNat < 0x800 then [UInt8.ofNat (0xC0 + c.toNat / 64), UInt8.ofNat (0x80 + c.toNat % 64)]
    else if c.toNat < 0x10000 then [UInt8.ofNat (0xE0 + c.toNat / 4096), UInt8.ofNat (0x80 + c.toNat / 64 % 64),
      UInt8.ofNat (0x80 + c.toNat % 64)]
    else [UInt8.ofNat (0xF0 + c.toNat / 262144), UInt8.ofNat (0x80 + c.toNat / 4096 % 64),
      UInt8.ofNat (0x80 + c.toNat / 64 % 64), UInt8.ofNat (0x80 + c.toNat % 64)]) ++ rest) = _
  split_ifs with hone htwo hthr
  · have ha := UInt8.toNat_ofNat_of_lt' (show c.toNat < 256 by omega)
    rw [singleton_append, decodeUtf8_one (by rw [ha]; exact hone), ha, Char.ofNat_toNat]
  · have ha := UInt8.toNat_ofNat_of_lt' (show 0xC0 + c.toNat / 64 < 256 by omega)
    have hb := UInt8.toNat_ofNat_of_lt' (show 0x80 + c.toNat % 64 < 256 by omega)
    apply decodeUtf8_two
    · rw [ha]
      omega
    · rw [hb]
      omega
    · rw [ha, hb, show (0xC0 + c.toNat / 64) % 32 * 64 + (0x80 + c.toNat % 64) % 64 = c.toNat by omega]
      exact scalarFrom_toNat (by omega)
  · have ha := UInt8.toNat_ofNat_of_lt' (show 0xE0 + c.toNat / 4096 < 256 by omega)
    have hb := UInt8.toNat_ofNat_of_lt' (show 0x80 + c.toNat / 64 % 64 < 256 by omega)
    have hc := UInt8.toNat_ofNat_of_lt' (show 0x80 + c.toNat % 64 < 256 by omega)
    apply decodeUtf8_three
    · rw [ha]
      omega
    · rw [hb]
      omega
    · rw [hc]
      omega
    · rw [ha, hb, hc, show (0xE0 + c.toNat / 4096) % 16 * 4096 + (0x80 + c.toNat / 64 % 64) % 64 * 64 +
        (0x80 + c.toNat % 64) % 64 = c.toNat by omega]
      exact scalarFrom_toNat (by omega)
  · have ha := UInt8.toNat_ofNat_of_lt' (show 0xF0 + c.toNat / 262144 < 256 by omega)
    have hb := UInt8.toNat_ofNat_of_lt' (show 0x80 + c.toNat / 4096 % 64 < 256 by omega)
    have hc := UInt8.toNat_ofNat_of_lt' (show 0x80 + c.toNat / 64 % 64 < 256 by omega)
    have hd := UInt8.toNat_ofNat_of_lt' (show 0x80 + c.toNat % 64 < 256 by omega)
    apply decodeUtf8_four
    · rw [ha]
      omega
    · rw [hb]
      omega
    · rw [hc]
      omega
    · rw [hd]
      omega
    · rw [ha, hb, hc, hd,
        show (0xF0 + c.toNat / 262144) % 8 * 262144 + (0x80 + c.toNat / 4096 % 64) % 64 * 4096 +
        (0x80 + c.toNat / 64 % 64) % 64 * 64 + (0x80 + c.toNat % 64) % 64 = c.toNat by omega]
      exact scalarFrom_toNat (by omega)

def utf8Chars (chars : List Char) : Bytes := chars.flatMap fun c => utf8Of (CodePoint.ofChar c)

@[simp]
theorem decodeUtf8_utf8Chars (chars : List Char) : decodeUtf8 (utf8Chars chars) = some chars := by
  induction chars with
  | nil => rfl
  | cons c rest ih =>
    unfold utf8Chars at ih ⊢
    rw [flatMap_cons, decodeUtf8_utf8Of, ih, Option.map_some]

theorem utf8Chars_injective : Function.Injective utf8Chars := by
  intro left right h
  have hdc := congrArg decodeUtf8 h
  rw [decodeUtf8_utf8Chars, decodeUtf8_utf8Chars] at hdc
  exact Option.some.inj hdc

/-- Characters are texts without surrogates. -/
theorem utf8Bytes_map_ofChar (chars : List Char) :
    utf8Bytes (chars.map CodePoint.ofChar) = some (utf8Chars chars) := by
  have hpl : (chars.map CodePoint.ofChar).any CodePoint.isSurrogate = false := by
    rw [any_eq_false]
    intro c hc
    obtain ⟨char, -, rfl⟩ := mem_map.1 hc
    simp [isSurrogate_ofChar]
  unfold utf8Bytes
  rw [hpl, if_neg Bool.false_ne_true, flatMap_map]
  rfl

theorem map_escapeChar {c : CodePoint} (hc : c.isSurrogate = false) :
    (escapeChar c).map CodePoint.ofChar = escapePlain c := by
  unfold escapeChar escapePlain
  split_ifs
  · rfl
  · rw [map_singleton]
    exact congrArg (· :: []) (Fin.ext (toNat_ofNat_of_not_isSurrogate hc))

theorem map_renderString {s : Text} (hs : s.isEncodable = true) :
    (renderString escapeChar s).map CodePoint.ofChar = plainString s := by
  have hbd : (s.flatMap escapeChar).map CodePoint.ofChar = s.flatMap escapePlain := by
    rw [map_flatMap]
    apply flatMap_congr
    intro c hc
    exact map_escapeChar (Text.isEncodable_iff.1 hs c hc)
  unfold renderString plainString
  rw [map_cons, map_append, hbd]
  rfl

mutual

/-- What `json.dumps` writes without `ensure_ascii`, in characters. -/
theorem map_render (depth : Nat) : ∀ v : JVal, v.isEncodable = true →
    (render escapeChar Layout.dense depth v).map CodePoint.ofChar = encodePlain v
  | .null, _ => by rw [render, encodePlain]; rfl
  | .bool true, _ => by rw [render, encodePlain]; rfl
  | .bool false, _ => by rw [render, encodePlain]; rfl
  | .int n, _ => by rw [render, encodePlain]
  | .float token, _ => by rw [render, encodePlain]
  | .str s, hv => by
    rw [JVal.isEncodable] at hv
    rw [render, encodePlain, map_renderString hv]
  | .arr items, hv => by
    rw [JVal.isEncodable] at hv
    rw [render, encodePlain, map_cons, map_append, map_renderItems depth items hv]
    rfl
  | .obj members, hv => by
    rw [JVal.isEncodable] at hv
    rw [render, encodePlain, map_cons, map_append, map_renderMembers depth members hv]
    rfl

theorem map_renderItems (depth : Nat) : ∀ items : List JVal, itemsEncodable items = true →
    (renderItems escapeChar Layout.dense depth items).map CodePoint.ofChar = encodePlainItems items
  | [], _ => by rw [renderItems, encodePlainItems]; rfl
  | [v], hv => by
    rw [itemsEncodable, Bool.and_eq_true] at hv
    rw [renderItems, renderMoreItems, encodePlainItems, map_append, map_append,
      map_render (depth + 1) v hv.1]
    exact append_nil _
  | v :: w :: rest, hv => by
    rw [itemsEncodable, Bool.and_eq_true] at hv
    have hmr := map_renderItems depth (w :: rest) hv.2
    rw [renderItems, map_append, map_append] at hmr
    rw [renderItems, renderMoreItems, encodePlainItems, map_append, map_append, map_render (depth + 1) v hv.1,
      map_cons, map_append, map_append, ← hmr]
    simp [Layout.dense, text]

theorem map_renderMembers (depth : Nat) : ∀ members : List (Text × JVal),
    membersEncodable members = true →
    (renderMembers escapeChar Layout.dense depth members).map CodePoint.ofChar =
      encodePlainMembers members
  | [], _ => by rw [renderMembers, encodePlainMembers]; rfl
  | [(k, v)], hv => by
    rw [membersEncodable, Bool.and_eq_true, Bool.and_eq_true] at hv
    rw [renderMembers, renderMoreMembers, encodePlainMembers, map_append, map_append, map_cons,
      map_append, map_append, map_renderString hv.1.1, map_render (depth + 1) v hv.1.2]
    simp [Layout.dense, text]
  | (k, v) :: (l, w) :: rest, hv => by
    rw [membersEncodable, Bool.and_eq_true, Bool.and_eq_true] at hv
    have hmr := map_renderMembers depth ((l, w) :: rest) hv.2
    rw [renderMembers, map_append, map_append] at hmr
    rw [renderMembers, renderMoreMembers, encodePlainMembers, map_append, map_append, map_cons,
      map_append, map_append, map_renderString hv.1.1, map_render (depth + 1) v hv.1.2, ← hmr]
    simp [Layout.dense, text]

end

end WebOvpn
