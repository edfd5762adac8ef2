/-
The framing of the RouterOS API: a word is written after its length, which takes one to
five bytes.  The data of a word is read however the stream is cut, its length is not.
-/
import WebOvpn.Lib.Pieces

namespace WebOvpn.RouterApi

open Pieces List

inductive ReadError where
  /-- `ConnectionError("RouterOS API connection closed")`. -/
  | closed
  /-- The `IndexError` of a length of which too few bytes were read. -/
  | index
deriving DecidableEq

def writeLen (length : Nat) : Bytes :=
  if length < 0x80 then [.ofNat length]
  else if length < 0x4000 then [.ofNat (length >>> 8 ||| 0x80), .ofNat (length &&& 0xFF)]
  else if length < 0x200000 then
    [.ofNat (length >>> 16 ||| 0xC0), .ofNat (length >>> 8 &&& 0xFF), .ofNat (length &&& 0xFF)]
  else if length < 0x10000000 then
    [.ofNat (length >>> 24 ||| 0xE0), .ofNat (length >>> 16 &&& 0xFF), .ofNat (length >>> 8 &&& 0xFF),
      .ofNat (length &&& 0xFF)]
  else
    [0xF0, .ofNat (length >>> 24 &&& 0xFF), .ofNat (length >>> 16 &&& 0xFF), .ofNat (length >>> 8 &&& 0xFF),
      .ofNat (length &&& 0xFF)]

/-- The bytes of a length after its first one, of which the most significant one comes first. -/
def addBytes (high : Nat) (bytes : Bytes) : Nat := bytes.foldl (fun n b => (n <<< 8) + b.toNat) high

/-- `sock.recv(count)` and the sum of what its bytes stand for. -/
def readMore (high count : Nat) (s : List Bytes) : Except ReadError (Nat × List Bytes) :=
  if (recv count s).1.length < count then .error .index
    else .ok (addBytes high (recv count s).1, (recv count s).2)

def readLen (s : List Bytes) : Except ReadError (Nat × List Bytes) :=
  match recv 1 s with
  | ([], _) => .error .closed
  | (c :: _, s) =>
    if c &&& 0x80 = 0 then .ok (c.toNat, s)
    else if c &&& 0xC0 = 0x80 then readMore (c &&& ~~~0xC0).toNat 1 s
    else if c &&& 0xE0 = 0xC0 then readMore (c &&& ~~~0xE0).toNat 2 s
    else if c &&& 0xF0 = 0xE0 then readMore (c &&& ~~~0xF0).toNat 3 s
    else readMore 0 4 s

def writeWord (word : Bytes) : Bytes := writeLen word.length ++ word

/-- The loop of `read_word`. -/
def readData (length : Nat) (s : List Bytes) : Except ReadError (Bytes × List Bytes) :=
  if length = 0 then .ok ([], s)
  else if _h : (recv length s).1 = [] then .error .closed
  else do
    let (data, rest) ← readData (length - (recv length s).1.length) (recv length s).2
    return ((recv length s).1 ++ data, rest)
termination_by length
decreasing_by
  have := List.length_pos_iff.2 _h
  omega

def readWord (s : List Bytes) : Except ReadError (Bytes × List Bytes) := do
  let (length, s) ← readLen s
  if length = 0 then return ([], s)
  readData length s

def readWords : Nat → List Bytes → Except ReadError (List Bytes × List Bytes)
  | 0, s => .ok ([], s)
  | count + 1, s => do
    let (word, s) ← readWord s
    let (words, s) ← readWords count s
    return (word :: words, s)

/-- The loops of `call` over the words that follow a reply word, up to the empty one. -/
def readItems : Nat → List Bytes → Except ReadError (List Bytes × List Bytes)
  | 0, _ => .error .closed
  | count + 1, s => do
    let (word, s) ← readWord s
    if word = [] then return ([], s)
    let (words, s) ← readItems count s
    return (word :: words, s)

def writeSentence (words : List Bytes) : Bytes := (words ++ [[]]).flatMap writeWord

def readSentence (words : Nat) (s : List Bytes) : Except ReadError (List Bytes × List Bytes) :=
  readWords (words + 1) s

/-- A piece ends within the length that is read first, after its first byte. -/
def LengthCut (s : List Bytes) (length : Nat) : Prop :=
  ∃ k, 1 < k ∧ k < (writeLen length).length ∧ IsCut s k

def LengthsWhole (s : List Bytes) (words : List Bytes) : Prop :=
  ∀ before word after, words = before ++ word :: after → ∀ k, 1 < k → k < (writeLen word.length).length →
    ¬ IsCut s ((before.flatMap writeWord).length + k)

structure After (s : List Bytes) (count : Nat) (tail : Bytes) (s' : List Bytes) : Prop where
  sound : IsSound s'
  tail : s'.flatten = tail
  cut : ∀ m, 0 < m → (IsCut s' m ↔ IsCut s (count + m))

variable {s s' s'' : List Bytes} {n m : Nat} {front tail : Bytes} {word : Bytes} {words : List Bytes}

theorem After.refl (hs : IsSound s) : After s 0 s.flatten s where
  sound := hs
  tail := rfl
  cut := fun m _ => by rw [Nat.zero_add]

theorem After.trans {rest : Bytes} (h : After s n rest s') (h' : After s' m tail s'') :
    After s (n + m) tail s'' where
  sound := h'.sound
  tail := h'.tail
  cut := fun k hk => by
    rw [h'.cut k hk, h.cut (m + k) (by omega), Nat.add_assoc]

theorem After.recv (hs : IsSound s) (h : s.flatten = front ++ tail) (heq : (recv n s).1 = front) :
    After s front.length tail (Pieces.recv n s).2 where
  sound := hs.recv n
  tail := recv_tail h heq
  cut := fun m hm => by rw [isCut_recv hm, heq]

theorem head_one : ∀ x < 0x80, UInt8.ofNat x &&& 0x80 = 0 ∧ (UInt8.ofNat x).toNat = x := by decide

theorem head_two : ∀ x < 0x40, UInt8.ofNat (x ||| 0x80) &&& 0x80 ≠ 0 ∧
    UInt8.ofNat (x ||| 0x80) &&& 0xC0 = 0x80 ∧
    (UInt8.ofNat (x ||| 0x80) &&& ~~~0xC0).toNat = x := by decide

theorem head_three : ∀ x < 0x20, UInt8.ofNat (x ||| 0xC0) &&& 0x80 ≠ 0 ∧
    UInt8.ofNat (x ||| 0xC0) &&& 0xC0 ≠ 0x80 ∧
    UInt8.ofNat (x ||| 0xC0) &&& 0xE0 = 0xC0 ∧
      (UInt8.ofNat (x ||| 0xC0) &&& ~~~0xE0).toNat = x := by decide

theorem head_four : ∀ x < 0x10, UInt8.ofNat (x ||| 0xE0) &&& 0x80 ≠ 0 ∧
    UInt8.ofNat (x ||| 0xE0) &&& 0xC0 ≠ 0x80 ∧
    UInt8.ofNat (x ||| 0xE0) &&& 0xE0 ≠ 0xC0 ∧ UInt8.ofNat (x ||| 0xE0) &&& 0xF0 = 0xE0 ∧
    (UInt8.ofNat (x ||| 0xE0) &&& ~~~0xF0).toNat = x := by decide

theorem low_byte (n : Nat) : (UInt8.ofNat (n &&& 0xFF)).toNat = n % 256 := by
  rw [show 0xFF = 2 ^ 8 - 1 from rfl, Nat.and_two_pow_sub_one_eq_mod, UInt8.toNat_ofNat']
  omega

theorem writeLen_cases (hn : n < 2 ^ 32) : (∃ c, writeLen n = [c] ∧ c &&& 0x80 = 0 ∧ c.toNat = n) ∨
      ∃ c high front, writeLen n = c :: front ∧ front ≠ [] ∧ addBytes high front = n ∧
        ∀ {s s' : List Bytes}, Pieces.recv 1 s = ([c], s') →
          readLen s = readMore high front.length s' := by
  unfold writeLen
  split_ifs with h1 h2 h3 h4
  · exact .inl ⟨_, rfl, head_one n h1⟩
  · obtain ⟨hone, htwo, hhg⟩ := head_two (n >>> 8) (by rw [Nat.shiftRight_eq_div_pow]; omega)
    refine .inr ⟨_, n >>> 8, _, rfl, cons_ne_nil _ _, ?_, ?_⟩
    · simp only [addBytes, foldl_cons, foldl_nil, low_byte, Nat.shiftRight_eq_div_pow, Nat.shiftLeft_eq]
      omega
    · intro s s' hra
      rw [readLen, hra]
      dsimp only
      rw [if_neg hone, if_pos htwo, hhg]
      rfl
  · obtain ⟨hone, htwo, hthr, hhg⟩ := head_three (n >>> 16) (by rw [Nat.shiftRight_eq_div_pow]; omega)
    refine .inr ⟨_, n >>> 16, _, rfl, cons_ne_nil _ _, ?_, ?_⟩
    · simp only [addBytes, foldl_cons, foldl_nil, low_byte, Nat.shiftRight_eq_div_pow, Nat.shiftLeft_eq]
      omega
    · intro s s' hra
      rw [readLen, hra]
      dsimp only
      rw [if_neg hone, if_neg htwo, if_pos hthr, hhg]
      rfl
  · obtain ⟨hone, htwo, hthr, hfou, hhg⟩ := head_four (n >>> 24) (by rw [Nat.shiftRight_eq_div_pow]; omega)
    refine .inr ⟨_, n >>> 24, _, rfl, cons_ne_nil _ _, ?_, ?_⟩
    · simp only [addBytes, foldl_cons, foldl_nil, low_byte, Nat.shiftRight_eq_div_pow, Nat.shiftLeft_eq]
      omega
    · intro s s' hra
      rw [readLen, hra]
      dsimp only
      rw [if_neg hone, if_neg htwo, if_neg hthr, if_pos hfou, hhg]
      rfl
  · refine .inr ⟨_, 0, _, rfl, cons_ne_nil _ _, ?_, ?_⟩
    · simp only [addBytes, foldl_cons, foldl_nil, low_byte, Nat.shiftRight_eq_div_pow, Nat.shiftLeft_eq]
      omega
    · intro s s' hra
      rw [readLen, hra]
      rfl

theorem readLen_writeLen (hs : IsSound s) (hn : n < 2 ^ 32) (h : s.flatten = writeLen n ++ tail) :
    LengthCut s n ∧ readLen s = .error .index ∨
      ¬ LengthCut s n ∧ ∃ s', readLen s = .ok (n, s') ∧ After s (writeLen n).length tail s' := by
  unfold LengthCut
  rcases writeLen_cases hn with ⟨c, heq, hc, hv⟩ | ⟨c, high, front, heq, hfr, hsum, hra⟩
  · rw [heq] at h ⊢
    have hone : (recv 1 s).1 = [c] := recv_one hs h
    refine .inr ⟨?_, _, ?_, After.recv hs h hone⟩
    · rintro ⟨k, hk, hlt, -⟩
      exact absurd hlt (not_lt_of_gt hk)
    rw [readLen, show recv 1 s = ([c], (recv 1 s).2) from Prod.ext hone rfl]
    dsimp only
    rw [if_pos hc, hv]
  · rw [heq] at h ⊢
    have hone : (recv 1 s).1 = [c] := recv_one hs h
    have haf : After s [c].length (front ++ tail) (recv 1 s).2 := After.recv hs h hone
    have hcnt := length_pos_iff.2 hfr
    have hcs : (∃ k, 1 < k ∧ k < (c :: front).length ∧ IsCut s k) ↔
        ¬ ∀ k, 0 < k → k < front.length → ¬ IsCut (recv 1 s).2 k := by
      push Not
      rw [length_cons]
      constructor
      · rintro ⟨k, hk, hlt, hcut⟩
        refine ⟨k - 1, by omega, by omega, (haf.cut _ (by omega)).2 ?_⟩
        rwa [length_singleton, show 1 + (k - 1) = k by omega]
      · rintro ⟨k, hk, hlt, hcut⟩
        exact ⟨1 + k, by omega, by omega, (haf.cut k hk).1 hcut⟩
    rw [hra (Prod.ext hone rfl), readMore]
    have hiff := recv_eq_iff haf.sound hcnt haf.tail rfl
    by_cases hall : (recv front.length (recv 1 s).2).1 = front
    · have hbot := haf.trans (After.recv haf.sound haf.tail hall)
      rw [length_singleton, Nat.add_comm] at hbot
      refine .inr ⟨by rw [hcs, not_not]; exact hiff.1 hall, _, ?_, hbot⟩
      rw [if_neg (by rw [hall]; omega), hall, hsum]
    · refine .inl ⟨by rw [hcs, ← hiff]; exact hall, if_pos ?_⟩
      apply lt_of_le_of_ne (length_recv_le _ _)
      intro hlen
      apply hall
      have hap := recv_append front.length (recv 1 s).2
      rw [haf.tail] at hap
      exact (append_inj hap hlen).1

theorem readData_eq (hs : IsSound s) (h : s.flatten = word ++ tail) :
    ∃ s', readData word.length s = .ok (word, s') ∧ After s word.length tail s' := by
  induction hlen : word.length using Nat.strong_induction_on generalizing word s with
  | h count ih =>
    rw [readData]
    by_cases hzr : count = 0
    · obtain rfl := length_eq_zero_iff.1 (hlen.trans hzr)
      subst hzr
      rw [nil_append] at h
      exact ⟨s, rfl, h ▸ After.refl hs⟩
    · have hsm : (recv count s).1 ≠ [] := by
        apply hs.recv_ne_nil (by omega)
        rw [h]
        intro hnil
        obtain rfl := (append_eq_nil_iff.1 hnil).1
        exact hzr hlen.symm
      have hle := length_recv_le count s
      have hap := recv_append count s
      obtain ⟨rest, rfl⟩ : ∃ rest, word = (recv count s).1 ++ rest := by
        rw [h] at hap
        obtain ⟨more, hmr⟩ := prefix_of_prefix_length_le (hap ▸ prefix_append _ _)
          (prefix_append word tail) (by omega)
        exact ⟨more, hmr.symm⟩
      rw [append_assoc] at h
      have haf := After.recv hs h rfl
      rw [length_append] at hlen
      have hpos := length_pos_iff.2 hsm
      obtain ⟨s', hra, hrs⟩ := ih rest.length (by omega) haf.sound haf.tail rfl
      refine ⟨s', ?_, hlen ▸ haf.trans hrs⟩
      rw [if_neg hzr, dif_neg hsm, show count - (recv count s).1.length = rest.length by omega, hra]
      rfl

theorem readWord_writeWord (hs : IsSound s) (hn : word.length < 2 ^ 32)
    (h : s.flatten = writeWord word ++ tail) :
    LengthCut s word.length ∧ readWord s = .error .index ∨
      ¬ LengthCut s word.length ∧ ∃ s', readWord s = .ok (word, s') ∧
        After s (writeWord word).length tail s' := by
  unfold writeWord at h ⊢
  rw [append_assoc] at h
  rcases readLen_writeLen hs hn h with ⟨hcut, hra⟩ | ⟨hcut, s', hra, haf⟩
  · refine .inl ⟨hcut, ?_⟩
    rw [readWord, hra]
    rfl
  · obtain ⟨s'', hdat, haf'⟩ := readData_eq haf.sound haf.tail
    rw [length_append]
    by_cases hzr : word.length = 0
    · obtain rfl := length_eq_zero_iff.1 hzr
      refine .inr ⟨hcut, s', ?_, haf⟩
      rw [readWord, hra]
      rfl
    · refine .inr ⟨hcut, s'', ?_, haf.trans haf'⟩
      rw [readWord, hra, ← hdat]
      exact if_neg hzr

theorem lengthsWhole_cons (haf : After s (writeWord word).length tail s') :
    LengthsWhole s (word :: words) ↔ ¬ LengthCut s word.length ∧ LengthsWhole s' words := by
  constructor
  · intro hwho
    constructor
    · rintro ⟨k, hk, hlt, hcut⟩
      apply hwho [] word words rfl k hk hlt
      rwa [flatMap_nil, length_nil, Nat.zero_add]
    · intro before other after heq k hk hlt hcut
      apply hwho (word :: before) other after (by rw [heq, cons_append]) k hk hlt
      rw [flatMap_cons, length_append, Nat.add_assoc]
      exact (haf.cut _ (by omega)).1 hcut
  · rintro ⟨hfs, hrs⟩ before other after heq k hk hlt hcut
    cases before with
    | nil =>
      cases heq
      rw [flatMap_nil, length_nil, Nat.zero_add] at hcut
      exact hfs ⟨k, hk, hlt, hcut⟩
    | cons head before =>
      cases heq
      rw [flatMap_cons, length_append, Nat.add_assoc] at hcut
      exact hrs before other after rfl k hk hlt ((haf.cut _ (by omega)).2 hcut)

theorem eq_nil_of_flatten (hs : IsSound s) (h : s.flatten = []) : s = [] := by
  cases s with
  | nil => rfl
  | cons piece rest => exact absurd (append_eq_nil_iff.1 h).1 (hs piece mem_cons_self)

theorem readWords_iff (hs : IsSound s) (hwr : ∀ word ∈ words, word.length < 2 ^ 32)
    (h : s.flatten = words.flatMap writeWord) : readWords words.length s = .ok (words, []) ↔
      LengthsWhole s words := by
  induction words generalizing s with
  | nil =>
    obtain rfl := eq_nil_of_flatten hs h
    refine ⟨fun _ before word after heq => ?_, fun _ => rfl⟩
    cases before <;> cases heq
  | cons word rest ih =>
    rw [flatMap_cons] at h
    rcases readWord_writeWord hs (hwr word mem_cons_self) h with ⟨hcut, hra⟩ | ⟨hcut, s', hra, haf⟩
    · constructor
      · intro hok
        rw [length_cons, readWords, hra] at hok
        cases hok
      · intro hwho
        obtain ⟨k, hk, hlt, hcut⟩ := hcut
        apply absurd hcut
        have hfs := hwho [] word rest rfl k hk hlt
        rwa [flatMap_nil, length_nil, Nat.zero_add] at hfs
    · rw [lengthsWhole_cons haf, and_iff_right hcut,
        ← ih haf.sound (fun word hword => hwr word (mem_cons_of_mem _ hword)) haf.tail,
        length_cons, readWords, hra]
      change (readWords rest.length s' >>= fun result => pure (word :: result.1, result.2)) = _ ↔ _
      rcases hrs : readWords rest.length s' with e | ⟨others, left⟩
      · exact ⟨nofun, nofun⟩
      · change Except.ok (word :: others, left) = _ ↔ _
        constructor
        · intro hok
          cases hok
          rfl
        · intro hok
          cases hok
          rfl

theorem readItems_iff (hs : IsSound s) (hwr : ∀ word ∈ words, word.length < 2 ^ 32)
    (hsm : ∀ word ∈ words, word ≠ []) (h : s.flatten = writeSentence words) :
    readItems (words.length + 1) s = .ok (words, []) ↔ LengthsWhole s words := by
  induction words generalizing s with
  | nil =>
    have hwho : LengthsWhole s [] := by
      intro before word after heq
      cases before <;> cases heq
    refine iff_of_true ?_ hwho
    have hem : s.flatten = writeWord [] ++ [] := h
    rcases readWord_writeWord hs (by decide) hem with ⟨⟨k, hk, hlt, -⟩, -⟩ | ⟨-, s', hra, haf⟩
    · exact absurd hlt (not_lt_of_gt hk)
    · rw [readItems, hra, eq_nil_of_flatten haf.sound haf.tail]
      rfl
  | cons word rest ih =>
    have hsp : s.flatten = writeWord word ++ writeSentence rest := h
    rcases readWord_writeWord hs (hwr word mem_cons_self) hsp with ⟨hcut, hra⟩ | ⟨hcut, s', hra, haf⟩
    · refine iff_of_false ?_ ?_
      · rw [readItems, hra]
        exact fun hok => (by cases hok)
      · intro hwho
        obtain ⟨k, hk, hlt, hcut⟩ := hcut
        have hfs := hwho [] word rest rfl k hk hlt
        rw [flatMap_nil, length_nil, Nat.zero_add] at hfs
        exact hfs hcut
    · have hrs := ih haf.sound (fun word hmem => hwr word (mem_cons_of_mem _ hmem))
        (fun word hmem => hsm word (mem_cons_of_mem _ hmem)) haf.tail
      rw [lengthsWhole_cons haf, and_iff_right hcut, ← hrs, length_cons, readItems, hra]
      change (if word = [] then _ else readItems (rest.length + 1) s' >>= fun result =>
        pure (word :: result.1, result.2)) = _ ↔ _
      rw [if_neg (hsm word mem_cons_self)]
      rcases readItems (rest.length + 1) s' with e | ⟨others, left⟩
      · exact iff_of_false (fun hok => by cases hok) (fun hok => by cases hok)
      · change Except.ok (word :: others, left) = _ ↔ _
        simp

theorem lengthsWhole_concat : LengthsWhole s (words ++ [[]]) ↔ LengthsWhole s words := by
  constructor
  · intro hwho before word after heq
    exact hwho before word (after ++ [[]]) (by rw [heq, append_assoc, cons_append])
  · intro hwho before word after heq k hk hlt
    rcases eq_nil_or_concat after with rfl | ⟨after, last, rfl⟩
    · obtain ⟨-, heq⟩ := append_inj' heq rfl
      cases heq
      exact absurd hlt (not_lt_of_gt hk)
    · rw [concat_eq_append, ← cons_append, ← append_assoc] at heq
      exact hwho before word after (append_inj' heq rfl).1 k hk hlt

/-- A length that arrives at once is read as it was written, and a sentence is read as it was
written, by a reader that counts its words and, when none of them is empty, by one that stops
at the empty word, if and only if no piece ends within a length after its first byte. -/
theorem readSentence_writeSentence_iff (words s : List Bytes) :
    (∀ length < 2 ^ 32, readLen [writeLen length] = .ok (length, [])) ∧
      ((∀ word ∈ words, word.length < 2 ^ 32) → IsSound s → s.flatten = writeSentence words →
        (readSentence words.length s = .ok (words ++ [[]], []) ↔ LengthsWhole s words) ∧
        ((∀ word ∈ words, word ≠ []) →
          (readItems (words.length + 1) s = .ok (words, []) ↔ LengthsWhole s words))) := by
  constructor
  · intro length hlen
    have hsn : IsSound [writeLen length] := by
      intro piece hpie
      rw [mem_singleton.1 hpie]
      rcases writeLen_cases hlen with ⟨c, heq, -⟩ | ⟨c, high, front, heq, -⟩
      · rw [heq]
        exact cons_ne_nil _ _
      · rw [heq]
        exact cons_ne_nil _ _
    rcases readLen_writeLen hsn hlen rfl with ⟨⟨k, hk, hlt, hcut⟩, -⟩ | ⟨-, s', hra, haf⟩
    · rcases isCut_cons.1 hcut with rfl | ⟨m, -, rfl⟩
      · omega
      · omega
    · cases s' with
      | nil => exact hra
      | cons piece rest =>
        exact absurd (append_eq_nil_iff.1 haf.tail).1 (haf.sound piece mem_cons_self)
  · intro hwords hs h
    refine ⟨?_, fun hsm => readItems_iff hs hwords hsm h⟩
    rw [← lengthsWhole_concat, readSentence, ← readWords_iff hs ?_ h, length_append, length_singleton]
    intro word hwr
    rcases mem_append.1 hwr with hwr | hwr
    · exact hwords word hwr
    · rw [mem_singleton.1 hwr]
      decide

/-- A word of 128 bytes, whose pieces end after the first byte of its length and within its data. -/
def sampleWord : Bytes := List.replicate 0x80 65

def samplePieces : List Bytes := [[0x80], 0x80 :: List.replicate 0x7F 65, [65, 0]]

theorem writeLen_sampleWord : writeLen sampleWord.length = [0x80, 0x80] := by
  rw [sampleWord, length_replicate]
  rfl

theorem flatten_samplePieces : samplePieces.flatten = writeSentence [sampleWord] := by
  rw [writeSentence, flatMap_append, flatMap_singleton, flatMap_singleton, writeWord, writeLen_sampleWord,
    sampleWord, show 0x80 = 0x7F + 1 from rfl, replicate_succ']
  simp only [samplePieces, flatten_cons, flatten_nil, append_nil, append_assoc, cons_append, nil_append]
  rfl

/-- A word of two length bytes whose data comes in two pieces. -/
theorem readSentence_writeSentence_short : readSentence 1 samplePieces = .ok ([sampleWord, []], []) ∧
    readItems 2 samplePieces = .ok ([sampleWord], []) := by
  have hwho : LengthsWhole samplePieces [sampleWord] := by
    intro before word after heq k hk hlt
    obtain rfl : word = sampleWord := by
      have hmem : word ∈ [sampleWord] := heq ▸ mem_append_right _ mem_cons_self
      exact mem_singleton.1 hmem
    rw [writeLen_sampleWord] at hlt
    exact absurd hlt (not_lt_of_ge hk)
  have hwr : ∀ word ∈ [sampleWord], word.length < 2 ^ 32 := by
    intro word hmem
    rw [mem_singleton.1 hmem, sampleWord, length_replicate]
    decide
  have hsm : ∀ word ∈ [sampleWord], word ≠ [] := by
    intro word hmem
    rw [mem_singleton.1 hmem]
    exact cons_ne_nil _ _
  have hsn : IsSound samplePieces := by
    simp only [IsSound, samplePieces, forall_mem_cons]
    exact ⟨cons_ne_nil _ _, cons_ne_nil _ _, cons_ne_nil _ _, forall_mem_nil _⟩
  obtain ⟨hra, hit⟩ := (readSentence_writeSentence_iff [sampleWord] samplePieces).2 hwr hsn
    flatten_samplePieces
  exact ⟨hra.2 hwho, (hit hsm).2 hwho⟩

theorem writeSentence_long (hwr : word.length = 0x4000) :
    [[0xC0], [0x40], 0 :: (word ++ [0])].flatten = writeSentence [word] := by
  rw [writeSentence, flatMap_append, flatMap_singleton, flatMap_singleton, writeWord, hwr]
  simp only [flatten_cons, flatten_nil, append_nil]
  rfl

/-- A length of three bytes of which a piece ends after the second one is not read. -/
theorem readSentence_cut : ∃ words s : List Bytes, (∀ word ∈ words, word.length < 2 ^ 32) ∧ IsSound s ∧
    s.flatten = writeSentence words ∧ readSentence words.length s = .error .index := by
  obtain ⟨word, hwr⟩ : ∃ word : Bytes, word.length = 0x4000 := ⟨List.replicate 0x4000 0, length_replicate⟩
  refine ⟨[word], [[0xC0], [0x40], 0 :: (word ++ [0])], ?_, ?_, writeSentence_long hwr, rfl⟩
  · intro other hot
    rw [mem_singleton.1 hot, hwr]
    decide
  · simp only [IsSound, forall_mem_cons]
    exact ⟨cons_ne_nil _ _, cons_ne_nil _ _, cons_ne_nil _ _, forall_mem_nil _⟩

end WebOvpn.RouterApi
