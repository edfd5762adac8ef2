/-
What a tree feeds into its digest, as a sequence of tokens: when the sequence can
be told from the bytes.
-/
import WebOvpn.Lib.Codes
import WebOvpn.Lib.JsonParse
import WebOvpn.Lib.Sha256

namespace WebOvpn

namespace Backup

/-- What `lstat` gives of an entry; the mode is `S_IMODE`. -/
structure Metadata where
  uid : Nat
  gid : Nat
  mode : Nat
  deriving DecidableEq

abbrev Attributes := List (Bytes × Bytes)

/-- A file-system tree.  Names are bytes; an entry of a directory has a name
without a slash. -/
inductive Node where
  | directory (metadata : Metadata) (attributes : Attributes) (children : List (Bytes × Node))
  | regular (metadata : Metadata) (attributes : Attributes) (content : Bytes)
  | symlink (metadata : Metadata) (attributes : Attributes) (target : Bytes)
  | special (metadata : Metadata) (attributes : Attributes)

def sha256 (value : Bytes) : Bytes :=
  let state := Sha256.absorb (value ++ Sha256.padding value.length) Sha256.initial 0 0
  (List.range 32).map fun i => UInt8.ofNat (state.value / 256 ^ (31 - i))

def literal (s : String) : Bytes := asciiBytes s.toList

def decimal (n : Nat) : Bytes := asciiBytes (Nat.toDigits 10 n)

/-- `os.fsdecode` followed by `.encode("utf-8")`: bytes that are no UTF-8 become
surrogates, which cannot be encoded. -/
def encode (name : Bytes) : Option Bytes := if (decodeUtf8 name).isSome then some name else none

/-- The header of an entry after its name: owner, group and mode between colons. -/
def header (metadata : Metadata) : Bytes :=
  literal ":" ++ decimal metadata.uid ++ literal ":" ++ decimal metadata.gid ++ literal ":" ++
    decimal metadata.mode ++
    literal ":"

def sortByBytes {α : Type} (entries : List (Bytes × α)) : List (Bytes × α) :=
  entries.insertionSort fun a b => a.1 ≤ b.1

/-- The loop over the extended attributes, in the order of `_list_xattrs`. -/
def addAttributes : Attributes → Option Bytes
  | [] => some []
  | (name, value) :: rest => do
      let name ← encode name
      let more ← addAttributes rest
      return name ++ sha256 value ++ more

/-- What the entries of a directory add, one after another. -/
def joined : List (Bytes × Option Bytes) → Option Bytes
  | [] => some []
  | (_, added) :: rest => do
      let added ← added
      let more ← joined rest
      return added ++ more

mutual

/-- `add`: what an entry feeds into the hash, nothing if it raises. -/
def add (relative : Bytes) : Node → Option Bytes
  | .directory metadata attributes children => do
      let name ← encode relative
      let entries ← joined (sortByBytes (addChildren relative children))
      let more ← addAttributes (sortByBytes attributes)
      return name ++ header metadata ++ literal "directory\n" ++ entries ++ more
  | .regular metadata attributes content => do
      let name ← encode relative
      let more ← addAttributes (sortByBytes attributes)
      return name ++ header metadata ++ literal "regular:" ++ sha256 content ++ literal "\n" ++ more
  | .symlink metadata attributes target => do
      let name ← encode relative
      let target ← encode target
      let more ← addAttributes (sortByBytes attributes)
      return name ++ header metadata ++ literal "symlink:" ++ target ++ literal "\n" ++ more
  | .special _ _ => none

/-- What each entry of a directory feeds into the hash. -/
def addChildren (relative : Bytes) : List (Bytes × Node) → List (Bytes × Option Bytes)
  | [] => []
  | (name, child) :: rest =>
    (name, add (relative ++ literal "/" ++ name) child) :: addChildren relative rest

end

/-- What `_tree_digest` feeds into the hash for the entry of a path, which may be
absent. -/
def treeStream (name : Bytes) : Option Node → Option Bytes
  | none => (encode name).map fun name => literal "absent:" ++ name ++ literal "\n"
  | some node => add name node

def rootName (name : Bytes) : Bytes := if name = [] then literal "/" else name

def treeDigest (name : Bytes) (production : Option Node) : Option Text :=
  (treeStream (rootName name) production).map fun stream => (sha256 stream).flatMap hexByte

inductive Kind where
  | directory
  | regular (content : Bytes)
  | symlink (target : Bytes)
  | special
deriving DecidableEq

inductive Token where
  | entry (relative : Bytes) (metadata : Metadata) (kind : Kind)
  | xattr (item : Bytes × Bytes)
deriving DecidableEq

def Kind.bytes : Kind → Bytes
  | .directory => literal "directory\n"
  | .regular content => literal "regular:" ++ (sha256 content ++ literal "\n")
  | .symlink target => literal "symlink:" ++ (target ++ literal "\n")
  | .special => []

def Token.bytes : Token → Bytes
  | .entry relative metadata kind => relative ++ (header metadata ++ kind.bytes)
  | .xattr item => item.1 ++ sha256 item.2

mutual

/-- The tokens of an entry in the order of `add`. -/
def tokens (relative : Bytes) : Node → List Token
  | .directory metadata attributes children =>
    .entry relative metadata .directory :: (childTokens relative children ++ attributes.map .xattr)
  | .regular metadata attributes content =>
    .entry relative metadata (.regular content) :: attributes.map .xattr
  | .symlink metadata attributes target =>
    .entry relative metadata (.symlink target) :: attributes.map .xattr
  | .special metadata attributes => .entry relative metadata .special :: attributes.map .xattr

def childTokens (relative : Bytes) : List (Bytes × Node) → List Token
  | [] => []
  | (name, child) :: rest => tokens (relative ++ literal "/" ++ name) child ++ childTokens relative rest

end

/-- The order of the attributes. -/
def Before (a b : Bytes × Bytes) : Prop := a.1 < b.1

theorem Before.trans (a b c : Bytes × Bytes) (hab : Before a b) (hbc : Before b c) : Before a c :=
  List.lt_trans hab hbc

mutual

/-- Attributes and entries, which have no order of their own, are listed by name, and
no name has a slash. -/
def WellFormed : Node → Prop
  | .directory _ attributes children =>
    attributes.Pairwise Before ∧ (children.map Prod.fst).Pairwise (· < ·) ∧ ChildrenWellFormed children
  | .regular _ attributes _ => attributes.Pairwise Before
  | .symlink _ attributes _ => attributes.Pairwise Before
  | .special _ attributes => attributes.Pairwise Before

def ChildrenWellFormed : List (Bytes × Node) → Prop
  | [] => True
  | (name, child) :: rest => 0x2f ∉ name ∧ WellFormed child ∧ ChildrenWellFormed rest

end

theorem sortByBytes_of_sorted {α : Type} {entries : List (Bytes × α)}
    (h : (entries.map Prod.fst).Pairwise (· < ·)) :
    sortByBytes entries = entries := by
  apply List.Pairwise.insertionSort_eq
  rw [List.pairwise_map] at h
  exact h.imp List.le_of_lt

theorem sortByBytes_attributes {attributes : Attributes} (h : attributes.Pairwise Before) :
    sortByBytes attributes = attributes := by
  apply sortByBytes_of_sorted
  rw [List.pairwise_map]
  exact h

theorem map_fst_addChildren (relative : Bytes) (children : List (Bytes × Node)) :
    (addChildren relative children).map Prod.fst = children.map Prod.fst := by
  induction children with
  | nil => rfl
  | cons child rest ih => rw [addChildren, List.map_cons, ih, List.map_cons]

def Token.encodable : Token → Bool
  | .entry relative _ .directory => (decodeUtf8 relative).isSome
  | .entry relative _ (.regular _) => (decodeUtf8 relative).isSome
  | .entry relative _ (.symlink target) => (decodeUtf8 relative).isSome && (decodeUtf8 target).isSome
  | .entry _ _ .special => false
  | .xattr item => (decodeUtf8 item.1).isSome

/-- What tokens feed into the hash one after another. -/
def streamOf (items : List Token) : Option Bytes :=
  if items.all Token.encodable then some (items.flatMap Token.bytes) else none

theorem streamOf_cons (token : Token) (rest : List Token) : streamOf (token :: rest) =
    if token.encodable then (streamOf rest).map (token.bytes ++ ·) else none := by
  unfold streamOf
  rw [List.all_cons, List.flatMap_cons]
  cases token.encodable with
  | false => rfl
  | true =>
    cases rest.all Token.encodable with
    | _ => rfl

theorem streamOf_append (first second : List Token) : streamOf (first ++ second) =
    (streamOf first).bind fun a => (streamOf second).map fun b => a ++ b := by
  unfold streamOf
  rw [List.all_append, List.flatMap_append]
  cases first.all Token.encodable with
  | false => rfl
  | true =>
    cases second.all Token.encodable with
    | _ => rfl

theorem addAttributes_eq (attributes : Attributes) :
    addAttributes attributes = streamOf (attributes.map .xattr) := by
  induction attributes with
  | nil => rfl
  | cons item rest ih =>
    rw [addAttributes, ih, List.map_cons, streamOf_cons, Token.encodable, encode]
    split_ifs
    · cases streamOf (rest.map .xattr) with
      | _ => rfl
    · rfl

mutual

theorem add_eq (relative : Bytes) : ∀ node : Node, WellFormed node →
    add relative node = streamOf (tokens relative node)
  | .directory metadata attributes children, hnd => by
    rw [WellFormed] at hnd
    have hen : sortByBytes (addChildren relative children) = addChildren relative children := by
      apply sortByBytes_of_sorted
      rw [map_fst_addChildren]
      exact hnd.2.1
    rw [add, hen, sortByBytes_attributes hnd.1, joined_eq relative children hnd.2.2, addAttributes_eq, tokens,
      streamOf_cons, streamOf_append, Token.encodable, Token.bytes, Kind.bytes, encode]
    split_ifs
    · cases streamOf (childTokens relative children) with
      | none => rfl
      | some entries =>
        cases streamOf (attributes.map .xattr) with
        | none => rfl
        | some more =>
          change some _ = some _
          simp only [List.append_assoc]
    · rfl
  | .regular metadata attributes content, hnd => by
    rw [WellFormed] at hnd
    rw [add, sortByBytes_attributes hnd, addAttributes_eq, tokens, streamOf_cons, Token.encodable, Token.bytes,
      Kind.bytes, encode]
    split_ifs
    · cases streamOf (attributes.map .xattr) with
      | none => rfl
      | some more =>
        change some _ = some _
        simp only [List.append_assoc]
    · rfl
  | .symlink metadata attributes target, hnd => by
    rw [WellFormed] at hnd
    rw [add, sortByBytes_attributes hnd, addAttributes_eq, tokens, streamOf_cons, Token.encodable, Token.bytes,
      Kind.bytes, encode, encode]
    cases (decodeUtf8 relative).isSome with
    | false => rfl
    | true =>
      cases (decodeUtf8 target).isSome with
      | false => rfl
      | true =>
        cases streamOf (attributes.map .xattr) with
        | none => rfl
        | some more =>
          change some _ = some _
          simp only [List.append_assoc]
  | .special _ _, _ => by
    rw [add, tokens, streamOf_cons, Token.encodable]
    rfl

theorem joined_eq (relative : Bytes) : ∀ children : List (Bytes × Node), ChildrenWellFormed children →
    joined (addChildren relative children) = streamOf (childTokens relative children)
  | [], _ => by rw [addChildren, joined, childTokens]; rfl
  | (name, child) :: rest, hnd => by
    rw [ChildrenWellFormed] at hnd
    rw [addChildren, joined, add_eq _ child hnd.2.1, joined_eq relative rest hnd.2.2, childTokens,
      streamOf_append]
    cases streamOf (tokens (relative ++ literal "/" ++ name) child) with
    | none => rfl
    | some added =>
      cases streamOf (childTokens relative rest) with
      | _ => rfl

end

variable {items : List Token} {n : Nat} {x y : Bytes} {m : Metadata} {kind : Kind}

theorem streamOf_eq_some {stream : Bytes} (h : streamOf items = some stream) :
    stream = items.flatMap Token.bytes ∧ ∀ r m, Token.entry r m .special ∉ items := by
  unfold streamOf at h
  split_ifs at h with hall
  refine ⟨(Option.some.inj h).symm, ?_⟩
  intro r m hmem
  exact Bool.false_ne_true (List.all_eq_true.1 hall _ hmem)

theorem digit_of_mem_toDigits {c : Char} (hc : c ∈ Nat.toDigits 10 n) :
    48 ≤ c.toNat ∧ c.toNat ≤ 57 ∧ (UInt8.ofNat c.toNat).toNat = c.toNat := by
  have hdg := Nat.isDigit_of_mem_toDigits (by decide) (by decide) hc
  simp only [Char.isDigit, Bool.and_eq_true, decide_eq_true_eq, UInt32.le_iff_toNat_le] at hdg
  change 48 ≤ c.toNat ∧ c.toNat ≤ 57 at hdg
  exact ⟨hdg.1, hdg.2, UInt8.toNat_ofNat_of_lt' (Nat.lt_of_le_of_lt hdg.2 (by decide))⟩

theorem isDigit_of_mem_decimal {b : UInt8} (h : b ∈ decimal n) : 0x30 ≤ b.toNat ∧ b.toNat ≤ 0x39 := by
  obtain ⟨c, hc, rfl⟩ := List.mem_map.1 h
  obtain ⟨hlow, hhg, hby⟩ := digit_of_mem_toDigits hc
  rw [hby]
  exact ⟨hlow, hhg⟩

theorem colon_not_mem_decimal (n : Nat) : (0x3a : UInt8) ∉ decimal n := by
  intro h
  have hdg := (isDigit_of_mem_decimal h).2
  revert hdg
  decide

theorem decimal_ne_nil (n : Nat) : decimal n ≠ [] := by
  intro h
  exact Nat.toDigits_ne_nil (List.map_eq_nil_iff.1 h)

theorem decimal_injective : Function.Injective decimal := by
  intro m n h
  have hch : Nat.toDigits 10 m = Nat.toDigits 10 n := by
    have hbc : ∀ k, (decimal k).map (fun b => Char.ofNat b.toNat) = Nat.toDigits 10 k := by
      intro k
      unfold decimal asciiBytes
      rw [List.map_map]
      nth_rewrite 2 [← List.map_id (Nat.toDigits 10 k)]
      apply List.map_congr_left
      intro c hc
      rw [Function.comp_apply, (digit_of_mem_toDigits hc).2.2, Char.ofNat_toNat]
      rfl
    rw [← hbc m, h, hbc n]
  rw [← Nat.ofDigitChars_ten_toDigits (n := m), hch, Nat.ofDigitChars_ten_toDigits]

/-- A number before a colon. -/
theorem decimal_append_inj {m : Nat} (h : decimal m ++ 0x3a :: x = decimal n ++ 0x3a :: y) :
    m = n ∧ x = y := by
  obtain ⟨heq, hrs⟩ := append_cons_inj (colon_not_mem_decimal m) (colon_not_mem_decimal n) h
  exact ⟨decimal_injective heq, hrs⟩

/-- A letter is no number. -/
theorem cons_ne_decimal {b : UInt8} (hb : 0x39 < b.toNat) : b :: x ≠ decimal n ++ y := by
  intro h
  obtain ⟨c, rest, hdg⟩ := List.exists_cons_of_ne_nil (decimal_ne_nil n)
  have hdt := isDigit_of_mem_decimal (n := n) (b := c) (by rw [hdg]; exact List.mem_cons_self)
  rw [hdg, List.cons_append] at h
  rw [(List.cons.inj h).1] at hb
  omega

theorem header_eq (metadata : Metadata) (rest : Bytes) : header metadata ++ rest =
    0x3a :: (decimal metadata.uid ++
      0x3a :: (decimal metadata.gid ++ 0x3a :: (decimal metadata.mode ++ 0x3a :: rest))) := by
  have hcl : literal ":" = [0x3a] := by decide
  unfold header
  rw [hcl]
  simp only [List.append_assoc, List.cons_append, List.nil_append]

theorem header_append_inj {n : Metadata} (h : header m ++ x = header n ++ y) : m = n ∧ x = y := by
  rw [header_eq, header_eq] at h
  obtain ⟨huid, hgr⟩ := decimal_append_inj (List.cons.inj h).2
  obtain ⟨hgid, hls⟩ := decimal_append_inj hgr
  obtain ⟨hmod, hrs⟩ := decimal_append_inj hls
  refine ⟨?_, hrs⟩
  cases m
  cases n
  dsimp only at huid hgid hmod
  rw [huid, hgid, hmod]

def words : List Bytes := [literal "directory\n", literal "regular", literal "symlink"]

theorem mem_words {word : Bytes} (h : word ∈ words) : (0x3a : UInt8) ∉ word ∧ ∃ b rest,
    word = b :: rest ∧ 0x39 < b.toNat := by
  unfold words at h
  simp only [List.mem_cons, List.not_mem_nil, or_false] at h
  rcases h with rfl | rfl | rfl
  · exact ⟨by decide, _, _, rfl, by decide⟩
  · exact ⟨by decide, _, _, rfl, by decide⟩
  · exact ⟨by decide, _, _, rfl, by decide⟩

theorem exists_of_colon {field more s q : Bytes} (hfie : (0x3a : UInt8) ∉ field) (hs : s ≠ [])
    (h : 0x3a :: (field ++ more) = s ++ 0x3a :: q) : ∃ t, s = 0x3a :: (field ++ t) ∧
      more = t ++ 0x3a :: q := by
  obtain ⟨b, s, rfl⟩ := List.exists_cons_of_ne_nil hs
  obtain ⟨rfl, hrs⟩ := List.cons.inj h
  rcases List.append_eq_append_iff.1 hrs with ⟨t, hlf, hrg⟩ | ⟨t, hlf, hrg⟩
  · exact ⟨t, by rw [hlf], hrg⟩
  · cases t with
    | nil =>
      rw [List.append_nil] at hlf
      exact ⟨[], by rw [hlf, List.append_nil], hrg.symm⟩
    | cons c t =>
      rw [hlf, ← (List.cons.inj hrg).1] at hfie
      exact absurd (List.mem_append_right s List.mem_cons_self) hfie

/-- A text that goes on with a header after the one at its front contains the one at
its front. -/
theorem header_isPrefix {n : Metadata} {word word' s : Bytes} (hwr : word ∈ words) (hs : s ≠ [])
    (h : header m ++ (word ++ x) = s ++ (header n ++ (word' ++ y))) : header m ++ word <+: s := by
  obtain ⟨hcl, b, letters, rfl, hlt⟩ := mem_words hwr
  rw [header_eq, header_eq] at h
  -- the fields of the first header one after another: the second header begins after none of them
  obtain ⟨s₁, hs₁, h₁⟩ := exists_of_colon (colon_not_mem_decimal _) hs h
  have hne₁ : s₁ ≠ [] := by
    rintro rfl
    obtain ⟨-, hgr⟩ := decimal_append_inj (List.cons.inj h₁).2
    obtain ⟨-, hmod⟩ := decimal_append_inj hgr
    exact cons_ne_decimal hlt hmod
  obtain ⟨s₂, hs₂, h₂⟩ := exists_of_colon (colon_not_mem_decimal _) hne₁ h₁
  have hne₂ : s₂ ≠ [] := by
    rintro rfl
    obtain ⟨-, hgr⟩ := decimal_append_inj (List.cons.inj h₂).2
    exact cons_ne_decimal hlt hgr
  obtain ⟨s₃, hs₃, h₃⟩ := exists_of_colon (colon_not_mem_decimal _) hne₂ h₂
  have hne₃ : s₃ ≠ [] := by
    rintro rfl
    exact cons_ne_decimal hlt (List.cons.inj h₃).2
  obtain ⟨s₄, hs₄, -⟩ := exists_of_colon hcl hne₃ h₃
  refine ⟨s₄, ?_⟩
  rw [List.append_assoc, header_eq, hs₁, hs₂, hs₃, hs₄]

/-- One of the two begins the other. -/
def Comparable (a b : Bytes) : Prop := a <+: b ∨ b <+: a

/-- What tokens begin with can be told apart: the attribute names in use and the name
of the tree. -/
structure Alphabet (root : Bytes) (names : List Bytes) : Prop where
  root : ∀ name ∈ names, ¬ Comparable root name
  names : ∀ name ∈ names, ∀ other ∈ names, Comparable name other → name = other

/-- The token is read in one way: its path has no header in it, and no line of its link
target begins as a token does. -/
def Token.Legible (root : Bytes) (names : List Bytes) : Token → Prop
  | .entry relative _ kind =>
    root <+: relative ∧ (∀ metadata, ∀ word ∈ words, ¬ header metadata ++ word <:+: relative) ∧
      ∀ target, kind = .symlink target → ∀ before line, target = before ++ 0x0a :: line →
        ∀ start ∈ root :: names, ¬ Comparable start (line ++ [0x0a])
  | .xattr item => item.1 ∈ names

def Token.hashed : Token → List Bytes
  | .entry _ _ (.regular content) => [content]
  | .entry _ _ _ => []
  | .xattr item => [item.2]

def Begins (root : Bytes) (names : List Bytes) (rest : Bytes) : Prop :=
  rest = [] ∨ ∃ start ∈ root :: names, start <+: rest

theorem length_sha256 (value : Bytes) : (sha256 value).length = 32 := by
  unfold sha256
  rw [List.length_map, List.length_range]

variable {root : Bytes} {names : List Bytes}

theorem comparable_of_prefix {a b c : Bytes} (ha : a <+: c) (hb : b <+: c) : Comparable a b :=
  List.prefix_or_prefix_of_prefix ha hb

theorem Token.Legible.begins {token : Token} (h : token.Legible root names) (rest : Bytes) :
    ∃ start ∈ root :: names, start <+: token.bytes ++ rest := by
  cases token with
  | entry relative metadata kind =>
    refine ⟨root, List.mem_cons_self, h.1.trans ?_⟩
    rw [Token.bytes, List.append_assoc]
    exact List.prefix_append _ _
  | xattr item =>
    refine ⟨item.1, List.mem_cons_of_mem root h, ?_⟩
    rw [Token.bytes, List.append_assoc]
    exact List.prefix_append _ _

theorem begins_flatMap (h : ∀ token ∈ items, token.Legible root names) :
    Begins root names (items.flatMap Token.bytes) := by
  cases items with
  | nil => exact .inl rfl
  | cons token rest =>
    rw [List.flatMap_cons]
    exact .inr ((h token List.mem_cons_self).begins _)

theorem target_inj {target target' : Bytes}
    (h : ∀ before line, target = before ++ 0x0a :: line → ∀ start ∈ root :: names,
      ¬ Comparable start (line ++ [0x0a]))
    (h' : ∀ before line, target' = before ++ 0x0a :: line → ∀ start ∈ root :: names,
      ¬ Comparable start (line ++ [0x0a]))
    (hx : Begins root names x) (hy : Begins root names y)
    (heq : target ++ 0x0a :: x = target' ++ 0x0a :: y) :
    target = target' ∧ x = y := by
  have hln : ∀ {a b : Bytes} {s u v : Bytes}, b = a ++ 0x0a :: s → u = s ++ 0x0a :: v → Begins root names u →
      (∀ before line, b = before ++ 0x0a :: line → ∀ start ∈ root :: names,
        ¬ Comparable start (line ++ [0x0a])) → False := by
    intro a b s u v hb hu hbg hli
    rcases hbg with rfl | ⟨start, hst, hpre⟩
    · exact absurd (List.append_eq_nil_iff.1 hu.symm).2 (List.cons_ne_nil _ _)
    · apply hli a s hb start hst
      apply comparable_of_prefix hpre
      rw [hu]
      exact ⟨v, by rw [List.append_assoc]; rfl⟩
  rcases List.append_eq_append_iff.1 heq with ⟨s, hlf, hrg⟩ | ⟨s, hlf, hrg⟩
  · cases s with
    | nil =>
      rw [List.append_nil] at hlf
      exact ⟨hlf.symm, (List.cons.inj hrg).2⟩
    | cons c s =>
      obtain ⟨rfl, hrs⟩ := List.cons.inj hrg
      exact (hln hlf hrs hx h').elim
  · cases s with
    | nil =>
      rw [List.append_nil] at hlf
      exact ⟨hlf, (List.cons.inj hrg).2.symm⟩
    | cons c s =>
      obtain ⟨rfl, hrs⟩ := List.cons.inj hrg
      exact (hln hlf hrs hy h).elim

theorem kind_bytes (h : kind ≠ .special) : ∃ word ∈ words, ∃ rest, kind.bytes = word ++ rest := by
  have hrg : literal "regular:" = literal "regular" ++ [0x3a] := by decide
  have hsym : literal "symlink:" = literal "symlink" ++ [0x3a] := by decide
  cases kind with
  | directory => exact ⟨_, List.mem_cons_self, [], (List.append_nil _).symm⟩
  | regular content =>
    refine ⟨literal "regular", by decide, 0x3a :: (sha256 content ++ literal "\n"), ?_⟩
    rw [Kind.bytes, hrg, List.append_assoc]
    rfl
  | symlink target =>
    refine ⟨literal "symlink", by decide, 0x3a :: (target ++ literal "\n"), ?_⟩
    rw [Kind.bytes, hsym, List.append_assoc]
    rfl
  | special => exact absurd rfl h

/-- The path of an entry ends where its header begins. -/
theorem relative_inj {relative relative' : Bytes} {m' : Metadata} {kind' : Kind}
    (hkn : kind ≠ .special) (hkn' : kind' ≠ .special)
    (h : ∀ metadata, ∀ word ∈ words, ¬ header metadata ++ word <:+: relative)
    (h' : ∀ metadata, ∀ word ∈ words, ¬ header metadata ++ word <:+: relative')
    (heq : relative ++ (header m ++ (kind.bytes ++ x)) = relative' ++
      (header m' ++ (kind'.bytes ++ y))) :
    relative = relative' ∧ header m ++ (kind.bytes ++ x) = header m' ++ (kind'.bytes ++ y) := by
  obtain ⟨word, hwr, rest, hby⟩ := kind_bytes hkn
  obtain ⟨word', hwr', rest', hby'⟩ := kind_bytes hkn'
  rw [hby, hby', List.append_assoc, List.append_assoc] at heq ⊢
  rcases List.append_eq_append_iff.1 heq with ⟨s, hlf, hrg⟩ | ⟨s, hlf, hrg⟩
  · by_cases hs : s = []
    · rw [hs, List.append_nil] at hlf
      rw [hs, List.nil_append] at hrg
      exact ⟨hlf.symm, hrg⟩
    · exfalso
      apply h' m word hwr
      rw [hlf]
      exact (header_isPrefix hwr hs hrg).isInfix.trans (List.suffix_append _ _).isInfix
  · by_cases hs : s = []
    · rw [hs, List.append_nil] at hlf
      rw [hs, List.nil_append] at hrg
      exact ⟨hlf, hrg.symm⟩
    · exfalso
      apply h m' word' hwr'
      rw [hlf]
      exact (header_isPrefix hwr' hs hrg).isInfix.trans (List.suffix_append _ _).isInfix

/-- The word of a header and what follows it. -/
theorem kind_inj {relative relative' : Bytes} {m' : Metadata} {kind' : Kind}
    (hkn : kind ≠ .special) (hkn' : kind' ≠ .special)
    (h : (Token.entry relative m kind).Legible root names)
    (h' : (Token.entry relative' m' kind').Legible root names)
    (hhs : ∀ v ∈ (Token.entry relative m kind).hashed, ∀ w ∈ (Token.entry relative' m' kind').hashed,
      sha256 v = sha256 w → v = w)
    (hx : Begins root names x) (hy : Begins root names y)
    (heq : kind.bytes ++ x = kind'.bytes ++ y) : kind = kind' := by
  have hha : (0x64 : UInt8) ≠ 0x72 ∧ (0x64 : UInt8) ≠ 0x73 ∧ (0x72 : UInt8) ≠ 0x73 := by decide
  have hln : literal "\n" = [0x0a] := by decide
  cases kind with
  | directory =>
    cases kind' with
    | directory => rfl
    | regular content => exact absurd (List.cons.inj heq).1 hha.1
    | symlink target => exact absurd (List.cons.inj heq).1 hha.2.1
    | special => exact absurd rfl hkn'
  | regular content =>
    cases kind' with
    | directory => exact absurd (List.cons.inj heq).1 hha.1.symm
    | regular content' =>
      simp only [Kind.bytes, List.append_assoc] at heq
      have hdg := List.append_cancel_left heq
      have hsm := (List.append_inj hdg (by rw [length_sha256, length_sha256])).1
      rw [hhs content (List.mem_singleton.2 rfl) content' (List.mem_singleton.2 rfl) hsm]
    | symlink target => exact absurd (List.cons.inj heq).1 hha.2.2
    | special => exact absurd rfl hkn'
  | symlink target =>
    cases kind' with
    | directory => exact absurd (List.cons.inj heq).1 hha.2.1.symm
    | regular content => exact absurd (List.cons.inj heq).1 hha.2.2.symm
    | symlink target' =>
      simp only [Kind.bytes, hln, List.append_assoc] at heq
      have htar := List.append_cancel_left heq
      rw [(target_inj (h.2.2 target rfl) (h'.2.2 target' rfl) hx hy htar).1]
    | special => exact absurd rfl hkn'
  | special => exact absurd rfl hkn

theorem token_inj (halp : Alphabet root names) {a b : Token} (ha : a.Legible root names)
    (hb : b.Legible root names) (hapl : ∀ r m, a ≠ .entry r m .special)
    (hbpl : ∀ r m, b ≠ .entry r m .special)
    (hhs : ∀ v ∈ a.hashed, ∀ w ∈ b.hashed, sha256 v = sha256 w → v = w)
    (hx : Begins root names x) (hy : Begins root names y)
    (h : a.bytes ++ x = b.bytes ++ y) : a = b := by
  cases a with
  | entry relative m kind =>
    have hkn : kind ≠ .special := by
      rintro rfl
      exact hapl relative m rfl
    cases b with
    | entry relative' m' kind' =>
      have hkn' : kind' ≠ .special := by
        rintro rfl
        exact hbpl relative' m' rfl
      rw [Token.bytes, Token.bytes, List.append_assoc, List.append_assoc, List.append_assoc,
        List.append_assoc] at h
      obtain ⟨hrel, hrs⟩ := relative_inj hkn hkn' ha.2.1 hb.2.1 h
      obtain ⟨hmt, hrs⟩ := header_append_inj hrs
      rw [hrel, hmt, kind_inj hkn hkn' ha hb hhs hx hy hrs]
    | xattr item =>
      exfalso
      simp only [Token.bytes, List.append_assoc] at h
      apply halp.root item.1 hb
      apply comparable_of_prefix (ha.1.trans (List.prefix_append _ _))
      rw [h]
      exact List.prefix_append _ _
  | xattr item =>
    cases b with
    | entry relative' m' kind' =>
      exfalso
      simp only [Token.bytes, List.append_assoc] at h
      apply halp.root item.1 ha
      apply comparable_of_prefix (hb.1.trans (List.prefix_append _ _))
      rw [← h]
      exact List.prefix_append _ _
    | xattr item' =>
      simp only [Token.bytes, List.append_assoc] at h
      have hnm : item.1 = item'.1 := by
        apply halp.names item.1 ha item'.1 hb
        apply comparable_of_prefix (List.prefix_append item.1 (sha256 item.2 ++ x))
        rw [h]
        exact List.prefix_append _ _
      rw [hnm] at h
      have hdg := (List.append_inj (List.append_cancel_left h) (by rw [length_sha256, length_sha256])).1
      have hvas := hhs item.2 (List.mem_singleton.2 rfl) item'.2 (List.mem_singleton.2 rfl) hdg
      rw [Prod.ext hnm hvas]

theorem tokens_inj (halp : Alphabet root names) {items' : List Token}
    (hlg : ∀ token ∈ items, token.Legible root names)
    (hlg' : ∀ token ∈ items', token.Legible root names)
    (hpl : ∀ r m, Token.entry r m .special ∉ items) (hpl' : ∀ r m, Token.entry r m .special ∉ items')
    (hhs : ∀ a ∈ items, ∀ b ∈ items', ∀ v ∈ a.hashed, ∀ w ∈ b.hashed, sha256 v = sha256 w → v = w)
    (h : items.flatMap Token.bytes = items'.flatMap Token.bytes) : items = items' := by
  have hne : ∀ token : Token, (∀ r m, token ≠ .entry r m .special) → token.bytes ≠ [] := by
    intro token htok hnil
    cases token with
    | entry relative metadata kind =>
      rw [Token.bytes, header_eq] at hnil
      exact absurd (List.append_eq_nil_iff.1 hnil).2 (List.cons_ne_nil _ _)
    | xattr item =>
      have hlen := length_sha256 item.2
      rw [Token.bytes] at hnil
      rw [(List.append_eq_nil_iff.1 hnil).2] at hlen
      cases hlen
  have hpa : ∀ (items : List Token), (∀ r m, Token.entry r m .special ∉ items) → ∀ token ∈ items, ∀ r m,
      token ≠ .entry r m .special := by
    rintro items hits token htok r m rfl
    exact hits r m htok
  apply @flatMap_inj_of_step _ _ Token.bytes (fun token => token ∈ items ∧ token.Legible root names)
    (fun token => token ∈ items' ∧ token.Legible root names) (Begins root names) _ _ _ _ _ _ _
    (fun token htok => ⟨htok, hlg token htok⟩) (fun token htok => ⟨htok, hlg' token htok⟩) h
  · exact fun rest hrs => begins_flatMap fun token htok => (hrs token htok).2
  · exact fun rest hrs => begins_flatMap fun token htok => (hrs token htok).2
  · exact fun token htok => hne token (hpa items hpl token htok.1)
  · exact fun token htok => hne token (hpa items' hpl' token htok.1)
  · intro a b x y ha hb hx hy heq
    exact token_inj halp ha.2 hb.2 (hpa items hpl a ha.1) (hpa items' hpl' b hb.1)
      (hhs a ha.1 b hb.1) hx hy heq

end Backup

end WebOvpn
