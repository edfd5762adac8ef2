/-
When the digest of a tree proves that a tree is the one it was taken of.
-/
import WebOvpn.Backup.TreeTokens
import WebOvpn.Lib.Partition

namespace WebOvpn.Backup

namespace Node

def metadata : Node → Metadata
  | .directory metadata _ _ => metadata
  | .regular metadata _ _ => metadata
  | .symlink metadata _ _ => metadata
  | .special metadata _ => metadata

def kind : Node → Kind
  | .directory _ _ _ => .directory
  | .regular _ _ content => .regular content
  | .symlink _ _ target => .symlink target
  | .special _ _ => .special

def attributes : Node → Attributes
  | .directory _ attributes _ => attributes
  | .regular _ attributes _ => attributes
  | .symlink _ attributes _ => attributes
  | .special _ attributes => attributes

def children : Node → List (Bytes × Node)
  | .directory _ _ children => children
  | .regular _ _ _ => []
  | .symlink _ _ _ => []
  | .special _ _ => []

def withParts (attributes : Attributes) (children : List (Bytes × Node)) : Node → Node
  | .directory metadata _ _ => .directory metadata attributes children
  | .regular metadata _ content => .regular metadata attributes content
  | .symlink metadata _ target => .symlink metadata attributes target
  | .special metadata _ => .special metadata attributes

theorem ext {a b : Node} (hmt : a.metadata = b.metadata) (hkn : a.kind = b.kind)
    (hatt : a.attributes = b.attributes) (hch : a.children = b.children) : a = b := by
  cases a with
  | directory m x c =>
    cases b with
    | directory m' x' c' =>
      cases hmt
      cases hatt
      cases hch
      rfl
    | _ => cases hkn
  | regular m x content =>
    cases b with
    | regular m' x' content' =>
      cases hmt
      cases hatt
      cases hkn
      rfl
    | _ => cases hkn
  | symlink m x target =>
    cases b with
    | symlink m' x' target' =>
      cases hmt
      cases hatt
      cases hkn
      rfl
    | _ => cases hkn
  | special m x =>
    cases b with
    | special m' x' =>
      cases hmt
      cases hatt
      rfl
    | _ => cases hkn

theorem induction {P : Node → Prop}
    (step : ∀ node : Node, (∀ child ∈ node.children, P child.2) → P node) (node : Node) :
    P node := by
  apply @Node.rec P (fun children => ∀ child ∈ children, P child.2) (fun child => P child.2)
  · intro m x children hcs
    exact step _ hcs
  · intro m x content
    exact step _ nofun
  · intro m x target
    exact step _ nofun
  · intro m x
    exact step _ nofun
  · intro child hch
    cases hch
  · intro first rest hfs hrs child hch
    rcases List.mem_cons.1 hch with rfl | hch
    · exact hfs
    · exact hrs child hch
  · intro name child hch
    exact hch

end Node

theorem tokens_eq (relative : Bytes) (node : Node) : tokens relative node =
    .entry relative node.metadata node.kind ::
      (childTokens relative node.children ++ node.attributes.map .xattr) := by
  cases node with
  | directory m x children => rw [tokens]; rfl
  | _ => rw [tokens, Node.children, childTokens]; rfl

variable {children : List (Bytes × Node)} {node node' : Node} {relative name : Bytes}
    {rest rest' : List Token}

theorem childrenWellFormed_iff :
    ChildrenWellFormed children ↔ ∀ child ∈ children, 0x2f ∉ child.1 ∧ WellFormed child.2 := by
  induction children with
  | nil => simp [ChildrenWellFormed]
  | cons child rest ih => rw [ChildrenWellFormed, ih, List.forall_mem_cons, and_assoc]

theorem wellFormed_iff : WellFormed node ↔ node.attributes.Pairwise Before ∧
    (node.children.map Prod.fst).Pairwise (· < ·) ∧ ∀ child ∈ node.children, 0x2f ∉ child.1 ∧
      WellFormed child.2 := by
  rw [← childrenWellFormed_iff]
  cases node with
  | directory m x children => rw [WellFormed]; rfl
  | _ =>
    rw [WellFormed, Node.children, ChildrenWellFormed]
    exact ⟨fun h => ⟨h, List.Pairwise.nil, trivial⟩, fun h => h.1⟩

mutual

def bare : Node → Node
  | .directory metadata _ children => .directory metadata [] (bareChildren children)
  | .regular metadata _ content => .regular metadata [] content
  | .symlink metadata _ target => .symlink metadata [] target
  | .special metadata _ => .special metadata []

def bareChildren : List (Bytes × Node) → List (Bytes × Node)
  | [] => []
  | (name, child) :: rest => (name, bare child) :: bareChildren rest

end

theorem bare_parts (node : Node) : (bare node).metadata = node.metadata ∧ (bare node).kind = node.kind ∧
    (bare node).attributes = [] ∧ (bare node).children = bareChildren node.children := by
  cases node with
  | _ => rw [bare]; exact ⟨rfl, rfl, rfl, rfl⟩

theorem tokens_bare (relative : Bytes) (node : Node) : tokens relative (bare node) =
    .entry relative node.metadata node.kind :: childTokens relative (bareChildren node.children) := by
  obtain ⟨hmt, hkn, hatt, hch⟩ := bare_parts node
  rw [tokens_eq, hmt, hkn, hatt, hch, List.map_nil, List.append_nil]

def Token.isEntry : Token → Bool
  | .entry _ _ _ => true
  | .xattr _ => false

theorem filter_xattr (attributes : Attributes) :
    (attributes.map Token.xattr).filter Token.isEntry = [] := by
  rw [List.filter_eq_nil_iff]
  intro token htok
  obtain ⟨item, -, rfl⟩ := List.mem_map.1 htok
  exact Bool.false_ne_true

theorem filter_tokens (node : Node) :
    ∀ relative, (tokens relative node).filter Token.isEntry = tokens relative (bare node) := by
  induction node using Node.induction with
  | step node ih =>
    intro relative
    have hch : ∀ children : List (Bytes × Node),
        (∀ child ∈ children, ∀ relative,
          (tokens relative child.2).filter Token.isEntry = tokens relative (bare child.2)) →
        (childTokens relative children).filter Token.isEntry =
          childTokens relative (bareChildren children) := by
      intro children
      induction children with
      | nil =>
        intro _
        rw [childTokens, bareChildren, childTokens]
        rfl
      | cons child rest ihrest =>
        intro hall
        rw [List.forall_mem_cons] at hall
        rw [childTokens, List.filter_append, hall.1, ihrest hall.2, bareChildren, childTokens]
    rw [tokens_eq, List.filter_cons_of_pos rfl, List.filter_append, hch _ ih, filter_xattr, List.append_nil,
      tokens_bare]

def Outside (relative : Bytes) (rest : List Token) : Prop :=
  ∀ next metadata kind more, rest = .entry next metadata kind :: more → ¬ relative ++ literal "/" <+: next

theorem literal_slash : literal "/" = [0x2f] := by decide

/-- What is next to an entry is not below it. -/
theorem outside_child (hnm : ∀ child ∈ children, 0x2f ∉ child.1) (h : Outside relative rest) :
    Outside (relative ++ literal "/" ++ name)
      (childTokens relative (bareChildren children) ++ rest) := by
  intro next metadata kind more heq hbel
  cases children with
  | nil =>
    rw [bareChildren, childTokens, List.nil_append] at heq
    apply h next metadata kind more heq
    refine List.IsPrefix.trans ?_ hbel
    rw [List.append_assoc (relative ++ literal "/")]
    exact List.prefix_append _ _
  | cons child others =>
    rw [bareChildren, childTokens, tokens_bare, List.cons_append, List.cons_append] at heq
    cases (List.cons.inj heq).1
    rw [List.append_assoc (relative ++ literal "/"), List.prefix_append_right_inj, literal_slash] at hbel
    apply hnm child List.mem_cons_self
    exact hbel.subset (List.mem_append_right name (List.mem_singleton.2 rfl))

def TellsShape (node : Node) : Prop :=
  ∀ (node' : Node) (relative : Bytes) (rest rest' : List Token), WellFormed node → WellFormed node' →
    Outside relative rest → Outside relative rest' →
    tokens relative (bare node) ++ rest = tokens relative (bare node') ++ rest' →
      bare node = bare node' ∧ rest = rest'

theorem bareChildren_inj (hrs : Outside relative rest)
    (hrs' : Outside relative rest') : ∀ {children children' : List (Bytes × Node)},
    (∀ child ∈ children, TellsShape child.2) →
      (∀ child ∈ children, 0x2f ∉ child.1 ∧ WellFormed child.2) →
    (∀ child ∈ children', 0x2f ∉ child.1 ∧ WellFormed child.2) →
    childTokens relative (bareChildren children) ++
      rest = childTokens relative (bareChildren children') ++ rest' →
    bareChildren children = bareChildren children' ∧ rest = rest' := by
  intro children
  induction children with
  | nil =>
    intro children' _ _ _ heq
    cases children' with
    | nil => exact ⟨rfl, heq⟩
    | cons child others =>
      exfalso
      rw [bareChildren, bareChildren, childTokens, childTokens, tokens_bare, List.nil_append, List.cons_append,
        List.cons_append] at heq
      apply hrs _ _ _ _ heq
      exact List.prefix_append _ _
  | cons child others ih =>
    intro children' hsha hall hall' heq
    cases children' with
    | nil =>
      exfalso
      rw [bareChildren, bareChildren, childTokens, childTokens, tokens_bare, List.nil_append, List.cons_append,
        List.cons_append] at heq
      apply hrs' _ _ _ _ heq.symm
      exact List.prefix_append _ _
    | cons child' others' =>
      rw [List.forall_mem_cons] at hsha hall hall'
      rw [bareChildren, bareChildren, childTokens, childTokens, List.append_assoc (tokens _ _),
        List.append_assoc (tokens _ _)] at heq
      have hha := heq
      rw [tokens_bare, tokens_bare, List.cons_append, List.cons_append] at hha
      have hnm : child.1 = child'.1 := by
        have hen := (List.cons.inj hha).1
        injection hen with hpt
        exact List.append_cancel_left hpt
      rw [← hnm] at heq
      obtain ⟨hbar, hmr⟩ := hsha.1 child'.2 _ _ _ hall.1.2 hall'.1.2
        (outside_child (fun c hc => (hall.2 c hc).1) hrs)
          (outside_child (fun c hc => (hall'.2 c hc).1) hrs') heq
      obtain ⟨hot, heqr⟩ := ih hsha.2 hall.2 hall'.2 hmr
      refine ⟨?_, heqr⟩
      rw [bareChildren, bareChildren, hnm, hbar, hot]

theorem tellsShape (node : Node) : TellsShape node := by
  induction node using Node.induction with
  | step node ih =>
    intro node' relative rest rest' hnd hnd' hrs hrs' h
    rw [tokens_bare, tokens_bare, List.cons_append, List.cons_append] at h
    obtain ⟨hen, hbd⟩ := List.cons.inj h
    obtain ⟨hsha, heqr⟩ := bareChildren_inj hrs hrs' ih (wellFormed_iff.1 hnd).2.2 (wellFormed_iff.1 hnd').2.2
      hbd
    obtain ⟨hmt, hkn, hatt, hbar⟩ := bare_parts node
    obtain ⟨hmt', hkn', hatt', hbar'⟩ := bare_parts node'
    injection hen with _ hm hk
    refine ⟨Node.ext ?_ ?_ ?_ ?_, heqr⟩
    · rw [hmt, hmt', hm]
    · rw [hkn, hkn', hk]
    · rw [hatt, hatt']
    · rw [hbar, hbar', hsha]

theorem bare_eq_of_tokens (hnd : WellFormed node) (hnd' : WellFormed node')
    (h : tokens relative node = tokens relative node') : bare node = bare node' := by
  have hen : tokens relative (bare node) ++ [] = tokens relative (bare node') ++ [] := by
    rw [← filter_tokens, ← filter_tokens, h]
  exact (tellsShape node node' relative [] [] hnd hnd' (fun _ _ _ _ => nofun) (fun _ _ _ _ => nofun) hen).1

mutual

/-- The attributes that are written one after another can be told apart: those of an
entry, and those of the directories that end with it. -/
def Settles : Node → List Attributes → Prop
  | .directory _ attributes children, outer => SettlesChildren children (attributes :: outer)
  | .regular _ attributes _, outer => Partition.Apart Before (attributes :: outer)
  | .symlink _ attributes _, outer => Partition.Apart Before (attributes :: outer)
  | .special _ attributes, outer => Partition.Apart Before (attributes :: outer)

def SettlesChildren : List (Bytes × Node) → List Attributes → Prop
  | [], outer => Partition.Apart Before outer
  | [(_, child)], outer => Settles child outer
  | (_, child) :: next :: rest, outer => Settles child [] ∧ SettlesChildren (next :: rest) outer

end

theorem settles_iff {outer : List Attributes} :
    Settles node outer ↔ SettlesChildren node.children (node.attributes :: outer) := by
  cases node with
  | directory m x children => rw [Settles]; rfl
  | _ => rw [Settles, Node.children, SettlesChildren]; rfl

def NoAttribute (rest : List Token) : Prop := ∀ item more, rest ≠ .xattr item :: more

theorem noAttribute_childTokens {child : Bytes × Node} :
    NoAttribute (childTokens relative (child :: children) ++ rest) := by
  intro item more h
  rw [childTokens, tokens_eq] at h
  cases (List.cons.inj h).1

theorem attributes_inj {attributes attributes' : Attributes} (hrs : NoAttribute rest)
    (hrs' : NoAttribute rest')
    (h : attributes.map Token.xattr ++ rest = attributes'.map Token.xattr ++ rest') :
    attributes = attributes' ∧ rest = rest' := by
  induction attributes generalizing attributes' with
  | nil =>
    cases attributes' with
    | nil => exact ⟨rfl, h⟩
    | cons item more => exact absurd h (hrs item _)
  | cons item more ih =>
    cases attributes' with
    | nil => exact absurd h.symm (hrs' item _)
    | cons item' more' =>
      obtain ⟨hit, hmr⟩ := List.cons.inj h
      cases hit
      obtain ⟨heq, heqr⟩ := ih hmr
      exact ⟨by rw [heq], heqr⟩

/-- The tokens of the tree, with those of outer directories after them, give all trees
of its shape. -/
def TellsAttributes (node : Node) : Prop :=
  ∀ (node' : Node) (relative : Bytes) (outer outer' : List Attributes) (rest rest' : List Token),
    bare node = bare node' → WellFormed node' → outer.length = outer'.length →
      (∀ l ∈ outer', l.Pairwise Before) →
    Settles node outer → NoAttribute rest → NoAttribute rest' →
    tokens relative node ++ (outer.flatten.map .xattr ++ rest) = tokens relative node' ++
      (outer'.flatten.map .xattr ++ rest') →
    node = node' ∧ outer = outer' ∧ rest = rest'

theorem children_inj (hrs : NoAttribute rest) (hrs' : NoAttribute rest') :
    ∀ {children children' : List (Bytes × Node)} {outer outer' : List Attributes},
    (∀ child ∈ children, TellsAttributes child.2) → bareChildren children = bareChildren children' →
    (∀ child ∈ children', 0x2f ∉ child.1 ∧ WellFormed child.2) → outer.length = outer'.length →
    (∀ l ∈ outer', l.Pairwise Before) → SettlesChildren children outer →
    childTokens relative children ++ (outer.flatten.map .xattr ++ rest) =
      childTokens relative children' ++ (outer'.flatten.map .xattr ++ rest') →
    children = children' ∧ outer = outer' ∧ rest = rest' := by
  intro children
  induction children with
  | nil =>
    intro children' outer outer' _ hsha _ hlen hot' hset heq
    cases children' with
    | nil =>
      rw [childTokens, List.nil_append, List.nil_append] at heq
      rw [SettlesChildren] at hset
      obtain ⟨hfl, heqr⟩ := attributes_inj hrs hrs' heq
      exact ⟨rfl, Partition.eq_of_flatten_eq hset hot' hlen hfl, heqr⟩
    | cons child others =>
      rw [bareChildren, bareChildren] at hsha
      cases hsha
  | cons child others ih =>
    intro children' outer outer' hst hsha hall' hlen hot' hset heq
    cases children' with
    | nil =>
      rw [bareChildren, bareChildren] at hsha
      cases hsha
    | cons child' others' =>
      rw [bareChildren, bareChildren] at hsha
      obtain ⟨hfs, hot⟩ := List.cons.inj hsha
      obtain ⟨hnm, hbar⟩ := Prod.mk.inj hfs
      rw [List.forall_mem_cons] at hst hall'
      rw [childTokens, childTokens, List.append_assoc (tokens _ _),
        List.append_assoc (tokens _ _), ← hnm] at heq
      cases others with
      | nil =>
        cases others' with
        | nil =>
          rw [childTokens, List.nil_append, List.nil_append] at heq
          rw [SettlesChildren] at hset
          obtain ⟨hch, hou, heqr⟩ := hst.1 child'.2 _ outer outer' rest rest' hbar
            hall'.1.2 hlen hot' hset hrs hrs' heq
          exact ⟨by rw [Prod.ext hnm hch], hou, heqr⟩
        | cons next' more' =>
          rw [bareChildren, bareChildren] at hot
          cases hot
      | cons next more =>
        cases others' with
        | nil =>
          rw [bareChildren, bareChildren] at hot
          cases hot
        | cons next' more' =>
          rw [SettlesChildren] at hset
          -- another entry follows: no attributes of outer directories are written here
          obtain ⟨hch, -, heqm⟩ := hst.1 child'.2 _ [] [] _ _ hbar hall'.1.2 rfl
            (List.forall_mem_nil _) hset.1 noAttribute_childTokens noAttribute_childTokens heq
          obtain ⟨hos, hou, heqr⟩ := ih hst.2 hot hall'.2 hlen hot' hset.2 heqm
          exact ⟨by rw [Prod.ext hnm hch, hos], hou, heqr⟩

theorem tellsAttributes (node : Node) : TellsAttributes node := by
  induction node using Node.induction with
  | step node ih =>
    intro node' relative outer outer' rest rest' hbare hnd' hlen hot' hset hrs hrs' h
    obtain ⟨hmt, hkn, -, hbar⟩ := bare_parts node
    obtain ⟨hmt', hkn', -, hbar'⟩ := bare_parts node'
    rw [hbare] at hmt hkn hbar
    have hwl' := wellFormed_iff.1 hnd'
    rw [tokens_eq, tokens_eq, List.cons_append, List.cons_append, List.append_assoc, List.append_assoc,
      ← List.append_assoc (node.attributes.map _), ← List.append_assoc (node'.attributes.map _),
        ← List.map_append,
      ← List.map_append] at h
    obtain ⟨hsm, hot, heqr⟩ := @children_inj _ _ _ hrs hrs' _ _
      (node.attributes :: outer) (node'.attributes :: outer') ih (hbar.symm.trans hbar') hwl'.2.2
      (congrArg Nat.succ hlen) (List.forall_mem_cons.2 ⟨hwl'.1, hot'⟩) (settles_iff.1 hset)
      (List.cons.inj h).2
    obtain ⟨hatt, houters⟩ := List.cons.inj hot
    exact ⟨Node.ext (hmt.symm.trans hmt') (hkn.symm.trans hkn') hatt hsm, houters, heqr⟩

/-- A tree whose attributes are kept apart is told from its tokens. -/
theorem eq_of_tokens (hnd : WellFormed node) (hnd' : WellFormed node')
    (hset : Settles node []) (h : tokens relative node = tokens relative node') : node = node' := by
  have hrs : NoAttribute [] := fun _ _ => nofun
  have hall := tellsAttributes node node' relative [] [] [] [] (bare_eq_of_tokens hnd hnd' h) hnd' rfl
    (List.forall_mem_nil _) hset hrs hrs (by rw [h])
  exact hall.1

theorem withParts_parts {attributes : Attributes} (h : children.length = node.children.length) :
    (node.withParts attributes children).metadata = node.metadata ∧
      (node.withParts attributes children).kind = node.kind ∧
      (node.withParts attributes children).attributes = attributes ∧
        (node.withParts attributes children).children = children := by
  cases node with
  | directory m x c => exact ⟨rfl, rfl, rfl, rfl⟩
  | _ => exact ⟨rfl, rfl, rfl, (List.length_eq_zero_iff.1 h).symm⟩

/-- The attributes at the end of the tree can be written for other entries. -/
def Shifts (node : Node) : Prop :=
  ∀ outer : List Attributes, WellFormed node → (∀ l ∈ outer, l.Pairwise Before) → ¬ Settles node outer →
    ∃ (node' : Node) (outer' : List Attributes), (node', outer') ≠ (node, outer) ∧
      outer'.length = outer.length ∧
      WellFormed node' ∧ (∀ l ∈ outer', l.Pairwise Before) ∧
      ∀ relative, tokens relative node' ++ outer'.flatten.map .xattr = tokens relative node ++
        outer.flatten.map .xattr

theorem shiftChildren : ∀ {outer : List Attributes}, (∀ child ∈ children, Shifts child.2) →
    (∀ child ∈ children, 0x2f ∉ child.1 ∧ WellFormed child.2) → (∀ l ∈ outer, l.Pairwise Before) →
    ¬ SettlesChildren children outer →
    ∃ (children' : List (Bytes × Node)) (outer' : List Attributes),
      (children', outer') ≠ (children, outer) ∧
      outer'.length = outer.length ∧ children'.map Prod.fst = children.map Prod.fst ∧
      (∀ child ∈ children', 0x2f ∉ child.1 ∧ WellFormed child.2) ∧ (∀ l ∈ outer', l.Pairwise Before) ∧
      ∀ relative, childTokens relative children' ++ outer'.flatten.map .xattr =
        childTokens relative children ++ outer.flatten.map .xattr := by
  induction children with
  | nil =>
    intro outer _ _ hot hset
    rw [SettlesChildren] at hset
    obtain ⟨outer', hne, hlen, hfl, hsr⟩ := Partition.exists_ne_of_not_apart Before.trans hot hset
    refine ⟨[], outer', fun heq => hne (Prod.mk.inj heq).2, hlen, rfl, List.forall_mem_nil _, hsr, ?_⟩
    intro relative
    rw [hfl]
  | cons child others ih =>
    intro outer hshi hall hot hset
    rw [List.forall_mem_cons] at hshi hall
    cases others with
    | nil =>
      rw [SettlesChildren] at hset
      obtain ⟨node', outer', hne, hlen, hwl, hsr, htok⟩ := hshi.1 outer hall.1.2 hot hset
      refine ⟨[(child.1, node')], outer', ?_, hlen, rfl, ?_, hsr, ?_⟩
      · intro heq
        obtain ⟨hch, houte⟩ := Prod.mk.inj heq
        apply hne
        rw [← (List.cons.inj hch).1, houte]
      · exact List.forall_mem_cons.2 ⟨⟨hall.1.1, hwl⟩, List.forall_mem_nil _⟩
      · intro relative
        have hone : ∀ only : Bytes × Node, childTokens relative [only] =
            tokens (relative ++ literal "/" ++ only.1) only.2 := by
          intro only
          rw [childTokens, childTokens, List.append_nil]
        rw [hone, hone, htok]
    | cons next more =>
      rw [SettlesChildren, not_and_or] at hset
      rcases hset with hfs | hmr
      · obtain ⟨node', outer', hne, hlen, hwl, -, htok⟩ := hshi.1 [] hall.1.2 (List.forall_mem_nil _) hfs
        rw [List.length_eq_zero_iff.1 hlen] at hne htok
        refine ⟨(child.1, node') :: next :: more, outer, ?_, rfl, rfl, ?_, hot, ?_⟩
        · intro heq
          apply hne
          rw [← (List.cons.inj (Prod.mk.inj heq).1).1]
        · exact List.forall_mem_cons.2 ⟨⟨hall.1.1, hwl⟩, hall.2⟩
        · intro relative
          have hsm := htok (relative ++ literal "/" ++ child.1)
          rw [List.flatten_nil, List.map_nil, List.append_nil, List.append_nil] at hsm
          rw [childTokens, hsm, ← childTokens]
      · obtain ⟨children', outer', hne, hlen, hnm, hwl, hsr, htok⟩ := ih hshi.2 hall.2 hot hmr
        refine ⟨child :: children', outer', ?_, hlen, ?_, ?_, hsr, ?_⟩
        · intro heq
          obtain ⟨hch, houte⟩ := Prod.mk.inj heq
          apply hne
          rw [(List.cons.inj hch).2, houte]
        · exact congrArg (child.1 :: ·) hnm
        · exact List.forall_mem_cons.2 ⟨hall.1, hwl⟩
        · intro relative
          rw [childTokens, List.append_assoc (tokens _ _), htok relative, ← List.append_assoc (tokens _ _),
            ← childTokens]

theorem shifts (node : Node) : Shifts node := by
  induction node using Node.induction with
  | step node ih =>
    intro outer hnd hot hset
    rw [settles_iff] at hset
    have hwl := wellFormed_iff.1 hnd
    obtain ⟨children', outer', hne, hlen, hnm, hch, hsr, htok⟩ := shiftChildren ih hwl.2.2
      (List.forall_mem_cons.2 ⟨hwl.1, hot⟩) hset
    cases outer' with
    | nil => cases hlen
    | cons attributes outer' =>
      have hsz : children'.length = node.children.length := by
        have hleng := congrArg List.length hnm
        rwa [List.length_map, List.length_map] at hleng
      obtain ⟨hmt, hkn, hatt, hpr⟩ := @withParts_parts _ _ attributes hsz
      rw [List.forall_mem_cons] at hsr
      refine ⟨node.withParts attributes children', outer', ?_, Nat.succ.inj hlen, ?_, hsr.2, ?_⟩
      · intro heq
        obtain ⟨hsm, houte⟩ := Prod.mk.inj heq
        have hfs : attributes = node.attributes := hatt.symm.trans (congrArg Node.attributes hsm)
        have hsn : children' = node.children := hpr.symm.trans (congrArg Node.children hsm)
        exact hne (by rw [hfs, hsn, houte])
      · rw [wellFormed_iff, hatt, hpr, hnm]
        exact ⟨hsr.1, hwl.2.1, hch⟩
      · intro relative
        have hsm := htok relative
        rw [List.flatten_cons, List.flatten_cons, List.map_append, List.map_append, ← List.append_assoc,
          ← List.append_assoc] at hsm
        rw [tokens_eq, tokens_eq, hmt, hkn, hatt, hpr, List.cons_append, List.cons_append, hsm]

def productionTokens (root : Bytes) : Option Node → List Token
  | none => []
  | some node => tokens root node

structure LegibleTree (root : Bytes) (names : List Bytes) (production : Option Node) : Prop where
  wellFormed : ∀ node ∈ production, WellFormed node
  tokens : ∀ token ∈ productionTokens root production, token.Legible root names

def hashedInputs (root : Bytes) (production : Option Node) : List Bytes :=
  (treeStream root production).toList ++ (productionTokens root production).flatMap Token.hashed

def NoCollision (root : Bytes) (production production' : Option Node) : Prop :=
  ∀ a ∈ hashedInputs root production, ∀ b ∈ hashedInputs root production', sha256 a = sha256 b → a = b

def KeptApart : Option Node → Prop
  | none => True
  | some node => Settles node []

theorem treeDigest_eq_some {production : Option Node} {digest : Text}
    (h : treeDigest name production = some digest) :
    ∃ stream, treeStream (rootName name) production = some stream ∧
      (sha256 stream).flatMap hexByte = digest :=
  Option.map_eq_some_iff.1 h

variable {root : Bytes} {names : List Bytes}

theorem treeStream_eq {production production' : Option Node} {digest : Text}
    (hcl : NoCollision (rootName name) production production')
    (h : treeDigest name production = some digest)
    (h' : treeDigest name production' = some digest) :
    treeStream (rootName name) production = treeStream (rootName name) production' := by
  obtain ⟨stream, hst, hdg⟩ := treeDigest_eq_some h
  obtain ⟨stream', hst', hdg'⟩ := treeDigest_eq_some h'
  rw [hst, hst']
  apply congrArg some
  apply hcl
  · apply List.mem_append_left
    rw [hst]
    exact List.mem_singleton.2 rfl
  · apply List.mem_append_left
    rw [hst']
    exact List.mem_singleton.2 rfl
  · exact flatMap_hexByte_injective (hdg.trans hdg'.symm)

theorem absent_ne (hnd : WellFormed node) {stream : Bytes}
    (h : treeStream root (some node) = some stream) :
    treeStream root none ≠ some stream := by
  intro habs
  have hsh : stream.length = root.length + 8 := by
    obtain ⟨name, hnm, rfl⟩ := Option.map_eq_some_iff.1 habs
    have hnm' : name = root := by
      unfold encode at hnm
      split_ifs at hnm
      exact (Option.some.inj hnm).symm
    have hwr : (literal "absent:").length = 7 := by decide
    have hln : (literal "\n").length = 1 := by decide
    rw [List.length_append, List.length_append, hwr, hln, hnm']
    omega
  rw [treeStream, add_eq root node hnd] at h
  obtain ⟨rfl, hpl⟩ := streamOf_eq_some h
  have hkn : 9 ≤ node.kind.bytes.length := by
    have hwords : (literal "directory\n").length = 10 ∧ (literal "regular:").length = 8 ∧
      (literal "symlink:").length = 8 ∧
        (literal "\n").length = 1 := by decide
    cases hk : node.kind with
    | directory =>
      rw [Kind.bytes]
      omega
    | special =>
      exfalso
      apply hpl root node.metadata
      rw [tokens_eq, hk]
      exact List.mem_cons_self
    | _ =>
      rw [Kind.bytes, List.length_append, List.length_append]
      omega
  rw [tokens_eq, List.flatMap_cons, Token.bytes, header_eq] at hsh
  simp only [List.length_append, List.length_cons] at hsh
  omega

theorem tokens_of_stream (halp : Alphabet root names)
    (hlg : LegibleTree root names (some node)) (hlg' : LegibleTree root names (some node'))
    (hcl : NoCollision root (some node) (some node')) {stream : Bytes}
    (h : treeStream root (some node) = some stream) (h' : treeStream root (some node') = some stream) :
    tokens root node = tokens root node' := by
  rw [treeStream, add_eq root node (hlg.wellFormed node rfl)] at h
  rw [treeStream, add_eq root node' (hlg'.wellFormed node' rfl)] at h'
  obtain ⟨hby, hpl⟩ := streamOf_eq_some h
  obtain ⟨hby', hpl'⟩ := streamOf_eq_some h'
  apply tokens_inj halp hlg.tokens hlg'.tokens hpl hpl' _ (hby.symm.trans hby')
  intro a ha b hb v hv w hw
  apply hcl
  · exact List.mem_append_right _ (List.mem_flatMap.2 ⟨a, ha, hv⟩)
  · exact List.mem_append_right _ (List.mem_flatMap.2 ⟨b, hb, hw⟩)

theorem exists_other_tree (hlg : LegibleTree root names (some node)) (h : ¬ Settles node []) :
    ∃ node', node' ≠ node ∧ LegibleTree root names (some node') ∧ tokens root node' = tokens root node ∧
      treeStream root (some node') = treeStream root (some node) := by
  have hnd := hlg.wellFormed node rfl
  obtain ⟨node', outer', hne, hlen, hnd', -, htok⟩ := shifts node [] hnd (List.forall_mem_nil _) h
  rw [List.length_eq_zero_iff.1 hlen] at hne htok
  have hsm : tokens root node' = tokens root node := by
    have hro := htok root
    rwa [List.flatten_nil, List.map_nil, List.append_nil, List.append_nil] at hro
  refine ⟨node', fun heq => hne (by rw [heq]), ⟨?_, ?_⟩, hsm, ?_⟩
  · intro other hot
    cases hot
    exact hnd'
  · change ∀ token ∈ tokens root node', _
    rw [hsm]
    exact hlg.tokens
  · rw [treeStream, treeStream, add_eq root node' hnd', add_eq root node hnd, hsm]

/-- The digest of a legible tree proves that it is this tree exactly when its
attributes are kept apart. -/
theorem treeDigest_injective_iff {name : Bytes} (halp : Alphabet (rootName name) names)
    {production : Option Node}
    (hlg : LegibleTree (rootName name) names production)
    (hsl : NoCollision (rootName name) production production)
    {digest : Text} (hdg : treeDigest name production = some digest) :
    (∀ production', LegibleTree (rootName name) names production' →
      NoCollision (rootName name) production production' →
      treeDigest name production' = some digest → production' = production) ↔ KeptApart production := by
  constructor
  · intro hun
    cases production with
    | none => trivial
    | some node =>
      by_contra hap
      obtain ⟨node', hne, hlg', htok, hst⟩ := exists_other_tree hlg hap
      have hcl : NoCollision (rootName name) (some node) (some node') := by
        have hin : hashedInputs (rootName name) (some node') = hashedInputs (rootName name) (some node) := by
          unfold hashedInputs
          rw [hst, productionTokens, productionTokens, htok]
        unfold NoCollision
        rw [hin]
        exact hsl
      have hdg' : treeDigest name (some node') = some digest := by
        unfold treeDigest at hdg ⊢
        rw [hst]
        exact hdg
      exact hne (Option.some.inj (hun (some node') hlg' hcl hdg'))
  · intro hap production' hlg' hcl hdg'
    have hstrea := treeStream_eq hcl hdg hdg'
    obtain ⟨stream, hst, -⟩ := treeDigest_eq_some hdg
    have hst' := hstrea.symm.trans hst
    cases production with
    | none =>
      cases production' with
      | none => rfl
      | some node' => exact absurd hst (absent_ne (hlg'.wellFormed node' rfl) hst')
    | some node =>
      cases production' with
      | none => exact absurd hst' (absent_ne (hlg.wellFormed node rfl) hst)
      | some node' =>
        have htok := tokens_of_stream halp hlg hlg' hcl hst hst'
        rw [eq_of_tokens (hlg.wellFormed node rfl) (hlg'.wellFormed node' rfl) hap htok]

def sampleMetadata : Metadata := ⟨0, 0, 420⟩

def sampleTree (own outer : Attributes) : Node :=
  .directory sampleMetadata outer [(literal "f", .regular sampleMetadata own [])]

def sampleRoot : Bytes := literal "etc"

def sampleNames : List Bytes := [literal "user.a", literal "user.b"]

theorem sample_alphabet : Alphabet sampleRoot sampleNames := by
  constructor
  · unfold Comparable
    decide
  · unfold Comparable
    decide

theorem not_infix_of_not_mem (h : (0x3a : UInt8) ∉ relative) (metadata : Metadata) (word : Bytes) :
    ¬ header metadata ++ word <:+: relative := by
  intro hin
  apply h
  apply hin.subset
  rw [header_eq]
  exact List.mem_cons_self

theorem sample_legible {own outer : Attributes} (hsr : own.Pairwise Before ∧ outer.Pairwise Before)
    (hnm : ∀ item ∈ own ++ outer, item.1 ∈ sampleNames) :
    LegibleTree sampleRoot sampleNames (some (sampleTree own outer)) := by
  constructor
  · intro node hnd
    cases hnd
    refine ⟨hsr.2, List.pairwise_singleton _ _, ?_, hsr.1, trivial⟩
    decide
  · intro token htok
    rcases List.mem_cons.1 htok with rfl | htok
    · refine ⟨List.prefix_refl _, fun metadata word _ => not_infix_of_not_mem (by decide) metadata word, ?_⟩
      intro target hkn
      cases hkn
    rcases List.mem_append.1 htok with htok | htok
    · rw [childTokens, childTokens, List.append_nil] at htok
      rcases List.mem_cons.1 htok with rfl | htok
      · refine ⟨List.prefix_append _ _,
          fun metadata word _ => not_infix_of_not_mem (by decide) metadata word, ?_⟩
        intro target hkn
        cases hkn
      · obtain ⟨item, hit, rfl⟩ := List.mem_map.1 htok
        exact hnm item (List.mem_append_left _ hit)
    · obtain ⟨item, hit, rfl⟩ := List.mem_map.1 htok
      exact hnm item (List.mem_append_right _ hit)

def keptTree : Node := sampleTree [(literal "user.b", literal "1")] [(literal "user.a", literal "2")]

theorem keptTree_hashed : (∃ digest, treeDigest sampleRoot (some keptTree) = some digest) ∧
    NoCollision sampleRoot (some keptTree) (some keptTree) := by
  constructor
  · apply Option.isSome_iff_exists.1
    decide +kernel
  · unfold NoCollision
    decide +kernel

theorem keptTree_settles : Settles keptTree [] := by
  apply Or.inr
  apply List.IsChain.cons_cons
  · refine ⟨_, rfl, _, rfl, ?_⟩
    unfold Before
    decide
  · exact List.isChain_singleton _

/-- The digest of the kept tree is that of no other legible tree. -/
theorem keptTree_proved : ∃ digest, treeDigest sampleRoot (some keptTree) = some digest ∧
    ∀ production', LegibleTree sampleRoot sampleNames production' →
      NoCollision sampleRoot (some keptTree) production' →
      treeDigest sampleRoot production' = some digest → production' = some keptTree := by
  obtain ⟨⟨digest, hdg⟩, hsl⟩ := keptTree_hashed
  have hro : rootName sampleRoot = sampleRoot := by decide
  have hlg : LegibleTree sampleRoot sampleNames (some keptTree) := by
    apply sample_legible
    · exact ⟨List.pairwise_singleton _ _, List.pairwise_singleton _ _⟩
    · decide
  have hlaw := @treeDigest_injective_iff sampleNames sampleRoot
  rw [hro] at hlaw
  exact ⟨digest, hdg, (hlaw sample_alphabet hlg hsl hdg).2 keptTree_settles⟩

/-- The attribute of the last file of a directory, or of the directory. -/
def attributedFile : Node := sampleTree [(literal "user.a", literal "1")] []

def attributedDirectory : Node := sampleTree [] [(literal "user.a", literal "1")]

/-- An attribute of the last file of a directory, or of the directory, gives one digest. -/
theorem attribute_of_either : attributedFile ≠ attributedDirectory ∧
    WellFormed attributedFile ∧ WellFormed attributedDirectory ∧
    NoCollision sampleRoot (some attributedFile) (some attributedDirectory) ∧
    (treeDigest sampleRoot (some attributedFile)).isSome = true ∧
    treeDigest sampleRoot (some attributedFile) = treeDigest sampleRoot (some attributedDirectory) := by
  refine ⟨?_, ?_, ?_, ?_, ?_, ?_⟩
  · intro h
    have hatt := congrArg Node.attributes h
    cases hatt
  · have hlg : LegibleTree sampleRoot sampleNames (some attributedFile) :=
      sample_legible ⟨List.pairwise_singleton _ _, List.Pairwise.nil⟩ (by decide)
    exact hlg.wellFormed _ rfl
  · have hlg : LegibleTree sampleRoot sampleNames (some attributedDirectory) :=
      sample_legible ⟨List.Pairwise.nil, List.pairwise_singleton _ _⟩ (by decide)
    exact hlg.wellFormed _ rfl
  · unfold NoCollision
    decide +kernel
  · decide +kernel
  · decide +kernel

end WebOvpn.Backup
