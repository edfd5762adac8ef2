/-
The item of the highest priority, found in one pass: an item of a higher priority
takes the place of the one that stands, and an item of its priority that says
something else contests it.  A contest is never forgotten.
-/
import WebOvpn.Lib.Sorted

namespace WebOvpn

open List

structure Standing (α : Type) where
  current : Option α
  contested : Bool

namespace Standing

variable {α γ : Type} [DecidableEq γ] (priority : α → Nat) (value : α → γ)

def offer (s : Standing α) (item : α) : Standing α :=
  match s.current with
  | none => { s with current := some item }
  | some current =>
    if priority current < priority item then { s with current := some item }
    else if priority item = priority current ∧ value item ≠ value current then { s with contested := true }
    else s

def standing (items : List α) : Standing α := items.foldl (offer priority value) ⟨none, false⟩

def mark (marked : Bool) (s : Standing α) : Standing α := { s with contested := marked || s.contested }

theorem offer_mark (marked : Bool) (s : Standing α) (item : α) :
    (s.mark marked).offer priority value item = (s.offer priority value item).mark marked := by
  obtain ⟨current, contested⟩ := s
  unfold offer mark
  cases current with
  | none => rfl
  | some current =>
    dsimp only
    split_ifs
    · rfl
    · rw [Bool.or_true]
    · rfl

theorem foldl_offer_mark (marked : Bool) (s : Standing α) (items : List α) :
    items.foldl (offer priority value) (s.mark marked) =
      (items.foldl (offer priority value) s).mark marked := by
  induction items generalizing s with
  | nil => rfl
  | cons item items ih => rw [foldl_cons, foldl_cons, offer_mark, ih]

omit [DecidableEq γ] in
def FirstMax (priority : α → Nat) (items : List α) (item : α) : Prop :=
  ∃ before after, items = before ++ item :: after ∧ (∀ other ∈ before, priority other < priority item) ∧
    ∀ other ∈ after, priority other ≤ priority item

/-- An item says something else than an item of its priority before it, when none of a higher priority
has come yet. -/
def ContestedBy (priority : α → Nat) (value : α → γ) (before : List α) (item : α) : Prop :=
  (∀ other ∈ before, priority other ≤ priority item) ∧
    ∃ other ∈ before, priority other = priority item ∧ value other ≠ value item

def Contested (priority : α → Nat) (value : α → γ) (items : List α) : Prop :=
  ∃ before item after, items = before ++ item :: after ∧ ContestedBy priority value before item

def ContestedAtTop (priority : α → Nat) (value : α → γ) (items : List α) : Prop :=
  ∃ first ∈ items, ∃ second ∈ items, priority first = priority second ∧ value first ≠ value second ∧
    ∀ other ∈ items, priority other ≤ priority first

variable {priority value} {items before after : List α} {item other : α}

omit [DecidableEq γ] in
theorem FirstMax.mem (h : FirstMax priority items item) : item ∈ items := by
  obtain ⟨before, after, rfl, -, -⟩ := h
  exact mem_append_right before mem_cons_self

omit [DecidableEq γ] in
theorem FirstMax.le (h : FirstMax priority items item) (hot : other ∈ items) :
    priority other ≤ priority item := by
  obtain ⟨before, after, rfl, hbf, haf⟩ := h
  rcases mem_append.1 hot with hot | hot
  · exact (hbf other hot).le
  · rcases mem_cons.1 hot with rfl | hot
    · exact le_rfl
    · exact haf other hot

omit [DecidableEq γ] in
theorem contested_concat : Contested priority value (items ++ [item]) ↔
    Contested priority value items ∨ ContestedBy priority value items item := by
  constructor
  · rintro ⟨before, last, after, heq, hby⟩
    rcases eq_nil_or_concat' after with rfl | ⟨after, final, rfl⟩
    · obtain ⟨rfl, hls⟩ := append_inj' heq rfl
      cases hls
      exact .inr hby
    · rw [← cons_append, ← append_assoc] at heq
      obtain ⟨rfl, -⟩ := append_inj' heq rfl
      exact .inl ⟨before, last, after, rfl, hby⟩
  · rintro (⟨before, last, after, rfl, hby⟩ | hby)
    · exact ⟨before, last, after ++ [item], by rw [append_assoc, cons_append], hby⟩
    · exact ⟨items, item, [], rfl, hby⟩

omit [DecidableEq γ] in
theorem contested_append : Contested priority value (items ++ after) ↔ Contested priority value items ∨
    ∃ before item rest, after = before ++ item :: rest ∧
      ContestedBy priority value (items ++ before) item := by
  induction after using List.reverseRecOn with
  | nil =>
    rw [append_nil]
    constructor
    · exact .inl
    · rintro (h | ⟨before, item, rest, heq, -⟩)
      · exact h
      · exact absurd heq.symm (append_ne_nil_of_right_ne_nil before (cons_ne_nil item rest))
  | append_singleton after last ih =>
    rw [← append_assoc, contested_concat, ih]
    constructor
    · rintro ((h | ⟨before, item, rest, rfl, hby⟩) | hby)
      · exact .inl h
      · exact .inr ⟨before, item, rest ++ [last], by rw [append_assoc, cons_append], hby⟩
      · exact .inr ⟨after, last, [], rfl, hby⟩
    · rintro (h | ⟨before, item, rest, heq, hby⟩)
      · exact .inl (.inl h)
      · rcases eq_nil_or_concat' rest with rfl | ⟨rest, final, rfl⟩
        · obtain ⟨rfl, hls⟩ := append_inj' heq rfl
          cases hls
          exact .inr hby
        · rw [← cons_append, ← append_assoc] at heq
          obtain ⟨rfl, -⟩ := append_inj' heq rfl
          exact .inl (.inr ⟨before, item, rest, rfl, hby⟩)

omit [DecidableEq γ] in
theorem contested_of_top (h : ContestedAtTop priority value items) : Contested priority value items := by
  obtain ⟨first, hfs, second, hsn, hsm, hdf, htop⟩ := h
  obtain ⟨before, after, rfl⟩ := append_of_mem hsn
  have hle : ∀ other ∈ before, priority other ≤ priority second := fun other hot =>
    hsm ▸ htop other (mem_append_left _ hot)
  rcases mem_append.1 hfs with hfs | hfs
  · exact ⟨before, second, after, rfl, hle, first, hfs, hsm, hdf⟩
  · rcases mem_cons.1 hfs with rfl | hfs
    · exact absurd rfl hdf
    · obtain ⟨between, rest, rfl⟩ := append_of_mem hfs
      refine ⟨before ++ second :: between, first, rest, by rw [append_assoc, cons_append], ?_, second,
        mem_append_right before mem_cons_self, hsm.symm, hdf.symm⟩
      intro other hot
      apply htop
      rw [mem_append, mem_cons] at hot ⊢
      exact hot.imp_right fun h => h.imp_right fun h => mem_append_left _ h

omit [DecidableEq γ] in
theorem contested_map {β : Type} {f : β → α} {items : List β} : Contested priority value (items.map f) ↔
    Contested (fun item => priority (f item)) (fun item => value (f item)) items := by
  constructor
  · rintro ⟨before, item, after, heq, hle, other, hot, hsm, hdf⟩
    obtain ⟨before, rest, rfl, rfl, hrs⟩ := map_eq_append_iff.1 heq
    obtain ⟨item, after, rfl, rfl, rfl⟩ := map_eq_cons_iff.1 hrs
    obtain ⟨source, hsrc, rfl⟩ := mem_map.1 hot
    exact ⟨before, item, after, rfl, fun x hx => hle (f x) (mem_map_of_mem hx), source, hsrc, hsm, hdf⟩
  · rintro ⟨before, item, after, rfl, hle, other, hot, hsm, hdf⟩
    refine ⟨before.map f, f item, after.map f, by rw [map_append, map_cons], ?_, f other,
      mem_map_of_mem hot, hsm, hdf⟩
    intro x hx
    obtain ⟨source, hsrc, rfl⟩ := mem_map.1 hx
    exact hle source hsrc

omit [DecidableEq γ] in
theorem FirstMax.of_map {β : Type} {f : β → α} {items : List β}
    (h : FirstMax priority (items.map f) item) :
    ∃ source, f source = item ∧ FirstMax (fun item => priority (f item)) items source := by
  obtain ⟨before, after, heq, hbf, haf⟩ := h
  obtain ⟨before, rest, rfl, rfl, hrs⟩ := map_eq_append_iff.1 heq
  obtain ⟨source, after, rfl, rfl, rfl⟩ := map_eq_cons_iff.1 hrs
  exact ⟨source, rfl, before, after, rfl, fun x hx => hbf (f x) (mem_map_of_mem hx),
    fun x hx => haf (f x) (mem_map_of_mem hx)⟩

omit [DecidableEq γ] in
theorem contestedAtTop_congr {items' : List α} (h : ∀ item, item ∈ items ↔ item ∈ items') :
    ContestedAtTop priority value items ↔ ContestedAtTop priority value items' := by
  unfold ContestedAtTop
  simp only [h]

structure Found (priority : α → Nat) (value : α → γ) (items : List α) (s : Standing α) : Prop where
  none_iff : s.current = none ↔ items = []
  some_of : ∀ item, s.current = some item → FirstMax priority items item
  contested_iff : s.contested = true ↔ Contested priority value items

theorem Found.offer {s : Standing α} (h : Found priority value items s) (item : α) :
    Found priority value (items ++ [item]) (s.offer priority value item) := by
  have hne : items ++ [item] ≠ [] := append_ne_nil_of_right_ne_nil items (cons_ne_nil item [])
  unfold Standing.offer
  cases hcur : s.current with
  | none =>
    obtain rfl := h.none_iff.1 hcur
    refine ⟨iff_of_false nofun hne, ?_, ?_⟩
    · rintro _ ⟨⟩
      exact ⟨[], [], rfl, nofun, nofun⟩
    · rw [contested_concat]
      exact h.contested_iff.trans (or_iff_left fun hby => not_mem_nil hby.2.choose_spec.1).symm
  | some current =>
    have hfs := h.some_of current hcur
    dsimp only
    split_ifs with hlt hdf
    · refine ⟨iff_of_false nofun hne, ?_, ?_⟩
      · rintro _ ⟨⟩
        exact ⟨items, [], rfl, fun other hot => (hfs.le hot).trans_lt hlt, nofun⟩
      · rw [contested_concat]
        apply h.contested_iff.trans (or_iff_left _).symm
        rintro ⟨-, other, hot, hsm, -⟩
        exact ((hfs.le hot).trans_lt hlt).ne hsm
    all_goals
      have hkp : FirstMax priority (items ++ [item]) current := by
        obtain ⟨before, after, rfl, hbf, haf⟩ := hfs
        refine ⟨before, after ++ [item], by rw [append_assoc, cons_append], hbf, ?_⟩
        intro other hot
        rcases mem_append.1 hot with hot | hot
        · exact haf other hot
        · exact mem_singleton.1 hot ▸ not_lt.1 hlt
    · refine ⟨iff_of_false nofun hne, ?_, ?_⟩
      · rintro _ ⟨⟩
        exact hkp
      · refine iff_of_true rfl (contested_concat.2 (.inr ⟨?_, current, hfs.mem, hdf.1.symm, hdf.2.symm⟩))
        intro other hot
        exact hdf.1 ▸ hfs.le hot
    · refine ⟨iff_of_false (by rw [hcur]; nofun) hne, ?_, ?_⟩
      · intro first hfs'
        cases hcur.symm.trans hfs'
        exact hkp
      · rw [contested_concat, h.contested_iff]
        constructor
        · exact .inl
        · rintro (hcn | ⟨hle, other, hot, hsm, hv⟩)
          · exact hcn
          -- The item repeats what stands, so the one it differs from came after what stands.
          · have heq : priority item = priority current :=
              le_antisymm (not_lt.1 hlt) (hle current hfs.mem)
            have hrp : value item = value current := by
              by_contra hne
              exact hdf ⟨heq, hne⟩
            refine contested_of_top ⟨current, hfs.mem, other, hot, heq.symm.trans hsm.symm, ?_, ?_⟩
            · intro hv'
              exact hv (hv'.symm.trans hrp.symm)
            · intro other' hot'
              exact hfs.le hot'

theorem standing_found (items : List α) :
    Found priority value items (standing priority value items) := by
  induction items using List.reverseRecOn with
  | nil =>
    refine ⟨iff_of_true rfl rfl, nofun, iff_of_false nofun ?_⟩
    rintro ⟨before, item, after, heq, -⟩
    exact append_ne_nil_of_right_ne_nil before (cons_ne_nil item after) heq.symm
  | append_singleton items item ih =>
    rw [standing, List.foldl_append]
    exact ih.offer item

/-- What stands at the end depends on what stood before, not on the contests. -/
theorem current_foldl_congr {s s' : Standing α} (h : s.current = s'.current) (items : List α) :
    (items.foldl (offer priority value) s).current =
      (items.foldl (offer priority value) s').current := by
  induction items generalizing s s' with
  | nil => exact h
  | cons item items ih =>
    obtain ⟨current, contested⟩ := s
    obtain ⟨_, contested'⟩ := s'
    cases h
    rw [foldl_cons, foldl_cons]
    apply ih
    unfold offer
    cases current with
    | none => rfl
    | some current =>
      dsimp only
      split_ifs <;> rfl

section

variable {κ : Type} [LinearOrder κ] {key : α → κ} {items' : List α}

omit [DecidableEq γ]

theorem FirstMax.key_le (h : FirstMax priority items item)
    (hsr : items.Pairwise fun a b => key a ≤ key b)
    (hot : other ∈ items) (hsm : priority other = priority item) : key item ≤ key other := by
  obtain ⟨before, after, rfl, hbf, -⟩ := h
  rcases mem_append.1 hot with hot | hot
  · exact absurd hsm (hbf other hot).ne
  · rcases mem_cons.1 hot with rfl | hot
    · exact le_rfl
    · exact rel_of_pairwise_cons (pairwise_append.1 hsr).2.1 hot

theorem FirstMax.key_eq (h : FirstMax priority items item) (h' : FirstMax priority items' other)
    (hsr : items.Pairwise fun a b => key a ≤ key b) (hsr' : items'.Pairwise fun a b => key a ≤ key b)
    (hmem : ∀ a, a ∈ items ↔ a ∈ items') : key item = key other ∧ priority item = priority other := by
  have hot := (hmem other).2 h'.mem
  have hit := (hmem item).1 h.mem
  have hsm : priority other = priority item := le_antisymm (h.le hot) (h'.le hit)
  exact ⟨le_antisymm (h.key_le hsr hot hsm) (h'.key_le hsr' hit hsm.symm), hsm.symm⟩

theorem Contested.exists_pair (h : Contested priority value items)
    (hsr : items.Pairwise fun a b => key a ≤ key b) :
    ∃ first ∈ items, ∃ second ∈ items, priority first = priority second ∧ value first ≠ value second ∧
      ∀ other ∈ items, priority first < priority other → key first ≤ key other ∧
        key second ≤ key other := by
  obtain ⟨before, second, after, rfl, hle, first, hfs, hsm, hdf⟩ := h
  obtain ⟨-, hcos, hcro⟩ := pairwise_append.1 hsr
  refine ⟨first, mem_append_left _ hfs, second, mem_append_right _ mem_cons_self, hsm, hdf, ?_⟩
  intro other hot hst
  rcases mem_append.1 hot with hot | hot
  · exact absurd (hle other hot) (not_le.2 (hsm ▸ hst))
  · refine ⟨hcro first hfs other hot, ?_⟩
    rcases mem_cons.1 hot with rfl | hot
    · exact le_rfl
    · exact rel_of_pairwise_cons hcos hot

end

end Standing

end WebOvpn
