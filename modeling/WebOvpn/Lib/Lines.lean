/-
Text read line by line and field by field: `str.splitlines`, `str.split` with
one separator, and the tests for a part of a line.
-/
import WebOvpn.Lib.Text

namespace WebOvpn

open List

/-- The characters at which `str.splitlines` ends a line. -/
def CodePoint.isLineBreak (c : CodePoint) : Bool :=
  (10 ≤ c.val && c.val ≤ 13) || (28 ≤ c.val && c.val ≤ 30) ||
    [0x85, 0x2028, 0x2029].contains c.val

namespace Text

/-- `str.splitlines`, with the characters of the unfinished line in reverse. -/
def splitlinesFrom (line : Text) : Text → List Text
  | [] => if line.isEmpty then [] else [line.reverse]
  | [c] => if c.isLineBreak then [line.reverse] else [(c :: line).reverse]
  | c :: d :: rest =>
    if c.val = 13 ∧ d.val = 10 then line.reverse :: splitlinesFrom [] rest
    else if c.isLineBreak then line.reverse :: splitlinesFrom [] (d :: rest)
    else splitlinesFrom (c :: line) (d :: rest)

def splitlines (s : Text) : List Text := splitlinesFrom [] s

def rstrip (s : Text) : Text := s.rdropWhile CodePoint.isSpace

def endswith (s suffix : Text) : Bool := suffix.isSuffixOf s

theorem contains_iff_isInfix {needle s : Text} : contains needle s = true ↔ needle <:+: s := by
  unfold contains
  rw [any_eq_true]
  constructor
  · intro h
    obtain ⟨tail, hti, hpre⟩ := h
    exact ( isPrefixOf_iff_prefix.1 hpre).isInfix.trans
      ((mem_tails _ _).1 hti).isInfix
  · intro h
    obtain ⟨tail, hpre, hsuf⟩ := infix_iff_prefix_suffix.1 h
    exact ⟨tail, (mem_tails _ _).2 hsuf, isPrefixOf_iff_prefix.2 hpre⟩

variable {sep : CodePoint} {part : Text} {parts : List Text}

theorem isInfix_intercalate (h : part ∈ parts) : part <:+: [sep].intercalate parts := by
  induction parts with
  | nil => cases h
  | cons first rest ih =>
    cases rest with
    | nil =>
      rw [mem_singleton] at h
      rw [h, intercalate_singleton]
    | cons second more =>
      rw [intercalate_cons_cons]
      rcases mem_cons.1 h with rfl | h
      · rw [append_assoc]
        exact (prefix_append _ _).isInfix
      · exact (ih h).trans (suffix_append _ _).isInfix

theorem cons_isInfix_intercalate {first : Text} (h : part ∈ parts) :
    sep :: part <:+: [sep].intercalate (first :: parts) := by
  induction parts generalizing first with
  | nil => cases h
  | cons second more ih =>
    rw [intercalate_cons_cons, append_assoc]
    rcases mem_cons.1 h with rfl | h
    · apply IsInfix.trans _ (suffix_append _ _).isInfix
      cases more with
      | nil => rw [intercalate_singleton]; exact infix_rfl
      | cons third more =>
        rw [intercalate_cons_cons, append_assoc]
        exact (prefix_append (sep :: part) _).isInfix
    · exact ((ih h).trans (suffix_append _ _).isInfix).trans
        (suffix_append _ _).isInfix

theorem isInfix_of_mem_splitOn {s : Text} (h : part ∈ s.splitOn sep) : part <:+: s := by
  have hin : part <:+: [sep].intercalate (s.splitOn sep) := isInfix_intercalate h
  rwa [intercalate_splitOn] at hin

theorem cons_isInfix_of_mem_splitOn {s : Text} (h : part ∈ (s.splitOn sep).tail) :
    sep :: part <:+: s := by
  obtain ⟨first, rest, hsp⟩ := exists_cons_of_ne_nil (splitOn_ne_nil sep s)
  rw [hsp, tail_cons] at h
  have hin : sep :: part <:+: [sep].intercalate (first :: rest) := cons_isInfix_intercalate h
  rwa [← hsp, intercalate_splitOn] at hin

/-- Texts with a separator are equal before it. -/
theorem append_cons_left_inj {α : Type} {c : α} {xs ys rest rest' : List α} (hxs : c ∉ xs)
    (hys : c ∉ ys)
    (h : xs ++ c :: rest = ys ++ c :: rest') : xs = ys := by
  induction xs generalizing ys with
  | nil =>
    cases ys with
    | nil => rfl
    | cons y ys =>
      rw [nil_append, cons_append, List.cons.injEq] at h
      exact absurd (h.1 ▸ mem_cons_self) hys
  | cons x xs ih =>
    cases ys with
    | nil =>
      rw [nil_append, cons_append, List.cons.injEq] at h
      exact absurd (h.1 ▸ mem_cons_self) hxs
    | cons y ys =>
      rw [cons_append, cons_append, List.cons.injEq] at h
      rw [h.1, ih (fun hc => hxs (mem_cons_of_mem x hc))
        (fun hc => hys (mem_cons_of_mem y hc)) h.2]

def IsLine (s : Text) : Prop := ∀ c ∈ s, c.isLineBreak = false

variable {s line front rest : Text} {lines : List Text}

theorem isLine_of_all (h : s.all (!CodePoint.isLineBreak ·) = true) : IsLine s :=
  fun c hc => (Bool.not_eq_true' _).mp (all_eq_true.1 h c hc)

theorem splitlinesFrom_cons (hln : IsLine line) (front rest : Text) :
    splitlinesFrom front (line ++ 10 :: rest) = (front.reverse ++ line) :: splitlinesFrom [] rest := by
  induction line generalizing front with
  | nil =>
    rw [nil_append, append_nil]
    cases rest with
    | nil => rfl
    | cons d rest => rw [splitlinesFrom, if_neg (fun h => absurd h.1 (by decide)), if_pos (by decide)]
  | cons c more ih =>
    obtain ⟨hc, hmr⟩ := forall_mem_cons.1 hln
    have hst : splitlinesFrom front (c :: (more ++ 10 :: rest)) =
      splitlinesFrom (c :: front) (more ++ 10 :: rest) := by
      obtain ⟨d, tail, heq⟩ : ∃ d tail, more ++ 10 :: rest = d :: tail := by
        cases more with
        | nil => exact ⟨10, rest, rfl⟩
        | cons d more => exact ⟨d, more ++ 10 :: rest, rfl⟩
      rw [heq, splitlinesFrom, if_neg, hc, if_neg Bool.false_ne_true]
      rintro ⟨hv, -⟩
      simp [CodePoint.isLineBreak, hv] at hc
    rw [cons_append, hst, ih hmr, reverse_cons, append_assoc, singleton_append]

theorem isLine_of_mem_splitlinesFrom (hfr : IsLine front) (h : line ∈ splitlinesFrom front s) :
    IsLine line := by
  have hrv : IsLine front.reverse := fun c hc => hfr c (mem_reverse.1 hc)
  fun_induction splitlinesFrom front s with
  | case1 => cases h
  | case2 front =>
    rw [mem_singleton.1 h]
    exact hrv
  | case3 front c hbre =>
    rw [mem_singleton.1 h]
    exact hrv
  | case4 front c hbre =>
    rw [mem_singleton.1 h]
    intro d hd
    rcases mem_cons.1 (mem_reverse.1 hd) with rfl | hd
    · exact eq_false_of_ne_true hbre
    · exact hfr d hd
  | case5 front c d rest hpi ih =>
    rcases mem_cons.1 h with rfl | h
    · exact hrv
    · exact ih nofun h nofun
  | case6 front c d rest hpi hbre ih =>
    rcases mem_cons.1 h with rfl | h
    · exact hrv
    · exact ih nofun h nofun
  | case7 front c d rest hpi hbre ih =>
    have hfr' : IsLine (c :: front) := forall_mem_cons.2 ⟨eq_false_of_ne_true hbre, hfr⟩
    exact ih hfr' h fun e he => hfr' e (mem_reverse.1 he)

theorem isLine_of_mem_splitlines (h : line ∈ splitlines s) : IsLine line :=
  isLine_of_mem_splitlinesFrom (forall_mem_nil _) h

theorem splitlines_cons (hln : IsLine line) (rest : Text) :
    splitlines (line ++ 10 :: rest) = line :: splitlines rest :=
  splitlinesFrom_cons hln [] rest

theorem splitlines_intercalate (hne : lines ≠ []) (hln : ∀ line ∈ lines, IsLine line) :
    splitlines ([10].intercalate lines ++ [10]) = lines := by
  induction lines with
  | nil => exact absurd rfl hne
  | cons first more ih =>
    obtain ⟨hfs, hmr⟩ := forall_mem_cons.1 hln
    cases more with
    | nil =>
      rw [intercalate_singleton, splitlines_cons hfs]
      rfl
    | cons second more =>
      rw [intercalate_cons_cons, append_assoc, append_assoc, singleton_append, splitlines_cons hfs,
        ih (cons_ne_nil _ _) hmr]

theorem rstrip_append_cons (front rest : Text) :
    rstrip (front ++ 10 :: rest) = if rstrip rest = [] then rstrip front
      else front ++ 10 :: rstrip rest := by
  unfold rstrip List.rdropWhile
  rw [reverse_append, reverse_cons, append_assoc, singleton_append, dropWhile_append]
  by_cases hrs : List.dropWhile CodePoint.isSpace rest.reverse = []
  · rw [hrs, isEmpty_nil, if_pos rfl, reverse_nil, if_pos rfl, dropWhile_cons_of_pos (by decide)]
  · rw [if_neg (by rwa [List.isEmpty_iff]), if_neg (by rwa [reverse_eq_nil_iff]), reverse_append,
      reverse_cons, reverse_reverse, append_assoc, singleton_append]

def rtrimLines : List Text → List Text
  | [] => []
  | line :: rest =>
    if rtrimLines rest = [] then if rstrip line = [] then [] else [rstrip line]
      else line :: rtrimLines rest

theorem intercalate_rtrimLines_eq_nil : [10].intercalate (rtrimLines lines) = [] ↔
    rtrimLines lines = [] := by
  refine ⟨fun h => ?_, fun h => by rw [h]; rfl⟩
  by_contra hne
  cases lines with
  | nil => exact hne rfl
  | cons line rest =>
    rw [rtrimLines] at h hne
    split_ifs at h hne with hrs hln
    · exact hne rfl
    · exact hln (by rwa [intercalate_singleton] at h)
    · obtain ⟨second, more, heq⟩ := exists_cons_of_ne_nil hrs
      rw [heq, intercalate_cons_cons] at h
      simp at h

theorem rstrip_intercalate (lines : List Text) :
    rstrip ([10].intercalate lines) = [10].intercalate (rtrimLines lines) := by
  induction lines with
  | nil => rfl
  | cons line rest ih =>
    cases rest with
    | nil =>
      rw [intercalate_singleton, rtrimLines, rtrimLines, if_pos rfl]
      split_ifs with hln
      · rw [hln]
        rfl
      · rw [intercalate_singleton]
    | cons second more =>
      rw [intercalate_cons_cons, append_assoc, singleton_append, rstrip_append_cons, ih,
        rtrimLines.eq_2 line]
      by_cases hrs : rtrimLines (second :: more) = []
      · rw [if_pos (intercalate_rtrimLines_eq_nil.2 hrs), if_pos hrs]
        split_ifs with hln
        · rw [hln]
          rfl
        · rw [intercalate_singleton]
      · rw [if_neg fun h => hrs (intercalate_rtrimLines_eq_nil.1 h), if_neg hrs]
        obtain ⟨third, others, heq⟩ := exists_cons_of_ne_nil hrs
        rw [heq, intercalate_cons_cons, append_assoc, singleton_append]

theorem rtrimLines_eq_nil_iff : rtrimLines lines = [] ↔ ∀ line ∈ lines, rstrip line = [] := by
  induction lines with
  | nil => exact ⟨fun _ => nofun, fun _ => rfl⟩
  | cons line rest ih =>
    rw [rtrimLines, forall_mem_cons, ← ih]
    split_ifs with hrs hln
    · exact ⟨fun _ => ⟨hln, hrs⟩, fun _ => rfl⟩
    · exact ⟨nofun, fun h => absurd h.1 hln⟩
    · exact ⟨nofun, fun h => absurd h.2 hrs⟩

theorem rtrimLines_append {last : Text} {blanks : List Text} (hls : rstrip last ≠ [])
    (hbl : ∀ line ∈ blanks, rstrip line = []) (lines : List Text) :
    rtrimLines (lines ++ last :: blanks) = lines ++ [rstrip last] := by
  induction lines with
  | nil => rw [nil_append, rtrimLines, if_pos (rtrimLines_eq_nil_iff.2 hbl), if_neg hls, nil_append]
  | cons line rest ih =>
    rw [cons_append, rtrimLines, ih, if_neg (append_ne_nil_of_right_ne_nil _ (cons_ne_nil _ _)),
      cons_append]

theorem exists_last (h : rtrimLines lines ≠ []) :
    ∃ others last blanks, lines = others ++ last :: blanks ∧
    rstrip last ≠ [] ∧ ∀ line ∈ blanks, rstrip line = [] := by
  induction lines with
  | nil => exact absurd rfl h
  | cons line rest ih =>
    by_cases hrs : rtrimLines rest = []
    · refine ⟨[], line, rest, rfl, ?_, rtrimLines_eq_nil_iff.1 hrs⟩
      intro hln
      apply h
      rw [rtrimLines, if_pos hrs, if_pos hln]
    · obtain ⟨others, last, blanks, rfl, hls, hbl⟩ := ih hrs
      exact ⟨line :: others, last, blanks, rfl, hls, hbl⟩

theorem rstrip_rstrip (s : Text) : rstrip (rstrip s) = rstrip s := rdropWhile_idempotent _ _

theorem rtrimLines_rtrimLines (lines : List Text) :
    rtrimLines (rtrimLines lines) = rtrimLines lines := by
  by_cases h : rtrimLines lines = []
  · rw [h]
    rfl
  · obtain ⟨others, last, blanks, rfl, hls, hbl⟩ := exists_last h
    rw [rtrimLines_append hls hbl, rtrimLines_append (by rwa [rstrip_rstrip]) (forall_mem_nil _),
      rstrip_rstrip]

/-- What stands before a line without trailing spaces is kept. -/
theorem rtrimLines_cons_append {last : Text} (hls : last ≠ []) (hpl : rstrip last = last)
    (others lines : List Text) :
    rtrimLines (others ++ last :: lines) = others ++ last :: rtrimLines lines := by
  by_cases h : rtrimLines lines = []
  · rw [rtrimLines_append (by rwa [hpl]) (rtrimLines_eq_nil_iff.1 h), h, hpl]
  · obtain ⟨more, last', blanks, rfl, hls', hbl⟩ := exists_last h
    rw [rtrimLines_append hls' hbl, ← cons_append, ← append_assoc, rtrimLines_append hls' hbl,
      append_assoc, cons_append]

theorem mem_rtrimLines (h : line ∈ rtrimLines lines) : ∃ raw ∈ lines, line = raw ∨
    line = rstrip raw := by
  obtain ⟨others, last, blanks, rfl, hls, hbl⟩ := exists_last (ne_nil_of_mem h)
  rw [rtrimLines_append hls hbl, mem_append, mem_singleton] at h
  rcases h with h | rfl
  · exact ⟨line, mem_append_left _ h, .inl rfl⟩
  · exact ⟨last, mem_append_right _ mem_cons_self, .inr rfl⟩

theorem IsLine.rstrip (h : IsLine line) : IsLine (Text.rstrip line) :=
  fun c hc => h c (( rdropWhile_prefix _ line).subset hc)

theorem strip_rstrip (s : Text) : strip (rstrip s) = strip s := by
  induction s using List.reverseRecOn with
  | nil => rfl
  | append_singleton front c ih =>
    by_cases hc : c.isSpace = true
    · unfold rstrip
      rw [rdropWhile_concat_pos _ _ _ hc, strip_eq (front ++ [c]), dropWhile_append]
      refine ih.trans ?_
      split_ifs with hfr
      · rw [strip_eq, List.isEmpty_iff.1 hfr, dropWhile_cons_of_pos hc]
        rfl
      · rw [rdropWhile_concat_pos _ _ _ hc]
        rfl
    · unfold rstrip
      rw [rdropWhile_concat_neg _ _ _ hc]

end Text

end WebOvpn
