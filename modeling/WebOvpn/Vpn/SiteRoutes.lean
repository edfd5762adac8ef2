/-
The managed block of site routes.  What is written is read again and a second call
changes nothing; the other lines are kept unless a block has no end.
-/
import WebOvpn.Vpn.Issuing
import WebOvpn.Vpn.Selections

namespace WebOvpn.Vpn

open Text Prog List

/-- A line that is no marker of a block. -/
def IsPlain (raw : Text) : Prop := strip raw ≠ siteRoutesBegin ∧ strip raw ≠ siteRoutesEnd

def isEnd (raw : Text) : Bool := strip raw = siteRoutesEnd

def isBlank (raw : Text) : Bool := rstrip raw = []

/-- The lines that do not stand between a first marker and the end marker after it. -/
def outsideLines (inBlock : Bool) : List Text → List Text
  | [] => []
  | raw :: rest =>
    if strip raw = siteRoutesBegin then outsideLines (rest.any isEnd) rest
    else if strip raw = siteRoutesEnd then outsideLines false rest
    else if inBlock then outsideLines inBlock rest
    else raw :: outsideLines inBlock rest

def unendedLines : List Text → List Text
  | [] => []
  | raw :: rest =>
    if strip raw = siteRoutesBegin ∧ rest.any isEnd = false then rest.filter fun raw =>
      strip raw ≠ siteRoutesBegin
    else unendedLines rest

def scannedLines (inBlock : Bool) : List Text → List Text
  | [] => []
  | raw :: rest =>
    if strip raw = siteRoutesBegin then scannedLines true rest
    else if strip raw = siteRoutesEnd then scannedLines false rest
    else if inBlock then scannedLines inBlock rest
    else raw :: scannedLines inBlock rest

def linesBefore (inBlock : Bool) : List Text → List Text
  | [] => []
  | raw :: rest =>
    if strip raw = siteRoutesBegin then []
    else if strip raw = siteRoutesEnd then linesBefore false rest
    else if inBlock then linesBefore inBlock rest
    else raw :: linesBefore inBlock rest

/-- Those of them after the first block. -/
def linesAfter : List Text → List Text
  | [] => []
  | raw :: rest => if strip raw = siteRoutesBegin then scannedLines true rest else linesAfter rest

variable {lines before after routeLines : List Text} {inBlock : Bool} {raw : Text} {v6 : Ipv6}

theorem begin_ne_end : siteRoutesBegin ≠ siteRoutesEnd := by decide

theorem scannedLines_eq (inBlock : Bool) (lines : List Text) :
    scannedLines inBlock lines = linesBefore inBlock lines ++ linesAfter lines := by
  induction lines generalizing inBlock with
  | nil => rfl
  | cons raw rest ih =>
    rw [scannedLines, linesBefore, linesAfter]
    split_ifs with hbg hend hblo
    · rfl
    · exact ih false
    · exact ih inBlock
    · rw [ih inBlock, cons_append]

theorem mem_scannedLines (h : raw ∈ scannedLines inBlock lines) : raw ∈ lines ∧ IsPlain raw := by
  induction lines generalizing inBlock with
  | nil => cases h
  | cons first rest ih =>
    rw [scannedLines] at h
    split_ifs at h with hbg hend hblo
    · exact (ih h).imp_left (mem_cons_of_mem _)
    · exact (ih h).imp_left (mem_cons_of_mem _)
    · exact (ih h).imp_left (mem_cons_of_mem _)
    · rcases mem_cons.1 h with rfl | h
      · exact ⟨mem_cons_self, hbg, hend⟩
      · exact (ih h).imp_left (mem_cons_of_mem _)

theorem scannedLines_of_no_end (hend : lines.any isEnd = false) :
    scannedLines true lines = [] ∧ outsideLines false lines = lines.filter fun raw =>
      strip raw ≠ siteRoutesBegin := by
  induction lines with
  | nil => exact ⟨rfl, rfl⟩
  | cons raw rest ih =>
    rw [any_cons, Bool.or_eq_false_iff] at hend
    obtain ⟨hsc, hous⟩ := ih hend.2
    have hraw : strip raw ≠ siteRoutesEnd := of_decide_eq_false hend.1
    rw [scannedLines, outsideLines, hend.2, hsc, hous, if_neg hraw, if_neg hraw]
    by_cases hbg : strip raw = siteRoutesBegin
    · rw [if_pos hbg, if_pos hbg, filter_cons_of_neg (by rw [hbg]; decide)]
      exact ⟨rfl, rfl⟩
    · rw [if_neg hbg, if_neg hbg, filter_cons, if_pos (decide_eq_true hbg)]
      exact ⟨rfl, rfl⟩

theorem outsideLines_eq (hblo : inBlock = true → lines.any isEnd = true) :
    outsideLines inBlock lines = scannedLines inBlock lines ++ unendedLines lines := by
  induction lines generalizing inBlock with
  | nil => rfl
  | cons raw rest ih =>
    rw [outsideLines, scannedLines, unendedLines]
    by_cases hbg : strip raw = siteRoutesBegin
    · rw [if_pos hbg, if_pos hbg]
      cases hany : rest.any isEnd with
      | true =>
        rw [if_neg (fun h => Bool.noConfusion h.2)]
        exact ih fun _ => hany
      | false =>
        rw [if_pos ⟨hbg, rfl⟩, (scannedLines_of_no_end hany).1, (scannedLines_of_no_end hany).2]
        rfl
    · rw [if_neg hbg, if_neg hbg]
      have hnn : ¬ (strip raw = siteRoutesBegin ∧ rest.any isEnd = false) := fun h => hbg h.1
      by_cases hend : strip raw = siteRoutesEnd
      · rw [if_pos hend, if_pos hend, if_neg hnn]
        exact ih nofun
      · rw [if_neg hend, if_neg hend, if_neg hnn]
        split_ifs with hin
        · apply ih
          intro _
          have hany := hblo hin
          rw [any_cons, Bool.or_eq_true] at hany
          exact hany.resolve_left fun h => hend (of_decide_eq_true h)
        · rw [cons_append, ih]
          intro h
          exact absurd h hin

theorem outsideLines_false (lines : List Text) :
    outsideLines false lines = scannedLines false lines ++ unendedLines lines := outsideLines_eq nofun

theorem withSiteBlock_written (routeLines : List Text) (inBlock : Bool) (lines : List Text) :
    withSiteBlock routeLines inBlock true lines = (scannedLines inBlock lines, true) := by
  induction lines generalizing inBlock with
  | nil => rfl
  | cons raw rest ih =>
    rw [withSiteBlock, scannedLines, ih true, ih false, ih inBlock]
    by_cases hbg : strip raw = siteRoutesBegin
    · rw [if_pos hbg, if_pos hbg]
      rfl
    · rw [if_neg hbg, if_neg hbg]
      split_ifs
      · rfl
      · rfl
      · rfl

theorem withSiteBlock_fresh (routeLines : List Text) (inBlock : Bool) (lines : List Text) :
    withSiteBlock routeLines inBlock false lines =
      if lines.any (strip · = siteRoutesBegin) then
        (linesBefore inBlock lines ++ siteBlock routeLines ++ linesAfter lines, true)
      else (linesBefore inBlock lines, false) := by
  induction lines generalizing inBlock with
  | nil => rfl
  | cons raw rest ih =>
    rw [withSiteBlock, linesBefore, linesAfter, withSiteBlock_written, ih false, ih inBlock, any_cons]
    by_cases hbg : strip raw = siteRoutesBegin
    · simp [hbg]
    · by_cases hend : strip raw = siteRoutesEnd
      · simp [hend, begin_ne_end.symm]
      · cases inBlock with
        | true => simp [hbg, hend]
        | false =>
          by_cases hany : rest.any (strip · = siteRoutesBegin) = true
          · simp [hbg, hend, hany]
          · simp [hbg, hend, hany]

theorem linesAfter_of_no_begin (h : lines.any (strip · = siteRoutesBegin) = false) :
    linesAfter lines = [] := by
  induction lines with
  | nil => rfl
  | cons raw rest ih =>
    rw [any_cons, Bool.or_eq_false_iff] at h
    rw [linesAfter, if_neg (of_decide_eq_false h.1)]
    exact ih h.2

theorem scannedLines_plain (h : ∀ line ∈ lines, IsPlain line) : scannedLines false lines = lines := by
  induction lines with
  | nil => rfl
  | cons raw rest ih =>
    rw [forall_mem_cons] at h
    rw [scannedLines, if_neg h.1.1, if_neg h.1.2, ih h.2]
    rfl

theorem unendedLines_plain (h : ∀ line ∈ lines, strip line ≠ siteRoutesBegin) :
    unendedLines lines = [] := by
  induction lines with
  | nil => rfl
  | cons raw rest ih =>
    rw [forall_mem_cons] at h
    rw [unendedLines, if_neg fun hraw => h.1 hraw.1, ih h.2]

def blockLines (routeLines before after : List Text) : List Text :=
  before ++ (siteBlock routeLines ++ after)

section Block

variable (hbefore : ∀ line ∈ before, IsPlain line) (hroutes : ∀ line ∈ routeLines, IsPlain line)
  (hafter : ∀ line ∈ after, IsPlain line)

include hbefore in
theorem linesBefore_block : linesBefore false (blockLines routeLines before after) = before := by
  induction before with
  | nil => exact if_pos (by decide)
  | cons raw rest ih =>
    rw [List.forall_mem_cons] at hbefore
    rw [blockLines, List.cons_append, linesBefore, if_neg hbefore.1.1, if_neg hbefore.1.2,
      if_neg Bool.false_ne_true]
    exact congrArg (raw :: ·) (ih hbefore.2)

theorem scannedLines_routes (hroutes : ∀ line ∈ routeLines, IsPlain line) (rest : List Text) :
    scannedLines true (routeLines ++ siteRoutesEnd :: rest) = scannedLines false rest := by
  induction routeLines with
  | nil => rw [nil_append, scannedLines, if_neg (by decide), if_pos (by decide)]
  | cons raw more ih =>
    rw [forall_mem_cons] at hroutes
    rw [cons_append, scannedLines, if_neg hroutes.1.1, if_neg hroutes.1.2, if_pos rfl, ih hroutes.2]

include hbefore hroutes hafter

theorem linesAfter_block : linesAfter (blockLines routeLines before after) = after := by
  induction before with
  | nil =>
    rw [blockLines, nil_append, siteBlock, cons_append, linesAfter, if_pos (by decide), append_assoc,
      singleton_append, scannedLines_routes hroutes, scannedLines_plain hafter]
  | cons raw rest ih =>
    rw [forall_mem_cons] at hbefore
    rw [blockLines, cons_append, linesAfter, if_neg hbefore.1.1]
    exact ih hbefore.2

theorem outsideLines_block :
    outsideLines false (blockLines routeLines before after) = before ++ after := by
  rw [outsideLines_false, scannedLines_eq, linesBefore_block hbefore, linesAfter_block hbefore hroutes hafter]
  have hune : unendedLines (blockLines routeLines before after) = [] := by
    induction before with
    | nil =>
      rw [blockLines, nil_append, siteBlock, cons_append, unendedLines, if_neg, unendedLines_plain]
      · intro line hln
        rw [append_assoc, singleton_append, mem_append, mem_cons] at hln
        rcases hln with hln | rfl | hln
        · exact (hroutes line hln).1
        · decide
        · exact (hafter line hln).1
      · rintro ⟨-, hany⟩
        rw [append_assoc, any_append, any_append, show [siteRoutesEnd].any isEnd = true by decide,
          Bool.true_or, Bool.or_true] at hany
        cases hany
    | cons raw rest ih =>
      rw [forall_mem_cons] at hbefore
      rw [blockLines, cons_append, unendedLines, if_neg fun h => hbefore.1.1 h.1]
      exact ih hbefore.2
  rw [hune, append_nil]

theorem siteRoutesIn_block : siteRoutesIn v6 false (blockLines routeLines before after) =
    routeLines.flatMap fun line => (siteRouteOf v6 (strip line)).toList := by
  have hpl : siteRoutesIn v6 false after = [] := by
    induction after with
    | nil => rfl
    | cons raw rest ih =>
      rw [forall_mem_cons] at hafter
      rw [siteRoutesIn, if_neg hafter.1.1, if_neg hafter.1.2, if_neg Bool.false_ne_true, ih hafter.2]
  have hblo : siteRoutesIn v6 true (routeLines ++ siteRoutesEnd :: after) =
      routeLines.flatMap fun line => (siteRouteOf v6 (strip line)).toList := by
    clear hbefore hafter
    induction routeLines with
    | nil =>
      rw [nil_append, siteRoutesIn, if_neg (by decide), if_pos (by decide), hpl]
      rfl
    | cons raw more ih =>
      rw [forall_mem_cons] at hroutes
      rw [cons_append, siteRoutesIn, if_neg hroutes.1.1, if_neg hroutes.1.2, if_pos rfl, ih hroutes.2,
        flatMap_cons]
  induction before with
  | nil =>
    rw [blockLines, nil_append, siteBlock, cons_append, siteRoutesIn, if_pos (by decide), append_assoc,
      singleton_append, hblo]
  | cons raw rest ih =>
    rw [forall_mem_cons] at hbefore
    rw [blockLines, cons_append, siteRoutesIn, if_neg hbefore.1.1, if_neg hbefore.1.2, if_neg Bool.false_ne_true]
    exact ih hbefore.2

end Block

theorem words_cons {token rest : Text} {sep : CodePoint} (hne : token ≠ [])
    (htok : ∀ c ∈ token, c.isSpace = false)
    (hsep : sep.isSpace = true) : words (token ++ sep :: rest) = token :: words rest := by
  unfold words
  rw [splitOnP_append_cons_of_forall_mem htok sep hsep, filter_cons, if_pos (decide_eq_true hne)]

theorem words_token {token : Text} (hne : token ≠ []) (htok : ∀ c ∈ token, c.isSpace = false) :
    words token = [token] := by
  unfold words
  rw [splitOnP_eq_singleton htok, filter_cons, if_pos (decide_eq_true hne)]
  rfl

theorem address_chars (a : Ipv4) : ∀ c ∈ a.text, c.isSpace = false ∧ c.isLineBreak = false := by
  intro c hc
  rcases a.text_chars c hc with hdg | rfl
  · have hbd : 48 ≤ c.val ∧ c.val ≤ 57 := by simpa [CodePoint.isDigit] using hdg
    constructor
    · simp [CodePoint.isSpace]
      omega
    · simp [CodePoint.isLineBreak]
      omega
  · decide

theorem serverRouteLine_reads (v6 : Ipv6) {line : Text} (net : Ipv4Network)
    (h : serverRouteLine net.text = .ok line) :
    IsPlain line ∧ IsLine line ∧ siteRouteOf v6 (strip line) = some net.text := by
  rw [serverRouteLine, Ipv4Network.ofText_text] at h
  obtain rfl := Except.ok.inj h
  have hbas := address_chars net.base
  have hmas := address_chars net.mask
  obtain ⟨front, last, hls⟩ : ∃ front last, net.mask.text = front ++ [last] := by
    rcases eq_nil_or_concat net.mask.text with hnil | ⟨front, last, heq⟩
    · exact absurd hnil (Ipv4.text_ne_nil _)
    · exact ⟨front, last, by rw [heq, concat_eq_append]⟩
  have hst : strip (text "route " ++ net.base.text ++ text " " ++ net.mask.text) =
      text "route " ++ net.base.text ++ text " " ++ net.mask.text := by
    rw [hls, ← append_assoc]
    refine strip_of_ends (text "oute " ++ net.base.text ++ text " " ++ front) (by decide) (hmas last ?_).1
    rw [hls]
    exact mem_append_right _ mem_cons_self
  refine ⟨?_, ?_, ?_⟩
  · unfold IsPlain
    rw [hst]
    constructor
    · intro heq
      have hha : some (114 : CodePoint) = some 35 := congrArg List.head? heq
      exact absurd hha (by decide)
    · intro heq
      have hha : some (114 : CodePoint) = some 35 := congrArg List.head? heq
      exact absurd hha (by decide)
  · intro c hc
    simp only [mem_append, or_assoc] at hc
    rcases hc with hc | hc | hc | hc
    · exact isLine_of_all (by decide) c hc
    · exact (hbas c hc).2
    · exact isLine_of_all (by decide) c hc
    · exact (hmas c hc).2
  · have hwr : words (text "route " ++ net.base.text ++ text " " ++ net.mask.text) =
        [text "route", net.base.text, net.mask.text] := by
      have hru : (text "route").all (fun c => !c.isSpace) = true := by decide
      rw [show text "route " = text "route" ++ [32] from rfl, show text " " = [32] from rfl, append_assoc,
        append_assoc, append_assoc, singleton_append, singleton_append,
        words_cons (by decide) (fun c hc => (Bool.not_eq_true' _).mp (all_eq_true.1 hru c hc)) (by decide),
        words_cons (Ipv4.text_ne_nil _) (fun c hc => (hbas c hc).1) (by decide),
        words_token (Ipv4.text_ne_nil _) (fun c hc => (hmas c hc).1)]
    have hra : Ipv4Network.ofText (net.base.text ++ slash :: net.mask.text) = some net :=
      Ipv4Network.ofText_mask net
    rw [hst, siteRouteOf, hwr]
    dsimp only
    rw [if_pos rfl, ipNetworkText, hra]

theorem siteRoutesText_eq (routeLines : List Text) (current : Text) :
    ∃ pad, (pad = [] ∨ pad = [[]] ∧ (splitlines current).any (strip · = siteRoutesBegin) = false) ∧
      siteRoutesText routeLines current = confText (blockLines routeLines
        (linesBefore false (splitlines current) ++ pad) (linesAfter (splitlines current))) := by
  unfold siteRoutesText blockLines
  rw [withSiteBlock_fresh]
  cases hany : (splitlines current).any (strip · = siteRoutesBegin) with
  | true =>
    refine ⟨[], .inl rfl, ?_⟩
    rw [if_pos rfl, if_pos rfl, append_nil, append_assoc]
  | false =>
    have hafter := linesAfter_of_no_begin hany
    rw [if_neg Bool.false_ne_true]
    dsimp only
    rw [if_neg Bool.false_ne_true, hafter, append_nil]
    refine ⟨_, ?_, rfl⟩
    split_ifs
    · exact .inr ⟨rfl, rfl⟩
    · exact .inl rfl

theorem splitlines_confText {before after : List Text} (hbefore : ∀ line ∈ before, IsLine line)
    (hroutes : ∀ line ∈ routeLines, IsLine line) (hafter : ∀ line ∈ after, IsLine line) :
    rtrimLines (blockLines routeLines before after) = blockLines routeLines before (rtrimLines after) ∧
      splitlines (confText (blockLines routeLines before after)) =
        blockLines routeLines before (rtrimLines after) := by
  have htri : rtrimLines (blockLines routeLines before after) =
    blockLines routeLines before (rtrimLines after) := by
    unfold blockLines siteBlock
    rw [cons_append, append_assoc, singleton_append, ← cons_append, ← append_assoc,
      rtrimLines_cons_append (by decide) (by decide), append_assoc]
    simp
  refine ⟨htri, ?_⟩
  unfold confText joinLines lineFeed
  rw [rstrip_intercalate, htri]
  apply splitlines_intercalate
  · simp [blockLines, siteBlock]
  · intro line hln
    simp only [blockLines, siteBlock, mem_append, mem_cons, not_mem_nil, or_false] at hln
    rcases hln with hln | (rfl | hln | rfl) | hln
    · exact hbefore line hln
    · exact isLine_of_all (by decide)
    · exact hroutes line hln
    · exact isLine_of_all (by decide)
    · obtain ⟨raw, hraw, rfl | rfl⟩ := mem_rtrimLines hln
      · exact hafter _ hraw
      · exact (hafter _ hraw).rstrip

def KeepsLines (old new : Text) : Prop :=
  ((outsideLines false (splitlines old)).rdropWhile isBlank).Sublist (outsideLines false (splitlines new))

/-- Nothing but blank lines follows a block without an end, and the last line after a block that is
not blank ends in no space. -/
def BlocksEnd (old : Text) : Prop :=
  (∀ raw ∈ unendedLines (splitlines old), isBlank raw = true) ∧
    ∀ raw ∈ ((linesAfter (splitlines old)).rdropWhile isBlank).getLast?, rstrip raw = raw

variable {blanks : List Text}

theorem rdropWhile_blanks (hbl : ∀ line ∈ blanks, isBlank line = true) (lines : List Text) :
    (lines ++ blanks).rdropWhile isBlank = lines.rdropWhile isBlank := by
  unfold List.rdropWhile
  rw [reverse_append, dropWhile_append_of_pos fun line hln => hbl line (mem_reverse.1 hln)]

theorem rdropWhile_last {last : Text} (hls : rstrip last ≠ [])
    (hbl : ∀ line ∈ blanks, rstrip line = []) (lines : List Text) :
    (lines ++ last :: blanks).rdropWhile isBlank = lines ++ [last] := by
  rw [append_cons, rdropWhile_blanks fun line hln => decide_eq_true (hbl line hln),
    rdropWhile_concat_neg _ _ _ (by rwa [isBlank, decide_eq_true_eq])]

theorem filter_rdropWhile (lines : List Text) :
    (lines.rdropWhile isBlank).filter (!isBlank ·) = lines.filter (!isBlank ·) := by
  conv_rhs => rw [← rdropWhile_append_rtakeWhile (p := isBlank) (l := lines), filter_append]
  have hbl : (lines.rtakeWhile isBlank).filter (!isBlank ·) = [] := by
    rw [filter_eq_nil_iff]
    intro line hln
    rw [mem_rtakeWhile_imp hln]
    exact Bool.false_ne_true
  rw [hbl, append_nil]

theorem filter_blanks (hbl : ∀ line ∈ blanks, rstrip line = []) :
    blanks.filter (!isBlank ·) = [] := by
  rw [filter_eq_nil_iff]
  intro line hln
  rw [isBlank, decide_eq_true (hbl line hln)]
  exact Bool.false_ne_true

theorem filter_last {last : Text} (hls : rstrip last ≠ [])
    (hbl : ∀ line ∈ blanks, rstrip line = []) (lines : List Text) :
    (lines ++ last :: blanks).filter (!isBlank ·) = lines.filter (!isBlank ·) ++ [last] := by
  rw [filter_append, filter_cons_of_pos (by simpa [isBlank] using hls), filter_blanks hbl]

theorem keepsLines_iff {old new : Text} {pad : List Text} (hpad : pad = [] ∨ pad = [[]])
    (hnew : outsideLines false (splitlines new) =
      linesBefore false (splitlines old) ++ pad ++ rtrimLines (linesAfter (splitlines old))) :
    KeepsLines old new ↔ BlocksEnd old := by
  unfold KeepsLines BlocksEnd
  rw [hnew, outsideLines_false, scannedLines_eq]
  generalize linesBefore false (splitlines old) = before
  generalize linesAfter (splitlines old) = after
  generalize unendedLines (splitlines old) = unended
  have hpadd : pad.filter (!isBlank ·) = [] := by
    rcases hpad with rfl | rfl
    · rfl
    · rfl
  constructor
  · intro hkp
    have hfl := hkp.filter (!isBlank ·)
    rw [filter_rdropWhile, filter_append, filter_append, filter_append, filter_append, hpadd,
      append_nil] at hfl
    have hlen : ((rtrimLines after).filter (!isBlank ·)).length = (after.filter (!isBlank ·)).length := by
      by_cases hafter : rtrimLines after = []
      · rw [hafter, filter_blanks (rtrimLines_eq_nil_iff.1 hafter)]
        rfl
      · obtain ⟨others, last, blanks, rfl, hls, hbs⟩ := exists_last hafter
        rw [rtrimLines_append hls hbs, filter_last hls hbs,
          filter_last (by rwa [rstrip_rstrip]) (forall_mem_nil _), length_append, length_append]
        rfl
    have hle := hfl.length_le
    rw [length_append, length_append, length_append, hlen] at hle
    have hune : unended.filter (!isBlank ·) = [] := length_eq_zero_iff.1 (by omega)
    constructor
    · intro raw hraw
      have hbl := filter_eq_nil_iff.1 hune raw hraw
      rwa [Bool.not_eq_true', Bool.not_eq_false] at hbl
    · intro raw hraw
      rw [hune, append_nil] at hfl
      have heq := append_cancel_left (hfl.eq_of_length (by rw [length_append, length_append, hlen]))
      by_cases hafter : rtrimLines after = []
      · have hnil : after.rdropWhile isBlank = [] :=
          rdropWhile_eq_nil_iff.2 fun line hln => decide_eq_true (rtrimLines_eq_nil_iff.1 hafter line hln)
        rw [hnil] at hraw
        cases hraw
      · obtain ⟨others, last, blanks, rfl, hls, hbs⟩ := exists_last hafter
        rw [rdropWhile_last hls hbs, getLast?_concat] at hraw
        cases hraw
        rw [rtrimLines_append hls hbs, filter_last hls hbs,
          filter_last (by rwa [rstrip_rstrip]) (forall_mem_nil _)] at heq
        exact (List.cons.inj (append_cancel_left heq)).1.symm
  · rintro ⟨hune, hen⟩
    rw [rdropWhile_blanks hune]
    by_cases hafter : rtrimLines after = []
    · rw [rdropWhile_blanks fun line hln => decide_eq_true (rtrimLines_eq_nil_iff.1 hafter line hln)]
      rw [append_assoc]
      exact ( rdropWhile_prefix isBlank before).sublist.trans (sublist_append_left _ _)
    · obtain ⟨others, last, blanks, rfl, hls, hbs⟩ := exists_last hafter
      rw [rdropWhile_last hls hbs, getLast?_concat] at hen
      rw [← append_assoc, rdropWhile_last hls hbs, rtrimLines_append hls hbs, hen last rfl,
        append_assoc]
      exact (sublist_append_left before pad).append_right _

theorem siteRoutesText_spec (v6 : Ipv6) {cidrs routeLines : List Text}
    (hcid : ∀ cidr ∈ cidrs, Canonical cidr)
    (hlines : cidrs.mapM serverRouteLine = .ok routeLines) (current : Text) :
    siteRoutesIn v6 false (splitlines (siteRoutesText routeLines current)) = cidrs ∧
      siteRoutesText routeLines (siteRoutesText routeLines current) = siteRoutesText routeLines current ∧
      (KeepsLines current (siteRoutesText routeLines current) ↔ BlocksEnd current) := by
  have hrd : (∀ line ∈ routeLines, IsPlain line ∧ IsLine line) ∧
      (routeLines.flatMap fun line => (siteRouteOf v6 (strip line)).toList) = cidrs := by
    have hall := mapM_eq_ok_iff.1 hlines
    clear hlines
    induction hall with
    | nil => exact ⟨nofun, rfl⟩
    | cons hln _ ih =>
      obtain ⟨⟨net, rfl⟩, hrs⟩ := forall_mem_cons.1 hcid
      obtain ⟨hpl, hone, hra⟩ := serverRouteLine_reads v6 net hln
      obtain ⟨hall, heq⟩ := ih hrs
      refine ⟨forall_mem_cons.2 ⟨⟨hpl, hone⟩, hall⟩, ?_⟩
      rw [flatMap_cons, hra, heq]
      rfl
  obtain ⟨pad, hpad, htx⟩ := siteRoutesText_eq routeLines current
  have hsc : ∀ line ∈ linesBefore false (splitlines current) ++ linesAfter (splitlines current),
      IsPlain line ∧ IsLine line := by
    intro line hln
    rw [← scannedLines_eq] at hln
    exact ⟨(mem_scannedLines hln).2, isLine_of_mem_splitlines (mem_scannedLines hln).1⟩
  have hbefore : ∀ line ∈ linesBefore false (splitlines current) ++ pad, IsPlain line ∧ IsLine line := by
    intro line hln
    rcases mem_append.1 hln with hln | hln
    · exact hsc line (mem_append_left _ hln)
    · rcases hpad with rfl | ⟨rfl, -⟩
      · cases hln
      · rw [mem_singleton.1 hln]
        exact ⟨⟨by decide, by decide⟩, nofun⟩
  have hafter : ∀ line ∈ linesAfter (splitlines current), IsPlain line ∧ IsLine line :=
    fun line hln => hsc line (mem_append_right _ hln)
  have htri : ∀ line ∈ rtrimLines (linesAfter (splitlines current)), IsPlain line := by
    intro line hln
    obtain ⟨raw, hraw, rfl | rfl⟩ := mem_rtrimLines hln
    · exact (hafter _ hraw).1
    · unfold IsPlain
      rw [strip_rstrip]
      exact (hafter raw hraw).1
  have hsp := (splitlines_confText (fun line hln => (hbefore line hln).2) (fun line hln => (hrd.1 line hln).2)
    fun line hln => (hafter line hln).2)
  rw [htx]
  have hpl := fun line hln => (hbefore line hln).1
  have hroutes := fun line hln => (hrd.1 line hln).1
  refine ⟨?_, ?_, ?_⟩
  · rw [hsp.2, siteRoutesIn_block hpl hroutes htri, hrd.2]
  · obtain ⟨pad', hpad', htx'⟩ := siteRoutesText_eq routeLines (confText (blockLines routeLines
      (linesBefore false (splitlines current) ++ pad) (linesAfter (splitlines current))))
    rw [hsp.2] at hpad' htx'
    have hmr : (blockLines routeLines (linesBefore false (splitlines current) ++ pad)
        (rtrimLines (linesAfter (splitlines current)))).any (strip · = siteRoutesBegin) = true := by
      rw [any_eq_true]
      exact ⟨siteRoutesBegin, mem_append_right _ mem_cons_self, by decide⟩
    obtain rfl : pad' = [] := hpad'.resolve_right fun h => Bool.noConfusion (hmr.symm.trans h.2)
    rw [htx', linesBefore_block hpl, linesAfter_block hpl hroutes htri, append_nil]
    unfold confText joinLines lineFeed
    rw [rstrip_intercalate, rstrip_intercalate, hsp.1, ← hsp.1, rtrimLines_rtrimLines]
  · refine keepsLines_iff (hpad.imp_right And.left) ?_
    rw [hsp.2, outsideLines_block hpl hroutes htri]

theorem exists_routeLines {cidrs : List Text} (hcid : ∀ cidr ∈ cidrs, Canonical cidr) :
    ∃ routeLines, cidrs.mapM serverRouteLine = .ok routeLines := by
  induction cidrs with
  | nil => exact ⟨[], rfl⟩
  | cons cidr rest ih =>
    obtain ⟨⟨net, rfl⟩, hrs⟩ := forall_mem_cons.1 hcid
    obtain ⟨routeLines, hln⟩ := ih hrs
    have hline : serverRouteLine net.text =
      .ok (text "route " ++ net.base.text ++ text " " ++ net.mask.text) := by
      rw [serverRouteLine, Ipv4Network.ofText_text]
    exact ⟨_ :: routeLines, mapM_eq_ok_iff.2 (.cons hline (mapM_eq_ok_iff.1 hln))⟩

def serverText (s : Files) : Text := Option.getD (s .serverConf) []

def siteRoutesChange (routes : List Text) (current : Text) : Except Stop Bool := do
  let routeLines ← (← uniqueCidrs routes).mapM serverRouteLine
  return decide (siteRoutesText routeLines current ≠ current)

/-- The routes that were written are read, a second call changes nothing, and the lines outside of
the blocks are kept if and only if no block is left open before them. -/
theorem writeSiteRoutes_keeps_iff {routes cidrs : List Text}
    (hcid : uniqueCidrs routes = .ok cidrs) (v6 : Ipv6)
    (s : Files) : ∃ s', exec (writeSiteRoutes v6 routes) s = (.ok cidrs, s') ∧
      siteRoutesIn v6 false (splitlines (serverText s')) = cidrs ∧
        siteRoutesChange routes (serverText s') = .ok false ∧
      (KeepsLines (serverText s) (serverText s') ↔ BlocksEnd (serverText s)) := by
  obtain ⟨routeLines, hln⟩ := exists_routeLines (normal_of_uniqueCidrs hcid).2
  obtain ⟨hra, haga, hke⟩ := siteRoutesText_spec v6 (normal_of_uniqueCidrs hcid).2 hln (serverText s)
  have hch : siteRoutesChange routes (siteRoutesText routeLines (serverText s)) = .ok false := by
    unfold siteRoutesChange
    rw [hcid]
    change (do let routeLines ← cidrs.mapM serverRouteLine; return _) = _
    rw [hln]
    exact congrArg Except.ok (decide_eq_false (not_not.2 haga))
  have hex : exec (writeSiteRoutes v6 routes) s =
    exec (if siteRoutesText routeLines (serverText s) ≠ serverText s then do
      Prog.put File.serverConf (some (siteRoutesText routeLines (serverText s)))
      siteRoutes v6
    else siteRoutes v6) s := by
    unfold writeSiteRoutes
    rw [hcid]
    change exec (do let routeLines ← Prog.lift (cidrs.mapM serverRouteLine); _) s = _
    rw [hln]
    rfl
  by_cases hsm : siteRoutesText routeLines (serverText s) = serverText s
  · rw [hsm] at hra hch hke
    refine ⟨s, ?_, hra, hch, hke⟩
    rw [hex, if_neg (not_not.2 hsm), ← hra]
    rfl
  · have hnew : serverText (Function.update s .serverConf (some (siteRoutesText routeLines (serverText s)))) =
        siteRoutesText routeLines (serverText s) := by
      unfold serverText
      rw [Function.update_self]
      rfl
    refine ⟨_, ?_, hnew ▸ hra, hnew ▸ hch, hnew ▸ hke⟩
    rw [hex, if_pos hsm]
    change (Except.ok (siteRoutesIn v6 false (splitlines (serverText _))), _) = _
    rw [hnew, hra]

def openBlock : Text := "# BEGIN VPNCTL SITE ROUTES\nverb 3\n"

def openFiles : Files := Function.update sampleFiles .serverConf (some openBlock)

/-- A block without an end swallows a line that was after it. -/
theorem writeSiteRoutes_keeps_sample :
    ∃ s', exec (writeSiteRoutes sampleHost.v6 ["10.0.6.0/24"]) openFiles =
    (.ok ["10.0.6.0/24"], s') ∧ ¬ KeepsLines openBlock (serverText s') := by
  obtain ⟨s', hex, -, -, hke⟩ :=
    @writeSiteRoutes_keeps_iff ["10.0.6.0/24"] ["10.0.6.0/24"] (by rfl) sampleHost.v6
    openFiles
  refine ⟨s', hex, fun h => ?_⟩
  have hbl := (hke.1 h).1 "verb 3" (by decide)
  revert hbl
  decide

/-- The lines after a block without an end are gone. -/
theorem open_block_swallows : ∃ s', exec (writeSiteRoutes sampleHost.v6 []) openFiles = (.ok [], s') ∧
    text "verb 3" ∈ outsideLines false (splitlines openBlock) ∧
      text "verb 3" ∉ splitlines (serverText s') := by
  refine ⟨_, rfl, ?_, ?_⟩
  · decide
  · decide

end WebOvpn.Vpn
