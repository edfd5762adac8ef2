/-
The filter of a router as the path engine reads it, and as RouterOS does.  The reading
is right whatever its unresolved matchers are, when no rule that it skips for the text of
a protocol or a port stands against the verdict.
-/
import WebOvpn.Lib.Calendar
import WebOvpn.Lib.Codes
import WebOvpn.Netctl.PathFacts

namespace WebOvpn.PathFilter

open PathFacts (natText)

/-- A definite `PathVerdict`. -/
inductive Verdict where
  | allowed
  | blocked
  deriving DecidableEq

/-- `PathRequest`, as far as the filter reads it, with the source address. -/
structure Flow where
  sourceIp : Text
  destinationIp : Text
  protocol : Text
  destinationPort : Option Nat

structure AddressEntry where
  disabled : Bool
  list : Text
  address : Text

structure FilterRule where
  disabled : Bool := false
  chain : Text := []
  srcCidr : Text := []
  srcAddress : Text := []
  dstCidr : Text := []
  dstAddress : Text := []
  srcAddressList : Text := []
  dstAddressList : Text := []
  protocol : Text := []
  dstPort : Text := []
  inInterface : Text := []
  outInterface : Text := []
  routingMark : Text := []
  connectionState : Text := []
  unsupportedMatchers : List Text := []
  action : Text := []

inductive Reason where
  | unresolvedFilterAddressMatcher
  | missingDestinationPort
  | unresolvedFilterMatcher
  | unsupportedFilterMatcher
  | unsupportedFilterAction
  deriving DecidableEq

/-- What `evaluate_filter` returns: a verdict, `unknown` with its reason, or
nothing when no rule stops it. -/
inductive Evaluation where
  | decided (verdict : Verdict)
  | unknown (reason : Reason)
  | noMatch
  deriving DecidableEq

/-- What an action does to a flow that its rule selects. -/
inductive Effect where
  | nothing
  | verdict (verdict : Verdict)
  | unsupported
  deriving DecidableEq

def effectOf (action : Text) : Effect :=
  if action.lower = "drop" ∨ action.lower = "reject" then .verdict .blocked
  else if action.lower = "accept" then .verdict .allowed
  else if action = [] then .nothing
  else .unsupported

section

-- `inNetwork value cidr` is `ip_address(value) in ip_network(cidr, strict=False)`, and `none` is a
-- `ValueError`.
variable (inNetwork : Text → Text → Option Bool)

def matchesCidr (value cidr : Text) : Option Bool :=
  if cidr = [] then some true else inNetwork value cidr

def matchesEntries (listName address : Text) (found : Bool) : List AddressEntry → Option Bool
  | [] => if found then some false else none
  | entry :: rest =>
    if entry.disabled = true ∨ entry.list ≠ listName then matchesEntries listName address found rest
    else
      match matchesCidr inNetwork address entry.address with
      | none => none
      | some true => some true
      | some false => matchesEntries listName address true rest

def matchesAddressList (entries : List AddressEntry) (listName address : Text) : Option Bool :=
  if listName = [] then some true else matchesEntries inNetwork listName address false entries

def ruleValue (canonical normalized : Text) : Text := if canonical = [] then normalized else canonical

variable (entries : List AddressEntry) (flow : Flow)

def sourceMatch (rule : FilterRule) : Option Bool :=
  matchesCidr inNetwork flow.sourceIp (ruleValue rule.srcCidr rule.srcAddress)

def destinationMatch (rule : FilterRule) : Option Bool :=
  matchesCidr inNetwork flow.destinationIp (ruleValue rule.dstCidr rule.dstAddress)

def destinationListMatch (rule : FilterRule) : Option Bool :=
  matchesAddressList inNetwork entries rule.dstAddressList flow.destinationIp

def sourceListMatch (rule : FilterRule) : Option Bool :=
  matchesAddressList inNetwork entries rule.srcAddressList flow.sourceIp

def addressMatches (rule : FilterRule) : List (Option Bool) :=
  [sourceMatch inNetwork flow rule, destinationMatch inNetwork flow rule,
    destinationListMatch inNetwork entries flow rule, sourceListMatch inNetwork entries flow rule]

def FilterRule.isForward (rule : FilterRule) : Bool := rule.chain = [] || rule.chain.lower = "forward"

def FilterRule.hasOtherProtocol (rule : FilterRule) : Bool :=
  rule.protocol ≠ [] && rule.protocol.lower ≠ flow.protocol.lower

def FilterRule.hasOtherPort (rule : FilterRule) : Bool :=
  rule.dstPort ≠ [] && flow.destinationPort.any fun port => rule.dstPort ≠ natText port

def FilterRule.hasUnresolved (rule : FilterRule) : Bool :=
  rule.inInterface ≠ [] || rule.outInterface ≠ [] || rule.routingMark ≠ [] || rule.connectionState ≠ []

/-- What `evaluate_filter` does with one rule; `none` is to go on with the next one. -/
def evaluateRule (rule : FilterRule) : Option Evaluation :=
  if rule.disabled || !rule.isForward then none
  else if some false ∈ addressMatches inNetwork entries flow rule then none
  else if none ∈ addressMatches inNetwork entries flow rule then some (.unknown .unresolvedFilterAddressMatcher)
  else if rule.hasOtherProtocol flow then none
  else if rule.dstPort ≠ [] ∧ flow.destinationPort = none then some (.unknown .missingDestinationPort)
  else if rule.hasOtherPort flow then none
  else if rule.hasUnresolved then some (.unknown .unresolvedFilterMatcher)
  else if rule.unsupportedMatchers ≠ [] then some (.unknown .unsupportedFilterMatcher)
  else
    match effectOf rule.action with
    | .verdict verdict => some (.decided verdict)
    | .unsupported => some (.unknown .unsupportedFilterAction)
    | .nothing => none

def evaluateFilter : List FilterRule → Evaluation
  | [] => .noMatch
  | rule :: rest => (evaluateRule inNetwork entries flow rule).getD (evaluateFilter rest)

def protocolSelects (matcher protocol : Text) : Bool :=
  match matcher with
  | 33 :: negated => Text.lower negated ≠ protocol.lower
  | _ => matcher.lower = protocol.lower

def portItemSelects (port : Nat) (item : Text) : Bool :=
  match item.splitOn 45 with
  | [single] => single = natText port
  | [first, last] =>
    first ≠ [] && first.all CodePoint.isDigit && last ≠ [] && last.all CodePoint.isDigit &&
      digitsValue first ≤ port && port ≤ digitsValue last
  | _ => false

/-- Ports and ranges with `,` between them, or `!` and such a list. -/
def portSelects (matcher : Text) (port : Nat) : Bool :=
  match matcher with
  | 33 :: negated => !(negated.splitOn 44).any (portItemSelects port)
  | _ => (matcher.splitOn 44).any (portItemSelects port)

inductive Matcher where
  | source
  | destination
  | destinationList
  | sourceList
  | destinationPort
  | inInterface
  | outInterface
  | routingMark
  | connectionState
  | other (name : Text)
  deriving DecidableEq

/-- What is assumed of a rule: which unresolved matchers hold, and what an
unsupported action does. -/
structure Assumption where
  holds : Matcher → Bool
  effect : Option Verdict

def selects (a : Assumption) (rule : FilterRule) : Bool :=
  !rule.disabled && rule.isForward && (sourceMatch inNetwork flow rule).getD (a.holds .source) &&
    (destinationMatch inNetwork flow rule).getD (a.holds .destination) &&
    (destinationListMatch inNetwork entries flow rule).getD (a.holds .destinationList) &&
    (sourceListMatch inNetwork entries flow rule).getD (a.holds .sourceList) &&
    (rule.protocol = [] || protocolSelects rule.protocol flow.protocol) &&
    (rule.dstPort = [] ||
      (flow.destinationPort.map (portSelects rule.dstPort)).getD (a.holds .destinationPort)) &&
    (rule.inInterface = [] || a.holds .inInterface) && (rule.outInterface = [] || a.holds .outInterface) &&
    (rule.routingMark = [] || a.holds .routingMark) && (rule.connectionState = [] || a.holds .connectionState) &&
    rule.unsupportedMatchers.all fun name => a.holds (.other name)

def verdictUnder (a : Assumption) (rule : FilterRule) : Option Verdict :=
  if selects inNetwork entries flow a rule then
    match effectOf rule.action with
    | .verdict verdict => some verdict
    | .unsupported => a.effect
    | .nothing => none
  else none

def firstMatch : List (FilterRule × Assumption) → Option Verdict
  | [] => none
  | (rule, a) :: rest =>
    match verdictUnder inNetwork entries flow a rule with
    | some verdict => some verdict
    | none => firstMatch rest

end

open List

open PathFacts (natText)

variable {inNetwork : Text → Text → Option Bool} {entries : List AddressEntry} {flow : Flow}
    {rule : FilterRule}
  {rules before after : List FilterRule} {a b : Assumption} {v : Verdict}

theorem not_mem_natText {c : CodePoint} (hc : c.isDigit = false) (port : Nat) : c ∉ natText port := by
  intro hmem
  rw [Decimal.isDigit_of_mem_render hmem] at hc
  cases hc

theorem portSelects_natText (port : Nat) : portSelects (natText port) port = true := by
  have hcm : (natText port).splitOn 44 = [natText port] :=
    splitOn_eq_singleton (not_mem_natText (by decide) port)
  have hhyp : (natText port).splitOn 45 = [natText port] :=
    splitOn_eq_singleton (not_mem_natText (by decide) port)
  have hban : (33 : CodePoint) ∉ natText port := not_mem_natText (by decide) port
  have hit : portItemSelects port (natText port) = true := by
    unfold portItemSelects
    rw [hhyp]
    exact decide_eq_true rfl
  unfold portSelects
  split
  · rename_i negated heq
    rw [heq] at hban
    exact absurd mem_cons_self hban
  · rw [hcm, any_cons, hit, Bool.true_or]

theorem protocolSelects_of_eq {matcher protocol : Text} (h : matcher.lower = protocol.lower) :
    protocolSelects matcher protocol = true := by
  unfold protocolSelects
  split
  · rename_i negated
    apply decide_eq_true
    intro heq
    have hlen := congrArg List.length (h.trans heq.symm)
    simp [Text.lower] at hlen
  · exact decide_eq_true h

/-- Every unresolved matcher holds, or none does. -/
def assuming (holds : Bool) (effect : Option Verdict) : Assumption := ⟨fun _ => holds, effect⟩

theorem getD_mono {o : Option Bool} {x y : Bool} (hxy : x = true → y = true) (h : o.getD x = true) :
    o.getD y = true := by
  cases o with
  | none => exact hxy h
  | some value => exact h

theorem or_mono {x y z : Bool} (hyz : y = true → z = true) (h : (x || y) = true) : (x || z) = true := by
  rw [Bool.or_eq_true] at h ⊢
  exact h.imp_right hyz

theorem selects_mono (hle : ∀ m, a.holds m = true → b.holds m = true)
    (h : selects inNetwork entries flow a rule = true) :
    selects inNetwork entries flow b rule = true := by
  unfold selects at h ⊢
  simp only [Bool.and_eq_true] at h ⊢
  obtain ⟨⟨⟨⟨⟨⟨⟨⟨⟨⟨⟨⟨hena, hch⟩, hsrc⟩, hds⟩, hdest⟩, hsou⟩, hpr⟩, hpo⟩, hin⟩,
    hot⟩, hmr⟩, hst⟩, hos⟩ := h
  refine ⟨⟨⟨⟨⟨⟨⟨⟨⟨⟨⟨⟨hena, hch⟩, getD_mono (hle _) hsrc⟩, getD_mono (hle _) hds⟩,
    getD_mono (hle _) hdest⟩, getD_mono (hle _) hsou⟩, hpr⟩, or_mono (getD_mono (hle _)) hpo⟩,
    or_mono (hle _) hin⟩, or_mono (hle _) hot⟩, or_mono (hle _) hmr⟩, or_mono (hle _) hst⟩, ?_⟩
  exact all_eq_true.2 fun name hnm => hle _ (all_eq_true.1 hos name hnm)

theorem selects_assuming_true (effect : Option Verdict)
    (h : selects inNetwork entries flow a rule = true) :
    selects inNetwork entries flow (assuming true effect) rule = true :=
  selects_mono (fun _ _ => rfl) h

/-- The rule may select the flow, but the text of its protocol or of its port is not the flow's own. -/
def Misread (inNetwork : Text → Text → Option Bool) (entries : List AddressEntry) (flow : Flow)
    (rule : FilterRule) : Prop :=
  selects inNetwork entries flow (assuming true none) rule = true ∧
    (rule.hasOtherProtocol flow = true ∨ rule.hasOtherPort flow = true)

theorem resolved_of_not_mem {o : Option Bool} {os : List (Option Bool)} (hfl : some false ∉ os)
    (hnn : none ∉ os)
    (h : o ∈ os) : o = some true := by
  cases o with
  | none => exact absurd h hnn
  | some value =>
    cases value with
    | false => exact absurd h hfl
    | true => rfl

theorem verdictUnder_of_decided (h : evaluateRule inNetwork entries flow rule = some (.decided v))
    (a : Assumption) :
    verdictUnder inNetwork entries flow a rule = some v := by
  unfold evaluateRule at h
  split_ifs at h with hoff hfl hnn hpr hms hpo hun hot
  · cases h
  · cases h
  · cases h
  · cases h
  · have hsl : selects inNetwork entries flow a rule = true := by
      have hrs : ∀ o ∈ addressMatches inNetwork entries flow rule, o = some true := fun o ho =>
        resolved_of_not_mem hfl hnn ho
      unfold addressMatches at hrs
      simp only [forall_mem_cons] at hrs
      obtain ⟨hsrc, hds, hdest, hsou, -⟩ := hrs
      rw [Bool.not_eq_true, Bool.or_eq_false_iff, Bool.not_eq_false'] at hoff
      have hown : (rule.protocol = [] || protocolSelects rule.protocol flow.protocol) = true := by
        by_cases hem : rule.protocol = []
        · rw [decide_eq_true hem, Bool.true_or]
        · rw [protocolSelects_of_eq, Bool.or_true]
          by_contra hne
          exact hpr (by simp [FilterRule.hasOtherProtocol, hem, hne])
      have hownP : (rule.dstPort = [] ||
        (flow.destinationPort.map (portSelects rule.dstPort)).getD (a.holds .destinationPort)) =
          true := by
        by_cases hem : rule.dstPort = []
        · rw [decide_eq_true hem, Bool.true_or]
        · cases hflo : flow.destinationPort with
          | none => exact absurd ⟨hem, hflo⟩ hms
          | some port =>
            have hsm : rule.dstPort = natText port := by
              by_contra hne
              exact hpo (by simp [FilterRule.hasOtherPort, hem, hflo, hne])
            rw [Option.map_some, Option.getD_some, hsm, portSelects_natText, Bool.or_true]
      unfold FilterRule.hasUnresolved at hun
      simp only [Bool.or_eq_true, decide_eq_true_eq, not_or, not_not] at hun
      unfold selects
      simp [hoff, hsrc, hds, hdest, hsou, hown, hownP, hun, not_not.1 hot]
    unfold verdictUnder
    rw [if_pos hsl]
    split at h
    · cases h
      rfl
    · cases h
    · cases h

theorem misread_of_passed (h : evaluateRule inNetwork entries flow rule = none)
    (hsl : selects inNetwork entries flow (assuming true none) rule = true)
    (hef : effectOf rule.action ≠ .nothing) :
    Misread inNetwork entries flow rule := by
  refine ⟨hsl, ?_⟩
  unfold selects at hsl
  simp only [Bool.and_eq_true] at hsl
  obtain ⟨⟨⟨⟨⟨⟨⟨⟨⟨⟨⟨⟨hena, hch⟩, hsrc⟩, hds⟩, hdest⟩, hsou⟩, -⟩, -⟩, -⟩, -⟩, -⟩, -⟩, -⟩ :=
    hsl
  have hnev : ∀ {o : Option Bool} {x : Bool}, o.getD x = true → o ≠ some false := by
    rintro o x hget rfl
    cases hget
  unfold evaluateRule at h
  split_ifs at h with hoff hfl hnn hpr hms hpo
  · rw [Bool.or_eq_true, Bool.not_eq_true', hch] at hoff
    rcases hoff with hoff | hoff
    · rw [hoff] at hena
      cases hena
    · cases hoff
  · unfold addressMatches at hfl
    simp only [mem_cons, not_mem_nil, or_false] at hfl
    rcases hfl with hfl | hfl | hfl | hfl
    · exact absurd hfl.symm (hnev hsrc)
    · exact absurd hfl.symm (hnev hds)
    · exact absurd hfl.symm (hnev hdest)
    · exact absurd hfl.symm (hnev hsou)
  · exact .inl hpr
  · exact .inr hpo
  · split at h
    · cases h
    · cases h
    · rename_i hnot
      exact absurd hnot hef

def Opposes (inNetwork : Text → Text → Option Bool) (entries : List AddressEntry)
    (flow : Flow) (v : Verdict)
    (rule : FilterRule) : Prop :=
  Misread inNetwork entries flow rule ∧ effectOf rule.action ≠ .nothing ∧ effectOf rule.action ≠ .verdict v

/-- A rule that selects the flow whatever its unresolved matchers are, and decides the same. -/
def Confirms (inNetwork : Text → Text → Option Bool) (entries : List AddressEntry)
    (flow : Flow) (v : Verdict)
    (rule : FilterRule) : Prop :=
  selects inNetwork entries flow (assuming false none) rule = true ∧ effectOf rule.action = .verdict v

def Unopposed (inNetwork : Text → Text → Option Bool) (entries : List AddressEntry)
    (flow : Flow) (v : Verdict)
    (before : List FilterRule) : Prop :=
  ∀ first misread rest, before = first ++ misread :: rest → Opposes inNetwork entries flow v misread →
    ∃ rule ∈ first, Confirms inNetwork entries flow v rule

def Always (inNetwork : Text → Text → Option Bool) (entries : List AddressEntry)
    (flow : Flow) (v : Verdict)
    (rules : List FilterRule) : Prop :=
  ∀ judged : List (FilterRule × Assumption), judged.map Prod.fst = rules →
    firstMatch inNetwork entries flow judged = some v

theorem exists_other (v : Verdict) : ∃ w : Verdict, w ≠ v := by
  cases v with
  | allowed => exact ⟨.blocked, nofun⟩
  | blocked => exact ⟨.allowed, nofun⟩

theorem verdictUnder_of_confirms (h : Confirms inNetwork entries flow v rule) (a : Assumption) :
    verdictUnder inNetwork entries flow a rule = some v := by
  unfold verdictUnder
  rw [if_pos (selects_mono (fun _ h => absurd h Bool.false_ne_true) h.1), h.2]

theorem opposes_of_verdictUnder {w : Verdict} (hps : evaluateRule inNetwork entries flow rule = none)
    (h : verdictUnder inNetwork entries flow a rule = some w) (hne : w ≠ v) :
      Opposes inNetwork entries flow v rule := by
  unfold verdictUnder at h
  split_ifs at h with hsl
  have hmay := selects_assuming_true none hsl
  cases hef : effectOf rule.action with
  | nothing =>
    rw [hef] at h
    cases h
  | verdict verdict =>
    rw [hef] at h
    cases h
    refine ⟨misread_of_passed hps hmay (by rw [hef]; nofun), by rw [hef]; nofun, ?_⟩
    rw [hef]
    exact fun heq => hne (Effect.verdict.inj heq)
  | unsupported =>
    exact ⟨misread_of_passed hps hmay (by rw [hef]; nofun), by rw [hef]; nofun, by rw [hef]; nofun⟩

theorem exists_of_opposes (h : Opposes inNetwork entries flow v rule) :
    ∃ a w, verdictUnder inNetwork entries flow a rule = some w ∧ w ≠ v := by
  obtain ⟨⟨hmay, -⟩, hnot, hvr⟩ := h
  obtain ⟨w, hw⟩ := exists_other v
  have hsl : selects inNetwork entries flow (assuming true (some w)) rule = true :=
    selects_mono (fun _ h => h) hmay
  cases hef : effectOf rule.action with
  | nothing => exact absurd hef hnot
  | verdict verdict =>
    refine ⟨_, verdict, by unfold verdictUnder; rw [if_pos hsl, hef], ?_⟩
    rintro rfl
    exact hvr hef
  | unsupported => exact ⟨assuming true (some w), w, by unfold verdictUnder; rw [if_pos hsl, hef]; rfl, hw⟩

theorem exists_of_not_confirms (h : ¬ Confirms inNetwork entries flow v rule) :
    ∃ a, verdictUnder inNetwork entries flow a rule ≠ some v := by
  refine ⟨assuming false none, fun hsm => h ?_⟩
  unfold verdictUnder at hsm
  split_ifs at hsm with hsl
  refine ⟨hsl, ?_⟩
  cases hef : effectOf rule.action with
  | verdict verdict =>
    rw [hef] at hsm
    cases hsm
    rfl
  | _ =>
    rw [hef] at hsm
    cases hsm

theorem Unopposed.always (h : Unopposed inNetwork entries flow v before)
    (hps : ∀ rule ∈ before, evaluateRule inNetwork entries flow rule = none)
    (hrule : evaluateRule inNetwork entries flow rule = some (.decided v)) :
    Always inNetwork entries flow v (before ++ rule :: after) := by
  induction before with
  | nil =>
    rintro (_ | ⟨⟨judged, a⟩, rest⟩) hrl
    · cases hrl
    · obtain ⟨rfl, -⟩ := List.cons.inj hrl
      unfold firstMatch
      rw [verdictUnder_of_decided hrule]
  | cons first rest ih =>
    rintro (_ | ⟨⟨judged, a⟩, judgedRest⟩) hrl
    · cases hrl
    · obtain ⟨rfl, hrs⟩ := List.cons.inj hrl
      unfold firstMatch
      cases hvr : verdictUnder inNetwork entries flow a judged with
      | some w =>
        by_cases hw : w = v
        · rw [hw]
        · have hopp := opposes_of_verdictUnder (hps judged mem_cons_self) hvr hw
          obtain ⟨earlier, hear, -⟩ := h [] judged rest rfl hopp
          cases hear
      | none =>
        refine ih (fun first misread rest' hsp hopp => ?_)
          (fun rule hmem => hps rule (mem_cons_of_mem judged hmem)) judgedRest hrs
        obtain ⟨earlier, hear, hcn⟩ := h (judged :: first) misread rest' (by rw [hsp]; rfl) hopp
        rcases mem_cons.1 hear with rfl | hmem
        · rw [verdictUnder_of_confirms hcn] at hvr
          cases hvr
        · exact ⟨earlier, hmem, hcn⟩

theorem Always.tail (h : Always inNetwork entries flow v (rule :: rules))
    (ha : ∃ a, verdictUnder inNetwork entries flow a rule ≠ some v) :
      Always inNetwork entries flow v rules := by
  obtain ⟨a, hne⟩ := ha
  intro judged hjud
  have hall := h ((rule, a) :: judged) (by rw [map_cons, hjud])
  unfold firstMatch at hall
  cases hvr : verdictUnder inNetwork entries flow a rule with
  | none =>
    rw [hvr] at hall
    exact hall
  | some w =>
    rw [hvr] at hall
    exact absurd (hvr.trans hall) hne

theorem Always.unopposed (h : Always inNetwork entries flow v (before ++ after)) :
    Unopposed inNetwork entries flow v before := by
  induction before with
  | nil =>
    intro first misread rest hsp
    cases first <;> cases hsp
  | cons head tail ih =>
    rintro (_ | ⟨earlier, first⟩) misread rest hsp hopp
    · obtain ⟨rfl, -⟩ := List.cons.inj hsp
      obtain ⟨a, w, hvr, hne⟩ := exists_of_opposes hopp
      have hall := h ((head, a) :: (tail ++ after).map fun rule => (rule, assuming false none))
        (by simp [Function.comp_def])
      unfold firstMatch at hall
      rw [hvr] at hall
      exact absurd (Option.some.inj hall) hne
    · obtain ⟨rfl, hti⟩ := List.cons.inj hsp
      by_cases hcn : Confirms inNetwork entries flow v head
      · exact ⟨head, mem_cons_self, hcn⟩
      · obtain ⟨rule, hmem, hrl⟩ := ih (h.tail (exists_of_not_confirms hcn)) first misread rest hti hopp
        exact ⟨rule, mem_cons_of_mem head hmem, hrl⟩

theorem evaluateFilter_eq_decided : evaluateFilter inNetwork entries flow rules = .decided v ↔
    ∃ before rule after, rules = before ++ rule :: after ∧
      (∀ rule ∈ before, evaluateRule inNetwork entries flow rule = none) ∧
        evaluateRule inNetwork entries flow rule = some (.decided v) := by
  induction rules with
  | nil =>
    refine ⟨nofun, ?_⟩
    rintro ⟨before, rule, after, hsp, -⟩
    cases before <;> cases hsp
  | cons head tail ih =>
    unfold evaluateFilter
    cases hha : evaluateRule inNetwork entries flow head with
    | none =>
      rw [Option.getD_none, ih]
      constructor
      · rintro ⟨before, rule, after, rfl, hps, hrl⟩
        exact ⟨head :: before, rule, after, rfl, forall_mem_cons.2 ⟨hha, hps⟩, hrl⟩
      · rintro ⟨before, rule, after, hsp, hps, hrl⟩
        cases before with
        | nil =>
          obtain ⟨rfl, -⟩ := List.cons.inj hsp
          rw [hha] at hrl
          cases hrl
        | cons first rest =>
          obtain ⟨-, hti⟩ := List.cons.inj hsp
          exact ⟨rest, rule, after, hti, fun rule hmem => hps rule (mem_cons_of_mem first hmem), hrl⟩
    | some result =>
      rw [Option.getD_some]
      constructor
      · rintro rfl
        exact ⟨[], head, tail, rfl, nofun, hha⟩
      · rintro ⟨before, rule, after, hsp, hps, hrl⟩
        cases before with
        | nil =>
          obtain ⟨rfl, -⟩ := List.cons.inj hsp
          exact Option.some.inj (hha.symm.trans hrl)
        | cons first rest =>
          obtain ⟨rfl, -⟩ := List.cons.inj hsp
          rw [hps head mem_cons_self] at hha
          cases hha

/-- A definite verdict is the one that the rules give under every assumption. -/
def Conservative (inNetwork : Text → Text → Option Bool) (entries : List AddressEntry) (flow : Flow)
    (rules : List FilterRule) : Prop :=
  ∀ v, evaluateFilter inNetwork entries flow rules = .decided v → Always inNetwork entries flow v rules

/-- No rule that is misread stands against the verdict of the first rule that the evaluation stops at. -/
def ReadsRight (inNetwork : Text → Text → Option Bool) (entries : List AddressEntry) (flow : Flow)
    (rules : List FilterRule) : Prop :=
  ∀ before rule after v, rules = before ++ rule :: after →
    (∀ rule ∈ before, evaluateRule inNetwork entries flow rule = none) →
      evaluateRule inNetwork entries flow rule = some (.decided v) → Unopposed inNetwork entries flow v before

/-- **The evaluation of a filter is conservative** exactly when no rule that it skips
for the text of a protocol or a port stands against its verdict. -/
theorem evaluation_conservative_iff (inNetwork : Text → Text → Option Bool)
    (entries : List AddressEntry) (flow : Flow)
    (rules : List FilterRule) :
    Conservative inNetwork entries flow rules ↔ ReadsRight inNetwork entries flow rules := by
  constructor
  · intro h before rule after v hsp hps hrl
    have hdc := evaluateFilter_eq_decided.2 ⟨before, rule, after, hsp, hps, hrl⟩
    have halw := h v hdc
    rw [hsp] at halw
    exact halw.unopposed
  · intro h v hdc
    obtain ⟨before, rule, after, rfl, hps, hrl⟩ := evaluateFilter_eq_decided.1 hdc
    exact (h before rule after v rfl hps hrl).always hps hrl

def sampleFlow : Flow := ⟨"10.0.0.1", "10.0.0.2", "tcp", some 443⟩

def sampleRules : List FilterRule :=
  [{ protocol := "tcp", dstPort := "80,443", action := "accept" }, { action := "drop" }]

/-- A rule for a list of ports is read as one that does not match, and the flow is shown blocked. -/
theorem port_list_misread : ¬ Conservative (fun _ _ => none) [] sampleFlow sampleRules := by
  intro h
  have hblo : evaluateFilter (fun _ _ => none) [] sampleFlow sampleRules = .decided .blocked := by decide
  have hall := h .blocked hblo (sampleRules.map fun rule => (rule, assuming false none)) rfl
  have hallo : firstMatch (fun _ _ => none) [] sampleFlow
    (sampleRules.map fun rule => (rule, assuming false none)) =
      some .allowed := by decide
  rw [hallo] at hall
  cases hall

end WebOvpn.PathFilter
