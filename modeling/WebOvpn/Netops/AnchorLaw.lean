/-
The firewall rule that makes the deny list effective: a packet from the list is dropped unless
a jump or a return leads it around the anchor, or the state of its connection does.
-/
import WebOvpn.Lib.Chains
import WebOvpn.Lib.Codes
import WebOvpn.Lib.Json
import WebOvpn.Lib.Sha256

namespace WebOvpn.Netops

namespace Anchor

open Text

/-- A row of `/ip/firewall/filter/print` with the properties that are asked for; a
property that is absent is the empty text. -/
structure FilterRow where
  id : Text
  chain : Text
  action : Text
  srcAddressList : Text
  outInterfaceList : Text
  connectionState : Text
  disabled : Text
  log : Text
  comment : Text
  bytes : Text
  packets : Text

def addressListName : Text := "WEBOVPN-INTERNET-DENY"

def anchorComment : Text := "web_ovpn:internet-policy-anchor:v1"

def isFalse (value : Text) : Bool := lower value ∈ [text "false", text "no", text "0", []]

def isAnchor (row : FilterRow) : Bool :=
  row.chain = "forward" && row.action = "drop" && row.srcAddressList = addressListName &&
    row.outInterfaceList = "WAN" && isFalse row.disabled && isFalse row.log && row.comment = anchorComment

inductive Reason where
  | enabledFasttrackPrecedesAnchor
  | enabledForwardAcceptPrecedesAnchor
  | anchorCount
  deriving DecidableEq

def precedingReason : List FilterRow → Option Reason
  | [] => none
  | row :: rest =>
    if row.chain ≠ "forward" then precedingReason rest
    else if !isFalse row.disabled then precedingReason rest
    else if row.action = "fasttrack-connection" then some .enabledFasttrackPrecedesAnchor
    else if row.action = "accept" then some .enabledForwardAcceptPrecedesAnchor
    else precedingReason rest

def anchorJson (row : FilterRow) : JVal :=
  .obj [("chain", .str row.chain), ("action", .str row.action),
    ("src-address-list", .str row.srcAddressList), ("out-interface-list", .str row.outInterfaceList),
    ("connection-state", .str row.connectionState), ("disabled", .str row.disabled),
    ("log", .str row.log), ("comment", .str row.comment)]

def precedingJson (row : FilterRow) : JVal :=
  .obj [("chain", .str row.chain), ("action", .str row.action),
    ("connection-state", .str row.connectionState), ("src-address-list", .str row.srcAddressList),
    ("out-interface-list", .str row.outInterfaceList), ("disabled", .str row.disabled),
    ("comment", .str row.comment)]

def fingerprint (anchor : FilterRow) (position : Nat) (preceding : List FilterRow) : Text :=
  let body : JVal :=
    .obj [(text "anchor", anchorJson anchor), (text "position", .int position),
      ("preceding_forward_rules",
        .arr ((preceding.filter fun row => row.chain = text "forward").map precedingJson))]
  text "sha256:" ++ (Sha256.hexdigest (asciiBytes (dumps compact body))).val

/-- What `inspect_internet_policy_anchor` returns. -/
structure Inspection where
  valid : Bool
  matchCount : Nat
  anchorId : Text
  anchorPosition : Int
  bytes : Text
  packets : Text
  reason : Option Reason
  fingerprint : Text

def inspectInternetPolicyAnchor (rows : List FilterRow) : Inspection :=
  match rows.zipIdx.filter fun entry => isAnchor entry.1 with
  | [(anchor, position)] =>
    let reason := precedingReason (rows.take position)
    { valid := reason.isNone
      matchCount := 1
      anchorId := anchor.id
      anchorPosition := position
      bytes := anchor.bytes
      packets := anchor.packets
      reason := reason
      fingerprint := fingerprint anchor position (rows.take position) }
  | found =>
    { valid := false
      matchCount := found.length
      anchorId := []
      anchorPosition := -1
      bytes := []
      packets := []
      reason := some .anchorCount
      fingerprint := [] }

inductive ConnectionState where
  | established
  | related
  | new
  | invalid
  | untracked
  deriving DecidableEq

def ConnectionState.name : ConnectionState → Text
  | established => "established"
  | related => "related"
  | new => "new"
  | invalid => "invalid"
  | untracked => "untracked"

inductive ListMatch where
  | any
  | isIn (name : Text)
  | notIn (name : Text)
  deriving DecidableEq

namespace ListMatch

def value : ListMatch → Text
  | any => []
  | isIn name => name
  | notIn name => text "!" ++ name

def accepts (lists : List Text) : ListMatch → Bool
  | any => true
  | isIn name => lists.contains name
  | notIn name => !lists.contains name

end ListMatch

/-- The matcher `connection-state`; without states it is absent. -/
structure StateMatch where
  isNegated : Bool
  states : List ConnectionState

namespace StateMatch

def value (states : StateMatch) : Text :=
  if states.states.isEmpty then []
  else (if states.isNegated then text "!" else []) ++
    (text ",").intercalate (states.states.map ConnectionState.name)

def accepts (state : ConnectionState) (states : StateMatch) : Bool :=
  states.states.isEmpty || states.states.contains state != states.isNegated

end StateMatch

inductive Action where
  | accept
  | fasttrackConnection
  | drop
  | reject
  | tarpit
  | jump (target : Text)
  | returns
  | passthrough
  | log
  | addSrcToAddressList
  | addDstToAddressList
  deriving DecidableEq

def Action.name : Action → Text
  | accept => "accept"
  | fasttrackConnection => "fasttrack-connection"
  | drop => "drop"
  | reject => "reject"
  | tarpit => "tarpit"
  | jump _ => "jump"
  | returns => "return"
  | passthrough => "passthrough"
  | log => "log"
  | addSrcToAddressList => "add-src-to-address-list"
  | addDstToAddressList => "add-dst-to-address-list"

structure FilterRule where
  id : Text
  chain : Text
  action : Action
  srcAddressList : ListMatch
  outInterfaceList : ListMatch
  connectionState : StateMatch
  disabled : Bool
  log : Bool
  comment : Text
  bytes : Text
  packets : Text

def boolText (value : Bool) : Text := if value then "true" else "false"

def FilterRule.row (rule : FilterRule) : FilterRow where
  id := rule.id
  chain := rule.chain
  action := rule.action.name
  srcAddressList := rule.srcAddressList.value
  outInterfaceList := rule.outInterfaceList.value
  connectionState := rule.connectionState.value
  disabled := boolText rule.disabled
  log := boolText rule.log
  comment := rule.comment
  bytes := rule.bytes
  packets := rule.packets

/-- A forwarded packet: the address lists that its source is in, the interface lists of
the interface by which it leaves, and the state of its connection. -/
structure Packet where
  addressLists : List Text
  interfaceLists : List Text
  state : ConnectionState

/-- What a rule with the action does with the packets that it matches; a packet of a
connection on the fast track does not come to the filter again. -/
def Action.effect : Action → Chains.Effect Text
  | accept => .accept
  | fasttrackConnection => .accept
  | drop => .drop
  | reject => .drop
  | tarpit => .drop
  | jump target => .jump target
  | returns => .leave
  | _ => .pass

namespace FilterRule

variable (rule : FilterRule) (packet : Packet)

def accepts : Bool :=
  !rule.disabled && rule.srcAddressList.accepts packet.addressLists &&
    rule.outInterfaceList.accepts packet.interfaceLists && rule.connectionState.accepts packet.state

def effect : Chains.Effect Text :=
  if rule.accepts packet then rule.action.effect else .pass

end FilterRule

abbrev FilterTable := List FilterRule

namespace FilterTable

variable (table : FilterTable) (packet : Packet)

def chainRules (chain : Text) : List FilterRule := List.filter (fun rule => rule.chain = chain) table

def walk (depth : Nat) (chain : Text) : Option Chains.Exit :=
  Chains.walk (fun rule => rule.effect packet) table.chainRules depth chain

def Drops : Prop := ∃ depth, table.walk packet depth "forward" = some .dropped

end FilterTable

def Packet.IsDenied (packet : Packet) : Prop :=
  addressListName ∈ packet.addressLists ∧ text "WAN" ∈ packet.interfaceLists

def FilterTable.Denies (table : FilterTable) : Prop := ∀ packet : Packet, packet.IsDenied →
    table.Drops packet

end Anchor

open List

namespace Anchor

open Text

theorem action_of_name {action : Action} (h : action.name = "drop") : action = .drop := by
  cases action with
  | drop => rfl
  | jump target => exact absurd h (by simp only [Action.name]; decide)
  | _ => exact absurd h (by decide)

theorem isIn_of_value {lists : ListMatch} {name : Text} {c : CodePoint} {rest : Text}
    (hnm : name = c :: rest)
    (hc : c ≠ '!') (h : lists.value = name) : lists = .isIn name := by
  cases lists with
  | any =>
    rw [hnm] at h
    cases h
  | isIn other =>
    change other = name at h
    rw [h]
  | notIn other =>
    rw [hnm] at h
    have hha : '!' = c := (List.cons.inj h).1
    exact absurd hha.symm hc

theorem isFalse_boolText (value : Bool) : isFalse (boolText value) = !value := by
  cases value <;> decide

structure FilterRule.IsAnchor (rule : FilterRule) : Prop where
  chain : rule.chain = "forward"
  action : rule.action = .drop
  srcAddressList : rule.srcAddressList = .isIn addressListName
  outInterfaceList : rule.outInterfaceList = .isIn "WAN"
  enabled : rule.disabled = false

variable {rule anchor : FilterRule} {packet : Packet}

theorem isAnchor_row (h : isAnchor rule.row = true) : rule.IsAnchor := by
  unfold isAnchor at h
  simp only [Bool.and_eq_true, decide_eq_true_eq] at h
  obtain ⟨⟨⟨⟨⟨⟨hch, hact⟩, hsrc⟩, hot⟩, hds⟩, -⟩, -⟩ := h
  refine ⟨hch, action_of_name hact, ?_, ?_, ?_⟩
  · exact @isIn_of_value _ addressListName _ _ rfl (by decide) hsrc
  · exact @isIn_of_value _ "WAN" _ _ rfl (by decide) hot
  · change isFalse (boolText rule.disabled) = true at hds
    rw [isFalse_boolText] at hds
    rwa [Bool.not_eq_true'] at hds

theorem effect_anchor (h : rule.IsAnchor) (hdn : packet.IsDenied) :
    rule.effect packet = if rule.connectionState.accepts packet.state then .drop else .pass := by
  have hsrc : rule.srcAddressList.accepts packet.addressLists = true := by
    rw [h.srcAddressList]
    exact contains_iff_mem.2 hdn.1
  have hot : rule.outInterfaceList.accepts packet.interfaceLists = true := by
    rw [h.outInterfaceList]
    exact contains_iff_mem.2 hdn.2
  unfold FilterRule.effect FilterRule.accepts
  rw [h.enabled, hsrc, hot, h.action]
  rfl

theorem disabled_of_precedingReason {rules : List FilterRule}
    (h : precedingReason (rules.map FilterRule.row) = none) :
    ∀ rule ∈ rules, rule.chain = "forward" → rule.action = .accept ∨ rule.action = .fasttrackConnection →
      rule.disabled = true := by
  induction rules with
  | nil => exact fun rule hrl => absurd hrl not_mem_nil
  | cons first rules ih =>
    rw [map_cons, precedingReason] at h
    intro rule hrl hch hact
    rcases mem_cons.1 hrl with rfl | hrl
    · by_contra hds
      have hena : isFalse rule.row.disabled = true := by
        change isFalse (boolText rule.disabled) = true
        rw [isFalse_boolText, Bool.not_eq_true', Bool.eq_false_iff]
        exact hds
      have hfor : rule.row.chain = "forward" := hch
      rw [if_neg (not_not.2 hfor), if_neg (by rw [hena]; decide)] at h
      rcases hact with hac | hfas
      · have hnm : rule.row.action = "accept" := congrArg Action.name hac
        rw [if_neg (by rw [hnm]; decide), if_pos hnm] at h
        cases h
      · have hnm : rule.row.action = "fasttrack-connection" := congrArg Action.name hfas
        rw [if_pos hnm] at h
        cases h
    · have hrs : precedingReason (rules.map FilterRule.row) = none := by
        split at h
        · exact h
        · split at h
          · exact h
          · split at h
            · cases h
            · split at h
              · cases h
              · exact h
      exact ih hrs rule hrl hch hact

section

variable {table : FilterTable}
    (hvalid : (inspectInternetPolicyAnchor (table.map FilterRule.row)).valid = true)
include hvalid

theorem exists_matched : ∃ anchor position,
    ((table.map FilterRule.row).zipIdx.filter fun entry => isAnchor entry.1) = [(anchor, position)] ∧
      precedingReason ((table.map FilterRule.row).take position) = none := by
  unfold inspectInternetPolicyAnchor at hvalid
  split at hvalid
  · rename_i anchor position hfn
    exact ⟨anchor, position, hfn, Option.isNone_iff_eq_none.1 hvalid⟩
  · cases hvalid

theorem exists_split : ∃ before anchor after,
    table = before ++ anchor :: after ∧ isAnchor anchor.row = true := by
  obtain ⟨row, position, hfn, -⟩ := exists_matched hvalid
  have hmem : (row, position) ∈ (table.map FilterRule.row).zipIdx.filter fun entry => isAnchor entry.1 := by
    rw [hfn]
    exact mem_singleton_self _
  obtain ⟨hrow, han⟩ := mem_filter.1 hmem
  obtain ⟨rule, hrl, rfl⟩ := mem_map.1 (fst_mem_of_mem_zipIdx hrow)
  obtain ⟨before, after, rfl⟩ := append_of_mem hrl
  exact ⟨before, rule, after, rfl, han⟩

theorem precedingReason_split {before after : List FilterRule} {anchor : FilterRule}
    (hsp : table = before ++ anchor :: after) (han : isAnchor anchor.row = true) :
    precedingReason (before.map FilterRule.row) = none := by
  obtain ⟨row, position, hfn, hrs⟩ := exists_matched hvalid
  have hget : (table.map FilterRule.row)[before.length]? = some anchor.row := by
    rw [hsp, getElem?_map]
    simp
  have hmem : (anchor.row, before.length) ∈ (table.map FilterRule.row).zipIdx.filter fun entry =>
    isAnchor entry.1 :=
    mem_filter.2 ⟨mem_zipIdx_iff_getElem?.2 hget, han⟩
  rw [hfn, mem_singleton] at hmem
  have hpos : before.length = position := (Prod.mk.inj hmem).2
  rw [← hpos, hsp, map_append, take_left' (length_map _)] at hrs
  exact hrs

end

section

variable {action : Action}

theorem action_effect_drop : action.effect = .drop ↔ action ∈ [.drop, .reject, .tarpit] := by
  cases action with
  | _ => simp [Action.effect]

theorem action_effect_accept : action.effect = .accept ↔ action ∈ [.accept, .fasttrackConnection] := by
  cases action with
  | _ => simp [Action.effect]

theorem action_effect_leave : action.effect = .leave ↔ action = .returns := by
  cases action with
  | _ => simp [Action.effect]

theorem action_effect_jump {target : Text} : action.effect = .jump target ↔ action = .jump target := by
  cases action with
  | _ => simp [Action.effect]

end

namespace FilterTable

variable (table : FilterTable)

/-- With jumps enough the chain comes to this exit for the packet. -/
def Exits (packet : Packet) (chain : Text) (exit : Chains.Exit) : Prop :=
  ∃ depth, table.walk packet depth chain = some exit

end FilterTable

namespace FilterRule

variable (table : FilterTable) (packet : Packet) (rule : FilterRule)

/-- The rule matches the packet and drops it, or jumps to a chain that does. -/
def Stops : Prop :=
  rule.accepts packet = true ∧ (rule.action ∈ [.drop, .reject, .tarpit] ∨
    ∃ target, rule.action = .jump target ∧ table.Exits packet target .dropped)

/-- The rule matches the packet, and is a return, or a jump to a chain that accepts the
packet or goes in circles. -/
def LeadsAround : Prop :=
  rule.accepts packet = true ∧ (rule.action = .returns ∨
    ∃ target, rule.action = .jump target ∧ ∀ exit, exit ≠ .accepted → ¬ table.Exits packet target exit)

/-- No packet from the deny list to `WAN` matches the rule. -/
def IsApart : Prop :=
  rule.disabled = true ∨ rule.srcAddressList = .notIn addressListName ∨ rule.outInterfaceList = .notIn "WAN" ∨
    ∀ state, rule.connectionState.accepts state = false

variable {table packet rule}

theorem effect_eq_iff (effect : Chains.Effect Text) (h : effect ≠ .pass) :
    rule.effect packet = effect ↔ rule.accepts packet = true ∧ rule.action.effect = effect := by
  unfold FilterRule.effect
  split
  · rename_i hac
    rw [and_iff_right hac]
  · rename_i hac
    exact iff_of_false h.symm fun hbot => hac hbot.1

theorem effect_eq_jump {target : Text} :
    rule.effect packet = .jump target ↔ rule.accepts packet = true ∧ rule.action = .jump target := by
  rw [effect_eq_iff (.jump target) (by simp), action_effect_jump]

theorem effect_eq_accept :
    rule.effect packet = .accept ↔ rule.accepts packet = true ∧
      rule.action ∈ [.accept, .fasttrackConnection] := by
  rw [effect_eq_iff .accept (by simp), action_effect_accept]

theorem stops_iff :
    Chains.Stops (fun rule => rule.effect packet) table.chainRules rule ↔ rule.Stops table packet := by
  unfold Stops
  rw [← action_effect_drop, and_or_left, ← effect_eq_iff .drop (by simp), ← exists_and_left]
  refine or_congr_right (exists_congr fun target => ?_)
  rw [← and_assoc, ← effect_eq_jump]
  rfl

theorem leadsAway_iff : Chains.LeadsAway (fun rule => rule.effect packet) table.chainRules rule ↔
    rule.LeadsAround table packet ∨
      rule.accepts packet = true ∧ rule.action ∈ [.accept, .fasttrackConnection] := by
  unfold LeadsAround
  rw [← effect_eq_accept, or_comm, ← action_effect_leave, and_or_left, ← effect_eq_iff .leave (by simp),
    ← exists_and_left]
  refine or_congr_right (or_congr_right (exists_congr fun target => ?_))
  rw [← and_assoc, ← effect_eq_jump]
  rfl

theorem not_accepts_of_isApart (h : rule.IsApart) (hdn : packet.IsDenied) :
    rule.accepts packet = false := by
  unfold accepts
  rcases h with hds | hsrc | hot | hst
  · rw [hds]
    rfl
  · have hls : rule.srcAddressList.accepts packet.addressLists = false := by
      rw [hsrc, ListMatch.accepts, contains_iff_mem.2 hdn.1]
      rfl
    rw [hls, Bool.and_false, Bool.false_and, Bool.false_and]
  · have hls : rule.outInterfaceList.accepts packet.interfaceLists = false := by
      rw [hot, ListMatch.accepts, contains_iff_mem.2 hdn.2]
      rfl
    rw [hls, Bool.and_false, Bool.false_and]
  · rw [hst packet.state, Bool.and_false]

end FilterRule

/-- Names of lists that a matcher accepts beside the one that is given. -/
def ListMatch.witness (name : Text) : ListMatch → List Text
  | isIn other => [name, other]
  | _ => [name]

theorem ListMatch.accepts_witness {lists : ListMatch} {name : Text} (h : lists ≠ .notIn name) :
    lists.accepts (lists.witness name) = true ∧ name ∈ lists.witness name := by
  cases lists with
  | any => exact ⟨rfl, mem_singleton_self name⟩
  | isIn other => exact ⟨contains_iff_mem.2 (mem_cons_of_mem _ mem_cons_self), mem_cons_self⟩
  | notIn other =>
    refine ⟨?_, mem_singleton_self name⟩
    have hne : other ∉ [name] := fun hmem => h (congrArg ListMatch.notIn (mem_singleton.1 hmem))
    unfold accepts witness
    rw [Bool.not_eq_true', Bool.eq_false_iff]
    exact fun hmem => hne (contains_iff_mem.1 hmem)

/-- A rule that is not apart matches some packet from the deny list to `WAN`. -/
theorem FilterRule.exists_accepts (h : ¬ rule.IsApart) :
    ∃ packet : Packet, packet.IsDenied ∧ rule.accepts packet = true := by
  unfold IsApart at h
  push Not at h
  obtain ⟨hena, hsrc, hot, state, hst⟩ := h
  obtain ⟨hac, hmem⟩ := ListMatch.accepts_witness hsrc
  obtain ⟨hac', hmem'⟩ := ListMatch.accepts_witness hot
  refine ⟨⟨_, _, state⟩, ⟨hmem, hmem'⟩, ?_⟩
  unfold accepts
  simp only [Bool.and_eq_true, Bool.not_eq_true']
  exact ⟨⟨⟨Bool.eq_false_iff.2 hena, hac⟩, hac'⟩, Bool.eq_true_of_not_eq_false hst⟩

/-- What is before and after an anchor keeps a packet from passing: each rule that leads it
around the anchor comes after one that stops it, and it is stopped by the anchor, by a
rule before it, or by one after it to which it comes. -/
structure StopsAt (table : FilterTable) (before : List FilterRule) (anchor : FilterRule)
    (after : List FilterRule)
    (packet : Packet) : Prop where
  around : ∀ first rule rest, FilterTable.chainRules before "forward" = first ++ rule :: rest →
    rule.LeadsAround table packet → ∃ other ∈ first, other.Stops table packet
  stopped : anchor.connectionState.accepts packet.state = true ∨
    (∃ rule ∈ FilterTable.chainRules before "forward", rule.Stops table packet) ∨
    ∃ first rule rest, FilterTable.chainRules after "forward" = first ++ rule :: rest ∧
      rule.Stops table packet ∧ ∀ other ∈ first, ¬ other.LeadsAround table packet ∧
        (other.accepts packet = true → other.action ∉ [.accept, .fasttrackConnection])

/-- `StopsAt` for each packet from the deny list to `WAN`. -/
def FilterTable.HoldsAnchor (table : FilterTable) : Prop :=
  ∀ before anchor after, table = before ++ anchor :: after → isAnchor anchor.row = true →
    ∀ packet : Packet, packet.IsDenied → StopsAt table before anchor after packet

/-- A chain that drops packets or hands them back: none of its rules accepts, and its jumps
lead to such chains, without circles; rules that are apart do not count. -/
inductive FilterTable.HandsBack (table : FilterTable) : Text → Prop where
  | chain (name : Text)
    (accepts : ∀ rule ∈ table.chainRules name, ¬ rule.IsApart → rule.action ∉ [.accept, .fasttrackConnection])
    (jumps : ∀ rule ∈ table.chainRules name, ¬ rule.IsApart → ∀ target, rule.action = .jump target →
      table.HandsBack target) : table.HandsBack name

/-- The anchor is for every state, and no rule before it leads around it. -/
structure PlainBefore (table : FilterTable) (before : List FilterRule) (anchor : FilterRule) : Prop where
  states : ∀ state, anchor.connectionState.accepts state = true
  returns : ∀ rule ∈ FilterTable.chainRules before "forward", rule.action = .returns → rule.IsApart
  jumps : ∀ rule ∈ FilterTable.chainRules before "forward", ∀ target, rule.action = .jump target →
    rule.IsApart ∨ table.HandsBack target

def FilterTable.IsPlain (table : FilterTable) : Prop :=
  ∀ before anchor after, table = before ++ anchor :: after → isAnchor anchor.row = true →
    PlainBefore table before anchor

/-- Beside the anchor no rule of the forward chain jumps, and none drops such packets. -/
def FilterTable.IsFlat (table : FilterTable) : Prop :=
  ∀ before anchor after, table = before ++ anchor :: after → isAnchor anchor.row = true →
    ∀ rule ∈ before ++ after, rule.chain = text "forward" → (∀ target, rule.action ≠ .jump target) ∧
      (rule.action ∈ [.drop, .reject, .tarpit] → rule.IsApart)

/-- What a valid inspection says of the table. -/
structure AnchorLaw (table : FilterTable) : Prop where
  exact : table.Denies ↔ table.HoldsAnchor
  plain : table.IsPlain → table.Denies
  flat : table.IsFlat → (table.Denies ↔ table.IsPlain)

variable {before after : List FilterRule} {table : FilterTable}

theorem chainRules_split (h : anchor.chain = "forward") :
    FilterTable.chainRules (before ++ anchor :: after) "forward" =
      FilterTable.chainRules before (text "forward") ++
        anchor :: FilterTable.chainRules after "forward" := by
  unfold FilterTable.chainRules
  rw [filter_append,
    filter_cons_of_pos (p := fun rule : FilterRule => decide (rule.chain = "forward")) (decide_eq_true h)]

theorem stops_anchor (h : anchor.IsAnchor) (hdn : packet.IsDenied) :
    anchor.Stops table packet ↔ anchor.connectionState.accepts packet.state = true := by
  rw [← FilterRule.stops_iff]
  unfold Chains.Stops
  dsimp only
  rw [effect_anchor h hdn]
  cases anchor.connectionState.accepts packet.state with
  | _ => simp

theorem not_leadsAway_anchor (h : anchor.IsAnchor) (hdn : packet.IsDenied) :
    ¬ Chains.LeadsAway (fun rule => rule.effect packet) table.chainRules anchor := by
  unfold Chains.LeadsAway
  dsimp only
  rw [effect_anchor h hdn]
  cases anchor.connectionState.accepts packet.state with
  | _ => simp

/-- No rule before the anchor accepts, as the inspection is valid. -/
theorem leadsAway_before (hrs : precedingReason (before.map FilterRule.row) = none)
    (hmem : rule ∈ FilterTable.chainRules before "forward") :
    Chains.LeadsAway (fun rule => rule.effect packet) table.chainRules rule ↔
      rule.LeadsAround table packet := by
  rw [FilterRule.leadsAway_iff]
  refine or_iff_left ?_
  rintro ⟨hac, hact⟩
  obtain ⟨hrl, hch⟩ := mem_filter.1 hmem
  have hds := disabled_of_precedingReason hrs rule hrl (of_decide_eq_true hch) (by simpa using hact)
  unfold FilterRule.accepts at hac
  rw [hds] at hac
  cases hac

theorem drops_iff_stopsAt
    (hvalid : (inspectInternetPolicyAnchor (table.map FilterRule.row)).valid = true)
    (hsp : table = before ++ anchor :: after) (han : isAnchor anchor.row = true)
    (hdn : packet.IsDenied) :
    table.Drops packet ↔ StopsAt table before anchor after packet := by
  have hrs := precedingReason_split hvalid hsp han
  have hrl := isAnchor_row han
  have hdr : table.Drops packet ↔ Chains.StopsFirst (fun rule => rule.effect packet) table.chainRules
      (table.chainRules "forward") := Chains.exits_dropped_iff
  have hfor : table.chainRules "forward" =
      FilterTable.chainRules before (text "forward") ++ anchor :: FilterTable.chainRules after "forward" := by
    rw [hsp, chainRules_split hrl.chain]
  have haf : Chains.StopsFirst (fun rule => rule.effect packet) table.chainRules
      (FilterTable.chainRules after "forward") ↔
      ∃ first rule rest, FilterTable.chainRules after "forward" = first ++ rule :: rest ∧
        rule.Stops table packet ∧ ∀ other ∈ first, ¬ other.LeadsAround table packet ∧
          (other.accepts packet = true → other.action ∉ [.accept, .fasttrackConnection]) := by
    unfold Chains.StopsFirst
    simp only [FilterRule.stops_iff, FilterRule.leadsAway_iff, not_or, not_and]
  rw [hdr, hfor, Chains.stopsFirst_append, Chains.stopsFirst_cons, FilterRule.stops_iff,
    stops_anchor hrl hdn, and_iff_right (not_leadsAway_anchor hrl hdn), haf, Chains.stopsFirst_iff]
  simp only [FilterRule.stops_iff]
  constructor
  · rintro (⟨hst, hear⟩ | ⟨hsa, hst⟩)
    · refine ⟨fun first rule rest heq harou => hear first rule rest heq ?_, .inr (.inl hst)⟩
      exact FilterRule.leadsAway_iff.2 (.inl harou)
    · refine ⟨fun first rule rest heq harou => ?_, hst.imp_right .inr⟩
      have hmem : rule ∈ FilterTable.chainRules before "forward" := by
        rw [heq]
        exact mem_append_right _ mem_cons_self
      exact absurd (FilterRule.leadsAway_iff.2 (.inl harou)) (hsa rule hmem)
  · rintro ⟨harou, hst⟩
    have hear : ∀ first rule rest, FilterTable.chainRules before "forward" = first ++ rule :: rest →
        Chains.LeadsAway (fun rule => rule.effect packet) table.chainRules rule →
          ∃ other ∈ first, other.Stops table packet := by
      intro first rule rest heq haw
      have hmem : rule ∈ FilterTable.chainRules before "forward" := by
        rw [heq]
        exact mem_append_right _ mem_cons_self
      exact harou first rule rest heq ((leadsAway_before hrs hmem).1 haw)
    by_cases hbefo : ∃ rule ∈ FilterTable.chainRules before "forward", rule.Stops table packet
    · exact .inl ⟨hbefo, hear⟩
    · refine .inr ⟨fun rule hmem haw => ?_, hst.imp_right fun h => h.resolve_left hbefo⟩
      obtain ⟨first, rest, heq⟩ := append_of_mem hmem
      obtain ⟨other, hot, hst⟩ := hear first rule rest heq haw
      exact hbefo ⟨other, heq ▸ mem_append_left _ hot, hst⟩

/-- A chain that hands packets back accepts none from the deny list to `WAN`. -/
theorem FilterTable.HandsBack.exits {chain : Text} (h : table.HandsBack chain) (hdn : packet.IsDenied) :
    ∃ exit, exit ≠ .accepted ∧ table.Exits packet chain exit := by
  induction h with
  | chain name accepts jumps ih =>
    have hen : ∃ depth exit, exit ≠ .accepted ∧ Chains.walkRules (fun rule => FilterRule.effect rule packet)
        (table.walk packet depth) (table.chainRules name) = some exit := by
      apply Chains.walkRules_ends
      intro rule hmem
      by_cases hap : rule.IsApart
      · have hps : rule.effect packet = .pass := by
          unfold FilterRule.effect
          rw [FilterRule.not_accepts_of_isApart hap hdn]
          rfl
        rw [hps]
        exact ⟨fun h => (by cases h), fun chain h => (by cases h)⟩
      · refine ⟨fun hef => ?_, fun target hef => ?_⟩
        · exact accepts rule hmem hap ((FilterRule.effect_eq_accept.1 hef).2)
        · exact ih rule hmem hap target ((FilterRule.effect_eq_jump.1 hef).2)
    obtain ⟨depth, exit, hne, hex⟩ := hen
    exact ⟨exit, hne, depth + 1, hex⟩

theorem PlainBefore.stopsAt (h : PlainBefore table before anchor) (hdn : packet.IsDenied) :
    StopsAt table before anchor after packet := by
  refine ⟨fun first rule rest heq harou => ?_, .inl (h.states packet.state)⟩
  exfalso
  have hmem : rule ∈ FilterTable.chainRules before "forward" := by
    rw [heq]
    exact mem_append_right _ mem_cons_self
  obtain ⟨hac, hrt | ⟨target, hjm, hnn⟩⟩ := harou
  · have hap := FilterRule.not_accepts_of_isApart (h.returns rule hmem hrt) hdn
    cases hac.symm.trans hap
  · rcases h.jumps rule hmem target hjm with hap | hbc
    · cases hac.symm.trans (FilterRule.not_accepts_of_isApart hap hdn)
    · obtain ⟨exit, hne, hex⟩ := hbc.exits hdn
      exact hnn exit hne hex

/-- Where no rule but the anchor stops a packet, nothing makes up for a return before it or
for a state that it leaves out. -/
theorem plainBefore_of_flat (hnn : ∀ rule ∈ before ++ after, rule.chain = "forward" →
      (∀ target, rule.action ≠ .jump target) ∧ (rule.action ∈ [.drop, .reject, .tarpit] → rule.IsApart))
    (hst : ∀ packet : Packet, packet.IsDenied → StopsAt table before anchor after packet) :
    PlainBefore table before anchor := by
  have hstop {packet : Packet} {part : List FilterRule} (hdn : packet.IsDenied)
      (hpr : ∀ rule ∈ part, rule ∈ before ++ after) {rule : FilterRule}
      (hmem : rule ∈ FilterTable.chainRules part "forward") : ¬ rule.Stops table packet := by
    obtain ⟨hrl, hch⟩ := mem_filter.1 hmem
    obtain ⟨hjm, hdr⟩ := hnn rule (hpr rule hrl) (of_decide_eq_true hch)
    rintro ⟨hac, hact | ⟨target, hact, -⟩⟩
    · cases hac.symm.trans (FilterRule.not_accepts_of_isApart (hdr hact) hdn)
    · exact hjm target hact
  refine ⟨fun state => ?_, fun rule hmem hrt => ?_, fun rule hmem target hjm => ?_⟩
  · have hdn : Packet.IsDenied ⟨[addressListName], ["WAN"], state⟩ :=
      ⟨mem_singleton_self _, mem_singleton_self _⟩
    rcases (hst _ hdn).stopped with hsa | ⟨rule, hmem, hst⟩ | ⟨first, rule, rest, heq, hst, -⟩
    · exact hsa
    · exact absurd hst (hstop hdn (fun _ => mem_append_left _) hmem)
    · have hlt : rule ∈ FilterTable.chainRules after "forward" := by
        rw [heq]
        exact mem_append_right _ mem_cons_self
      exact absurd hst (hstop hdn (fun _ => mem_append_right _) hlt)
  · by_contra hap
    obtain ⟨packet, hdn, hac⟩ := FilterRule.exists_accepts hap
    obtain ⟨first, rest, heq⟩ := append_of_mem hmem
    obtain ⟨other, hot, hst⟩ := (hst packet hdn).around first rule rest heq ⟨hac, .inl hrt⟩
    have hear : other ∈ FilterTable.chainRules before "forward" := by
      rw [heq]
      exact mem_append_left _ hot
    exact hstop hdn (fun _ => mem_append_left _) hear hst
  · obtain ⟨hrl, hch⟩ := mem_filter.1 hmem
    exact absurd hjm ((hnn rule (mem_append_left _ hrl) (of_decide_eq_true hch)).1 target)

def sampleAnchor (states : List ConnectionState) : FilterRule where
  id := "*1"
  chain := "forward"
  action := .drop
  srcAddressList := .isIn addressListName
  outInterfaceList := .isIn "WAN"
  connectionState := ⟨false, states⟩
  disabled := false
  log := false
  comment := anchorComment
  bytes := "0"
  packets := "0"

theorem valid_sampleAnchor (states : List ConnectionState) :
    (inspectInternetPolicyAnchor ([sampleAnchor states].map FilterRule.row)).valid = true := by
  have hpl : isAnchor (sampleAnchor []).row = true := by decide
  have han : isAnchor (sampleAnchor states).row = true := hpl
  have hfn : (([sampleAnchor states].map FilterRule.row).zipIdx.filter fun entry => isAnchor entry.1) =
      [((sampleAnchor states).row, 0)] := by
    change List.filter _ [((sampleAnchor states).row, 0)] = _
    rw [filter_cons_of_pos (p := fun entry : FilterRow × Nat => isAnchor entry.1) han]
    rfl
  unfold inspectInternetPolicyAnchor
  rw [hfn]
  rfl

/-- A jump to a chain that writes the log, and a return for what is not on the deny list. -/
def sampleBefore : List FilterRule :=
  [{ sampleAnchor [] with action := .jump "logging", srcAddressList := .any, comment := [] },
    { sampleAnchor [] with action := .returns, srcAddressList := .notIn addressListName, comment := [] },
    { sampleAnchor [] with action := .log, chain := "logging", comment := [] }]

def sampleTable : FilterTable := sampleBefore ++ [sampleAnchor []]

theorem sampleTable_isPlain : sampleTable.IsPlain := by
  intro before anchor after hsp han
  have hpr : before = sampleBefore ∧ anchor = sampleAnchor [] := by
    rcases before with _ | ⟨_, _ | ⟨_, _ | ⟨_, _ | ⟨_, before⟩⟩⟩⟩
    · cases hsp
      exact absurd han (by decide)
    · cases hsp
      exact absurd han (by decide)
    · cases hsp
      exact absurd han (by decide)
    · cases hsp
      exact ⟨rfl, rfl⟩
    · simp [sampleTable, sampleBefore] at hsp
  rw [hpr.1, hpr.2]
  have hlog : ∀ rule ∈ sampleTable.chainRules "logging", rule.action = .log := by decide
  have hbc : sampleTable.HandsBack "logging" := by
    constructor
    · intro rule hmem _
      rw [hlog rule hmem]
      decide
    · intro rule hmem _ target hjm
      cases (hlog rule hmem).symm.trans hjm
  have hfor : ∀ rule ∈ FilterTable.chainRules sampleBefore "forward", rule.action = .jump "logging" ∨
      rule.action = .returns ∧ rule.srcAddressList = .notIn addressListName := by decide
  constructor
  · exact fun state => rfl
  · intro rule hmem hrt
    rcases hfor rule hmem with hjm | ⟨-, hsrc⟩
    · cases hjm.symm.trans hrt
    · exact .inr (.inl hsrc)
  · intro rule hmem target hjm
    rcases hfor rule hmem with hjm' | ⟨hrt, -⟩
    · cases hjm.symm.trans hjm'
      exact .inr hbc
    · cases hrt.symm.trans hjm

end Anchor

end WebOvpn.Netops
