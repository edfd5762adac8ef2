/-
The management interface of OpenVPN: how much of a reply `recv_until` reads, and what the
two parsers of connected clients make of a reply and of the status log.
-/
import Mathlib.Data.List.Sort
import WebOvpn.Lib.Listing
import WebOvpn.Lib.Pieces
import WebOvpn.Vpn.Clients

namespace WebOvpn.Vpn

open Text List

/-- The states of `csv.reader` within a line. -/
inductive CsvState where
  | startField
  | inField
  | inQuotedField
  | quoteInQuotedField

def csvFrom : CsvState → Text → Text → List Text
  | _, field, [] => [field]
  | .startField, field, c :: rest =>
    if c = 34 then csvFrom .inQuotedField field rest
    else if c = 44 then field :: csvFrom .startField [] rest
    else csvFrom .inField (field ++ [c]) rest
  | .inField, field, c :: rest =>
    if c = 44 then field :: csvFrom .startField [] rest else csvFrom .inField (field ++ [c]) rest
  | .inQuotedField, field, c :: rest =>
    if c = 34 then csvFrom .quoteInQuotedField field rest else csvFrom .inQuotedField (field ++ [c]) rest
  | .quoteInQuotedField, field, c :: rest =>
    if c = 34 then csvFrom .inQuotedField (field ++ [c]) rest
    else if c = 44 then field :: csvFrom .startField [] rest
    else csvFrom .inField (field ++ [c]) rest

/-- The row that `csv.reader([line])` yields. -/
def csvFields (line : Text) : List Text := if line = [] then [] else csvFrom .startField [] line

/-- The characters that are digits for `str.isdigit` and not decimal ones, by ranges. -/
def digitRanges : List (Nat × Nat) :=
  [(0xb2, 0xb3), (0xb9, 0xb9), (0x1369, 0x1371), (0x19da, 0x19da), (0x2070, 0x2070),
    (0x2074, 0x2079), (0x2080, 0x2089),
    (0x2460, 0x2468), (0x2474, 0x247c), (0x2488, 0x2490), (0x24ea, 0x24ea), (0x24f5, 0x24fd), (0x24ff, 0x24ff),
    (0x2776, 0x277e), (0x2780, 0x2788), (0x278a, 0x2792), (0x10a40, 0x10a43), (0x10e60, 0x10e68),
      (0x11052, 0x1105a),
    (0x1f100, 0x1f10a)]

def isdigit (s : Text) : Bool :=
  s ≠ [] && s.all fun c => c.isDecimal || digitRanges.any fun range => range.1 ≤ c.val && c.val ≤ range.2

def decimalOf (c : CodePoint) : Option Nat :=
  (CodePoint.decimalZeros.find? fun base => base ≤ c.val && c.val < base + 10).map fun base => c.val - base

/-- `int(s)` of digits, up to the limit of 4300 of them; `none` is a `ValueError`. -/
def intOf (s : Text) : Option Nat :=
  if 4300 < s.length then none else (s.mapM decimalOf).map fun digits => digits.foldl (fun n d => n * 10 + d) 0

def part (parts : List Text) (i : Nat) : Text := parts[i]?.getD []

/-- `int(parts[i]) if len(parts) > i and parts[i].isdigit() else None`. -/
def counter (parts : List Text) (i : Nat) : Option (Option Nat) :=
  if isdigit (part parts i) then (intOf (part parts i)).map some else some none

structure ClientStatus where
  commonName : Text
  realAddress : Text
  virtualAddress : Text
  bytesReceived : Option Nat
  bytesSent : Option Nat
  connectedSince : Text
  deriving DecidableEq

def clientListTag : Text := "CLIENT_LIST,"

def routingTableTag : Text := "ROUTING_TABLE,"

/-- The columns are those after a `Virtual IPv6 Address`. -/
def isShifted (parts : List Text) : Bool := decide (12 < parts.length) && !isdigit (part parts 4)

def clientRow (parts : List Text) (rx : Nat) : Option ClientStatus := do
  let received ← counter parts rx
  let sent ← counter parts (rx + 1)
  return ⟨part parts 1, part parts 2, part parts 3, received, sent, part parts (rx + 2)⟩

def managedRow (parts : List Text) : Option ClientStatus :=
  clientRow parts (if isShifted parts then 5 else 4)

/-- `rows[common_name] = row`. -/
def putStatus (rows : List ClientStatus) (row : ClientStatus) : List ClientStatus :=
  if row.commonName ∈ rows.map ClientStatus.commonName then
    rows.map fun other => if other.commonName = row.commonName then row else other
  else rows ++ [row]

def setVirtualAddress (name address : Text) (rows : List ClientStatus) : List ClientStatus :=
  rows.map fun row => if row.commonName = name then { row with virtualAddress := address } else row

/-- The first loop of `parse_management_status`, of one line; `none` is a `ValueError`. -/
def statusStep (rows : List ClientStatus) (line : Text) : Option (List ClientStatus) :=
  let parts := csvFields line
  if clientListTag.isPrefixOf line then
    if part parts 1 = [] then some rows
    else (managedRow parts).map (putStatus rows)
  else if routingTableTag.isPrefixOf line then
    some (if 3 ≤ parts.length then setVirtualAddress (part parts 2) (part parts 1) rows else rows)
  else some rows

inductive StatusMode where
  | clients
  | routes
  deriving DecidableEq

def statusTags : List Text :=
  ["TITLE", "TIME", "HEADER", "CLIENT_LIST", "ROUTING_TABLE", "GLOBAL_STATS"]

def clientHeaders : List Text :=
  ["Common Name", "Real Address", "Bytes Received", "Bytes Sent", "Connected Since"]

def routeHeaders : List Text := ["Virtual Address", "Common Name", "Real Address", "Last Ref"]

def findStatus (name : Text) (rows : List ClientStatus) : Option ClientStatus :=
  rows.find? fun row => row.commonName = name

/-- The second loop of `parse_management_status`, for the format with sections. -/
def sectionStep (state : Option StatusMode × List ClientStatus) (line : Text) :
    Option (Option StatusMode × List ClientStatus) :=
  let (mode, rows) := state
  let parts := csvFields line
  if parts ≠ [] ∧ part parts 0 ∈ statusTags then some state
  else if ∀ header ∈ clientHeaders, header ∈ parts then some (some .clients, rows)
  else if ∀ header ∈ routeHeaders, header ∈ parts then some (some .routes, rows)
  else if line = "GLOBAL STATS" ∨ line = "END" then some (none, rows)
  else if line = "ROUTING TABLE" ∨ parts.length < 2 then some state
  else if mode = some .clients ∧ 5 ≤ parts.length then do
    let received ← counter parts 2
    let sent ← counter parts 3
    let before := (findStatus (part parts 0) rows).getD ⟨part parts 0, [], [], none, none, []⟩
    return (mode, putStatus rows { before with
      realAddress := part parts 1
      bytesReceived := received
      bytesSent := sent
      connectedSince := part parts 4 })
  else if mode = some .routes then
    let before := (findStatus (part parts 1) rows).getD ⟨part parts 1, [], [], none, none, []⟩
    some (mode, putStatus rows { before with
      virtualAddress := part parts 0
      realAddress := if before.realAddress = [] then part parts 2 else before.realAddress })
  else some state

def parseManagementLines (lines : List Text) : Option (List ClientStatus) := do
  let rows ← lines.foldlM statusStep []
  let (_, rows) ← lines.foldlM sectionStep (none, rows)
  return rows.insertionSort fun row other => Text.le row.commonName other.commonName

def parseManagementStatus (s : Text) : Option (List ClientStatus) := parseManagementLines (splitlines s)

/-- How many bytes a character of UTF-8 has that starts with the byte. -/
def sequenceLength (b : UInt8) : Nat :=
  if b < 0x80 then 1 else if b < 0xC2 then 0 else if b < 0xE0 then 2 else if b < 0xF0 then 3
    else if b < 0xF5 then 4 else 0

def isSecond (first second : UInt8) : Bool :=
  0x80 ≤ second && second < 0xC0 && (first ≠ 0xE0 || 0xA0 ≤ second) && (first ≠ 0xED || second < 0xA0) &&
    (first ≠ 0xF0 || 0x90 ≤ second) && (first ≠ 0xF4 || second < 0x90)

def frontSequence : Bytes → Bytes
  | first :: second :: rest =>
    if 2 ≤ sequenceLength first ∧ isSecond first second = true then
      first :: second :: (rest.take (sequenceLength first - 2)).takeWhile fun b => 0x80 ≤ b && b < 0xC0
    else [first]
  | bytes => bytes

def codePointOf : Bytes → Nat
  | [a] => a.toNat
  | [a, b] => a.toNat % 32 * 64 + b.toNat % 64
  | [a, b, c] => a.toNat % 16 * 4096 + b.toNat % 64 * 64 + c.toNat % 64
  | [a, b, c, d] => a.toNat % 8 * 262144 + b.toNat % 64 * 4096 + c.toNat % 64 * 64 + d.toNat % 64
  | _ => 0xFFFD

/-- `decode("utf-8", errors="replace")`, after as many bytes as are skipped. -/
def decodeFrom : Nat → Bytes → Text
  | _, [] => []
  | skip + 1, _ :: rest => decodeFrom skip rest
  | 0, b :: rest =>
    let front := frontSequence (b :: rest)
    let c := if front.length = sequenceLength b then codePointOf front else 0xFFFD
    Fin.ofNat 0x110000 c :: decodeFrom (front.length - 1) rest

def decodeReplace (bytes : Bytes) : Text := decodeFrom 0 bytes

def decodeChunks (chunks : List Bytes) : Text := chunks.flatMap decodeReplace

def isMarked (markers : List Text) (s : Text) : Bool := markers.any fun marker => contains marker s

/-- `recv_until`, from the text read so far, with what is not yet received. A stream without
chunks is closed or lets the call time out. -/
def recvUntil (markers : List Text) : Nat → List Bytes → Text → Text × List Bytes
  | 0, chunks, s => (s, chunks)
  | _ + 1, [], s => (s, [])
  | n + 1, chunk :: rest, s =>
    if isMarked markers (s ++ decodeReplace chunk) then (s ++ decodeReplace chunk, rest)
    else recvUntil markers n rest (s ++ decodeReplace chunk)

def statusMarkers : List Text := ["\nEND", "END\r\n"]

def readStatus (chunks : List Bytes) : Text × List Bytes := recvUntil statusMarkers 16 chunks []

def managementStatusClients (chunks : List Bytes) : Option (List ClientStatus) :=
  parseManagementStatus (readStatus chunks).1

structure KillResult where
  killed : Bool
  message : Text
  sent : List Text

/-- What comes of `kill`, given what is received for it. -/
def killConnected (upper : Text → Text) (client : Text) (replies : List Bytes) : KillResult :=
  let killText := (recvUntil ["SUCCESS:", "ERROR:", "client-kill"] 8 replies []).1
  let killed := contains "SUCCESS" (upper killText) || contains "CLIENT-KILL" (upper killText)
  ⟨killed, if killed then "client will reconnect and reload CCD" else (strip killText).take 500,
    ["status\n", text "kill " ++ client ++ "\n", "quit\n"]⟩

inductive KillError where
  | systemExit
  | valueError

/-- `management_kill_client`, given `str.upper` and what is received for `status` and for
`kill`.  A name that `validate_client` refuses ends the call before anything is sent. -/
def managementKillClient (upper : Text → Text) (client : Text) (chunks replies : List Bytes) :
    Except KillError KillResult :=
  if isClientName client = false then .error .systemExit
  else match parseManagementStatus (readStatus chunks).1 with
  | none => .error .valueError
  | some clients =>
    .ok (if client ∈ clients.map ClientStatus.commonName then
      killConnected upper client ((readStatus chunks).2 ++ replies)
    else ⟨false, "not connected", ["status\n", "quit\n"]⟩)

/-- A complete reply to `status`: lines, the line `END` and its line break. -/
structure StatusReply where
  lines : Text
  lineBreak : Text
  ends : lineBreak = "\n" ∨ lineBreak = "\r\n"

def StatusReply.upToEnd (reply : StatusReply) : Text := reply.lines ++ "\nEND"

def StatusReply.text (reply : StatusReply) : Text := reply.upToEnd ++ reply.lineBreak

structure ReceivedReply extends StatusReply where
  chunks : List Bytes
  received : ∀ chunk ∈ chunks, chunk ≠ [] ∧ chunk.length ≤ 4096
  spells : decodeReplace chunks.flatten = toStatusReply.text

/-- Every line of the reply is read, so that every client of it is listed, and can be killed
when its name is one that `validate_client` accepts. -/
structure FindsClients (upper : Text → Text) (reply : ReceivedReply) : Prop where
  read : ∃ rest, rest <+: reply.lineBreak ∧ (readStatus reply.chunks).1 = reply.upToEnd ++ rest
  listed : managementStatusClients reply.chunks = parseManagementStatus reply.text
  kills : ∀ client replies clients, isClientName client = true →
    parseManagementStatus reply.text = some clients →
    ∃ result, managementKillClient upper client reply.chunks replies = .ok result ∧
      (client ∉ clients.map ClientStatus.commonName → result.message = "not connected") ∧
      (text "kill " ++ client ++ "\n" ∈ result.sent ↔ client ∈ clients.map ClientStatus.commonName)

/-- At most sixteen chunks, each decoded by itself, spell the reply up to its end, and no
fewer of them contain a marker. -/
def ReachesEnd (reply : ReceivedReply) : Prop :=
  ∃ n ≤ 16, (∃ rest, rest <+: reply.lineBreak ∧ decodeChunks (reply.chunks.take n) = reply.upToEnd ++ rest) ∧
    ∀ i < n, isMarked statusMarkers (decodeChunks (reply.chunks.take i)) = false

theorem splitlinesFrom_lineBreak {c : CodePoint} (hc : c.isLineBreak = false) {rest : Text}
    (hrs : rest ∈ [[], [13], [10], [13, 10]]) (front s : Text) :
    splitlinesFrom front (s ++ c :: rest) = splitlinesFrom front (s ++ [c]) := by
  have hrt : ¬ c.val = 13 := fun h => by simp [CodePoint.isLineBreak, h] at hc
  have hfee : ¬ c.val = 10 := fun h => by simp [CodePoint.isLineBreak, h] at hc
  have hbre : CodePoint.isLineBreak 10 = true ∧ CodePoint.isLineBreak 13 = true := by decide
  have hnil : ∀ front : Text, splitlinesFrom front (c :: rest) = splitlinesFrom front [c] := by
    intro front
    simp only [mem_cons, not_mem_nil, or_false] at hrs
    rcases hrs with rfl | rfl | rfl | rfl <;> simp [splitlinesFrom, hc, hrt, hbre]
  induction front, s using splitlinesFrom.induct with
  | case1 front => exact hnil front
  | case2 front => exact hnil front
  | case3 front d hd => simp [splitlinesFrom, hfee, hd, hc, hnil]
  | case4 front d hd => simp [splitlinesFrom, hfee, hd, hc, hnil]
  | case5 front d e rest hcr ih => simp [splitlinesFrom, hcr, ih]
  | case6 front d e rest hcr hd ih => simpa [splitlinesFrom, hcr, hd] using ih
  | case7 front d e rest hcr hd ih => simpa [splitlinesFrom, hcr, hd] using ih

theorem recvUntil_spec (markers : List Text) (n : Nat) (chunks : List Bytes) (s : Text) :
    ∃ m ≤ n, (recvUntil markers n chunks s).1 = s ++ decodeChunks (chunks.take m) ∧
      (∀ i, 0 < i → i < m → isMarked markers (s ++ decodeChunks (chunks.take i)) = false) ∧
      (m = n ∨ chunks.length ≤ m ∨ isMarked markers (s ++ decodeChunks (chunks.take m)) = true) := by
  induction n generalizing chunks s with
  | zero => exact ⟨0, le_rfl, by simp [recvUntil, decodeChunks], by omega, .inl rfl⟩
  | succ n ih =>
    cases chunks with
    | nil => exact ⟨0, Nat.zero_le _, by simp [recvUntil, decodeChunks], by omega, .inr (.inl le_rfl)⟩
    | cons chunk rest =>
      by_cases hmr : isMarked markers (s ++ decodeReplace chunk) = true
      · exact ⟨1, by omega, by simp [recvUntil, hmr,
          decodeChunks], by omega, .inr (.inr (by simpa [decodeChunks]))⟩
      · obtain ⟨m, hm, hra, hbf, hst⟩ := ih rest (s ++ decodeReplace chunk)
        have htk : ∀ i, s ++ decodeChunks ((chunk :: rest).take (i + 1)) =
            s ++ decodeReplace chunk ++ decodeChunks (rest.take i) := by
          simp [decodeChunks]
        refine ⟨m + 1, by omega, ?_, ?_, ?_⟩
        · rw [recvUntil, if_neg hmr, hra, htk]
        · intro i hpos hi
          obtain ⟨k, rfl⟩ := Nat.exists_eq_succ_of_ne_zero hpos.ne'
          rw [htk]
          cases k with
          | zero => simpa [decodeChunks] using hmr
          | succ k => exact hbf _ (by omega) (by omega)
        · rw [htk]
          exact hst.imp (by omega) (.imp_left (by simp))

theorem isMarked_upToEnd (reply : StatusReply) (rest : Text) :
    isMarked statusMarkers (reply.upToEnd ++ rest) = true :=
  any_eq_true.2 ⟨"\nEND", mem_cons_self, contains_iff_isInfix.2 ⟨reply.lines, rest, rfl⟩⟩

theorem parseManagementStatus_upToEnd (reply : StatusReply) {rest : Text}
    (hrs : rest <+: reply.lineBreak) :
    parseManagementStatus (reply.upToEnd ++ rest) = parseManagementStatus reply.text := by
  have hln : ∀ rest ∈ [[], [13], [10], [13, 10]],
    splitlines (reply.upToEnd ++ rest) = splitlines reply.upToEnd := by
    intro rest hrs
    have hend : reply.upToEnd = (reply.lines ++ text "\nEN") ++ [68] := append_assoc _ _ _ ▸ rfl
    rw [hend, append_assoc, singleton_append]
    exact splitlinesFrom_lineBreak (by decide) hrs [] _
  have hmem : ∀ rest : Text, rest <+: reply.lineBreak → rest ∈ [[], [13], [10], [13, 10]] := by
    intro rest hrs
    have hini : rest ∈ reply.lineBreak.inits := (mem_inits _ _).2 hrs
    rcases reply.ends with h | h
    · rw [h] at hini
      exact (show ∀ rest ∈ (text "\n").inits, rest ∈ [[], [13], [10], [13, 10]] by decide) rest hini
    · rw [h] at hini
      exact (show ∀ rest ∈ (text "\r\n").inits, rest ∈ [[], [13], [10], [13, 10]] by decide) rest hini
  unfold parseManagementStatus StatusReply.text
  rw [hln _ (hmem _ hrs), hln _ (hmem _ (prefix_refl _))]

theorem readStatus_of_reachesEnd {reply : ReceivedReply} (h : ReachesEnd reply) :
    ∃ rest, rest <+: reply.lineBreak ∧ (readStatus reply.chunks).1 = reply.upToEnd ++ rest := by
  obtain ⟨n, hn, ⟨rest, hrs, hsp⟩, hunm⟩ := h
  obtain ⟨m, hm, hra, hbf, hst⟩ := recvUntil_spec statusMarkers 16 reply.chunks []
  simp only [nil_append] at hra hbf hst
  have hmr : isMarked statusMarkers (decodeChunks (reply.chunks.take n)) = true := by
    rw [hsp]
    exact isMarked_upToEnd _ _
  refine ⟨rest, hrs, hra.trans ?_⟩
  rcases Nat.lt_trichotomy m n with hlt | rfl | hlt
  · have hsh : reply.chunks.length ≤ m := by
      rcases hst with rfl | hsh | hse
      · omega
      · exact hsh
      · rw [hunm m hlt] at hse
        cases hse
    rw [← hsp, take_of_length_le hsh, take_of_length_le (hsh.trans hlt.le)]
  · exact hsp
  · have hpos : 0 < n := by
      rcases Nat.eq_zero_or_pos n with rfl | hpos
      · simp [decodeChunks, StatusReply.upToEnd, text] at hsp
      · exact hpos
    rw [hbf n hpos hlt] at hmr
    cases hmr

/-- The clients of a reply are found exactly when its end is reached. -/
theorem findsClients_iff (upper : Text → Text) (reply : ReceivedReply) : FindsClients upper reply ↔
    ReachesEnd reply := by
  constructor
  · intro h
    obtain ⟨rest, hrs, hra⟩ := h.read
    obtain ⟨m, hm, hrd, hbf, -⟩ := recvUntil_spec statusMarkers 16 reply.chunks []
    refine ⟨m, hm, ⟨rest, hrs, hrd.symm.trans hra⟩, ?_⟩
    intro i hi
    rcases Nat.eq_zero_or_pos i with rfl | hpos
    · rfl
    · exact hbf i hpos hi
  · intro h
    obtain ⟨rest, hrs, hra⟩ := readStatus_of_reachesEnd h
    have hpr : parseManagementStatus (readStatus reply.chunks).1 = parseManagementStatus reply.text := by
      rw [hra]
      exact parseManagementStatus_upToEnd _ hrs
    refine ⟨⟨rest, hrs, hra⟩, hpr, ?_⟩
    intro client replies clients hnm hcl
    unfold managementKillClient
    rw [if_neg (by simp [hnm]), hpr, hcl]
    refine ⟨_, rfl, ?_⟩
    by_cases hmem : client ∈ clients.map ClientStatus.commonName
    · rw [if_pos hmem]
      exact ⟨fun h => absurd hmem h, iff_of_true (mem_cons_of_mem _ mem_cons_self) hmem⟩
    · rw [if_neg hmem]
      refine ⟨fun _ => rfl, iff_of_false ?_ hmem⟩
      have hkil : (text "kill " ++ client ++ "\n").head? = some 107 := rfl
      simp only [mem_cons, not_mem_nil, or_false]
      rintro (h | h) <;> rw [h] at hkil <;> revert hkil <;> decide

structure LogStatus extends ClientStatus where
  username : Text
  clientId : Text
  peerId : Text
  cipher : Text

def logRow (parts : List Text) : Option LogStatus := (clientRow parts 4).map fun row => { row with
  username := part parts 8
  clientId := part parts 9
  peerId := part parts 10
  cipher := part parts 12 }

def clientParts (lines : List Text) : List (List Text) :=
  (lines.filter clientListTag.isPrefixOf).map csvFields

def parseStatusLogText (s : Text) : Option (List LogStatus) := (clientParts (splitlines s)).mapM logRow

/-- A text of status-version 2: every line but `END` has one of the tags. -/
structure StatusText where
  content : Text
  tagged : ∀ line ∈ splitlines content, line = "END" ∨ part (csvFields line) 0 ∈ statusTags
  distinct : ((clientParts (splitlines content)).map (part · 1)).Nodup

def Uncontradicted (lines : List Text) (name address : Text) : Prop :=
  ∀ line ∈ lines, routingTableTag.isPrefixOf line = true → 3 ≤ (csvFields line).length →
    part (csvFields line) 2 = name → part (csvFields line) 1 = address

def TellsSame (status : StatusText) : Prop :=
  ∃ managed logged, parseManagementStatus status.content = some managed ∧
    parseStatusLogText status.content = some logged ∧
    (∀ name, name ∈ managed.map ClientStatus.commonName ↔ ∃ row ∈ logged, row.commonName = name) ∧
    ∀ row ∈ managed, ∀ other ∈ logged, row.commonName = other.commonName →
      row.realAddress = other.realAddress ∧ row.bytesReceived = other.bytesReceived ∧
        row.bytesSent = other.bytesSent ∧
        row.connectedSince = other.connectedSince ∧
        (Uncontradicted (splitlines status.content) other.commonName other.virtualAddress →
          row.virtualAddress = other.virtualAddress)

/-- The client has a name, and both parsers find its counters: a later column holds what the
earlier one does, or the counters are in the earlier ones and are read. -/
def SameColumns (parts : List Text) : Prop :=
  part parts 1 ≠ [] ∧
    if isShifted parts then isdigit (part parts 5) = false ∧ isdigit (part parts 6) = false ∧
      part parts 6 = part parts 7
    else ∀ i ∈ [4, 5], isdigit (part parts i) = true → (intOf (part parts i)).isSome

variable {parts : List Text}

theorem counter_eq_none {i : Nat} : counter parts i = some none ↔ isdigit (part parts i) = false := by
  unfold counter
  cases isdigit (part parts i) with
  | false => simp
  | true => cases intOf (part parts i) <;> simp

theorem counter_isSome {i : Nat} :
    (∃ n, counter parts i = some n) ↔
      (isdigit (part parts i) = true → (intOf (part parts i)).isSome) := by
  unfold counter
  cases isdigit (part parts i) with
  | false => simp
  | true => cases intOf (part parts i) <;> simp

theorem clientRow_eq_some {rx : Nat} {row : ClientStatus} : clientRow parts rx = some row ↔
    ∃ received sent, counter parts rx = some received ∧ counter parts (rx + 1) = some sent ∧
      row = ⟨part parts 1, part parts 2, part parts 3, received, sent, part parts (rx + 2)⟩ := by
  constructor
  · intro h
    obtain ⟨received, hrc, h⟩ := Option.bind_eq_some_iff.1 h
    obtain ⟨sent, hsen, h⟩ := Option.bind_eq_some_iff.1 h
    exact ⟨received, sent, hrc, hsen, (Option.some.inj h).symm⟩
  · rintro ⟨received, sent, hrc, hsen, rfl⟩
    simp only [clientRow, hrc, hsen]
    rfl

theorem sameColumns_iff :
    SameColumns parts ↔ part parts 1 ≠ [] ∧ ∃ row, managedRow parts = some row ∧
      clientRow parts 4 = some row := by
  refine and_congr_right fun _ => ?_
  unfold managedRow
  cases hshi : isShifted parts with
  | false =>
    simp only [Bool.false_eq_true, if_false, and_self, clientRow_eq_some, mem_cons, not_mem_nil, or_false,
      forall_eq_or_imp, forall_eq, ← counter_isSome]
    constructor
    · rintro ⟨⟨received, hrc⟩, sent, hsen⟩
      exact ⟨_, received, sent, hrc, hsen, rfl⟩
    · rintro ⟨_, received, sent, hrc, hsen, -⟩
      exact ⟨⟨received, hrc⟩, sent, hsen⟩
  | true =>
    have hfou : counter parts 4 = some none := by
      rw [counter_eq_none]
      unfold isShifted at hshi
      simpa using (Bool.and_eq_true_iff.1 hshi).2
    simp only [if_true, clientRow_eq_some, hfou, ← counter_eq_none]
    constructor
    · rintro ⟨hfif, hsix, hsin⟩
      exact ⟨_, ⟨none, none, hfif, hsix, rfl⟩, none, none, rfl, hfif, by rw [hsin]⟩
    · rintro ⟨_, ⟨received, sent, hrc, hsen, rfl⟩, _, other, ⟨⟩, hot, heq⟩
      simp only [ClientStatus.mk.injEq, true_and] at heq
      obtain ⟨rfl, rfl, hsin⟩ := heq
      cases hrc.symm.trans hot
      exact ⟨hrc, hsen, hsin.symm⟩

def ClientStatus.withoutAddress (row : ClientStatus) : ClientStatus := { row with virtualAddress := [] }

theorem statusStep_other {line : Text} (h : clientListTag.isPrefixOf line = false)
    (rows : List ClientStatus) :
    ∃ rows', statusStep rows line = some rows' ∧
      rows'.map ClientStatus.withoutAddress = rows.map ClientStatus.withoutAddress := by
  unfold statusStep
  simp only [h, Bool.false_eq_true, if_false]
  split_ifs
  · refine ⟨_, rfl, ?_⟩
    unfold setVirtualAddress
    rw [map_map]
    apply map_congr_left
    intro row _
    dsimp only [Function.comp_apply]
    split_ifs <;> rfl
  · exact ⟨rows, rfl, rfl⟩
  · exact ⟨rows, rfl, rfl⟩

theorem names_withoutAddress (rows : List ClientStatus) :
    (rows.map ClientStatus.withoutAddress).map ClientStatus.commonName =
      rows.map ClientStatus.commonName := map_map ..

theorem foldlM_statusStep (lines : List Text) : ∀ rows : List ClientStatus,
    (rows.map ClientStatus.commonName ++ (clientParts lines).map (part · 1)).Nodup →
    (lines.foldlM statusStep rows).map (map ClientStatus.withoutAddress) =
      (((clientParts lines).filter (part · 1 ≠ [])).mapM managedRow).map fun news =>
        (rows ++ news).map ClientStatus.withoutAddress := by
  induction lines with
  | nil => simp [clientParts]
  | cons line rest ih =>
    intro rows hnd
    rw [foldlM_cons]
    cases hcl : clientListTag.isPrefixOf line with
    | false =>
      have hpr : clientParts (line :: rest) = clientParts rest := by simp [clientParts, hcl]
      obtain ⟨rows', hrs', hsm⟩ := statusStep_other hcl rows
      rw [hpr] at hnd ⊢
      rw [hrs']
      refine (ih rows' ?_).trans ?_
      · rwa [← names_withoutAddress, hsm, names_withoutAddress]
      · simp only [map_append, hsm]
    | true =>
      have hpr : clientParts (line :: rest) = csvFields line :: clientParts rest := by simp [clientParts, hcl]
      rw [hpr] at hnd ⊢
      unfold statusStep
      simp only [hcl, if_true]
      by_cases hnm : part (csvFields line) 1 = []
      · rw [if_pos hnm, filter_cons_of_neg (by simp [hnm])]
        exact ih rows (hnd.sublist (by simp))
      · rw [if_neg hnm, filter_cons_of_pos (by simp [hnm]), mapM_cons]
        cases hrow : managedRow (csvFields line) with
        | none => rfl
        | some row =>
          have hcm : row.commonName = part (csvFields line) 1 := by
            obtain ⟨_, _, -, -, rfl⟩ := clientRow_eq_some.1 hrow
            rfl
          rw [map_cons, ← hcm] at hnd
          have hfr : row.commonName ∉ rows.map ClientStatus.commonName := fun hmem =>
            (nodup_append.1 hnd).2.2 _ hmem _ mem_cons_self rfl
          have hput : putStatus rows row = rows ++ [row] := if_neg hfr
          simp only [Option.map_some, Option.bind_eq_bind, Option.bind_some, hput]
          refine (ih (rows ++ [row]) (by simpa using hnd)).trans ?_
          cases ((clientParts rest).filter (part · 1 ≠ [])).mapM managedRow <;> simp

def Addresses (line name address : Text) : Prop :=
  (clientListTag.isPrefixOf line = true → part (csvFields line) 1 = name → part (csvFields line) 3 = address) ∧
    (routingTableTag.isPrefixOf line = true → 3 ≤ (csvFields line).length → part (csvFields line) 2 = name →
      part (csvFields line) 1 = address)

def HasAddress (name address : Text) (rows : List ClientStatus) : Prop :=
  ∀ row ∈ rows, row.commonName = name → row.virtualAddress = address

theorem hasAddress_statusStep {line name address : Text} {rows rows' : List ClientStatus}
    (h : Addresses line name address)
    (hrs : HasAddress name address rows) (hst : statusStep rows line = some rows') :
      HasAddress name address rows' := by
  unfold statusStep at hst
  dsimp only at hst
  split_ifs at hst with hcl hnm hru hln
  · cases hst
    exact hrs
  · obtain ⟨row, hrow, rfl⟩ := Option.map_eq_some_iff.1 hst
    have hnew : row.commonName = name → row.virtualAddress = address := by
      obtain ⟨_, _, -, -, rfl⟩ := clientRow_eq_some.1 hrow
      exact h.1 hcl
    unfold putStatus
    split_ifs
    · intro changed hch
      obtain ⟨old, hold, rfl⟩ := mem_map.1 hch
      split_ifs
      · exact hnew
      · exact hrs old hold
    · intro changed hch
      rcases mem_append.1 hch with hold | hadd
      · exact hrs changed hold
      · rw [mem_singleton.1 hadd]
        exact hnew
  · cases hst
    intro changed hch
    obtain ⟨old, hold, rfl⟩ := mem_map.1 hch
    split_ifs with heq
    · exact fun hnm => h.2 hru hln (heq.symm.trans hnm)
    · exact hrs old hold
  · cases hst
    exact hrs
  · cases hst
    exact hrs

theorem hasAddress_foldlM {name address : Text} {lines : List Text}
    (h : ∀ line ∈ lines, Addresses line name address) :
    ∀ {rows rows' : List ClientStatus}, HasAddress name address rows →
      lines.foldlM statusStep rows = some rows' →
      HasAddress name address rows' := by
  induction lines with
  | nil =>
    rintro rows _ hrs ⟨⟩
    exact hrs
  | cons line rest ih =>
    intro rows rows' hrs hfl
    rw [foldlM_cons] at hfl
    obtain ⟨next, hst, hfl⟩ := Option.bind_eq_some_iff.1 hfl
    exact ih (fun line hln => h line (mem_cons_of_mem _ hln))
      (hasAddress_statusStep (h line mem_cons_self) hrs hst) hfl

theorem foldlM_eq_self {α β : Type} {f : β → α → Option β} {items : List α} {b : β}
    (h : ∀ a ∈ items, f b a = some b) :
    items.foldlM f b = some b := by
  induction items with
  | nil => rfl
  | cons a rest ih =>
    rw [foldlM_cons, h a mem_cons_self]
    exact ih fun a ha => h a (mem_cons_of_mem _ ha)

theorem parseManagementStatus_tagged (status : StatusText) : parseManagementStatus status.content =
    ((splitlines status.content).foldlM statusStep []).map
      (insertionSort fun row other => Text.le row.commonName other.commonName) := by
  have hst : ∀ rows, ∀ line ∈ splitlines status.content, sectionStep (none, rows) line = some (none, rows) := by
    intro rows line hln
    rcases status.tagged line hln with rfl | htag
    · rfl
    · have hne : csvFields line ≠ [] := by
        intro hnil
        rw [hnil] at htag
        exact absurd htag (by decide)
      exact if_pos ⟨hne, htag⟩
  unfold parseManagementStatus parseManagementLines
  cases (splitlines status.content).foldlM statusStep [] with
  | none => rfl
  | some rows =>
    simp only [Option.bind_eq_bind, Option.bind_some, foldlM_eq_self (hst rows)]
    rfl

theorem parseManagementStatus_rows {status : StatusText} {managed : List ClientStatus}
    (h : parseManagementStatus status.content = some managed) : ∃ rows news,
      (splitlines status.content).foldlM statusStep [] = some rows ∧ managed ~ rows ∧
      ((clientParts (splitlines status.content)).filter (part · 1 ≠ [])).mapM managedRow = some news ∧
      rows.map ClientStatus.withoutAddress = news.map ClientStatus.withoutAddress := by
  rw [parseManagementStatus_tagged] at h
  obtain ⟨rows, hrs, rfl⟩ := Option.map_eq_some_iff.1 h
  have hfl := foldlM_statusStep (splitlines status.content) [] status.distinct
  rw [hrs] at hfl
  obtain ⟨news, hns, heq⟩ := Option.map_eq_some_iff.1 hfl.symm
  exact ⟨rows, news, hrs, perm_insertionSort .., hns, heq.symm⟩

theorem mem_mapM {α β : Type} {f : α → Option β} {items : List α} {results : List β}
    (h : items.mapM f = some results) :
    (∀ a ∈ items, ∃ b ∈ results, f a = some b) ∧ ∀ b ∈ results, ∃ a ∈ items, f a = some b := by
  have hpi := mapM_eq_some_iff.1 h
  clear h
  induction hpi with
  | nil => exact ⟨nofun, nofun⟩
  | cons hf _ ih =>
    exact ⟨by simpa [hf] using fun a ha => .inr (ih.1 a
    ha), by simpa [hf] using fun b hb => .inr (ih.2 b hb)⟩

theorem logRow_eq_some {row : LogStatus} (h : logRow parts = some row) :
    clientRow parts 4 = some row.toClientStatus := by
  obtain ⟨_, hrow, rfl⟩ := Option.map_eq_some_iff.1 h
  exact hrow

theorem commonName_clientRow {rx : Nat} {row : ClientStatus} (h : clientRow parts rx = some row) :
    row.commonName = part parts 1 := by
  obtain ⟨_, _, -, -, rfl⟩ := clientRow_eq_some.1 h
  rfl

theorem mapM_rows {parts : List (List Text)}
    (h : ∀ fields ∈ parts, ∃ row, managedRow fields = some row ∧ clientRow fields 4 = some row) :
    ∃ logged, parts.mapM logRow = some logged ∧
      parts.mapM managedRow = some (logged.map LogStatus.toClientStatus) := by
  induction parts with
  | nil => exact ⟨[], rfl, rfl⟩
  | cons fields rest ih =>
    obtain ⟨row, hmn, hlog⟩ := h fields mem_cons_self
    obtain ⟨logged, hlogg, hrs⟩ := ih fun fields hfl => h fields (mem_cons_of_mem _ hfl)
    rw [mapM_cons, mapM_cons, hmn, hlogg, hrs, logRow, hlog]
    exact ⟨_, rfl, rfl⟩

variable {status : StatusText}

theorem StatusText.unique (status : StatusText) : ∀ parts ∈ clientParts (splitlines status.content),
    ∀ other ∈ clientParts (splitlines status.content), part parts 1 = part other 1 → parts = other :=
  fun _ hpr _ hot => inj_on_of_nodup_map status.distinct hpr hot

theorem sameColumns_of_tellsSame (h : TellsSame status) :
    ∀ parts ∈ clientParts (splitlines status.content), SameColumns parts := by
  obtain ⟨managed, logged, hmn, hlogg, hnm, hsm⟩ := h
  intro parts hpr
  obtain ⟨rows, news, -, hpe, hns, hcor⟩ := parseManagementStatus_rows hmn
  obtain ⟨other, hot, hlog⟩ := (mem_mapM hlogg).1 parts hpr
  have hothe := logRow_eq_some hlog
  obtain ⟨row, hrow, hname⟩ := mem_map.1 ((hnm other.commonName).2 ⟨other, hot, rfl⟩)
  -- the managed row of that name comes from the same line
  have hcore : row.withoutAddress ∈ news.map ClientStatus.withoutAddress :=
    hcor ▸ mem_map_of_mem (hpe.mem_iff.1 hrow)
  obtain ⟨new, hnew, heq⟩ := mem_map.1 hcore
  obtain ⟨source, hsrc, hnewR⟩ := (mem_mapM hns).2 new hnew
  rw [mem_filter, decide_eq_true_eq] at hsrc
  have hnewN : new.commonName = row.commonName :=
    show new.withoutAddress.commonName = row.withoutAddress.commonName from congrArg _ heq
  have hcm : part source 1 = part parts 1 := by
    rw [← commonName_clientRow hnewR, ← commonName_clientRow hothe, hnewN, hname]
  cases status.unique source hsrc.1 parts hpr hcm
  refine sameColumns_iff.2 ⟨hsrc.2, new, hnewR, hothe.trans (congrArg some ?_)⟩
  obtain ⟨hra, hrc, hsen, hsin, -⟩ := hsm row hrow other hot hname
  obtain ⟨_, _, -, -, rfl⟩ := clientRow_eq_some.1 hnewR
  obtain ⟨_, _, -, -, hfl⟩ := clientRow_eq_some.1 hothe
  simp only [ClientStatus.withoutAddress, ClientStatus.mk.injEq] at heq
  rw [hfl] at hrc hsen hsin ⊢
  simp only at hrc hsen hsin
  simp only [heq, hrc, hsen, hsin]

theorem tellsSame_of_sameColumns
    (hcl : ∀ parts ∈ clientParts (splitlines status.content), SameColumns parts) :
    TellsSame status := by
  obtain ⟨logged, hlogg, hmn⟩ := mapM_rows fun parts hpr => (sameColumns_iff.1 (hcl parts hpr)).2
  have hnd : (clientParts (splitlines status.content)).filter (part · 1 ≠ []) =
      clientParts (splitlines status.content) :=
    filter_eq_self.2 fun parts hpr => decide_eq_true (hcl parts hpr).1
  have hfl := foldlM_statusStep (splitlines status.content) [] status.distinct
  rw [hnd, hmn] at hfl
  obtain ⟨rows, hrs, hcor⟩ := Option.map_eq_some_iff.1 hfl
  dsimp only at hcor
  rw [nil_append] at hcor
  have hpe := perm_insertionSort (fun row other => Text.le row.commonName other.commonName) rows
  refine ⟨_, logged, (parseManagementStatus_tagged status).trans (congrArg _ hrs), hlogg, ?_, ?_⟩
  · intro name
    rw [(hpe.map _).mem_iff, ← names_withoutAddress, hcor]
    simp [ClientStatus.withoutAddress]
  · intro row hrow other hot hnm
    have hcore := mem_map_of_mem (f := ClientStatus.withoutAddress) (hpe.mem_iff.1 hrow)
    rw [hcor, map_map] at hcore
    obtain ⟨same, hsame, heq⟩ := mem_map.1 hcore
    obtain ⟨parts, hpr, hlog⟩ := (mem_mapM hlogg).2 other hot
    obtain ⟨source, hsrc, hsou⟩ := (mem_mapM hlogg).2 same hsame
    have hothe := logRow_eq_some hlog
    have hsm : same.commonName = row.commonName :=
      show same.withoutAddress.commonName = row.withoutAddress.commonName from congrArg _ heq
    have hcm : part source 1 = part parts 1 := by
      rw [← commonName_clientRow (logRow_eq_some hsou), ← commonName_clientRow hothe, hsm, hnm]
    cases status.unique source hsrc parts hpr hcm
    cases Option.some.inj (hsou.symm.trans hlog)
    simp only [Function.comp_apply, ClientStatus.withoutAddress, ClientStatus.mk.injEq] at heq
    refine ⟨heq.2.1.symm, heq.2.2.2.1.symm, heq.2.2.2.2.1.symm, heq.2.2.2.2.2.symm, fun hunc => ?_⟩
    refine hasAddress_foldlM ?_ (fun _ h => absurd h not_mem_nil) hrs row (hpe.mem_iff.1 hrow) hnm
    intro line hln
    refine ⟨fun hci hln1 => ?_, hunc line hln⟩
    have hmem : csvFields line ∈ clientParts (splitlines status.content) :=
      mem_map_of_mem (mem_filter.2 ⟨hln, hci⟩)
    rw [status.unique _ hmem _ hpr (hln1.trans (commonName_clientRow hothe))]
    obtain ⟨_, _, -, -, hfs⟩ := clientRow_eq_some.1 hothe
    rw [hfs]

def bytesOf (s : String) : Bytes := (text s).map fun c => UInt8.ofNat c.val

/-- A client whose name begins with `END`, at the end of the first chunk. -/
def earlyEnd : ReceivedReply where
  lines := "Common Name,Real Address,Bytes Received,Bytes Sent,Connected Since\nENDER,a:1,2,3,t\nbob,b:1,2,3,t"
  lineBreak := "\n"
  ends := .inl rfl
  chunks := [bytesOf "Common Name,Real Address,Bytes Received,Bytes Sent,Connected Since\nENDER,a:1,2,3,t\n",
  bytesOf "bob,b:1,2,3,t\nEND\n"]
  received := by decide +kernel
  spells := by decide +kernel

/-- The second client is not read. -/
theorem early_end_hides_client : ¬ FindsClients id earlyEnd := by
  intro h
  obtain ⟨rest, -, hra⟩ := h.read
  have hlen := congrArg length hra
  rw [length_append] at hlen
  have hsh : (readStatus earlyEnd.chunks).1.length < earlyEnd.upToEnd.length := by decide +kernel
  omega

/-- The two parsers tell the same of the clients exactly when the columns of each are the same. -/
theorem tellsSame_iff (status : StatusText) :
    TellsSame status ↔ ∀ parts ∈ clientParts (splitlines status.content), SameColumns parts :=
  ⟨sameColumns_of_tellsSame, tellsSame_of_sameColumns⟩

def shiftedStatus : StatusText where
  content := "TITLE,OpenVPN 2.6.19\nCLIENT_LIST,alpha,1.2.3.4:50000,192.168.50.10,,123,456,t,1783006330,UNDEF,3,2,AES\nEND\n"
  tagged := by decide +kernel
  distinct := by decide +kernel

/-- The status log has 123 bytes for those sent, and none received. -/
theorem shifted_columns_differ : ¬ TellsSame shiftedStatus := by
  intro h
  have hcl := (sameColumns_of_tellsSame h _ mem_cons_self).2
  revert hcl
  decide +kernel

end WebOvpn.Vpn
