/-
The audit chain of the broker.  It accepts what was appended, and what it accepts was
appended.
-/
import WebOvpn.Lib.Calendar
import WebOvpn.Lib.JsonCanonical
import WebOvpn.Lib.Sha256

namespace WebOvpn.Netops

namespace Audit

/-- `canonical_json` cannot encode surrogates, and integers with too many digits
cannot be printed. -/
def canonicalJson (value : JVal) : Option Bytes :=
  if value.isPrintable then canonicalBytes value else none

/-- The digest and the signatures that the chain is built on. -/
structure Primitives (Key : Type) where
  /-- `hashlib.sha256(value).hexdigest()`. -/
  hexdigest : Bytes → Text
  /-- `signer.public_key_bytes()`. -/
  publicKey : Key → Bytes
  /-- `private_key.sign(data)`. -/
  sign : Key → Bytes → Bytes
  /-- `Ed25519PublicKey.from_public_bytes(key).verify(signature, data)` returns. -/
  verify : Bytes → Bytes → Bytes → Bool
  hexdigest_isLowerHex : ∀ value, ∀ c ∈ hexdigest value, c.isLowerHex = true
  verify_sign : ∀ key data, verify (publicKey key) (sign key data) data = true

variable {Key : Type} (prim : Primitives Key)

def hash (value : Bytes) : Text := text "sha256:" ++ prim.hexdigest value

def genesisHash : Text := text "sha256:" ++ List.replicate 64 (CodePoint.ofChar '0')

def encodeAscii (s : Text) : Option Bytes :=
  if s.all fun c => c.val < 0x80 then some (s.map fun c => UInt8.ofNat c.val) else none

def eventRecord (sequence : Int) (previousHash payloadHash eventType createdAt : Text) : JVal :=
  .obj [("sequence", .int sequence), ("previous_hash", .str previousHash),
    ("payload_hash", .str payloadHash), ("event_type", .str eventType), ("created_at", .str createdAt)]

def eventHash (sequence : Int) (previousHash payloadHash eventType createdAt : Text) : Option Text :=
  (canonicalJson (eventRecord sequence previousHash payloadHash eventType createdAt)).map (hash prim)

structure AuditSigner (Key : Type) where
  keyId : Text
  privateKey : Key

structure AuditEvent where
  sequence : Int
  eventId : Text
  eventType : Text
  createdAt : Text
  payloadHash : Text
  previousHash : Text
  eventHash : Text
  signerKeyId : Text
  signature : Bytes
  payloadJson : List Char

def ordered (table : List AuditEvent) : List AuditEvent :=
  table.insertionSort fun a b => a.sequence ≤ b.sequence

/-- A call of `append_event`, with the clock and the identifier it draws. -/
structure Call (Key : Type) where
  signer : AuditSigner Key
  eventType : Text
  payload : Members
  now : Instant
  eventId : Text

/-- What `append_event` raises. -/
inductive AppendFailure where
  /-- `ValueError("invalid audit event type")`. -/
  | eventType
  /-- A value that cannot be encoded. -/
  | encoding
  /-- A sequence number that does not fit into the column. -/
  | overflow
  /-- A repeated key of the table. -/
  | integrity
deriving DecidableEq

def nowText (now : Instant) : Text := now.seconds ++ "Z"

/-- `INSERT INTO audit_events`: the texts are bound in UTF-8, and the table has
three unique columns. -/
def insertEvent (table : List AuditEvent) (event : AuditEvent) :
    Except AppendFailure (List AuditEvent) :=
  if 2 ^ 63 ≤ event.sequence then .error .overflow
  else if ¬ (event.eventId.isEncodable ∧ event.signerKeyId.isEncodable) then .error .encoding
  else if ∃ row ∈ table,
      row.sequence = event.sequence ∨ row.eventId = event.eventId ∨ row.eventHash = event.eventHash then
    .error .integrity
  else .ok (table ++ [event])

/-- A value that has to be there. -/
def encoded {α : Type} : Option α → Except AppendFailure α
  | some a => .ok a
  | none => .error .encoding

def nextEvent (table : List AuditEvent) (call : Call Key) : Except AppendFailure AuditEvent := do
  let row := (ordered table).getLast?
  let sequence := match row with
    | some row => row.sequence + 1
    | none => 1
  let previousHash := match row with
    | some row => row.eventHash
    | none => genesisHash
  let createdAt := nowText call.now
  let payload ← encoded (canonicalJson (.obj call.payload))
  let payloadHash := hash prim payload
  let hashed ← encoded (eventHash prim sequence previousHash payloadHash call.eventType createdAt)
  let data ← encoded (encodeAscii hashed)
  let payloadJson ← encoded (decodeUtf8 payload)
  return {
    sequence
    eventId := call.eventId
    eventType := call.eventType
    createdAt
    payloadHash
    previousHash
    eventHash := hashed
    signerKeyId := call.signer.keyId
    signature := prim.sign call.signer.privateKey data
    payloadJson }

def appendEvent (table : List AuditEvent)
    (call : Call Key) : Except AppendFailure (List AuditEvent × AuditEvent) := do
  if call.eventType = [] ∨ 120 < call.eventType.length then throw .eventType
  let event ← nextEvent prim table call
  let next ← insertEvent table event
  return (next, event)

/-- What `verify_chain` raises. -/
inductive ChainError where
  | link
  | payload
  | payloadHash
  | eventHash
  | signer
  | signature
  /-- A value that cannot be decoded or encoded. -/
  | value
deriving DecidableEq

def loadPayload (payloadJson : List Char) : Except ChainError JVal :=
  match parseDocument floatDialect payloadJson with
  | .ok v => .ok v
  | .error .malformed => .error .payload
  | .error _ => .error .value

def checkPayload (row : AuditEvent) : Except ChainError Unit := do
  match ← loadPayload row.payloadJson with
  | .obj members =>
    match canonicalJson (.obj members) with
    | none => .error .value
    | some raw => if hash prim raw = row.payloadHash then .ok () else .error .payloadHash
  | _ => .error .payloadHash

def checkSignature (publicKeys : Text → Option Bytes) (row : AuditEvent) (actualHash : Text) :
    Except ChainError Unit :=
  match publicKeys row.signerKeyId with
  | none => .error .signer
  | some key =>
    match encodeAscii actualHash with
    | none => .error .signature
    | some data => if prim.verify key row.signature data then .ok () else .error .signature

/-- One turn of the loop: from the hash of the row before and the expected sequence
number to the ones for the next row. -/
def verifyRow (publicKeys : Text → Option Bytes) (expected : Text × Int) (row : AuditEvent) :
    Except ChainError (Text × Int) := do
  if row.sequence ≠ expected.2 ∨ row.previousHash ≠ expected.1 then throw .link
  checkPayload prim row
  match eventHash prim row.sequence expected.1 row.payloadHash row.eventType row.createdAt with
  | none => throw .value
  | some actualHash =>
    if actualHash ≠ row.eventHash then throw .eventHash
    checkSignature prim publicKeys row actualHash
    return (actualHash, expected.2 + 1)

def verifyChain (table : List AuditEvent) (publicKeys : Text → Option Bytes) :
    Except ChainError Nat := do
  let _ ← (ordered table).foldlM (verifyRow prim publicKeys) (genesisHash, 1)
  return table.length

/-- What a successful call has put into the chain. -/
structure Entry where
  sequence : Int
  eventType : Text
  createdAt : Text
  payload : JVal

structure History where
  table : List AuditEvent
  entries : List Entry

def History.step (history : History) (call : Call Key) : History :=
  match appendEvent prim history.table call with
  | .error _ => history
  | .ok (table, event) =>
    ⟨table, history.entries ++ [⟨event.sequence, call.eventType, nowText call.now, .obj call.payload⟩]⟩

/-- The calls of `append_event` one after another, on a new table. -/
def appendAll (calls : List (Call Key)) : History := calls.foldl (History.step prim) ⟨[], []⟩

def AuditEvent.Shows (row : AuditEvent) (entry : Entry) : Prop :=
  row.sequence = entry.sequence ∧ row.eventType = entry.eventType ∧ row.createdAt = entry.createdAt ∧
    ∃ payload, loadPayload row.payloadJson = .ok payload ∧ sortKeys payload = sortKeys entry.payload

end Audit

open List

namespace Audit

variable {v : JVal} {raw : Bytes} {table : List AuditEvent} {event row : AuditEvent}
    {publicKeys : Text → Option Bytes} {history : History}

theorem isPython_of_isReadable {esc : CodePoint → List Char} (h : IsReadable esc IsFloatText v) :
    IsPython v := by
  induction v using JVal.induction with
  | float token =>
    rw [IsReadable] at h
    rw [IsPython]
    exact h
  | arr items ih =>
    rw [IsReadable, areReadable_iff] at h
    rw [IsPython, arePython_iff]
    exact fun v hv => ih v hv (h v hv)
  | obj members ih =>
    rw [IsReadable, membersReadable_iff] at h
    rw [IsPython, membersPython_iff]
    exact ⟨h.1, fun m hm => ih m hm (h.2 m hm).2⟩
  | _ => trivial

theorem canonicalJson_eq_some (h : canonicalJson v = some raw) :
    v.isPrintable = true ∧ v.isEncodable = true ∧ raw = utf8Chars (canonicalChars v) := by
  unfold canonicalJson at h
  split_ifs at h with hpr
  have hen := isEncodable_of_canonicalBytes h
  rw [canonicalBytes_eq hen] at h
  exact ⟨hpr, hen, (Option.some.inj h).symm⟩

theorem isReadable_of_canonicalJson (hv : IsPython v) (h : canonicalJson v = some raw) :
    IsReadable escapeChar IsFloatText v := by
  obtain ⟨hpr, hen, -⟩ := canonicalJson_eq_some h
  exact isReadable_of_isPython hv hpr hen

theorem sortKeys_eq_of_canonicalJson {w : JVal} (hv : IsPython v) (hw : IsPython w)
    (hvra : canonicalJson v = some raw) (hwra : canonicalJson w = some raw) :
      sortKeys v = sortKeys w := by
  have hvre := isReadable_of_canonicalJson hv hvra
  have hwre := isReadable_of_canonicalJson hw hwra
  unfold canonicalJson at hvra hwra
  split_ifs at hvra hwra
  exact sortKeys_eq_of_canonicalBytes floatDialect_reader hvre hwre hvra hwra

theorem canonicalJson_sortKeys (hv : IsPython v) (h : canonicalJson v = some raw) :
    canonicalJson (sortKeys v) = some raw := by
  have hpr := isPrintable_of_isReadable (isReadable_sortKeys (isReadable_of_canonicalJson hv h))
  unfold canonicalJson at h ⊢
  split_ifs at h
  rw [if_pos hpr, canonicalBytes, sortKeys_sortKeys]
  exact h

theorem loadPayload_canonicalJson (hv : IsPython v) (h : canonicalJson v = some raw)
    {payloadJson : List Char} (hdc : decodeUtf8 raw = some payloadJson) :
    loadPayload payloadJson = .ok (sortKeys v) := by
  obtain ⟨-, -, rfl⟩ := canonicalJson_eq_some h
  rw [decodeUtf8_utf8Chars] at hdc
  cases hdc
  unfold loadPayload
  rw [parseDocument_canonicalChars floatDialect_reader (isReadable_of_canonicalJson hv h)]

theorem isPython_of_loadPayload {payloadJson : List Char} (h : loadPayload payloadJson = .ok v) :
    IsPython v := by
  unfold loadPayload at h
  split at h
  · rename_i w hra
    cases h
    exact isPython_of_isReadable (parseDocument_builds floatDialect_builder hra)
  · cases h
  · cases h

theorem sortKeys_eventRecord (sequence : Int) (previousHash payloadHash eventType createdAt : Text) :
    sortKeys (eventRecord sequence previousHash payloadHash eventType createdAt) =
      .obj [("created_at", .str createdAt), ("event_type", .str eventType),
        ("payload_hash", .str payloadHash), ("previous_hash", .str previousHash),
        ("sequence", .int sequence)] := by
  rfl

theorem isPython_eventRecord (sequence : Int) (previousHash payloadHash eventType createdAt : Text) :
    IsPython (eventRecord sequence previousHash payloadHash eventType createdAt) := by
  unfold eventRecord
  rw [IsPython, membersPython_iff]
  refine ⟨by change [text "sequence", text "previous_hash", text "payload_hash", text "event_type",
    text "created_at"].Nodup; decide, ?_⟩
  intro m hm
  simp only [mem_cons, not_mem_nil, or_false] at hm
  rcases hm with rfl | rfl | rfl | rfl | rfl
  · trivial
  · trivial
  · trivial
  · trivial
  · trivial

variable {Key : Type} {prim : Primitives Key} {call : Call Key} {calls : List (Call Key)}

theorem hash_injective (hinj : Function.Injective prim.hexdigest) : Function.Injective (hash prim) := by
  intro a b h
  exact hinj (append_cancel_left h)

theorem eventHash_injective (hinj : Function.Injective prim.hexdigest) {s s' : Int}
    {previous previous' payload payload' type type' created created' hashed : Text}
    (h : eventHash prim s previous payload type created = some hashed)
    (h' : eventHash prim s' previous' payload' type' created' = some hashed) :
    s = s' ∧ previous = previous' ∧ payload = payload' ∧ type = type' ∧ created = created' := by
  obtain ⟨raw, hraw, rfl⟩ := Option.map_eq_some_iff.1 h
  obtain ⟨raw', hraw', heq⟩ := Option.map_eq_some_iff.1 h'
  cases hash_injective hinj heq
  have hsr := sortKeys_eq_of_canonicalJson (isPython_eventRecord ..) (isPython_eventRecord ..) hraw hraw'
  rw [sortKeys_eventRecord, sortKeys_eventRecord] at hsr
  simp only [JVal.obj.injEq, List.cons.injEq, Prod.mk.injEq, JVal.str.injEq, JVal.int.injEq,
    true_and, and_true] at hsr
  obtain ⟨hcr, hty, hpy, hpre, hseq⟩ := hsr
  exact ⟨hseq, hpre, hpy, hty, hcr⟩

def headHash (table : List AuditEvent) : Text :=
  match table.getLast? with
  | some row => row.eventHash
  | none => genesisHash

def Numbered (table : List AuditEvent) : Prop :=
  ∀ (i : Nat) (row : AuditEvent), table[i]? = some row → row.sequence = i + 1

theorem ordered_of_numbered (h : Numbered table) : ordered table = table := by
  apply List.Pairwise.insertionSort_eq
  rw [pairwise_iff_getElem]
  intro i j hi hj hij
  have hlf := h i _ (getElem?_eq_getElem hi)
  have hrg := h j _ (getElem?_eq_getElem hj)
  change table[i].sequence ≤ table[j].sequence
  omega

theorem Numbered.append (h : Numbered table)
    (hev : event.sequence = table.length + 1) : Numbered (table ++ [event]) := by
  intro i row hrow
  rcases Nat.lt_trichotomy i table.length with hlt | rfl | hgt
  · rw [getElem?_append_left hlt] at hrow
    exact h i row hrow
  · rw [getElem?_append_right le_rfl, Nat.sub_self] at hrow
    cases hrow
    exact hev
  · rw [getElem?_eq_none (by rw [length_append, length_singleton]; omega)] at hrow
    cases hrow

structure Appended (prim : Primitives Key) (table : List AuditEvent) (call : Call Key)
    (event : AuditEvent) : Prop where
  sequence : event.sequence = table.length + 1
  previousHash : event.previousHash = headHash table
  eventType : event.eventType = call.eventType
  createdAt : event.createdAt = nowText call.now
  keyId : event.signerKeyId = call.signer.keyId
  payload : ∃ raw, canonicalJson (.obj call.payload) = some raw ∧ event.payloadHash = hash prim raw ∧
    decodeUtf8 raw = some event.payloadJson
  hashed : eventHash prim event.sequence event.previousHash event.payloadHash event.eventType event.createdAt =
    some event.eventHash
  signed : ∃ data, encodeAscii event.eventHash = some data ∧
    event.signature = prim.sign call.signer.privateKey data

theorem encoded_eq_ok {α : Type} {x : Option α} {a : α} : encoded x = .ok a ↔ x = some a := by
  cases x with
  | none => exact ⟨nofun, nofun⟩
  | some b =>
    constructor
    · intro h
      cases h
      rfl
    · intro h
      cases h
      rfl

theorem nextEvent_appended (hnum : Numbered table)
    (h : nextEvent prim table call = .ok event) : Appended prim table call event := by
  have hls : ∀ row, table.getLast? = some row → row.sequence = table.length := by
    intro row hrow
    rw [getLast?_eq_getElem?] at hrow
    have hseq := hnum _ row hrow
    have hlen := (List.getElem?_eq_some_iff.1 hrow).1
    omega
  unfold nextEvent at h
  rw [ordered_of_numbered hnum] at h
  obtain ⟨raw, hraw, h⟩ := bind_eq_ok.1 h
  obtain ⟨hashed, hhs, h⟩ := bind_eq_ok.1 h
  obtain ⟨data, hdat, h⟩ := bind_eq_ok.1 h
  obtain ⟨payloadJson, hpy, h⟩ := bind_eq_ok.1 h
  cases h
  refine ⟨?_, rfl, rfl, rfl, rfl, ⟨raw, encoded_eq_ok.1 hraw, rfl, encoded_eq_ok.1 hpy⟩, encoded_eq_ok.1 hhs,
    ⟨data, encoded_eq_ok.1 hdat, rfl⟩⟩
  dsimp only
  split
  · rename_i row hrow
    rw [hls row hrow]
  · rename_i hnn
    rw [getLast?_eq_none_iff.1 hnn]
    rfl

theorem appendEvent_appended {next : List AuditEvent} (hnum : Numbered table)
    (h : appendEvent prim table call = .ok (next, event)) :
    Appended prim table call event ∧ next = table ++ [event] := by
  unfold appendEvent at h
  split_ifs at h
  · cases h
  · obtain ⟨row, hrow, h⟩ := bind_eq_ok.1 h
    obtain ⟨rows, hrs, h⟩ := bind_eq_ok.1 h
    cases h
    refine ⟨nextEvent_appended hnum hrow, ?_⟩
    unfold insertEvent at hrs
    split_ifs at hrs
    cases hrs
    rfl

theorem checkPayload_appended
    (h : Appended prim table call event) (hpython : IsPython (.obj call.payload)) :
      checkPayload prim event = .ok () := by
  obtain ⟨raw, hraw, hhs, hdc⟩ := h.payload
  have hsr := canonicalJson_sortKeys hpython hraw
  unfold checkPayload
  rw [loadPayload_canonicalJson hpython hraw hdc]
  rw [sortKeys] at hsr ⊢
  change (match canonicalJson _ with
    | none => _
    | some raw => _) = _
  rw [hsr]
  exact if_pos hhs.symm

theorem verifyRow_appended (h : Appended prim table call event) (hpython : IsPython (.obj call.payload))
    (hkey : publicKeys call.signer.keyId = some (prim.publicKey call.signer.privateKey)) :
    verifyRow prim publicKeys (headHash table, table.length + 1) event =
      .ok (event.eventHash, table.length + 2) := by
  obtain ⟨data, hdat, hsig⟩ := h.signed
  have hhs := h.hashed
  rw [h.previousHash] at hhs
  have hch : checkSignature prim publicKeys event event.eventHash = .ok () := by
    unfold checkSignature
    rw [h.keyId, hkey]
    dsimp only
    rw [hdat]
    dsimp only
    rw [hsig, prim.verify_sign, if_pos rfl]
  unfold verifyRow
  rw [if_neg (by rw [not_or, not_not, not_not]; exact ⟨h.sequence, h.previousHash⟩),
    checkPayload_appended h hpython]
  dsimp only
  rw [hhs]
  change (if event.eventHash ≠ event.eventHash then _ else _) = _
  rw [if_neg (not_not.2 rfl), hch]
  have hnx : (table.length : Int) + 1 + 1 = table.length + 2 := by omega
  change Except.ok (event.eventHash, _) = _
  rw [hnx]

structure Records (prim : Primitives Key) (row : AuditEvent) (entry : Entry) : Prop where
  sequence : row.sequence = entry.sequence
  eventType : row.eventType = entry.eventType
  createdAt : row.createdAt = entry.createdAt
  python : IsPython entry.payload
  payload : ∃ raw, canonicalJson entry.payload = some raw ∧ row.payloadHash = hash prim raw
  hashed : eventHash prim row.sequence row.previousHash row.payloadHash row.eventType
    row.createdAt = some row.eventHash

structure History.Valid (prim : Primitives Key) (history : History) : Prop where
  numbered : Numbered history.table
  records : List.Forall₂ (Records prim) history.table history.entries

theorem History.step_cases (hnum : Numbered history.table) (call : Call Key) :
    history.step prim call = history ∨
      ∃ event, Appended prim history.table call event ∧ history.step prim call =
        ⟨history.table ++ [event],
          history.entries ++
          [⟨event.sequence, call.eventType, nowText call.now, .obj call.payload⟩]⟩ := by
  unfold History.step
  cases h : appendEvent prim history.table call with
  | error e => exact .inl rfl
  | ok result =>
    obtain ⟨next, event⟩ := result
    obtain ⟨hap, rfl⟩ := appendEvent_appended hnum h
    exact .inr ⟨event, hap, rfl⟩

theorem History.Valid.step (h : history.Valid prim)
    (hpython : IsPython (.obj call.payload)) : (history.step prim call).Valid prim := by
  rcases @History.step_cases _ _ prim h.numbered call with heq | ⟨event, hap, heq⟩
  · rw [heq]
    exact h
  · rw [heq]
    obtain ⟨raw, hraw, hhs, -⟩ := hap.payload
    refine ⟨h.numbered.append hap.sequence, rel_append h.records (.cons ?_ .nil)⟩
    exact ⟨rfl, hap.eventType, hap.createdAt, hpython, ⟨raw, hraw, hhs⟩, hap.hashed⟩

theorem headHash_append (table : List AuditEvent) (event : AuditEvent) :
    headHash (table ++ [event]) = event.eventHash := by
  unfold headHash
  rw [getLast?_concat]

/-- The loop goes through the whole table. -/
def Verified (prim : Primitives Key) (publicKeys : Text → Option Bytes)
    (table : List AuditEvent) : Prop :=
  table.foldlM (verifyRow prim publicKeys) (genesisHash, 1) = .ok (headHash table, table.length + 1)

theorem verified_step (hnum : Numbered history.table)
    (h : Verified prim publicKeys history.table) (hpython : IsPython (.obj call.payload))
    (hkey : publicKeys call.signer.keyId = some (prim.publicKey call.signer.privateKey)) :
    Verified prim publicKeys (history.step prim call).table := by
  rcases @History.step_cases _ _ prim hnum call with heq | ⟨event, hap, heq⟩
  · rw [heq]
    exact h
  · rw [heq]
    unfold Verified at h ⊢
    rw [foldlM_append, h, headHash_append, length_append, length_singleton]
    change (verifyRow prim publicKeys _ event >>= fun next => pure next) = _
    rw [verifyRow_appended hap hpython hkey]
    have hnx : (history.table.length : Int) + 2 = ((history.table.length + 1 : Nat) : Int) + 1 := by omega
    rw [← hnx]
    rfl

section

variable (hpython : ∀ call ∈ calls, IsPython (.obj call.payload))
include hpython

theorem appendAll_valid :
    (appendAll prim calls).Valid prim := by
  induction calls using List.reverseRecOn with
  | nil => exact ⟨(fun i row h => by cases h), .nil⟩
  | append_singleton calls call ih =>
    rw [forall_mem_append] at hpython
    unfold appendAll at ih ⊢
    rw [List.foldl_append]
    exact (ih hpython.1).step (hpython.2 call (mem_singleton.2 rfl))

theorem appendAll_verified
    (hks : ∀ call ∈ calls,
    publicKeys call.signer.keyId = some (prim.publicKey call.signer.privateKey)) :
    Verified prim publicKeys (appendAll prim calls).table := by
  induction calls using List.reverseRecOn with
  | nil => rfl
  | append_singleton calls call ih =>
    rw [forall_mem_append] at hpython hks
    have hvl := @appendAll_valid _ prim _ hpython.1
    have hvr := ih hpython.1 hks.1
    unfold appendAll at hvl hvr ⊢
    rw [List.foldl_append]
    exact verified_step hvl.numbered hvr (hpython.2 call (mem_singleton.2 rfl))
      (hks.2 call (mem_singleton.2 rfl))

theorem verifyChain_appendAll
    (hks : ∀ call ∈ calls,
    publicKeys call.signer.keyId = some (prim.publicKey call.signer.privateKey)) :
    verifyChain prim (appendAll prim calls).table publicKeys =
      .ok (appendAll prim calls).entries.length := by
  have hvl := @appendAll_valid _ prim _ hpython
  unfold verifyChain
  rw [ordered_of_numbered hvl.numbered, appendAll_verified hpython hks, ← hvl.records.length_eq]
  rfl

end

structure Checked (prim : Primitives Key) (publicKeys : Text → Option Bytes)
    (expected next : Text × Int) (row : AuditEvent) :
    Prop where
  sequence : row.sequence = expected.2
  next : next = (row.eventHash, expected.2 + 1)
  payload : ∃ members raw, loadPayload row.payloadJson = .ok (.obj members) ∧
    canonicalJson (.obj members) = some raw ∧ row.payloadHash = hash prim raw
  hashed : eventHash prim row.sequence row.previousHash row.payloadHash row.eventType
    row.createdAt = some row.eventHash
  signed : ∃ key data, publicKeys row.signerKeyId = some key ∧ encodeAscii row.eventHash = some data ∧
    prim.verify key row.signature data = true

theorem checkPayload_eq_ok (h : checkPayload prim row = .ok ()) :
    ∃ members raw, loadPayload row.payloadJson = .ok (.obj members) ∧
      canonicalJson (.obj members) = some raw ∧
      row.payloadHash = hash prim raw := by
  unfold checkPayload at h
  obtain ⟨payload, hla, h⟩ := bind_eq_ok.1 h
  split at h
  · rename_i members
    split at h
    · cases h
    · rename_i raw hraw
      split_ifs at h with hhs
      exact ⟨members, raw, hla, hraw, hhs.symm⟩
  · cases h

theorem checkSignature_eq_ok {actualHash : Text}
    (h : checkSignature prim publicKeys row actualHash = .ok ()) :
    ∃ key data, publicKeys row.signerKeyId = some key ∧ encodeAscii actualHash = some data ∧
      prim.verify key row.signature data = true := by
  unfold checkSignature at h
  split at h
  · cases h
  · rename_i key hkey
    split at h
    · cases h
    · rename_i data hdat
      split_ifs at h with hvr
      exact ⟨key, data, hkey, hdat, hvr⟩

theorem verifyRow_checked {expected next : Text × Int}
    (h : verifyRow prim publicKeys expected row = .ok next) :
      Checked prim publicKeys expected next row := by
  unfold verifyRow at h
  split_ifs at h with hln
  · cases h
  · rw [not_or, not_not, not_not] at hln
    obtain ⟨⟨⟩, hpy, h⟩ := bind_eq_ok.1 h
    split at h
    · cases h
    · rename_i actualHash hact
      split_ifs at h with hsm
      · cases h
      · rw [not_not] at hsm
        subst hsm
        obtain ⟨⟨⟩, hsig, h⟩ := bind_eq_ok.1 h
        cases h
        rw [← hln.2] at hact
        exact ⟨hln.1, rfl, checkPayload_eq_ok hpy, hact, checkSignature_eq_ok hsig⟩

/-- The signature of the row, if it verifies for a digest at all, is one that was made
for an appended event. -/
def Signed (prim : Primitives Key) (publicKeys : Text → Option Bytes) (appended : List AuditEvent)
    (row : AuditEvent) : Prop :=
  ∀ key, publicKeys row.signerKeyId = some key → ∀ value data, encodeAscii (hash prim value) = some data →
    prim.verify key row.signature data = true → ∃ event ∈ appended, event.eventHash = hash prim value

theorem shows_of_checked (hinj : Function.Injective prim.hexdigest) (hvl : history.Valid prim)
    {expected next : Text × Int}
    (h : Checked prim publicKeys expected next row)
    (hsig : Signed prim publicKeys history.table row) {k : Nat}
    (hk : expected.2 = k + 1) : ∃ entry, history.entries[k]? = some entry ∧ row.Shows entry := by
  obtain ⟨key, data, hkey, hdat, hvr⟩ := h.signed
  obtain ⟨record, -, hv⟩ := Option.map_eq_some_iff.1 h.hashed
  rw [← hv] at hdat
  obtain ⟨event, hev, hsm⟩ := hsig key hkey record data hdat hvr
  obtain ⟨i, hi, hget⟩ := getElem_of_mem hev
  have hlen := hvl.records.length_eq
  have hrs := hvl.records.get hi (by rw [← hlen]; exact hi)
  rw [show history.table.get ⟨i, hi⟩ = event from hget] at hrs
  have hhashed := h.hashed
  rw [← hv, ← hsm] at hhashed
  obtain ⟨hseq, -, hpy, hty, hcr⟩ := eventHash_injective hinj hhashed hrs.hashed
  -- the sequence number says which of the appended events it is
  have hidx : i = k := by
    have hnum := hvl.numbered i event (List.getElem?_eq_some_iff.2 ⟨hi, hget⟩)
    have hex := h.sequence
    omega
  subst hidx
  obtain ⟨members, raw, hla, hraw, hhs⟩ := h.payload
  obtain ⟨raw', hraw', hhs'⟩ := hrs.payload
  rw [hhs, hhs'] at hpy
  cases hash_injective hinj hpy
  refine ⟨_, getElem?_eq_getElem (by rw [← hlen]; exact hi), hseq.trans hrs.sequence,
    hty.trans hrs.eventType, hcr.trans hrs.createdAt, _, hla, ?_⟩
  exact sortKeys_eq_of_canonicalJson (isPython_of_loadPayload hla) hrs.python hraw hraw'

theorem shows_of_verified (hinj : Function.Injective prim.hexdigest) (hvl : history.Valid prim)
    {rows : List AuditEvent} (hsig : ∀ row ∈ rows, Signed prim publicKeys history.table row)
    {k : Nat} {previousHash : Text} {final : Text × Int}
    (h : rows.foldlM (verifyRow prim publicKeys) (previousHash, (k : Int) + 1) = .ok final) :
    ∃ first, first <+: history.entries.drop k ∧ List.Forall₂ AuditEvent.Shows rows first := by
  induction rows generalizing k previousHash with
  | nil => exact ⟨[], nil_prefix, .nil⟩
  | cons row rest ih =>
    rw [foldlM_cons] at h
    obtain ⟨next, hrow, hrs⟩ := bind_eq_ok.1 h
    rw [forall_mem_cons] at hsig
    have hch := verifyRow_checked hrow
    obtain ⟨entry, hen, hsh⟩ := shows_of_checked hinj hvl hch hsig.1 rfl
    rw [hch.next] at hrs
    obtain ⟨first, hfs, hall⟩ := ih hsig.2 (k := k + 1) hrs
    obtain ⟨hlt, hget⟩ := List.getElem?_eq_some_iff.1 hen
    refine ⟨entry :: first, ?_, .cons hsh hall⟩
    rw [drop_eq_getElem_cons hlt, hget]
    exact cons_prefix_cons.2 ⟨rfl, hfs⟩

/-- The chain is complete and sound: the check accepts the table of every sequence of
calls, and the rows of any table it accepts show the first of the appended entries, as
long as digests do not collide and no signature of the table is forged. -/
theorem verifyChain_complete_and_sound (prim : Primitives Key) (publicKeys : Text → Option Bytes)
    (calls : List (Call Key))
    (hpython : ∀ call ∈ calls, IsPython (.obj call.payload)) :
    ((∀ call ∈ calls, publicKeys call.signer.keyId = some (prim.publicKey call.signer.privateKey)) →
      verifyChain prim (appendAll prim calls).table publicKeys =
        .ok (appendAll prim calls).entries.length) ∧
    ∀ (table : List AuditEvent) (count : Nat), Function.Injective prim.hexdigest →
      (∀ row ∈ table, Signed prim publicKeys (appendAll prim calls).table row) →
      verifyChain prim table publicKeys = .ok count →
      ∃ first, first <+: (appendAll prim calls).entries ∧
        List.Forall₂ AuditEvent.Shows (ordered table) first := by
  refine ⟨verifyChain_appendAll hpython, ?_⟩
  intro table count hinj hsig hvr
  unfold verifyChain at hvr
  obtain ⟨final, hlo, -⟩ := bind_eq_ok.1 hvr
  have hrs : ∀ row ∈ ordered table, Signed prim publicKeys (appendAll prim calls).table row := by
    intro row hrow
    exact hsig row ((mem_insertionSort _).1 hrow)
  exact shows_of_verified (k := 0) hinj (appendAll_valid hpython) hrs hlo

def samplePayload : Members := [("plan_key", .str "plan-1")]

/-- The operator creates a plan, and the reviewer approves it. -/
def createdCall : Call Bool := ⟨⟨"operator", true⟩, "plan.created", samplePayload,
  ⟨63926524800000000, by decide⟩, "b2f4a1de-0d4c-4f0e-9a53-6a7f0c1d2e3f"⟩

def approvedCall : Call Bool := ⟨⟨"reviewer", false⟩, "plan.approved", samplePayload,
  ⟨63926525100000000, by decide⟩, "0d3b7c52-61ae-4f7d-8a0e-9b1f2c3d4e5f"⟩

def sampleCalls : List (Call Bool) := [createdCall, approvedCall]

def samplePayloadDigest : Text :=
  Sha256.hexDigits 64 0x5de100020d9d67e1bf2461353618f92aa0c09583f21aa1ca3ed9e6ec8df0bbc5

def sampleDigest : Bool → Text
  | true => Sha256.hexDigits 64 0xc202b8e83638cb8d74323883f136adce04a6a9b7a9d43b16d2e16efcf04c2034
  | false => Sha256.hexDigits 64 0x048e403416af2c2cb96a10d9462dc81e9be4451d0892b49a1830dc0a06174745

def sampleDigests : List (Bytes × Text) :=
  [((canonicalJson (.obj samplePayload)).getD [], samplePayloadDigest),
    ((canonicalJson (eventRecord 1 genesisHash (text "sha256:" ++ samplePayloadDigest)
      "plan.created" "2026-10-02T08:00:00Z")).getD [], sampleDigest true),
    ((canonicalJson (eventRecord 2 (text "sha256:" ++ sampleDigest true)
      (text "sha256:" ++ samplePayloadDigest) "plan.approved"
      "2026-10-02T08:05:00Z")).getD [], sampleDigest false)]

def sampleData (who : Bool) : Bytes := (encodeAscii (text "sha256:" ++ sampleDigest who)).getD []

def bytesOf (length value : Nat) : Bytes :=
  (List.range length).map fun i => UInt8.ofNat (value / 256 ^ (length - 1 - i))

def sampleSignature : Bool → Bytes
  | true => bytesOf 64 (0x99818197ec58de6543541ceda1dbf81c703d06e42a06d5c3fafb3f9c6b4f7a1d * 2 ^ 256 +
      0xdb77476ed4bd3e5183e902319a935da9ed63337314cf09290196cdd7de8ab406)
  | false => bytesOf 64 (0x1aea18d27b33750b2b0a9d71f9cdf7794a7ba85eeee62b6fabb0ba9e52f4863d * 2 ^ 256 +
      0xa71c5abf931740e77ea20e3b41dd360fa91b7ff2136e023acfb313d6b1687200)

def samplePublicKey : Bool → Bytes
  | true => bytesOf 32 0xd75a980182b10ab7d54bfed3c964073a0ee172f3daa62325af021a68f707511a
  | false => bytesOf 32 0x3d4017c3e843895a92b70aa74d1b7ebc9c982ccf2ec4968cc0cd55f12af4660c

def sampleSign (who : Bool) (data : Bytes) : Bytes :=
  if data = sampleData who then sampleSignature who else []

theorem sampleDigests_isLowerHex : ∀ entry ∈ sampleDigests, ∀ c ∈ entry.2, c.isLowerHex = true := by
  have hdg : ∀ value, ∀ c ∈ Sha256.hexDigits 64 value, c.isLowerHex = true := by
    intro value c hc
    obtain ⟨i, -, rfl⟩ := mem_map.1 hc
    exact Sha256.hexDigit_isLowerHex _
  simp only [sampleDigests, forall_mem_cons]
  exact ⟨hdg _, hdg _, hdg _, forall_mem_nil _⟩

def samplePrimitives : Primitives Bool where
  hexdigest := hexDigestFrom sampleDigests
  publicKey := samplePublicKey
  sign := sampleSign
  verify key signature data :=
    [true, false].any fun who => key == samplePublicKey who && signature == sampleSign who data
  hexdigest_isLowerHex := hexDigestFrom_isLowerHex sampleDigests_isLowerHex
  verify_sign who data := List.any_eq_true.2 ⟨who, by cases who <;> decide, by rw [BEq.rfl, BEq.rfl]; rfl⟩

def sampleKeys (keyId : Text) : Option Bytes :=
  if keyId = "operator" then some (samplePublicKey true)
  else if keyId = "reviewer" then some (samplePublicKey false)
  else none

theorem sample_hashes : (appendAll samplePrimitives sampleCalls).table.map AuditEvent.eventHash =
    [text "sha256:" ++ sampleDigest true, text "sha256:" ++ sampleDigest false] := by
  decide +kernel

theorem encodeAscii_sampleDigest (who : Bool) :
    encodeAscii (text "sha256:" ++ sampleDigest who) = some (sampleData who) := by
  cases who with
  | true => decide +kernel
  | false => decide +kernel

theorem decode_encodeAscii {s : Text} {data : Bytes} (h : encodeAscii s = some data) :
    (data.map fun b => (⟨b.toNat, b.toNat_lt.trans (by decide)⟩ : CodePoint)) = s := by
  unfold encodeAscii at h
  split_ifs at h with hall
  rw [← Option.some.inj h, map_map]
  nth_rewrite 2 [← map_id s]
  apply map_congr_left
  intro c hc
  have hsma : c.val < 0x80 := of_decide_eq_true (all_eq_true.1 hall c hc)
  apply Fin.ext
  exact UInt8.toNat_ofNat_of_lt' (hsma.trans (by decide))

/-- A signature that verifies was made by one of the two for the event of theirs. -/
theorem sample_signed {row : AuditEvent} (hsig : row.signature ≠ []) :
    Signed samplePrimitives sampleKeys (appendAll samplePrimitives sampleCalls).table row := by
  intro key _ value data hdat hvr
  obtain ⟨who, -, hwho⟩ := List.any_eq_true.1 hvr
  rw [Bool.and_eq_true] at hwho
  have hsm : row.signature = sampleSign who data := eq_of_beq hwho.2
  have hkn : data = sampleData who := by
    by_contra hne
    rw [sampleSign, if_neg hne] at hsm
    exact hsig hsm
  have hmem : text "sha256:" ++ sampleDigest who ∈
      (appendAll samplePrimitives sampleCalls).table.map AuditEvent.eventHash := by
    rw [sample_hashes]
    cases who with
    | true => exact mem_cons_self
    | false => exact mem_cons_of_mem _ mem_cons_self
  obtain ⟨event, hev, heq⟩ := mem_map.1 hmem
  refine ⟨event, hev, ?_⟩
  rw [hkn] at hdat
  rw [heq, ← decode_encodeAscii (encodeAscii_sampleDigest who), decode_encodeAscii hdat]

/-- The whole table is accepted, and so is the table of the first event alone, which shows only
the first of the two entries. -/
theorem sample_chain :
    verifyChain samplePrimitives (appendAll samplePrimitives sampleCalls).table sampleKeys = .ok 2 ∧
    ∃ first, first <+: (appendAll samplePrimitives sampleCalls).entries ∧
      first ≠ (appendAll samplePrimitives sampleCalls).entries ∧
      List.Forall₂ AuditEvent.Shows
        (ordered (appendAll samplePrimitives [createdCall]).table) first := by
  have hpython : ∀ call ∈ sampleCalls, IsPython (.obj call.payload) := by
    have hone : IsPython (.obj samplePayload) := by
      rw [IsPython, membersPython_iff]
      exact ⟨nodup_singleton _, forall_mem_singleton.2 trivial⟩
    exact forall_mem_cons.2 ⟨hone, forall_mem_singleton.2 hone⟩
  have hkes : ∀ call ∈ sampleCalls, sampleKeys call.signer.keyId =
      some (samplePrimitives.publicKey call.signer.privateKey) :=
    forall_mem_cons.2 ⟨rfl, forall_mem_singleton.2 rfl⟩
  have hinj : Function.Injective samplePrimitives.hexdigest :=
    hexDigestFrom_injective (by decide +kernel) (by decide +kernel)
  have hlen : (appendAll samplePrimitives sampleCalls).entries.length = 2 := by decide +kernel
  have hone := (verifyChain_complete_and_sound samplePrimitives sampleKeys [createdCall]
    (forall_mem_singleton.2 (hpython _ mem_cons_self))).1 (forall_mem_singleton.2 (hkes _ mem_cons_self))
  have hch := verifyChain_complete_and_sound samplePrimitives sampleKeys sampleCalls hpython
  have hsig : ∀ row ∈ (appendAll samplePrimitives [createdCall]).table, row.signature ≠ [] := by
    decide +kernel
  obtain ⟨first, hpre, hall⟩ := hch.2 _ _ hinj (fun row hrow => sample_signed (hsig row hrow)) hone
  have hrows : (ordered (appendAll samplePrimitives [createdCall]).table).length = 1 := by
    decide +kernel
  refine ⟨(hch.1 hkes).trans (congrArg Except.ok hlen), first, hpre, ?_, hall⟩
  intro heq
  have htwo := hall.length_eq.trans ((congrArg List.length heq).trans hlen)
  rw [hrows] at htwo
  exact absurd htwo (by decide)

end Audit

end WebOvpn.Netops
