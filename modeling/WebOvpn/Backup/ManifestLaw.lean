/-
Backup metadata survives writing and reading, unless a text of it cannot be encoded
or the document grows too long.
-/
import WebOvpn.Backup.ManifestRecords
import WebOvpn.Lib.JsonSize

namespace WebOvpn.Backup

open JsonCodec List

theorem pairsDialect_reader : Reader pairsDialect IsFloatText where
  nonFinite := rfl
  string := floatDialect_reader.string
  key := floatDialect_reader.key
  item := floatDialect_reader.item
  enter := floatDialect_reader.enter
  object := fun _ hpi => if_pos hpi
  int := floatDialect_reader.int
  float := floatDialect_reader.float
  scalar := floatDialect_reader.scalar

theorem pairsDialect_builder : Builder pairsDialect (Spells escapeCodePoint) Loaded where
  null := floatDialect_builder.null
  bool := floatDialect_builder.bool
  nonFinite := floatDialect_builder.nonFinite
  number := floatDialect_builder.number
  string := floatDialect_builder.string
  key := floatDialect_builder.key
  arr := floatDialect_builder.arr
  obj := fun pairs members hms hobj => by
    change strictObject pairs = .ok members at hobj
    unfold strictObject at hobj
    split_ifs at hobj with hnd
    cases hobj
    unfold Loaded
    rw [IsReadable, membersReadable_iff]
    exact ⟨hnd, hms⟩

variable {document : JVal}

theorem decode_eq_ok {raw : Bytes} : decode raw = .ok document ↔ raw.length ≤ maximumBytes ∧
    ∃ input, decodeUtf8 raw = some input ∧ parseDocument pairsDialect input = .ok document ∧
      ∃ members, document = .obj members := by
  unfold decode
  simp only [bind_eq_ok, require_eq_ok, decide_eq_true_eq]
  constructor
  · rintro ⟨_, hlen, h⟩
    split at h
    · cases h
    · rename_i input hin
      split at h
      · cases h
      · rename_i members hra
        cases h
        exact ⟨hlen, input, hin, hra, members, rfl⟩
      · cases h
  · rintro ⟨hlen, input, hin, hra, members, rfl⟩
    refine ⟨(), hlen, ?_⟩
    rw [hin]
    dsimp only
    rw [hra]

theorem loaded_of_decode {raw : Bytes} (h : decode raw = .ok document) : Loaded document := by
  obtain ⟨-, input, -, hra, -⟩ := decode_eq_ok.1 h
  exact parseDocument_builds pairsDialect_builder hra

theorem jsonBytes_eq_some {raw : Bytes} : jsonBytes document = some raw ↔
    document.isPrintable = true ∧ document.isEncodable = true ∧
      utf8Chars (render escapeChar Layout.indented 0 document ++ ['\n']) = raw := by
  unfold jsonBytes
  split_ifs with h
  · rw [Bool.and_eq_true] at h
    rw [Option.some.injEq]
    exact ⟨fun heq => ⟨h.1, h.2, heq⟩, fun hraw => hraw.2.2⟩
  · rw [Bool.and_eq_true] at h
    exact ⟨nofun, fun hraw => absurd ⟨hraw.1, hraw.2.1⟩ h⟩

theorem parse_jsonBytes (hpy : IsPython document) {raw : Bytes} (h : jsonBytes document = some raw) :
    ∃ input, decodeUtf8 raw = some input ∧ parseDocument pairsDialect input = .ok document := by
  obtain ⟨hpr, hen, rfl⟩ := jsonBytes_eq_some.1 h
  have hra := isReadable_of_isPython hpy hpr hen
  have hbl : ∀ c ∈ ['\n'], isWhitespace c = true := forall_mem_singleton.2 rfl
  exact ⟨_, decodeUtf8_utf8Chars _, parseDocument_render pairsDialect_reader hra hbl⟩

theorem decode_jsonBytes {members : List (Text × JVal)} (hpy : IsPython (.obj members)) {raw : Bytes}
    (h : jsonBytes (.obj members) = some raw) (hlen : raw.length ≤ maximumBytes) :
      decode raw = .ok (.obj members) := by
  obtain ⟨input, hin, hra⟩ := parse_jsonBytes hpy h
  exact decode_eq_ok.2 ⟨hlen, input, hin, hra, members, rfl⟩

theorem eq_of_decode_jsonBytes {document document' : JVal} (hpy : IsPython document) {raw : Bytes}
    (h : jsonBytes document = some raw) (h' : decode raw = .ok document') : document' = document := by
  obtain ⟨input, hin, hra⟩ := parse_jsonBytes hpy h
  obtain ⟨-, input', hin', hra', -⟩ := decode_eq_ok.1 h'
  cases hin.symm.trans hin'
  exact Except.ok.inj (hra'.symm.trans hra)

theorem isPython_optStr (o : Option Text) : IsPython (optStr o) := by
  cases o with
  | _ => trivial

theorem isPython_optInt (o : Option Int) : IsPython (optInt o) := by
  cases o with
  | _ => trivial

theorem isPython_map {α : Type} {encode : α → JVal} (h : ∀ v, IsPython (encode v)) (vs : List α) :
    IsPython (.arr (vs.map encode)) := by
  rw [IsPython, arePython_iff, forall_mem_map]
  exact fun v _ => h v

theorem isPython_controller (v : ControllerRecord) : IsPython v.toDict := by
  apply controllerRecord.isPython
  simp only [ControllerRecord.slots, forall_mem_cons, Slot.plain]
  exact ⟨trivial, isPython_optStr _, trivial, trivial, trivial, isPython_optStr _, forall_mem_nil _⟩

theorem isPython_unit (v : UnitState) : IsPython v.toDict := by
  apply (unitRecord 0).isPython
  simp only [UnitState.slots, forall_mem_cons, Slot.plain]
  exact ⟨trivial, trivial, trivial, trivial, trivial, trivial, forall_mem_nil _⟩

theorem isPython_secret (v : SecretIdentity) : IsPython v.toDict := by
  apply (secretRecord 0).isPython
  simp only [SecretIdentity.slots, forall_mem_cons, Slot.plain]
  exact ⟨trivial, trivial, trivial, trivial, trivial, trivial, trivial, trivial, trivial, forall_mem_nil _⟩

theorem isPython_path (v : PathRecord) : IsPython v.toDict := by
  apply pathRecord.isPython
  simp only [PathRecord.slots, forall_mem_cons, Slot.plain]
  exact ⟨trivial, trivial, isPython_optInt _, isPython_optInt _, isPython_optStr _,
    isPython_optStr _, isPython_optInt _,
    trivial, forall_mem_nil _⟩

theorem isPython_component (v : ComponentRecord) : IsPython v.toDict := by
  apply (componentRecord 0).isPython
  simp only [ComponentRecord.slots, forall_mem_cons, Slot.plain, Slot.nested]
  exact ⟨trivial, trivial, trivial, trivial, trivial, isPython_map isPython_path _, trivial, forall_mem_nil _⟩

theorem isPython_preflight (v : PreflightRecord) : IsPython v.toDict := by
  apply preflightRecord.isPython
  simp only [PreflightRecord.slots, forall_mem_cons, Slot.plain]
  exact ⟨trivial, trivial, trivial, trivial, trivial, trivial, trivial, forall_mem_nil _⟩

theorem isPython_strings (items : List Text) : IsPython (strings items) := by
  apply isPython_map
  intro s
  trivial

theorem isPython_manifest (v : BackupManifest) : IsPython v.toDict := by
  apply manifestRecord.isPython
  simp only [BackupManifest.slots, forall_mem_cons, Slot.plain, Slot.nested]
  exact ⟨trivial, trivial, trivial, trivial, isPython_controller _, isPython_map isPython_component _,
    isPython_map isPython_unit _, isPython_map isPython_secret _, isPython_preflight _,
      isPython_strings _, forall_mem_nil _⟩

theorem isPython_hashDict {hashes : List (Text × Text)} (hdc : (hashes.map Prod.fst).Nodup) :
    IsPython (hashDict hashes) := by
  unfold hashDict
  rw [IsPython, membersPython_iff, map_map, forall_mem_map]
  exact ⟨hdc, fun _ _ => trivial⟩

theorem isPython_verification {v : VerificationEvidence}
    (hdc : (v.componentHashes.map Prod.fst).Nodup) :
    IsPython v.toDict := by
  apply verificationRecord.isPython
  simp only [VerificationEvidence.slots, forall_mem_cons, Slot.plain, Slot.nested]
  exact ⟨trivial, trivial, trivial, trivial, trivial, isPython_hashDict hdc, isPython_map isPython_secret _,
    isPython_strings _, trivial, forall_mem_nil _⟩

theorem isPython_rehearsal (v : RehearsalEvidence) : IsPython v.toDict := by
  apply rehearsalRecord.isPython
  simp only [RehearsalEvidence.slots, forall_mem_cons, Slot.plain, Slot.nested]
  exact ⟨trivial, trivial, trivial, trivial, trivial, trivial, isPython_map isPython_secret _,
    isPython_strings _, trivial,
    forall_mem_nil _⟩

/-- The document in the bytes can be written again: no text of it has a surrogate, and
its indented form is not too long. -/
def Rewritable (raw : Bytes) : Prop := ∀ document, decode raw = .ok document →
  document.isEncodable = true ∧ byteSize (render escapeChar Layout.indented 0 document) + 1 ≤ maximumBytes

section RoundTrips

variable {α : Type} {parse : JVal → Checked α} {encode : α → JVal} {v w : α} {raw : Bytes}

/-- What is read of a record that was written is read of its dictionary. -/
theorem parse_of_written (hpy : IsPython (encode v)) (hraw : jsonBytes (encode v) = some raw)
    (h : (decode raw >>= parse) = .ok w) : parse (encode v) = .ok w := by
  obtain ⟨document, hdc, hpr⟩ := bind_eq_ok.1 h
  rwa [eq_of_decode_jsonBytes hpy hraw hdc] at hpr

theorem length_of_jsonBytes {document : JVal} (hraw : jsonBytes document = some raw) :
    raw.length = byteSize (render escapeChar Layout.indented 0 document) + 1 := by
  obtain ⟨-, -, rfl⟩ := jsonBytes_eq_some.1 hraw
  change byteSize (_ ++ _) = _
  rw [byteSize_append]
  rfl

/-- A record that was read is written and read again exactly when its document can be
written again. -/
theorem reread_iff (hst : Stable parse encode) (hpy : IsPython (encode v))
    (hobj : ∃ members, encode v = .obj members) (h : (decode raw >>= parse) = .ok v) :
    (∃ again, jsonBytes (encode v) = some again ∧ (decode again >>= parse) = .ok v) ↔
      Rewritable raw := by
  obtain ⟨document, hdc, hpr⟩ := bind_eq_ok.1 h
  have hla := loaded_of_decode hdc
  have hsr := hst.rewrites document v hpr hla
  have hen : (encode v).isEncodable = document.isEncodable := by
    rw [← isEncodable_sortKeys (encode v), hsr, isEncodable_sortKeys]
  have hpi : (encode v).isPrintable = true := by
    rw [← isPrintable_sortKeys, hsr, isPrintable_sortKeys]
    exact isPrintable_of_isReadable hla
  have hsz : byteSize (render escapeChar Layout.indented 0 (encode v)) =
      byteSize (render escapeChar Layout.indented 0 document) := by
    rw [← byteSize_render_sortKeys rfl (encode v), hsr, byteSize_render_sortKeys rfl]
  constructor
  · rintro ⟨again, haga, hrer⟩ other hot
    cases hdc.symm.trans hot
    obtain ⟨-, hpl, -⟩ := jsonBytes_eq_some.1 haga
    obtain ⟨_, hdecod, -⟩ := bind_eq_ok.1 hrer
    obtain ⟨hlen, -⟩ := decode_eq_ok.1 hdecod
    rw [length_of_jsonBytes haga, hsz] at hlen
    exact ⟨hen ▸ hpl, hlen⟩
  · intro hrw
    obtain ⟨hpl, hlen⟩ := hrw document hdc
    obtain ⟨members, hms⟩ := hobj
    have haga := jsonBytes_eq_some.2 ⟨hpi, hen.trans hpl, rfl⟩
    refine ⟨_, haga, bind_eq_ok.2 ⟨encode v, ?_, hst.accepts document v hpr⟩⟩
    rw [hms] at hpy haga ⊢
    apply decode_jsonBytes hpy haga
    rw [length_of_jsonBytes haga, ← hms, hsz]
    exact hlen

end RoundTrips

/-- Writing and reading give the same records; reading and writing do so exactly when the
document can be written again. -/
theorem metadata_round_trip_iff (raw : Bytes) :
    ((∀ v w, BackupManifest.toBytes v = some raw → parseManifest raw = .ok w → w = v) ∧
      (∀ v w, (v.componentHashes.map Prod.fst).Nodup → VerificationEvidence.toBytes v = some raw →
        parseVerificationEvidence raw = .ok w → w.Same v) ∧
      ∀ v w, RehearsalEvidence.toBytes v = some raw → parseRehearsalEvidence raw = .ok w → w = v) ∧
    (∀ v, parseManifest raw = .ok v →
      ((∃ again, v.toBytes = some again ∧ parseManifest again = .ok v) ↔ Rewritable raw)) ∧
    (∀ v, parseVerificationEvidence raw = .ok v →
      ((∃ again, v.toBytes = some again ∧ parseVerificationEvidence again = .ok v) ↔ Rewritable raw)) ∧
    ∀ v, parseRehearsalEvidence raw = .ok v →
      ((∃ again, v.toBytes = some again ∧ parseRehearsalEvidence again = .ok v) ↔ Rewritable raw) := by
  refine ⟨⟨?_, ?_, ?_⟩, ?_, ?_, ?_⟩
  · intro v w hraw h
    exact manifestCodec.tells v w (parse_of_written (isPython_manifest v) hraw h)
  · intro v w hdc hraw h
    exact same_of_verificationOf hdc (parse_of_written (isPython_verification hdc) hraw h)
  · intro v w hraw h
    exact rehearsalCodec.tells v w (parse_of_written (isPython_rehearsal v) hraw h)
  · intro v h
    exact reread_iff manifestRecord.stable (isPython_manifest v) ⟨_, rfl⟩ h
  · intro v h
    obtain ⟨document, -, hpr⟩ := bind_eq_ok.1 h
    have hdc := nodup_hashes_of_verificationOf hpr
    exact reread_iff verificationRecord.stable (isPython_verification hdc) ⟨_, rfl⟩ h
  · intro v h
    exact reread_iff rehearsalRecord.stable (isPython_rehearsal v) ⟨_, rfl⟩ h

def sampleDigest : Text := List.replicate 64 '0'

def sampleSecret (path kind identity : Text) : SecretIdentity :=
  ⟨path, kind, 0, 0, "root", "root", 384, 1, identity⟩

def sampleSecrets : List SecretIdentity :=
  (secretPaths.zip (secretOrder.zip [text "sha256:" ++ sampleDigest, text "hmac-sha256:" ++ sampleDigest,
    "ssh-public-fingerprint:SHA256:key"])).map fun secret => sampleSecret secret.1 secret.2.1 secret.2.2

def surrogateEvidence : RehearsalEvidence :=
  ⟨1, "1.0.0", "backup-20260101T000000Z-00000000",
    text "2026-01-01" ++ [⟨0xd800, by decide⟩] ++ text "00:00:00+00:00", sampleDigest, sampleDigest,
      sampleSecrets,
    ["shell"], "ok"⟩

def surrogateDocument : Bytes :=
  utf8Chars (render escapeCodePoint Layout.dense 0 surrogateEvidence.toDict)

theorem isDigest_sample : IsDigest sampleDigest := ⟨by decide, by decide⟩

theorem unbounded {n : Int} : ∀ most ∈ (none : Option Int), n ≤ most := by
  rintro most ⟨⟩

theorem parseSecret_sample {index : Nat} {path kind identity : Text} (hkn : Bounded 64 kind)
    (hord : secretOrder[index]? = some kind) (hpt : IsAbsolute path)
    (hpl : secretPaths[index]? = some path)
    (hide : Bounded 500 identity) (hfor : isIdentity kind identity = true) :
    parseSecret index (sampleSecret path kind identity).toDict =
      .ok (sampleSecret path kind identity) := by
  have hro : IsAccount "root" := ⟨by decide, by decide⟩
  have hmod : (384 : Int) ≤ maximumMode := by decide
  apply (secretRecord index).parse_encode
  · simp only [SecretIdentity.slots, forall_mem_cons]
    exact ⟨rfl, rfl, rfl, rfl, rfl, rfl, rfl, rfl, rfl, forall_mem_nil _⟩
  · refine ⟨⟨hkn, hord⟩, ⟨hpt, hpl⟩, ⟨le_refl 0, unbounded⟩, ⟨le_refl 0, unbounded⟩, hro, hro,
      ⟨Int.natCast_nonneg 384, ?_⟩, ⟨Int.natCast_nonneg 1, unbounded⟩, hide, hfor⟩
    rintro most ⟨⟩
    exact hmod

theorem parseSecrets_sample : parseSecrets (secretDicts sampleSecrets) = .ok sampleSecrets := by
  apply listOf_eq_ok.2
  refine ⟨_, rfl, by decide, parseEach_map ?_⟩
  rintro (_ | _ | _ | k) v hv
  all_goals cases hv
  all_goals apply parseSecret_sample
  all_goals decide

theorem surrogate_computed :
    safeChecks (strings [text "shell"]) "rehearsal passed_checks" = .ok [text "shell"] ∧
      (fromisoformat (withOffset surrogateEvidence.completedAt)).map Datetime.offset = some (some 0) ∧
      (∀ s ∈ surrogateEvidence.toDict.texts,
        s.IsChain fun a b => ¬ (a.isHigh = true ∧ b.isLow = true)) ∧
      surrogateEvidence.toDict.isPrintable = true ∧ surrogateDocument.length ≤ maximumBytes ∧
      surrogateEvidence.toDict.isEncodable = false := by
  unfold surrogateDocument
  decide +kernel

theorem rehearsalOf_surrogate : rehearsalOf surrogateEvidence.toDict = .ok surrogateEvidence := by
  obtain ⟨hch, hutc, -⟩ := surrogate_computed
  apply rehearsalRecord.parse_encode
  · simp only [RehearsalEvidence.slots, forall_mem_cons]
    exact ⟨rfl, rfl, rfl, rfl, rfl, rfl, parseSecrets_sample, hch, rfl, forall_mem_nil _⟩
  · exact ⟨⟨le_refl 1, unbounded⟩, rfl, ⟨by decide, rfl⟩, ⟨by decide, by decide⟩, ⟨by decide, by decide⟩,
      ⟨by decide, Option.map_eq_some_iff.1 hutc⟩, isDigest_sample, isDigest_sample⟩

theorem decode_surrogateDocument : decode surrogateDocument = .ok surrogateEvidence.toDict := by
  obtain ⟨-, -, hji, hpr, hlen, -⟩ := surrogate_computed
  have hreada : IsReadable escapeCodePoint IsFloatText surrogateEvidence.toDict :=
    isReadable_of_texts (isPython_rehearsal _) hpr fun s hs => spells_escapeCodePoint (hji s hs)
  have hbl : ∀ c ∈ ([] : List Char), isWhitespace c = true := forall_mem_nil _
  have hra : parseDocument pairsDialect (render escapeCodePoint Layout.dense 0 surrogateEvidence.toDict ++ []) =
      .ok surrogateEvidence.toDict := parseDocument_render pairsDialect_reader hreada hbl
  rw [append_nil] at hra
  exact decode_eq_ok.2 ⟨hlen, _, decodeUtf8_utf8Chars _, hra, _, rfl⟩

/-- Evidence that is read and cannot be written. -/
theorem surrogate_not_rewritten :
    parseRehearsalEvidence surrogateDocument = .ok surrogateEvidence ∧
      surrogateEvidence.toBytes = none := by
  constructor
  · exact bind_eq_ok.2 ⟨_, decode_surrogateDocument, rehearsalOf_surrogate⟩
  · obtain ⟨-, -, -, -, -, hpl⟩ := surrogate_computed
    unfold RehearsalEvidence.toBytes jsonBytes
    rw [hpl, Bool.and_false, if_neg Bool.false_ne_true]

end WebOvpn.Backup
