/-
The published snapshots of Netctl: what one page says, and the loop that reads
all pages of one snapshot.
-/
import WebOvpn.Lib.Calendar
import WebOvpn.Lib.Json

namespace WebOvpn.Inventory

inductive ReadFailure where
  | unavailable
  | malformed
  | changed
  | stale
  deriving DecidableEq

/-- The exceptions of `read_current_snapshot`; `overflow` is the
`OverflowError` of `astimezone`, which nothing catches. -/
inductive SnapshotError where
  | read (reason : ReadFailure) (snapshotId : Option Nat) (generatedAt : Option Instant)
  | overflow
  deriving DecidableEq

def malformedSnapshot : SnapshotError := .read .malformed none none

/-- What has to be the same on every page. -/
structure SnapshotHead where
  snapshotId : Nat
  generatedAt : Instant
  total : Nat
  limit : Nat
  pages : Nat
  deriving DecidableEq

structure SnapshotPage where
  head : SnapshotHead
  stale : Bool
  page : Nat
  hosts : List Members

def isNonnegativeInt : JVal → Option Nat
  | .int n => if 0 ≤ n then some n.toNat else none
  | _ => none

def isPositiveInt (value : JVal) : Option Nat := (isNonnegativeInt value).filter fun n => 1 ≤ n

def parseGeneratedAt (value : JVal) : Except SnapshotError Instant :=
  match value with
  | .str [] => .error malformedSnapshot
  | .str s =>
    match fromisoformat (s.flatMap fun c => if c.val = 90 then "+00:00" else [c]) with
    | none => .error malformedSnapshot
    | some d =>
      match d.offset with
      | none => .error malformedSnapshot
      | some offset =>
        let micros := d.utcMicros offset
        if h : 0 ≤ micros ∧
          micros.toNat < 315537897600000000 then .ok ⟨micros.toNat, d.lt_of_utcMicros offset h⟩
        else .error .overflow
  | _ => .error malformedSnapshot

def JVal.members? : JVal → Option Members
  | .obj members => some members
  | _ => none

def parsePage (payload : JVal) : Except SnapshotError SnapshotPage :=
  match payload with
  | .obj members =>
    match Members.field members "snapshot", Members.field members "pagination",
      Members.field members "hosts" with
    | .obj snapshot, .obj pagination, .arr hosts =>
      match parseGeneratedAt (Members.field snapshot "generated_at") with
      | .error e => .error e
      | .ok generatedAt =>
        match isPositiveInt (Members.field snapshot "snapshot_id"), Members.field snapshot "stale",
          isPositiveInt (Members.field pagination "page"), isNonnegativeInt (Members.field pagination "total"),
          isPositiveInt (Members.field pagination "limit"), isNonnegativeInt (Members.field pagination "pages"),
          hosts.mapM JVal.members? with
        | some snapshotId, .bool stale, some page, some total, some limit, some pages, some hosts =>
          if pages ≠ (total + limit - 1) / limit then .error malformedSnapshot
          else if total = 0 then
            if page ≠ 1 ∨ pages ≠ 0 ∨ hosts ≠ [] then .error malformedSnapshot
            else .ok ⟨⟨snapshotId, generatedAt, total, limit, pages⟩, stale, page, hosts⟩
          else if pages < page then .error malformedSnapshot
          else .ok ⟨⟨snapshotId, generatedAt, total, limit, pages⟩, stale, page, hosts⟩
        | _, _, _, _, _, _, _ => .error malformedSnapshot
    | _, _, _ => .error malformedSnapshot
  | _ => .error malformedSnapshot

variable {page : SnapshotPage} {head : SnapshotHead}

theorem parsePage_ok {payload : JVal} (h : parsePage payload = .ok page) :
    (page.head.total = 0 → page.head.pages = 0 ∧ page.hosts = []) ∧
      (page.head.total ≠ 0 → page.page ≤ page.head.pages) := by
  unfold parsePage at h
  split at h
  · split at h
    · split at h
      · cases h
      · split at h
        · split at h
          · cases h
          split at h
          · next htot =>
              split at h
              · cases h
              next hem =>
              simp only [not_or, not_not] at hem
              cases h
              exact ⟨fun _ => ⟨hem.2.1, hem.2.2⟩, fun hne => absurd htot hne⟩
          · next htot =>
              split at h
              · cases h
              next hpag =>
              cases h
              exact ⟨fun hzr => absurd hzr htot, fun _ => Nat.le_of_not_lt hpag⟩
        · cases h
    · cases h
  · cases h

structure NetctlSnapshot where
  snapshotId : Nat
  generatedAt : Instant
  hosts : List Members

/-- What netctl answers when it is asked for a page; `none` is an exception of
the call. -/
abbrev Responder := Nat → Option JVal

/-- The variables of the loop. -/
structure Reading where
  pageNumber : Nat
  head : Option SnapshotHead
  hosts : List Members

/-- The snapshot is refused with what its first page said. -/
def SnapshotHead.refuse (head : SnapshotHead) (reason : ReadFailure) : SnapshotError :=
  .read reason (some head.snapshotId) (some head.generatedAt)

def SnapshotHead.expectedCount (head : SnapshotHead) (page : Nat) : Nat :=
  if page < head.pages then head.limit else head.total - head.limit * (head.pages - 1)

def Reading.add (r : Reading) (head : SnapshotHead) (page : SnapshotPage) :
    Except SnapshotError (Reading ⊕ NetctlSnapshot) :=
  if page.head ≠ head then .error (head.refuse .changed)
  else if page.page ≠ r.pageNumber then .error (head.refuse .malformed)
  else if 0 < head.total ∧ page.hosts.length ≠ head.expectedCount page.page then .error (head.refuse .malformed)
  else if head.pages ≤ page.page then
    if (r.hosts ++ page.hosts).length ≠ head.total then .error (head.refuse .malformed)
    else .ok (.inr ⟨head.snapshotId, head.generatedAt, r.hosts ++ page.hosts⟩)
  else .ok (.inl ⟨r.pageNumber + 1, some head, r.hosts ++ page.hosts⟩)

/-- One turn of the loop. -/
def readPage (responder : Responder) (r : Reading) : Except SnapshotError (Reading ⊕ NetctlSnapshot) :=
  match responder r.pageNumber with
  | none => .error (.read .unavailable none none)
  | some payload =>
    match parsePage payload with
    | .error e => .error e
    | .ok page =>
      if page.stale = true then .error (page.head.refuse .stale)
      else r.add (r.head.getD page.head) page

structure Reading.Turn (responder : Responder) (r : Reading) (head : SnapshotHead)
    (page : SnapshotPage) : Prop where
  answer : ∃ payload, responder r.pageNumber = some payload ∧ parsePage payload = .ok page
  fresh : page.stale = false
  same : page.head = head
  head : head = r.head.getD page.head
  number : page.page = r.pageNumber

variable {next : Reading ⊕ NetctlSnapshot}

theorem Reading.add_ok {r : Reading} (h : r.add head page = .ok next) :
    page.head = head ∧ page.page = r.pageNumber ∧
      (head.pages ≤ r.pageNumber ∧ (r.hosts ++ page.hosts).length = head.total ∧
          next = .inr ⟨head.snapshotId, head.generatedAt, r.hosts ++ page.hosts⟩ ∨
        r.pageNumber < head.pages ∧
          next = .inl ⟨r.pageNumber + 1, some head, r.hosts ++ page.hosts⟩) := by
  unfold Reading.add at h
  split at h
  · cases h
  next hha =>
  split at h
  · cases h
  next hnum =>
  split at h
  · cases h
  rw [not_not] at hha hnum
  refine ⟨hha, hnum, ?_⟩
  split at h
  · next hls =>
      split at h
      · cases h
      next hlen =>
      rw [hnum] at hls
      exact .inl ⟨hls, not_not.1 hlen, (Except.ok.inj h).symm⟩
  · next hmr =>
      rw [hnum] at hmr
      exact .inr ⟨Nat.lt_of_not_le hmr, (Except.ok.inj h).symm⟩

theorem readPage_ok {responder : Responder} {r : Reading}
    (h : readPage responder r = .ok next) : ∃ head page, r.Turn responder head page ∧
      (head.pages ≤ r.pageNumber ∧ (r.hosts ++ page.hosts).length = head.total ∧
          next = .inr ⟨head.snapshotId, head.generatedAt, r.hosts ++ page.hosts⟩ ∨
        r.pageNumber < head.pages ∧
          next = .inl ⟨r.pageNumber + 1, some head, r.hosts ++ page.hosts⟩) := by
  unfold readPage at h
  split at h
  · cases h
  next payload hpy =>
  split at h
  · cases h
  next page hpag =>
  split at h
  · cases h
  next hst =>
  obtain ⟨hha, hnum, hnx⟩ := Reading.add_ok h
  exact ⟨_, page, ⟨⟨payload, hpy, hpag⟩, Bool.not_eq_true _ ▸ hst, hha, rfl, hnum⟩, hnx⟩

/-- The pages that are still to be read, once the first one has said how many
there are. -/
def Reading.remaining (r : Reading) : Nat × Nat :=
  match r.head with
  | none => (1, 0)
  | some head => (0, head.pages - r.pageNumber)

theorem remaining_lt {responder : Responder} {r r' : Reading}
    (h : readPage responder r = .ok (.inl r')) :
    Prod.Lex (· < ·) (· < ·) r'.remaining r.remaining := by
  obtain ⟨head, page, htr, ⟨-, -, hnx⟩ | ⟨hmr, hnx⟩⟩ := readPage_ok h
  · cases hnx
  cases hnx
  unfold Reading.remaining
  cases hha : r.head with
  | none => exact .left _ _ (by decide)
  | some first =>
    obtain rfl : head = first := by
      rw [htr.head, hha]
      rfl
    apply Prod.Lex.right
    change head.pages - (r.pageNumber + 1) < head.pages - r.pageNumber
    omega

def readPages (responder : Responder) (r : Reading) : Except SnapshotError NetctlSnapshot :=
  match _h : readPage responder r with
  | .error e => .error e
  | .ok (.inr snapshot) => .ok snapshot
  | .ok (.inl r') => readPages responder r'
termination_by r.remaining
decreasing_by exact remaining_lt _h

def readCurrentSnapshot (responder : Responder) : Except SnapshotError NetctlSnapshot :=
  readPages responder ⟨1, none, []⟩

def pageHosts (responder : Responder) (n : Nat) : List Members :=
  match (responder n).map parsePage with
  | some (.ok page) => page.hosts
  | _ => []

def Serves (responder : Responder) (head : SnapshotHead) (n : Nat) : Prop :=
  ∃ payload page, responder n = some payload ∧ parsePage payload = .ok page ∧ page.head = head ∧ page.page = n ∧
    page.stale = false

/-- The pages before the next one have been read whole. -/
structure Reading.Valid (responder : Responder) (r : Reading) : Prop where
  started : 1 ≤ r.pageNumber
  first : r.head = none → r.pageNumber = 1
  served : ∀ head, r.head = some head → ∀ n, 1 ≤ n → n < r.pageNumber → Serves responder head n
  hosts : r.hosts = (List.range' 1 (r.pageNumber - 1)).flatMap (pageHosts responder)

/-- The pages of the snapshot are those that netctl published under one id and
one time, one after another. -/
def NetctlSnapshot.Whole (responder : Responder) (snapshot : NetctlSnapshot) : Prop :=
  ∃ head : SnapshotHead, snapshot.snapshotId = head.snapshotId ∧ snapshot.generatedAt = head.generatedAt ∧
    snapshot.hosts.length = head.total ∧ (∀ n, 1 ≤ n → n ≤ max 1 head.pages → Serves responder head n) ∧
    snapshot.hosts = (List.range' 1 head.pages).flatMap (pageHosts responder)

variable {responder : Responder} {r : Reading}

theorem Reading.Turn.serves (h : r.Turn responder head page) : Serves responder head r.pageNumber := by
  obtain ⟨payload, hpy, hpag⟩ := h.answer
  exact ⟨payload, page, hpy, hpag, h.same, h.number, h.fresh⟩

theorem Reading.Turn.pageHosts_eq (h : r.Turn responder head page) :
    pageHosts responder r.pageNumber = page.hosts := by
  obtain ⟨payload, hpy, hpag⟩ := h.answer
  unfold pageHosts
  rw [hpy, Option.map_some, hpag]

theorem Reading.Valid.turn (hr : r.Valid responder) (h : r.Turn responder head page) :
    (∀ n, 1 ≤ n → n ≤ r.pageNumber → Serves responder head n) ∧
      r.hosts ++ page.hosts = (List.range' 1 r.pageNumber).flatMap (pageHosts responder) := by
  constructor
  · intro n hpos hle
    rcases Nat.lt_or_eq_of_le hle with hlt | rfl
    · cases hha : r.head with
      | none =>
        rw [hr.first hha] at hlt
        omega
      | some first =>
        have hsm : head = first := by
          rw [h.head, hha]
          rfl
        exact hr.served head (hsm ▸ hha) n hpos hlt
    · exact h.serves
  · have hsp : List.range' 1 r.pageNumber = List.range' 1 (r.pageNumber - 1) ++ [r.pageNumber] := by
      have hst := hr.started
      obtain ⟨k, hk⟩ : ∃ k, r.pageNumber = k + 1 := ⟨r.pageNumber - 1, by omega⟩
      rw [hk, List.range'_concat, Nat.add_sub_cancel, Nat.one_mul, Nat.add_comm 1 k]
    rw [hsp, List.flatMap_append, List.flatMap_singleton, h.pageHosts_eq, ← hr.hosts]

theorem Reading.Valid.readPages (hr : r.Valid responder) {snapshot : NetctlSnapshot}
    (h : readPages responder r = .ok snapshot) : snapshot.Whole responder := by
  induction r using readPages.induct responder with
  | case1 r e herr =>
    rw [Inventory.readPages, herr] at h
    cases h
  | case2 r last hls =>
    rw [Inventory.readPages, hls] at h
    cases h
    obtain ⟨head, page, htr, ⟨hpages, htot, hnx⟩ | ⟨-, hnx⟩⟩ := readPage_ok hls
    · cases hnx
      obtain ⟨hser, hhs⟩ := hr.turn htr
      obtain ⟨payload, hpy, hpag⟩ := htr.answer
      obtain ⟨hem, hful⟩ := parsePage_ok hpag
      rw [htr.same] at hem hful
      by_cases hzr : head.total = 0
      -- an empty snapshot has one page without hosts
      · obtain ⟨hnn, -⟩ := hem hzr
        refine ⟨head, rfl, rfl, htot, ?_, ?_⟩
        · intro n hpos hle
          have hst := hr.started
          exact hser n hpos (by omega)
        · rw [hzr, List.length_eq_zero_iff] at htot
          rw [hnn]
          exact htot
      · have hls : head.pages = r.pageNumber := by
          have hle := hful hzr
          rw [htr.number] at hle
          omega
        refine ⟨head, rfl, rfl, htot, ?_, ?_⟩
        · intro n hpos hle
          have hst := hr.started
          exact hser n hpos (by omega)
        · rw [hls]
          exact hhs
    · cases hnx
  | case3 r r' hmr ih =>
    rw [Inventory.readPages, hmr] at h
    apply ih _ h
    obtain ⟨head, page, htr, ⟨-, -, hnx⟩ | ⟨-, hnx⟩⟩ := readPage_ok hmr
    · cases hnx
    · cases hnx
      obtain ⟨hser, hhs⟩ := hr.turn htr
      refine ⟨Nat.le_add_left 1 _, ?_, ?_, ?_⟩
      · intro hnn
        cases hnn
      · intro head' hha n hpos hlt
        cases hha
        exact hser n hpos (Nat.le_of_lt_succ hlt)
      · exact hhs

theorem readCurrentSnapshot_whole {snapshot : NetctlSnapshot}
    (h : readCurrentSnapshot responder = .ok snapshot) :
    snapshot.Whole responder := by
  have hst : Reading.Valid responder ⟨1, none, []⟩ := by
    refine ⟨Nat.le_refl 1, fun _ => rfl, ?_, rfl⟩
    intro head hha
    cases hha
  exact hst.readPages h

end WebOvpn.Inventory
