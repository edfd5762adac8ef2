/-
A call of `disable_or_delete` that is interrupted and made again: when the
client ends up disabled as by one call.
-/
import WebOvpn.Lib.Listing
import WebOvpn.Vpn.Disabling

namespace WebOvpn

open Op List

namespace Vpn

open Text

variable {cfg : Config} {easyrsa : Easyrsa} {call : Call} {now now' : Text} {s s' d : State}
  {purge : Bool} {client line : Text} {lines lines' : List Text}

/-- The first line that decides is an `R` line or the entry that a revocation
turns into one. -/
def Repeatable (client : Text) (lines : List Text) : Prop :=
  ∀ line, lines.find? (decides client) = some line →
    firstField line = "R" ∨ isOwnValid client line = true

theorem decides_of_revokes {after : Text} (h : Revokes client line after)
    (hdc : decides client line = true) : decides client after = true := by
  unfold Revokes at h
  split_ifs at h with hown
  · have howned : isOwn client after = true := by
      unfold isOwnValid at hown
      rw [Bool.and_eq_true] at hown
      unfold isOwn at hown ⊢
      rw [h.2]
      exact hown.1
    unfold decides
    rw [mentions_of_isOwn howned, answer_eq_revoked_iff.2 h.1]
    rfl
  · rw [h]
    exact hdc

theorem find?_of_revokes (h : List.Forall₂ (Revokes client) lines lines')
    (hfn : lines.find? (decides client) = some line) :
    ∃ after, lines'.find? (decides client) = some after ∧ Revokes client line after := by
  induction h with
  | nil => cases hfn
  | @cons before after rest rest' hrv _ ih =>
    cases hdc : decides client before with
    | true =>
      rw [find?_cons_of_pos hdc] at hfn
      cases hfn
      refine ⟨after, ?_, hrv⟩
      exact find?_cons_of_pos (decides_of_revokes hrv hdc)
    | false =>
      have hke : after = before := by
        unfold Revokes at hrv
        rw [if_neg] at hrv
        · exact hrv
        · intro hown
          rw [decides_of_isOwnValid hown] at hdc
          cases hdc
      rw [find?_cons_of_neg (by rw [hdc]; exact Bool.false_ne_true)] at hfn
      obtain ⟨found, hfd, hln⟩ := ih hfn
      refine ⟨found, ?_, hln⟩
      rw [hke, find?_cons_of_neg (by rw [hdc]; exact Bool.false_ne_true)]
      exact hfd

theorem status_of_revokes (h : List.Forall₂ (Revokes client) lines lines')
    (hms : statusIn client lines ≠ .missing) (hrevd : statusIn client lines ≠ .revoked) :
    statusIn client lines' ≠ .missing ∧
      (statusIn client lines' = .revoked ↔ Repeatable client lines) := by
  rw [Ne, statusIn_eq_missing_iff] at hms
  obtain ⟨line, hln⟩ := Option.ne_none_iff_exists'.1 hms
  obtain ⟨after, haf, hrv⟩ := find?_of_revokes h hln
  have hlt : firstField line ≠ "R" := by
    rw [Ne, statusIn_eq_revoked_iff, letter, hln] at hrevd
    intro hr
    exact hrevd (congrArg some hr)
  constructor
  · rw [Ne, statusIn_eq_missing_iff, haf]
    exact Option.some_ne_none after
  rw [statusIn_eq_revoked_iff, letter, haf, Option.map_some, Option.some.injEq]
  unfold Revokes at hrv
  constructor
  · intro hr found hfn
    rw [hln] at hfn
    cases hfn
    split_ifs at hrv with hown
    · exact .inr hown
    · rw [hrv] at hr
      exact absurd hr hlt
  · intro hrp
    have hown := (hrp line hln).resolve_left hlt
    rw [if_pos hown] at hrv
    exact hrv.1

theorem certStatus_some {content : Text} {index : Option Text} (h : index = some content) :
    certStatus index client = statusIn client (splitlines content) := by
  rw [h]
  rfl

theorem Revocation.again (hrs : easyrsa.Lawful) (h : Revocation easyrsa client s s')
    (hrp : Repeatable client (indexLines s.pki.index))
    (hpki : { d.pki with crl := s'.pki.crl } = s'.pki)
    (hsm : certStatus s.pki.index client = .missing → d.pki = s'.pki ∧ d.installedCrl = s'.installedCrl) :
    Revocation easyrsa client d { d with pki := s'.pki, installedCrl := s'.installedCrl } := by
  have hidx : d.pki.index = s'.pki.index := by rw [← hpki]
  cases h with
  | missing hst =>
    obtain ⟨hd, hins⟩ := hsm hst
    rw [← hd, ← hins]
    apply Revocation.missing
    rw [hd]
    exact hst
  | @already crl hst hcr =>
    rw [← hpki]
    apply Revocation.already
    · rw [hidx]
      exact hst
    · rw [hidx]
      exact hcr
  | @now pki crl hms hrv hrevk hcr =>
    rw [← hpki]
    obtain ⟨before, after, hbf, haf, hln⟩ := hrs.revokes _ _ _ hrevk
    rw [certStatus_some hbf] at hms hrv
    rw [hbf] at hrp
    apply Revocation.already
    · rw [hidx]
      change certStatus pki.index client = .revoked
      rw [certStatus_some haf]
      exact (status_of_revokes hln hms hrv).2.2 hrp
    · rw [hidx]
      exact hcr

theorem Revocation.refused (hrs : easyrsa.Lawful) (h : Revocation easyrsa client s s')
    (hrp : ¬ Repeatable client (indexLines s.pki.index))
    (hpki : { d.pki with crl := s'.pki.crl } = s'.pki) :
    certStatus d.pki.index client ≠ .missing ∧ certStatus d.pki.index client ≠ .revoked ∧
      easyrsa.revoke client d.pki = none := by
  have hidx : d.pki.index = s'.pki.index := by rw [← hpki]
  rw [hidx]
  cases h with
  | missing hst =>
    refine absurd ?_ hrp
    intro line hln
    unfold certStatus at hst
    split at hst
    · cases hst
    · rename_i content hcn
      rw [hcn] at hln
      change (splitlines content).find? (decides client) = some line at hln
      rw [statusIn_eq_missing_iff.1 hst] at hln
      cases hln
  | already hst hcr =>
    refine absurd ?_ hrp
    intro line hln
    unfold certStatus at hst
    split at hst
    · cases hst
    · rename_i content hcn
      rw [hcn] at hln
      change (splitlines content).find? (decides client) = some line at hln
      rw [statusIn_eq_revoked_iff, letter, hln, Option.map_some, Option.some.injEq] at hst
      exact .inl hst
  | @now pki crl hms hrv hrevk hcr =>
    obtain ⟨before, after, hbf, haf, hlines⟩ := hrs.revokes _ _ _ hrevk
    rw [certStatus_some hbf] at hms hrv
    rw [hbf] at hrp
    obtain ⟨hsm, hiff⟩ := status_of_revokes hlines hms hrv
    change certStatus pki.index client ≠ .missing ∧ certStatus pki.index client ≠ .revoked ∧ _
    rw [certStatus_some haf]
    refine ⟨hsm, fun hr => hrp (hiff.1 hr), ?_⟩
    have haga := hrs.again _ _ _ hrevk d.pki.crl
    have hd : { pki with crl := d.pki.crl } = d.pki := by
      have h' : { d.pki with crl := some crl } = { pki with crl := some crl } := hpki
      cases hdp : d.pki
      rw [hdp] at h'
      cases pki
      cases h'
      rfl
    rw [hd] at haga
    exact haga

theorem lookup_fileAway_self (purge : Bool) (s : State) (artifact : Artifact) :
    (fileAway purge s artifact).files.lookup artifact = none := by
  unfold fileAway
  split
  · assumption
  · change List.lookup artifact (s.files.filter fun entry => entry.1 ≠ artifact) = none
    rw [lookup_filter_ne, if_pos rfl]

variable {artifact : Artifact} {row : ClientRow}

theorem lookup_fileAway_none (other : Artifact) (h : s.files.lookup artifact = none) :
    (fileAway purge s other).files.lookup artifact = none := by
  unfold fileAway
  split
  · exact h
  · change List.lookup artifact (s.files.filter fun entry => entry.1 ≠ other) = none
    rw [lookup_filter_ne, h]
    split_ifs <;> rfl

theorem State.lookup_filed_none (artifacts : List Artifact) (h : s.files.lookup artifact = none) :
    (s.filed purge artifacts).files.lookup artifact = none := by
  induction artifacts generalizing s with
  | nil => exact h
  | cons other rest ih => exact ih (lookup_fileAway_none other h)

theorem State.lookup_filed_mem {artifacts : List Artifact}
    (h : artifact ∈ artifacts) : (s.filed purge artifacts).files.lookup artifact = none := by
  induction artifacts generalizing s with
  | nil => cases h
  | cons other rest ih =>
    rcases mem_cons.1 h with rfl | h
    · exact State.lookup_filed_none rest (lookup_fileAway_self purge s artifact)
    · exact ih h

theorem State.filed_eq_self {artifacts : List Artifact}
    (h : ∀ artifact ∈ artifacts, s.files.lookup artifact = none) : s.filed purge artifacts = s := by
  induction artifacts with
  | nil => rfl
  | cons artifact rest ih =>
    change (fileAway purge s artifact).filed purge rest = s
    rw [fileAway_of_none (h artifact mem_cons_self)]
    exact ih fun a ha => h a (mem_cons_of_mem artifact ha)

theorem State.filed_append (purge : Bool) (first second : List Artifact) (s : State) :
    s.filed purge (first ++ second) = (s.filed purge first).filed purge second :=
  List.foldl_append

/-- The loop over the files, started again, goes on where it was. -/
theorem State.filed_filed (purge : Bool) (first second : List Artifact) (s : State) :
    (s.filed purge first).filed purge (first ++ second) = s.filed purge (first ++ second) := by
  have hsl : (s.filed purge first).filed purge first = s.filed purge first := by
    apply State.filed_eq_self
    intro artifact hart
    exact State.lookup_filed_mem hart
  rw [State.filed_append, State.filed_append, hsl]

theorem Revocation.kills (h : Revocation easyrsa client s s') : s'.kills = s.kills := by
  cases h <;> rfl

/-- The row without the times at which it was written. -/
def ClientRow.untimed (row : ClientRow) : ClientRow := { row with createdAt := none, updatedAt := none }

/-- What a call for the client is about: the certificates, the files, the
archive and the registry, without the times in the row of the client. -/
def State.untimed (client : Text) (s : State) : State :=
  { s with
    registry := s.registry.map fun row => if row.name = client then row.untimed else row
    kills := 0 }

theorem upsertClient_of_none {rows : List ClientRow}
    (h : getClientRow row.name rows = none) : upsertClient row rows = rows ++ [row] := by
  unfold upsertClient
  rw [h]

theorem getClientRow_concat {rows : List ClientRow}
    (h : getClientRow row.name rows = none) : getClientRow row.name (rows ++ [row]) = some row := by
  unfold getClientRow at h ⊢
  rw [find?_append, h]
  simp

theorem State.disabled_untimed (hrow : getClientRow call.client s.registry = none) :
    (s.disabled cfg call now).untimed call.client = (s.disabled cfg call now').untimed call.client := by
  have hrow' : getClientRow call.client (s.filed call.purge activeFiles).registry = none := by
    rw [State.filed_registry, hrow]
  unfold State.disabled State.killed State.registered
  rw [@upsertClient_of_none (newRow cfg call now none _) _ hrow',
    @upsertClient_of_none (newRow cfg call now' none _) _ hrow']
  unfold State.untimed
  split_ifs <;> simp [newRow, ClientRow.untimed]

section

variable (cfg easyrsa call now)

def Completes (s : State) : Prop :=
  (∃ d, (some .rowWritten, d) ∈ interruptions (disableOrDelete cfg easyrsa call now) s ∧
    ∃ row, getClientRow call.client d.registry = some row ∧ row.status = statusText call.mode) ∧
  (call.killActive = true →
    ∃ d, (some .killAttempted, d) ∈ interruptions (disableOrDelete cfg easyrsa call now) s)

/-- The call from `s`, interrupted in `d` and made again at the time `now'`,
reaches the state that one call reaches, and the kill has been tried if it was
asked for. -/
def Resumes (now' : Text) (s d : State) : Prop :=
  (finish (disableOrDelete cfg easyrsa call now') d).2.untimed call.client =
      (finish (disableOrDelete cfg easyrsa call now) s).2.untimed call.client ∧
    (call.killActive = true → s.kills < (finish (disableOrDelete cfg easyrsa call now') d).2.kills)

end

theorem State.registered_registry (hrow : getClientRow call.client s.registry = none) :
    (s.registered cfg call now).registry = s.registry ++ [newRow cfg call now none s] :=
  @upsertClient_of_none (newRow cfg call now none s) _ hrow

theorem State.disabled_kills (cfg : Config) (call : Call) (now : Text) (s : State) :
    (s.disabled cfg call now).kills = s.kills + if call.killActive then 1 else 0 := by
  have hkil := s.filed_kills call.purge activeFiles
  unfold State.disabled State.killed
  split_ifs
  · change (s.filed call.purge activeFiles).kills + 1 = _
    rw [hkil]
  · exact hkil

theorem State.disabled_registry_length (hrow : getClientRow call.client s.registry = none) :
    (s.disabled cfg call now).registry.length = s.registry.length + 1 := by
  have hrow' : getClientRow call.client (s.filed call.purge activeFiles).registry = none := by
    rw [State.filed_registry, hrow]
  have hlen : ((s.filed call.purge activeFiles).registered cfg call now).registry.length =
      s.registry.length + 1 := by
    rw [State.registered_registry hrow', length_append, State.filed_registry]
    rfl
  unfold State.disabled State.killed
  split_ifs
  · exact hlen
  · exact hlen

theorem resumes_of_revocation {d' : State} (hnm : isClientName call.client = true)
    (h : Revocation easyrsa call.client s s') (hrow : getClientRow call.client s.registry = none)
    (hd : Revocation easyrsa call.client d d') (hdr : d.registry = s.registry) (hkil : d.kills = s.kills)
    (hfl : d'.filed call.purge activeFiles = s'.filed call.purge activeFiles) :
    Resumes cfg easyrsa call now now' s d := by
  have hone : (finish (disableOrDelete cfg easyrsa call now) s).2 = s'.disabled cfg call now :=
    (disable_passes hnm h hrow).finish.2
  have haga : (finish (disableOrDelete cfg easyrsa call now') d).2 = d'.disabled cfg call now' := by
    rw [← hdr] at hrow
    exact (disable_passes hnm hd hrow).finish.2
  have hrow' : getClientRow call.client s'.registry = none := by
    rw [h.registry, hrow]
  constructor
  · rw [hone, haga]
    have hsm : d'.disabled cfg call now' = s'.disabled cfg call now' := by
      unfold State.disabled
      rw [hfl]
    rw [hsm]
    exact State.disabled_untimed hrow'
  · intro hkill
    rw [haga, State.disabled_kills, hd.kills, hkil, hkill]
    exact Nat.lt_succ_self _

theorem not_resumes_of_refused (hnm : isClientName call.client = true)
    (h : Revocation easyrsa call.client s s') (hrow : getClientRow call.client s.registry = none)
    (hdr : d.registry = s.registry) (haga : (finish (disableOrDelete cfg easyrsa call now') d).2 = d) :
    ¬ Resumes cfg easyrsa call now now' s d := by
  rintro ⟨hsm, -⟩
  have hone : (finish (disableOrDelete cfg easyrsa call now) s).2 = s'.disabled cfg call now :=
    (disable_passes hnm h hrow).finish.2
  have hrow' : getClientRow call.client s'.registry = none := by
    rw [h.registry, hrow]
  have hlen := congrArg (fun state => state.registry.length) hsm
  unfold State.untimed at hlen
  rw [haga, hone] at hlen
  simp only [length_map] at hlen
  rw [State.disabled_registry_length hrow', h.registry, hdr] at hlen
  omega

theorem resumes_iff_of_before_row (hrs : easyrsa.Lawful)
    (hnm : isClientName call.client = true) (h : Revocation easyrsa call.client s s')
    (hrow : getClientRow call.client s.registry = none)
    (hpki : { d.pki with crl := s'.pki.crl } = s'.pki)
    (hsm : certStatus s.pki.index call.client = .missing →
      d.pki = s'.pki ∧ d.installedCrl = s'.installedCrl)
    (hdr : d.registry = s.registry) (hkil : d.kills = s.kills)
    (hfl : State.filed call.purge activeFiles
      { d with pki := s'.pki, installedCrl := s'.installedCrl } = s'.filed call.purge activeFiles) :
    Resumes cfg easyrsa call now now' s d ↔ Repeatable call.client (indexLines s.pki.index) := by
  constructor
  · intro hre
    by_contra hrp
    obtain ⟨hms, hrv, hrevk⟩ := h.refused hrs hrp hpki
    refine not_resumes_of_refused hnm h hrow hdr ?_ hre
    exact (disable_refuses hnm hms hrv hrevk).finish.2
  · intro hrp
    have hd := h.again hrs hrp hpki hsm
    exact resumes_of_revocation hnm h hrow hd hdr hkil hfl

theorem again_after_row (hrs : easyrsa.Lawful)
    (hnm : isClientName call.client = true) (h : Revocation easyrsa call.client s s')
    (hpki : d.pki = s'.pki) (hins : d.installedCrl = s'.installedCrl)
    (hfs : ∀ artifact ∈ activeFiles, d.files.lookup artifact = none)
    (hdr : getClientRow call.client d.registry = some row) :
    (finish (disableOrDelete cfg easyrsa call now') d).2 = d := by
  have hls : { d.pki with crl := s'.pki.crl } = s'.pki := by rw [hpki]
  by_cases hrp : Repeatable call.client (indexLines s.pki.index)
  · have hd := h.again hrs hrp hls fun _ => ⟨hpki, hins⟩
    rw [← hpki, ← hins] at hd
    have hst : (finish (disableOrDelete cfg easyrsa call now') d).2 =
        d.filed call.purge activeFiles := (disable_stops hnm hd hdr).finish.2
    rw [hst, State.filed_eq_self hfs]
  · obtain ⟨hms, hrv, hrevk⟩ := h.refused hrs hrp hls
    exact (disable_refuses hnm hms hrv hrevk).finish.2

theorem State.registered_killed (cfg : Config) (call : Call) (now : Text) (killed : Bool) (s : State) :
    (s.registered cfg call now).killed killed = { s with
        registry := upsertClient (newRow cfg call now none s) s.registry
        kills := s.kills + if killed then 1 else 0 } := by
  cases killed <;> rfl

theorem resumes_iff_of_after_row (hrs : easyrsa.Lawful)
    (hnm : isClientName call.client = true) (h : Revocation easyrsa call.client s s')
    (hrow : getClientRow call.client s.registry = none) (killed : Bool)
    (hd : d = ((s'.filed call.purge activeFiles).registered cfg call now).killed killed) :
    Resumes cfg easyrsa call now now' s d ↔ (call.killActive = true → killed = true) := by
  have hone : (finish (disableOrDelete cfg easyrsa call now) s).2 = s'.disabled cfg call now :=
    (disable_passes hnm h hrow).finish.2
  have hrow' : getClientRow call.client (s'.filed call.purge activeFiles).registry = none := by
    rw [State.filed_registry, h.registry, hrow]
  rw [State.registered_killed, @upsertClient_of_none (newRow cfg call now none _) _ hrow'] at hd
  have hdr : getClientRow call.client d.registry =
      some (newRow cfg call now none (s'.filed call.purge activeFiles)) := by
    rw [hd]
    exact @getClientRow_concat (newRow cfg call now none _) _ hrow'
  have hfs : ∀ artifact ∈ activeFiles, d.files.lookup artifact = none := by
    intro artifact hart
    rw [hd]
    exact State.lookup_filed_mem hart
  have hpki : d.pki = s'.pki := by
    rw [hd]
    exact State.filed_pki call.purge activeFiles s'
  have hins : d.installedCrl = s'.installedCrl := by
    rw [hd]
    exact State.filed_installedCrl call.purge activeFiles s'
  have hkills : d.kills = s.kills + if killed then 1 else 0 := by
    rw [hd, ← h.kills]
    exact congrArg (· + _) (State.filed_kills call.purge activeFiles s')
  have haga : (finish (disableOrDelete cfg easyrsa call now') d).2 = d :=
    again_after_row hrs hnm h hpki hins hfs hdr
  have hunt : d.untimed call.client = (s'.disabled cfg call now).untimed call.client := by
    rw [State.disabled, State.registered_killed,
      @upsertClient_of_none (newRow cfg call now none _) _ hrow', hd]
    rfl
  unfold Resumes
  rw [hone, haga, hkills]
  constructor
  · rintro ⟨-, hlt⟩ hkil
    have hlt' := hlt hkil
    cases killed with
    | true => rfl
    | false => exact absurd hlt' (Nat.lt_irrefl _)
  · intro htri
    refine ⟨hunt, ?_⟩
    intro hkil
    rw [htri hkil]
    exact Nat.lt_succ_self _

theorem killSession_passes (killActive : Bool) (s : State) :
    Passes (killSession killActive) s (fun _ _ => True) fun _ _ => True := by
  unfold killSession
  split_ifs
  · exact passes_step trivial trivial
  · exact passes_pure trivial

theorem reaches_disable {k : Point} {P : State → Prop} (hnm : isClientName call.client = true)
    (h : Revocation easyrsa call.client s s')
    (hrg : Reaches (register cfg call now) (s'.filed call.purge activeFiles) k P) :
    Reaches (disableOrDelete cfg easyrsa call now) s k P := by
  apply reaches_lift_bind
  · rw [hnm]
    rfl
  apply (h.passes hnm).bind_reaches
  · rintro e d ⟨⟨_, he⟩, -⟩
    cases he
  rintro _ _ ⟨-, rfl⟩
  apply (filing_passes call.purge _).bind_reaches
  · rintro e d ⟨⟨_, he⟩, -⟩
    cases he
  rintro _ _ ⟨-, rfl⟩
  apply hrg.bind
  intro _ _
  exact passes_pure trivial

theorem completes_of_no_row (hnm : isClientName call.client = true)
    (h : Revocation easyrsa call.client s s') (hrow : getClientRow call.client s.registry = none) :
    Completes cfg easyrsa call now s := by
  have hrow' : getClientRow call.client (s'.filed call.purge activeFiles).registry = none := by
    rw [State.filed_registry, h.registry, hrow]
  have hpr : rowProfile call.client (s'.filed call.purge activeFiles) = .ok none := by
    unfold rowProfile
    rw [hrow']
  constructor
  · apply Reaches.interruptions
    apply reaches_disable hnm h
    apply reaches_look_bind hpr
    apply reaches_look_bind (g := fun state => .ok (newRow cfg call now none state)) rfl
    apply Reaches.bind
    · apply reaches_step
      refine ⟨newRow cfg call now none (s'.filed call.purge activeFiles), ?_, rfl⟩
      change getClientRow call.client (upsertClient _ _) = _
      rw [@upsertClient_of_none (newRow cfg call now none _) _ hrow']
      exact @getClientRow_concat (newRow cfg call now none _) _ hrow'
    · intro _ state
      exact killSession_passes call.killActive state
  · intro hkil
    have hra : Reaches (disableOrDelete cfg easyrsa call now) s .killAttempted fun _ => True := by
      apply reaches_disable hnm h
      apply reaches_look_bind hpr
      apply reaches_look_bind (g := fun state => .ok (newRow cfg call now none state)) rfl
      apply Passes.bind_reaches (Q := fun r _ => r = .ok ()) (C := fun _ _ => True)
      · exact passes_step trivial rfl
      · intro e _ he
        cases he
      · intro _ _ _
        rw [killSession, hkil, if_pos rfl]
        exact reaches_step trivial
    obtain ⟨d, hd, -⟩ := hra.interruptions
    exact ⟨d, hd⟩

theorem not_completes_of_row (hnm : isClientName call.client = true)
    (h : Revocation easyrsa call.client s s') (hrow : getClientRow call.client s.registry = some row) :
    ¬ Completes cfg easyrsa call now s := by
  rintro ⟨⟨d, hd, -⟩, -⟩
  have hpi := (disable_stops hnm h hrow).interruptions hd
  rcases hpi with ⟨hk, -⟩ | ⟨k, hk, hpi⟩
  · cases hk
  · cases hk
    rcases hpi with ⟨hpi, -⟩ | ⟨_, _, _, _, hpi, _⟩
    · exact hpi
    · cases hpi

/-- A call whose revocation went through goes on to the end, and can be taken
up again after the interruption `k`, exactly when there was no row for the
client, the revocation can be made again if it has to be, and the interruption
does not come between the row and a kill. -/
theorem disableOrDelete_resumes_iff {r : RevokeResult} {k : Option Point}
    (hrs : easyrsa.Lawful) (hnm : isClientName call.client = true)
    (hrv : (finish (revokeCert easyrsa call.client) s).1 = .ok r)
    (hcut : (k, d) ∈ interruptions (disableOrDelete cfg easyrsa call now) s) :
    (Completes cfg easyrsa call now s ∧ Resumes cfg easyrsa call now now' s d) ↔
      getClientRow call.client s.registry = none ∧
      (k = none ∨ k = some .rowWritten ∨ k = some .killAttempted ∨
        Repeatable call.client (indexLines s.pki.index)) ∧
      (call.killActive = true → k ≠ some .rowWritten) := by
  obtain ⟨s', h⟩ := exists_revocation hnm hrv
  cases hrow : getClientRow call.client s.registry with
  | some row =>
    constructor
    · rintro ⟨hcm, -⟩
      exact absurd hcm (not_completes_of_row hnm h hrow)
    · rintro ⟨hnn, -⟩
      cases hnn
  | none =>
    have hcm : Completes cfg easyrsa call now s := completes_of_no_row hnm h hrow
    rcases (disable_passes hnm h hrow).interruptions hcut with ⟨rfl, rfl⟩ | ⟨k, rfl, hst⟩
    · have hre : Resumes cfg easyrsa call now now' d d :=
        resumes_of_revocation hnm h hrow h rfl rfl rfl
      simp [hcm, hre]
    · cases hst with
      | revocation hpi hms hd =>
        have hiff : Resumes cfg easyrsa call now now' s d ↔
            Repeatable call.client (indexLines s.pki.index) := by
          apply resumes_iff_of_before_row hrs hnm h hrow hd.pki
          · intro hnn
            exact absurd hnn hms
          · rw [hd.registry, h.registry]
          · rw [hd.kills, h.kills]
          · rw [hd.files, hd.archive, hd.registry, hd.kills]
        cases k with
        | filed artifact => cases hpi
        | rowWritten => cases hpi
        | killAttempted => cases hpi
        | _ => simp [hcm, hiff]
      | filing hd =>
        obtain ⟨done, artifact, rest, hact, rfl, rfl⟩ := hd
        have hiff : Resumes cfg easyrsa call now now' s
            (s'.filed call.purge (done ++ [artifact])) ↔
            Repeatable call.client (indexLines s.pki.index) := by
          apply resumes_iff_of_before_row hrs hnm h hrow
          · rw [State.filed_pki]
          · intro _
            exact ⟨State.filed_pki _ _ _, State.filed_installedCrl _ _ _⟩
          · rw [State.filed_registry, h.registry]
          · rw [State.filed_kills, h.kills]
          · have hsm : ({ s'.filed call.purge (done ++ [artifact]) with
                pki := s'.pki, installedCrl := s'.installedCrl } : State) =
                s'.filed call.purge (done ++ [artifact]) := by
              rw [← State.filed_pki call.purge (done ++ [artifact]) s',
                ← State.filed_installedCrl call.purge (done ++ [artifact]) s']
            rw [hsm, hact, append_cons]
            exact State.filed_filed call.purge (done ++ [artifact]) rest s'
        simp [hcm, hiff]
      | registering hd =>
        cases hd with
        | row =>
          have hiff : Resumes cfg easyrsa call now now' s
              ((s'.filed call.purge activeFiles).registered cfg call now) ↔ _ :=
            resumes_iff_of_after_row hrs hnm h hrow false rfl
          simp [hcm, hiff]
        | kill hkil =>
          have hiff : Resumes cfg easyrsa call now now' s
              (((s'.filed call.purge activeFiles).registered cfg call now).killed true) ↔ _ :=
            resumes_iff_of_after_row hrs hnm h hrow true rfl
          simp [hcm, hiff]

/-- The call of the sample, cut off when the first file is archived. -/
def cutState : State where
  pki := { revokedPki with crl := some [entry "R" "01" bob] }
  installedCrl := some [entry "R" "01" bob]
  files := [(.ovpn, [])]
  archive := [(.ccd, [])]
  registry := []
  kills := 0

/-- Cut off after the CCD file, the run is repeated and ends where an undisturbed one does. -/
theorem disableOrDelete_resumes_bob : Completes sampleConfig sampleEasyrsa disableBob "t" issuedState ∧
      Resumes sampleConfig sampleEasyrsa disableBob "t" "u" issuedState cutState := by
  have hrv : (finish (revokeCert sampleEasyrsa disableBob.client) issuedState).1 =
      .ok ⟨.valid, [.revoked], some .revoked⟩ := by decide +kernel
  have hcut : (some (.filed .ccd), cutState) ∈
      interruptions (disableOrDelete sampleConfig sampleEasyrsa disableBob "t") issuedState := by
    apply elem_iff.1
    decide
  have hrp : Repeatable disableBob.client (indexLines issuedState.pki.index) := by
    intro line hln
    have hfn : (indexLines issuedState.pki.index).find? (decides disableBob.client) =
        some (entry "V" "01" bob) := by decide
    rw [hfn] at hln
    cases hln
    exact .inr (by decide)
  refine (disableOrDelete_resumes_iff sampleEasyrsa_lawful (by decide) hrv hcut).2 ?_
  exact ⟨rfl, .inr (.inr (.inr hrp)), nofun⟩

/-- A client with a row, as every client has that `vpnctl` created. -/
def registeredState : State :=
  { issuedState with
    registry := [{ newRow sampleConfig disableBob "s" (some "dns_only") issuedState with
      status := "active" }] }

/-- The certificate is revoked and the files are gone, but the row says
`active`, no kill is tried and the call stops with an `AttributeError`. -/
theorem disableOrDelete_half_disabled : (finish (revokeCert sampleEasyrsa bob) registeredState).1 =
        .ok ⟨.valid, [.revoked], some .revoked⟩ ∧
      ¬ Completes sampleConfig sampleEasyrsa disableBob "t" registeredState ∧
      finish (disableOrDelete sampleConfig sampleEasyrsa disableBob "t") registeredState =
        (.error .attributeError, { registeredState with
            pki := { revokedPki with crl := some [entry "R" "01" bob] }
            installedCrl := some [entry "R" "01" bob]
            files := []
            archive := [(.ccd, []), (.ovpn, [])] }) := by
  have hrv : (finish (revokeCert sampleEasyrsa bob) registeredState).1 =
      .ok ⟨.valid, [.revoked], some .revoked⟩ := by decide
  refine ⟨hrv, ?_, by decide⟩
  obtain ⟨s', h⟩ := exists_revocation (by decide) hrv
  have hrow : getClientRow disableBob.client registeredState.registry =
      some { newRow sampleConfig disableBob "s" (some "dns_only") issuedState with
        status := "active" } := by decide
  exact not_completes_of_row (by decide) h hrow

end Vpn

end WebOvpn
