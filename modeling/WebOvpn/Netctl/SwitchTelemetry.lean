/-
The telemetry of a switch port, from its last two samples.
-/
import Mathlib.Algebra.Order.Ring.Int
import Mathlib.Algebra.Order.Ring.Unbundled.Rat

namespace WebOvpn.SwitchTelemetry

open List

/-- The floats of Python, each as the number it stands for: `nearest` is the float
next to a number, `round` the function of that name. -/
structure Floats where
  nearest : Rat → Rat
  round : Rat → Nat → Rat

/-- A sample as `_valid_counter_sample` leaves it. -/
structure SwitchCounterSample where
  sysUptimeTicks : Option Nat
  inErrors : Option Nat
  inDiscards : Option Nat
  outErrors : Option Nat
  outDiscards : Option Nat
  inOctets : Option Nat
  outOctets : Option Nat
  octetCounterBits : Option Nat
  inRange : ∀ bits ∈ octetCounterBits, ∀ n, some n ∈ [inOctets, outOctets] → n < 2 ^ bits

inductive TelemetryState where
  | ok | unsupported | insufficientHistory | invalidSample | counterReset
  deriving DecidableEq

structure Metrics where
  sampleIntervalSeconds : Option Rat
  rxBps : Option Rat := none
  txBps : Option Rat := none
  rxUtilizationPct : Option Rat := none
  txUtilizationPct : Option Rat := none
  inErrorsDelta : Option Int := none
  outErrorsDelta : Option Int := none
  inDiscardsDelta : Option Int := none
  outDiscardsDelta : Option Int := none
  telemetryState : TelemetryState

def emptyMetrics (state : TelemetryState) (elapsedSeconds : Option Rat) : Metrics :=
  { sampleIntervalSeconds := elapsedSeconds, telemetryState := state }

def delta (current previous : Option Nat) : Option Int := do
  return (← current : Int) - (← previous : Int)

/-- One turn of the loop over the octets; `none` is its `counter_reset`. -/
def octetDelta (bits current previous : Nat) : Option Int :=
  if previous ≤ current then some (current - previous)
  else if bits = 64 then none
  else some ((2 ^ 32 - previous) + current)

section

variable (floats : Floats)

def Floats.rate (octets : Int) (elapsedSeconds : Rat) : Rat :=
  floats.nearest (floats.nearest (octets * 8) / elapsedSeconds)

def Floats.utilization (speed : Nat) (bps : Rat) : Rat :=
  floats.round (floats.nearest (floats.nearest (bps / floats.nearest speed) * 100)) 6

/-- The end of `derive_port_telemetry`, from the deltas of the octets on. -/
def measuredMetrics (current previous : SwitchCounterSample) (rx tx : Int) (usedWrap : Bool)
    (elapsedSeconds : Rat) (speed : Option Nat) : Metrics :=
  let rxBps := floats.rate rx elapsedSeconds
  let txBps := floats.rate tx elapsedSeconds
  let inErrors := delta current.inErrors previous.inErrors
  let outErrors := delta current.outErrors previous.outErrors
  let inDiscards := delta current.inDiscards previous.inDiscards
  let outDiscards := delta current.outDiscards previous.outDiscards
  if usedWrap && speed.isNone then emptyMetrics .invalidSample (some elapsedSeconds)
  else if speed.any fun v : Nat => rxBps > v ∨ txBps > v then emptyMetrics .invalidSample (some elapsedSeconds)
  else if [inErrors, outErrors, inDiscards, outDiscards].any fun d => d.any (· < 0) then
    emptyMetrics .counterReset (some elapsedSeconds)
  else
    { sampleIntervalSeconds := some elapsedSeconds
      rxBps := some rxBps
      txBps := some txBps
      rxUtilizationPct := speed.map (floats.utilization · rxBps)
      txUtilizationPct := speed.map (floats.utilization · txBps)
      inErrorsDelta := inErrors
      outErrorsDelta := outErrors
      inDiscardsDelta := inDiscards
      outDiscardsDelta := outDiscards
      telemetryState := .ok }

def derivePortTelemetry (current : SwitchCounterSample) (previous : Option SwitchCounterSample)
    (elapsedSeconds : Option Rat) (portSpeedBps : Option Nat) : Metrics :=
  match current.octetCounterBits, current.inOctets, current.outOctets with
  | some bits, some inOctets, some outOctets =>
    if bits ≠ 32 ∧ bits ≠ 64 then emptyMetrics .unsupported elapsedSeconds
    else
      match previous with
      | none => emptyMetrics .insufficientHistory none
      | some previous =>
        match elapsedSeconds with
        | none => emptyMetrics .invalidSample none
        | some seconds =>
          if seconds ≤ 0 then emptyMetrics .invalidSample elapsedSeconds
          else
            match previous.inOctets, previous.outOctets with
            | some inBefore, some outBefore =>
              if previous.octetCounterBits ≠ some bits then emptyMetrics .insufficientHistory elapsedSeconds
              else if (delta current.sysUptimeTicks previous.sysUptimeTicks).any (· < 0) then
                emptyMetrics .counterReset elapsedSeconds
              else
                match octetDelta bits inOctets inBefore, octetDelta bits outOctets outBefore with
                | some rx, some tx =>
                  measuredMetrics floats current previous rx tx
                    (inOctets < inBefore || outOctets < outBefore) seconds
                    (portSpeedBps.filter (0 < ·))
                | _, _ => emptyMetrics .counterReset elapsedSeconds
            | _, _ => emptyMetrics .insufficientHistory elapsedSeconds
  | _, _, _ => emptyMetrics .unsupported elapsedSeconds

/-- The octets that a counter of so many bits counted between two values. -/
def IsDelta (bits current previous : Nat) (d : Int) : Prop :=
  bits = 32 ∧ d = ((current : Int) - previous) % 2 ^ 32 ∨
    bits = 64 ∧ previous ≤ current ∧ d = (current : Int) - previous

theorem isDelta_of_octetDelta {bits current previous : Nat} {d : Int} (hbis : bits = 32 ∨ bits = 64)
    (hcur : current < 2 ^ bits) (hpre : previous < 2 ^ bits)
    (h : octetDelta bits current previous = some d) : IsDelta bits current previous d := by
  rcases hbis with rfl | rfl <;> simp [octetDelta, IsDelta] at h ⊢ <;> grind

structure Metrics.AreExact (m : Metrics) (bits : Nat) (current previous : Nat × Nat) (seconds : Rat)
    (portSpeedBps : Option Nat) : Prop where
  octets : ∃ rx tx, IsDelta bits current.1 previous.1 rx ∧ IsDelta bits current.2 previous.2 tx ∧
    m.rxBps = some (floats.rate rx seconds) ∧ m.txBps = some (floats.rate tx seconds)
  counted : ∀ d, some d ∈ [m.inErrorsDelta, m.outErrorsDelta, m.inDiscardsDelta, m.outDiscardsDelta] → 0 ≤ d
  wrapped : current.1 < previous.1 ∨ current.2 < previous.2 → ∃ v, 0 < v ∧ portSpeedBps = some v
  limited : ∀ v, 0 < v → portSpeedBps = some v → ∀ bps : Rat, some bps ∈ [m.rxBps, m.txBps] → bps ≤ v

variable {current previous : SwitchCounterSample} {rx tx : Int} {seconds : Rat} {bits : Nat}
  {portSpeedBps : Option Nat}

theorem areExact_measuredMetrics (new old : Nat × Nat) (hrx : IsDelta bits new.1 old.1 rx)
    (htx : IsDelta bits new.2 old.2 tx)
    (h : (measuredMetrics floats current previous rx tx (new.1 < old.1 || new.2 < old.2) seconds
      (portSpeedBps.filter (0 < ·))).telemetryState = .ok) :
    (measuredMetrics floats current previous rx tx (new.1 < old.1 || new.2 < old.2) seconds
      (portSpeedBps.filter (0 < ·))).AreExact floats bits new old seconds portSpeedBps := by
  simp only [measuredMetrics] at h ⊢
  split_ifs at h ⊢ with hwra hfas hrs <;> try cases h
  refine ⟨⟨rx, tx, hrx, htx, rfl, rfl⟩, ?_, ?_, ?_⟩
  · intro d hd
    simp only [any_eq_true, not_exists, not_and] at hrs
    simpa using hrs _ hd
  · intro hles
    cases hsp : portSpeedBps.filter (0 < ·) with
    | none => simp [hles, hsp] at hwra
    | some v => exact ⟨v, by simpa [and_comm] using Option.filter_eq_some_iff.1 hsp⟩
  · intro v hv hsp bps hbps
    simp [hsp, Option.filter, hv] at hfas
    simp at hbps
    rcases hbps with rfl | rfl
    · exact hfas.1
    · exact hfas.2

/-- Where the state is `ok`, both samples were complete and every delta and rate is exact. -/
theorem areExact_of_ok (current : SwitchCounterSample) (previous : Option SwitchCounterSample)
    (elapsedSeconds : Option Rat) (portSpeedBps : Option Nat)
    (h : (derivePortTelemetry floats current previous elapsedSeconds portSpeedBps).telemetryState =
      .ok) :
    ∃ previous' seconds bits new old, previous = some previous' ∧
      elapsedSeconds = some seconds ∧ 0 < seconds ∧
      current.octetCounterBits = some bits ∧ previous'.octetCounterBits = some bits ∧
      current.inOctets = some new.1 ∧ current.outOctets = some new.2 ∧ previous'.inOctets = some old.1 ∧
      previous'.outOctets = some old.2 ∧
      (derivePortTelemetry floats current previous elapsedSeconds portSpeedBps).AreExact
        floats bits new old
        seconds portSpeedBps := by
  revert h
  fun_cases derivePortTelemetry floats current previous elapsedSeconds portSpeedBps <;> intro h <;> try cases h
  next bits inOctets outOctets hot hin hbis hkn previous seconds hsc inBefore outBefore houtB hinB
      hsm _ rx tx htx hrx =>
    have hkn : bits = 32 ∨ bits = 64 := by simpa [Classical.or_iff_not_imp_left] using hkn
    have hold : previous.octetCounterBits = some bits := by simpa using hsm
    have hnew := current.inRange bits hbis
    have hbf := previous.inRange bits hold
    refine ⟨previous, seconds, bits, (inOctets, outOctets), (inBefore, outBefore), rfl, rfl, not_le.1 hsc, hbis,
      hold, hin, hot, hinB, houtB, ?_⟩
    refine areExact_measuredMetrics floats (inOctets, outOctets) (inBefore, outBefore) ?_ ?_ h
    · exact isDelta_of_octetDelta hkn (hnew _ (by simp [hin])) (hbf _ (by simp [hinB])) hrx
    · exact isDelta_of_octetDelta hkn (hnew _ (by simp [hot])) (hbf _ (by simp [houtB])) htx

end

def exactFloats : Floats := ⟨id, fun x _ => x⟩

def sampleOf (inOctets outOctets : Nat) (hrn : ∀ n ∈ [inOctets, outOctets], n < 2 ^ 32) :
    SwitchCounterSample where
  sysUptimeTicks := none
  inErrors := some 0
  inDiscards := none
  outErrors := none
  outDiscards := none
  inOctets := some inOctets
  outOctets := some outOctets
  octetCounterBits := some 32
  inRange := by simpa using hrn

/-- A 32-bit counter that wrapped between the samples. -/
theorem wrapped_sample_exact : ∃ rx tx, IsDelta 32 4 4294967292 rx ∧ IsDelta 32 100 0 tx ∧
    (derivePortTelemetry exactFloats (sampleOf 4 100 (by decide))
      (some (sampleOf 4294967292 0 (by decide))) (some 8)
      (some 1024)).rxBps = some (exactFloats.rate rx 8) := by
  obtain ⟨_, _, _, ⟨_, _⟩, ⟨_, _⟩, ⟨⟩, ⟨⟩, -, ⟨⟩, -, ⟨⟩, ⟨⟩, ⟨⟩, ⟨⟩, hexact⟩ :=
    areExact_of_ok exactFloats (sampleOf 4 100 (by decide)) (some (sampleOf 4294967292 0 (by decide))) (some 8)
      (some 1024) (by decide +kernel)
  obtain ⟨rx, tx, hrx, htx, hbps, -⟩ := hexact.octets
  exact ⟨rx, tx, hrx, htx, hbps⟩

end WebOvpn.SwitchTelemetry
