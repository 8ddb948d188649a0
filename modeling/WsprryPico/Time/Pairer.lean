import Mathlib.Algebra.Group.Nat.Defs
import Mathlib.Data.List.Basic

/-!
# Pairing pulses with labels

`Pairer` of `time/gps.cpp`: the captured edges of a receiver and the sentences that give
their time meet here. An edge stays in a short history until a sentence could name it; a
sentence names the one edge whose delay the policy admits. The array of the source is the
list of its pulses with a sequence, the newest first.
-/

namespace WsprryPico.Time.Gps

def secondNs : Nat := 1000000000

def pulseHistorySize : Nat := 5

def uint64Max : Nat := 2 ^ 64 - 1

inductive Kind where
  | rmc
  | gga
deriving DecidableEq

structure Message where
  kind : Kind := .rmc
  receivedRawNs : Nat := 0
  utcNs : Option Nat := none
  timeValid : Bool := false

structure Pulse where
  rawNs : Nat := 0
  uncertaintyNs : Nat := 0
  sequence : Nat := 0
deriving DecidableEq

structure Observation where
  rawNs : Nat := 0
  utcNs : Nat := 0
  uncertaintyNs : Nat := 0
  sequence : Nat := 0
  captureRawNs : Nat := 0
deriving DecidableEq

structure PairingPolicy where
  qualified : Bool := false
  utcSecondOffset : Int := 0
  minimumMessageDelayNs : Nat := 0
  maximumMessageDelayNs : Nat := 800000000
  receiverUncertaintyNs : Nat := 100000
  /-- Positive: the captured edge follows the UTC boundary. -/
  edgeOffsetNs : Int := 0

def PairingPolicy.valid (p : PairingPolicy) : Bool :=
  p.qualified ∧ p.utcSecondOffset ≥ -1 ∧ p.utcSecondOffset ≤ 1 ∧
    p.minimumMessageDelayNs ≤ p.maximumMessageDelayNs ∧
    p.maximumMessageDelayNs < 2 * secondNs ∧
    p.maximumMessageDelayNs - p.minimumMessageDelayNs < secondNs ∧
    p.receiverUncertaintyNs > 0 ∧ p.receiverUncertaintyNs ≤ 100000000 ∧
    p.edgeOffsetNs ≥ -500000000 ∧ p.edgeOffsetNs ≤ 500000000

namespace Pulse

def earliest (p : Pulse) : Nat := p.rawNs - p.uncertaintyNs

def latest (p : Pulse) : Nat := p.rawNs + p.uncertaintyNs

/-- Some instant the pulse may stand for precedes a sentence by a delay the policy admits. -/
def fits (policy : PairingPolicy) (receivedRawNs : Nat) (captured : Pulse) : Bool :=
  ¬ captured.earliest > receivedRawNs ∧
    ¬ (receivedRawNs - captured.earliest < policy.minimumMessageDelayNs ∨
      (captured.latest ≤ receivedRawNs ∧
        receivedRawNs - captured.latest > policy.maximumMessageDelayNs))

/-- Every instant the pulse may stand for does. -/
def contained (policy : PairingPolicy) (receivedRawNs : Nat) (captured : Pulse) : Bool :=
  captured.latest ≤ receivedRawNs ∧
    receivedRawNs - captured.latest ≥ policy.minimumMessageDelayNs ∧
    receivedRawNs - captured.earliest ≤ policy.maximumMessageDelayNs

end Pulse

structure Pairer where
  policy : PairingPolicy
  pulses : List Pulse := []
  previous : Option Observation := none
  consumedSequence : Nat := 0
  lastPulseSequence : Nat := 0
  lastPulseRawNs : Nat := 0
  error : String := "awaiting_pps"

namespace Pairer

def lost (s : Pairer) : Pairer :=
  { s with pulses := [], previous := none, error := "capture_lost" }

/-- The conditions under which `pulse` takes a capture for invalid. -/
def refuses (s : Pairer) (p : Pulse) : Bool :=
  p.rawNs = 0 ∨ p.sequence = 0 ∨ p.uncertaintyNs > 100000000 ∨ p.rawNs < p.uncertaintyNs ∨
    p.rawNs > uint64Max - p.uncertaintyNs ∨ p.sequence ≤ s.lastPulseSequence ∨
    p.rawNs ≤ s.lastPulseRawNs

/-- `continuous` of `pulse`. -/
def continues (s : Pairer) (p : Pulse) : Bool :=
  s.lastPulseRawNs = 0 ∨ (p.sequence = (s.lastPulseSequence + 1) % 2 ^ 64 ∧
    p.rawNs - s.lastPulseRawNs ≥ secondNs - 1000000 ∧
    p.rawNs - s.lastPulseRawNs ≤ secondNs + 1000000)

def pulse (s : Pairer) (p : Pulse) : Bool × Pairer :=
  if s.refuses p then (false, { s.lost with error := "invalid_pps" })
  else
    let held := if s.continues p then s.pulses else []
    let s' := { s with
      lastPulseRawNs := p.rawNs
      lastPulseSequence := p.sequence
      pulses := (p :: held).take pulseHistorySize }
    if s.continues p then (true, s')
    else (false, { s' with previous := none, error := "pps_discontinuity" })

/-- The loop of `message` over the history. A second pulse that fits ends it with `none`. -/
def select (policy : PairingPolicy) (receivedRawNs : Nat) (found : Option Pulse) :
    List Pulse → Option (Option Pulse)
  | [] => some found
  | captured :: rest =>
    if ¬ captured.fits policy receivedRawNs then select policy receivedRawNs found rest
    else
      match found with
      | some _ => none
      | none => select policy receivedRawNs (some captured) rest

/-- The selected pulse may take the label. -/
def accepts (s : Pairer) (m : Message) (utc : Nat) (pulse : Pulse) : Bool :=
  ¬ (¬ pulse.contained s.policy m.receivedRawNs ∨ utc % secondNs ≠ 0 ∨
    pulse.sequence ≤ s.consumedSequence ∨ m.receivedRawNs < pulse.rawNs ∨
    m.receivedRawNs - pulse.rawNs < s.policy.minimumMessageDelayNs ∨
    m.receivedRawNs - pulse.rawNs > s.policy.maximumMessageDelayNs)

inductive LabelError where
  /-- The edge offset reaches back before the timer's start. -/
  | beforeStart
  | invalidOffset
  | futureEpoch

/-- The observation a label makes of a pulse. -/
def label (policy : PairingPolicy) (m : Message) (utc : Nat) (pulse : Pulse) :
    Except LabelError Observation :=
  let offset := policy.utcSecondOffset * secondNs
  if policy.edgeOffsetNs > 0 ∧ pulse.rawNs < policy.edgeOffsetNs.toNat then .error .beforeStart
  else if (policy.edgeOffsetNs < 0 ∧ pulse.rawNs > uint64Max - (-policy.edgeOffsetNs).toNat) ∨
      (offset < 0 ∧ utc < (-offset).toNat) ∨ (offset > 0 ∧ utc > uint64Max - offset.toNat) then
    .error .invalidOffset
  else
    let adjustedRaw :=
      if policy.edgeOffsetNs ≥ 0 then pulse.rawNs - policy.edgeOffsetNs.toNat
      else pulse.rawNs + (-policy.edgeOffsetNs).toNat
    if adjustedRaw > m.receivedRawNs then .error .futureEpoch
    else
      .ok
        { rawNs := adjustedRaw
          utcNs := if offset ≥ 0 then utc + offset.toNat else utc - (-offset).toNat
          uncertaintyNs := pulse.uncertaintyNs + policy.receiverUncertaintyNs
          sequence := pulse.sequence
          captureRawNs := pulse.rawNs }

/-- The label before is that of the pulse before, one second earlier. -/
def follows (preceding value : Observation) : Bool :=
  ¬ (value.sequence ≠ (preceding.sequence + 1) % 2 ^ 64 ∨ value.utcNs ≤ preceding.utcNs ∨
    value.utcNs - preceding.utcNs ≠ secondNs)

/-- A selected pulse takes its label. -/
def take (s : Pairer) (m : Message) (utc : Nat) (pulse : Pulse) : Option Observation × Pairer :=
  let s := { s with consumedSequence := pulse.sequence }
  match label s.policy m utc pulse with
  | .error .beforeStart => (none, { s with error := "invalid_pps_offset" })
  | .error .invalidOffset => (none, { s with previous := none, error := "invalid_pps_offset" })
  | .error .futureEpoch => (none, { s with previous := none, error := "future_pps_epoch" })
  | .ok value =>
    let s' := { s with previous := some value }
    if s.previous.any (follows · value) then (some value, { s' with error := "" })
    else (none, { s' with error := "pairing_acquisition" })

def message (s : Pairer) (m : Message) : Option Observation × Pairer :=
  if ¬ s.policy.valid then (none, { s with error := "unqualified_pairing" })
  else if m.kind ≠ .rmc then (none, s)
  else
    match m.utcNs.filter fun utc => m.timeValid ∧ utc % secondNs = 0 with
    | none => (none, { s with previous := none, error := "invalid_utc" })
    | some utc =>
      match select s.policy m.receivedRawNs none s.pulses with
      | none => (none, { s with previous := none, error := "ambiguous_utc" })
      | some found =>
        match found.filter (s.accepts m utc) with
        | none => (none, { s with error := "unpaired_utc" })
        | some pulse => s.take m utc pulse

end Pairer

end WsprryPico.Time.Gps
