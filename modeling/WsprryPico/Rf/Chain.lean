import WsprryPico.Rf.FilterSelector

/-!
# The transmit chain before the source

The amplifier enable (`rf/amplifier_enable.hpp`), the outputs of the filter bank
(`rf/filter_selector.cpp`) and the indicator's launch gate
(`rf/indicator_gate.hpp`), over arbitrary outputs. An operation takes the members
of its object with the world of its outputs.
-/

namespace WsprryPico.Rf

variable {ω : Type}

/-! ## The amplifier -/

structure AmplifierTiming where
  leadMs : UInt32 := 200
  tailMs : UInt32 := 200

namespace AmplifierTiming

def maximumMs : UInt32 := 1000
def valid (timing : AmplifierTiming) : Bool :=
  timing.leadMs ≤ maximumMs && timing.tailMs ≤ maximumMs
def leadNs (timing : AmplifierTiming) : UInt64 := timing.leadMs.toUInt64 * 1000000
def tailNs (timing : AmplifierTiming) : UInt64 := timing.tailMs.toUInt64 * 1000000

end AmplifierTiming

structure AmplifierObservation where
  epoch : UInt64 := 0
  enableNs : UInt64 := 0
  rfStartNs : UInt64 := 0
  rfOffNs : UInt64 := 0
  disableNs : UInt64 := 0
  leadMs : UInt32 := 0
  tailMs : UInt32 := 0
  configured : Bool := false
  normalRfCompletion : Bool := false

structure EnableOutput (ω : Type) where
  initializeInactive : ω → Bool × ω
  write : Bool → ω → Bool × ω
  verifyActive : ω → Bool × ω

/-- An `AmplifierEnable` object but for its members: its output, if it has one. -/
structure Amplifier (ω : Type) where
  output : Option (EnableOutput ω)
  timing : AmplifierTiming

/-- The members `AmplifierEnable` has beside its output and timing. -/
structure AmplifierEnable where
  initialized : Bool := false
  knownInactive : Bool := false

namespace Amplifier

variable (amplifier : Amplifier ω)

def enabled : Bool := amplifier.output.isSome

def activate (a : AmplifierEnable) (w : ω) : Bool × AmplifierEnable × ω :=
  match amplifier.output with
  | none => (true, a, w)
  | some output =>
    if !a.initialized || !a.knownInactive then (false, a, w)
    else
      let (accepted, w) := output.write true w
      (accepted, { a with knownInactive := false }, w)

def deactivate (a : AmplifierEnable) (w : ω) : Bool × AmplifierEnable × ω :=
  match amplifier.output with
  | none => (true, a, w)
  | some output =>
    let (inactive, w) := if a.initialized then output.write false w else output.initializeInactive w
    (inactive, { initialized := a.initialized || inactive, knownInactive := inactive }, w)

def outputActiveOrUnknown (a : AmplifierEnable) : Bool := amplifier.enabled && !a.knownInactive

def verifyActive (a : AmplifierEnable) (w : ω) : Bool × ω :=
  match amplifier.output with
  | none => (false, w)
  | some output =>
    if !a.initialized || a.knownInactive then (false, w) else output.verifyActive w

end Amplifier

/-! ## The filter bank -/

structure FilterOutputs (ω : Type) where
  initializeInactive : ω → Bool × ω
  inactive : ω → Bool × ω
  activate : Nat → ω → Bool × ω
  verify : Nat → ω → Bool × ω

/-- A `FilterSelector` object but for its members. -/
structure FilterBank (ω : Type) where
  settings : FilterSettings
  outputs : Option (FilterOutputs ω)

namespace FilterSettings

def releaseNs (settings : FilterSettings) : UInt64 := settings.releaseMs.toUInt64 * 1000000
def settleNs (settings : FilterSettings) : UInt64 := settings.settleMs.toUInt64 * 1000000

end FilterSettings

/-- The coverage of `points`, pairs of a requested and a realized frequency. -/
def coverPoints (settings : FilterSettings) (points : List (UInt64 × UInt64)) : FilterCoverage :=
  points.foldl (fun coverage point => coverage.includePoint settings point.1 point.2) {}

def FilterSelector.prepareFrequencies (settings : FilterSettings) (points : List (UInt64 × UInt64))
    (selector : FilterSelector) : Bool × FilterSelector :=
  if !selector.initialized || !selector.inactive || points.isEmpty then (false, selector)
  else
    let candidate := (coverPoints settings points).selection settings
    if candidate = -2 then (false, selector)
    else (true, { selector with selected := candidate })

namespace FilterBank

variable (bank : FilterBank ω)

def required : Bool := bank.settings.required

def deactivate (s : FilterSelector) (w : ω) : Bool × FilterSelector × ω :=
  match bank.outputs with
  | none =>
    (true, { s with verified := false, inactive := true, initialized := true }, w)
  | some outputs =>
    let (inactive, w) := if s.initialized then outputs.inactive w else outputs.initializeInactive w
    (inactive,
      { s with verified := false, inactive := inactive, initialized := s.initialized || inactive },
      w)

def activate (s : FilterSelector) (w : ω) : Bool × FilterSelector × ω :=
  if !bank.required then (true, s, w)
  else
    match bank.outputs with
    | none => (false, s, w)
    | some outputs =>
      if !s.initialized || !s.inactive || s.selected < 0 then (false, s, w)
      else
        let (verified, w) := outputs.activate s.selected.toNat w
        (verified, { s with inactive := false, verified := verified }, w)

def verify (s : FilterSelector) (w : ω) : Bool × ω :=
  if !bank.required then (true, w)
  else
    match bank.outputs with
    | none => (false, w)
    | some outputs =>
      if s.verified && s.selected ≥ 0 then outputs.verify s.selected.toNat w else (false, w)

def observation (s : FilterSelector) : Int :=
  if s.inactive then -1
  else if s.verified && s.selected ≥ 0 then
    ((bank.settings.outputs[s.selected.toNat]?).getD 0).toNat
  else -2

end FilterBank

/-! ## The indicator -/

/-- `IndicatorGate`. The acknowledgement is the other core's. -/
structure IndicatorGate where
  enabled : Bool := true
  next : UInt32 := 0
  requested : UInt32 := 0
  acknowledged : UInt32 := 0

namespace IndicatorGate

def requestLaunch (gate : IndicatorGate) : Bool × IndicatorGate :=
  if !gate.enabled then (true, gate)
  else if gate.requested = 0 then
    if gate.next = 0xffffffff then (false, gate)
    else
      let ticket := gate.next + 1
      (gate.acknowledged = ticket, { gate with next := ticket, requested := ticket })
  else (gate.acknowledged = gate.requested, gate)

def inactive (gate : IndicatorGate) : IndicatorGate := { gate with requested := 0 }

end IndicatorGate

end WsprryPico.Rf
