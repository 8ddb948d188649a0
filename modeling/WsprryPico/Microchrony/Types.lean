import Mathlib

/-!
# The data of the NTP engine

The values `microchrony/microchrony.hpp` declares. A `double` is an exact number of an ordered
field with a square root, the reals being one; so is a `float`, and nothing is infinite but a
distance that is not known. Times in `std::uint64_t` are `Nat`; where the source keeps one below
2^64 it is kept there.
-/

namespace WsprryPico.Microchrony

/-- The numbers in use. -/
class Scalar (K : Type) extends Field K, LinearOrder K, FloorRing K where
  sqrt : K → K

export Scalar (sqrt)

/-- The numerals from two on. -/
scoped instance fieldNumeral {K : Type} [Field K] (n : ℕ) : OfNat K (n + 2) :=
  instOfNatAtLeastTwo

noncomputable instance : Scalar ℝ where
  sqrt := Real.sqrt

/-- The root is exact on the squares. -/
instance : Scalar ℚ where
  sqrt := Rat.sqrt

def sourceCapacity : Nat := 4
def sampleCapacity : Nat := 64
def referenceSampleCapacity : Nat := 16

/-- The sources: four of the network, and the reference clock. -/
abbrev Slot := Fin 5

scoped instance neZero_slots : NeZero 5 := ⟨by decide⟩

def referenceSlot : Slot := 4

def second : Nat := 1000000000

/-- The largest `std::uint64_t` and the largest `std::int64_t`. -/
def uint64Max : Nat := 2 ^ 64 - 1
def int64Max : Nat := 2 ^ 63 - 1

inductive Leap where
  | normal | insert | delete | unsynchronized
  deriving DecidableEq

inductive Rejection where
  | none | correlation | packet | serverUnsynchronized | kissRate | kissDenied | delay
  | delayDeviation | distance | jitter | falseticker | insufficientSamples | frequency | offline
  deriving DecidableEq

inductive FrequencyReferenceState where
  | none | selected | quality | disagreement | expired
  deriving DecidableEq

/-- A frequency on the raw timer, without epoch or leap. -/
structure FrequencyReference where
  sampledRawNs : Nat := 0
  validUntilRawNs : Nat := 0
  generation : Nat := 0
  ratePpb : Int := 0
  uncertaintyPpb : Nat := 0
  deriving DecidableEq

/-- A qualified UTC epoch on the raw timer. -/
structure ReferenceObservation where
  rawNs : Nat := 0
  utcNs : Nat := 0
  uncertaintyNs : Nat := 0
  sequence : Nat := 0
  leap : Leap := .unsynchronized
  deriving DecidableEq

section Records

variable (K : Type) [Field K]

structure Config where
  minPoll : Nat := 6
  maxPoll : Nat := 10
  pollTarget : Nat := 8
  minSamples : Nat := 6
  maxSamples : Nat := 64
  minSources : Nat := 1
  maxDelay : K := 3
  maxDelayDeviationRatio : K := 10
  maxDistance : K := 3
  maxJitter : K := 1
  combineLimit : K := 3
  reselectDistance : K := 1 / 10000
  stratumWeight : K := 1 / 1000
  maxUpdateSkewPpm : K := 1000
  maxClockErrorPpm : K := 1
  maxDriftPpm : K := 100000
  maxSlewPpm : K := 83333333 / 1000
  correctionTimeRatio : K := 3
  precision : K := 1 / 1000000
  eraStartUtcNs : Nat := 1735689600 * second
  initialBurst : Bool := true

structure Measurement where
  id : Nat := 0
  sendRawNs : Nat := 0
  receiveRawNs : Nat := 0
  /-- The midpoint of the exchange. -/
  rawNs : Nat := 0
  utcNs : Nat := 0
  serverReferenceNs : Nat := 0
  serverReceiveNs : Nat := 0
  serverSendNs : Nat := 0
  delay : K := 0
  rootDelay : K := 0
  rootDispersion : K := 0
  precision : K := 0
  rootDelayWire : Nat := 0
  rootDispersionWire : Nat := 0
  stratum : Nat := 0
  leap : Leap := .unsynchronized
  precisionLog : Int := 0
  rejection : Rejection := .none
  deriving DecidableEq

/-- An original kept only for the residual runs. -/
structure RegressionPoint where
  rawNs : Nat := 0
  phaseNs : Int := 0
  delay : K := 0

structure Estimate where
  valid : Bool := false
  /-- UTC seconds per raw second minus one. -/
  rate : K := 0
  skew : K := 2 / 1000
  rateSd : K := 2 / 1000
  offsetSd : K := 4
  jitter : K := 4
  asymmetry : K := 0
  rootDelay : K := 0
  rootDispersion : K := 0
  admissionJitter : K := 4
  admissionSkew : K := 2 / 1000
  controlRateSd : K := 2 / 1000
  controlSkew : K := 2 / 1000
  controlOffsetSd : K := 4
  rawNs : Nat := 0
  utcNs : Nat := 0
  firstRawNs : Nat := 0
  samples : Nat := 0
  runs : Nat := 0

structure SourceStatus where
  endpoint : Nat := 0
  queries : Nat := 0
  replies : Nat := 0
  rejected : Nat := 0
  generation : Nat := 0
  lastReceiveNs : Nat := 0
  lastAcceptedNs : Nat := 0
  nextPollNs : Nat := 0
  poll : Nat := 6
  reach : Nat := 0
  online : Bool := false
  selectable : Bool := false
  selected : Bool := false
  combined : Bool := false
  replace : Bool := false
  reason : Rejection := .offline
  selectionScore : K := 1
  estimate : Estimate K := {}

structure Source where
  status : SourceStatus K := {}
  samples : List (Measurement K) := []
  predecessors : List (RegressionPoint K) := []
  fitStart : Nat := 0
  burstLeft : Nat := 0
  burstAttempts : Nat := 0
  pollScore : Nat := 0
  runsCount : Nat := 0
  asymmetryEvidence : Int := 0
  predecessorRawNs : Nat := 0
  predecessorUtcNs : Nat := 0
  sendNs : Nat := 0
  token : Nat := 0
  sequence : Nat := 0
  last : Option (Measurement K) := none
  pending : Bool := false
  denied : Bool := false
  synchronized : Bool := false
  minDelay : K := 0
  asymmetry : K := 0

structure Tracking where
  synchronized : Bool := false
  referenceClock : Bool := false
  referenceDisagreement : Bool := false
  leap : Leap := .unsynchronized
  selected : Nat := sourceCapacity
  combinedSources : Nat := 0
  rawNs : Nat := 0
  utcNs : Nat := 0
  sourceRawNs : Nat := 0
  generation : Nat := 0
  uncertaintyNs : Nat := uint64Max
  remainingCorrectionNs : Int := 0
  ratePpb : Int := 0
  utcFrequencyPpb : Int := 0
  skewPpb : Int := 2000000
  rateErrorBoundPpb : Int := 2000000
  rootDelay : K := 0
  rootDispersion : K := 0

/-- A note of one discipline of the clock: the selected source and its newest measurement, and the
UTC and distance of each source combined. -/
structure Update where
  slot : Slot
  rawNs : Nat
  measurement : Measurement K
  combined : List (Nat × K)

/-- `Engine`: the selected source is `none` where the source has `source_count`. The notes of the
updates, the last first, are read by nothing. -/
structure Engine where
  config : Config K
  clockValid : Bool := false
  online : Bool := true
  sources : Slot → Source K := fun _ => {}
  usedGeneration : Slot → Nat := fun _ => 0
  clockRawNs : Nat := 0
  clockUtcNs : Nat := 0
  lastUpdateNs : Nat := 0
  lastSourceRawNs : Nat := 0
  generation : Nat := 1
  frequency : K := 0
  skew : K := 2 / 1000
  slew : K := 0
  pendingPhase : K := 0
  frequencySkew : K := 2 / 1000
  rootDelay : K := 0
  rootDispersion : K := 0
  dispersionRawNs : Nat := 0
  selected : Option Slot := none
  combinedCount : Nat := 0
  leap : Leap := .unsynchronized
  referenceEnabled : Bool := false
  referenceDisagreement : Bool := false
  referenceSequence : Nat := 0
  frequencyReference : FrequencyReference := {}
  networkFrequencyPpb : Int := 0
  networkFrequencyUncertaintyPpb : Nat := 2000000
  frequencyReferenceState : FrequencyReferenceState := .none
  updates : List (Update K) := []

end Records

variable {K : Type} [Field K]

/-- The member of a source a slot names, if it is one of the network. -/
def networkSlot (slot : Nat) : Option Slot :=
  if h : slot < 4 then some ⟨slot, by omega⟩ else none

/-- The room for the samples of a source. -/
def capacity (slot : Slot) : Nat :=
  if slot = referenceSlot then referenceSampleCapacity else sampleCapacity

/-! ## Times and seconds -/

variable [LinearOrder K] [FloorRing K]

def billion : K := 1000000000

/-- The value of a number in network order. -/
def read (bytes : List UInt8) : Nat := bytes.foldl (fun result byte => result * 256 + byte.toNat) 0

/-- `std::llround`: halves away from zero. -/
def llround (x : K) : Int := if 0 ≤ x then ⌊x + 1 / 2⌋ else -⌊-x + 1 / 2⌋

def roundedNs (seconds : K) : Nat :=
  if ¬ 0 ≤ seconds ∨ (uint64Max : K) / billion ≤ seconds then uint64Max
  else ⌈seconds * billion⌉.toNat

def addTime (base : Nat) (delta : K) : Nat :=
  if (int64Max : K) / billion ≤ |delta| then 0
  else
    let change := llround (delta * billion)
    if change < 0 then
      if (-change).toNat ≤ base then base - (-change).toNat else 0
    else if change.toNat ≤ uint64Max - base then base + change.toNat else 0

omit [LinearOrder K] [FloorRing K] in
def difference (a b : Nat) : K :=
  if b ≤ a then ((a - b : Nat) : K) / billion else -((b - a : Nat) : K) / billion

/-- An NTP timestamp, in the era that does not begin before `earliest`. -/
def timestamp (bytes : List UInt8) (earliest : Nat) : Nat :=
  let ntpEpoch := 2208988800
  let floor := earliest / second + ntpEpoch
  let unfolded := read (bytes.take 4) + floor / 2 ^ 32 * 2 ^ 32
  let seconds := if unfolded < floor then unfolded + 2 ^ 32 else unfolded
  if seconds < ntpEpoch ∨ uint64Max / second < seconds - ntpEpoch then 0
  else
    ((seconds - ntpEpoch) * second + read ((bytes.drop 4).take 4) * second / 2 ^ 32) % 2 ^ 64

def Config.valid (config : Config K) : Bool :=
  config.minPoll ≤ config.maxPoll && config.maxPoll ≤ 17 && 3 ≤ config.pollTarget &&
    3 ≤ config.minSamples && config.minSamples ≤ config.maxSamples &&
    config.maxSamples ≤ sampleCapacity && 1 ≤ config.minSources &&
    config.minSources ≤ sourceCapacity && 0 < config.maxDelay && config.maxDelay ≤ 1000 &&
    0 ≤ config.maxDelayDeviationRatio && 0 < config.maxDistance && 0 < config.maxJitter &&
    1 / 1000000000 ≤ config.precision && config.precision ≤ 1 && 0 ≤ config.maxClockErrorPpm &&
    config.maxClockErrorPpm ≤ 1000000 && 0 < config.maxUpdateSkewPpm && 0 ≤ config.maxDriftPpm &&
    config.maxDriftPpm ≤ 100000 && 0 < config.maxSlewPpm && config.maxSlewPpm ≤ 100000 &&
    0 < config.correctionTimeRatio && 0 ≤ config.combineLimit && 0 ≤ config.reselectDistance &&
    0 ≤ config.stratumWeight

/-- `max_clock_error_ppm * 1e-6`. -/
def Config.clockError (config : Config K) : K := config.maxClockErrorPpm / 1000000

end WsprryPico.Microchrony
