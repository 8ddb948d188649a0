import WsprryPico.Wtp.Types

/-!
# The UTC/monotonic mapping

`time/mapping.hpp`: integer rational scaling, forward projection of a raw
timer value to UTC and its inverse. A function that reports failure by
returning `false` returns `none` here; its output parameter is the value.
-/

namespace WsprryPico.Time

open Wtp

def utcMaxRatePpb : Int := 100000000
def utcMaxRateUncertaintyPpb : UInt32 := 200000000

def scale (value numerator denominator : UInt64) (ceil : Bool := false) : Option UInt64 := do
  if denominator = 0 ∨ numerator > 2000000000 ∨ denominator > 2000000000 then none
  let q := value / denominator
  let r := value % denominator
  if numerator ≠ 0 ∧ q > u64Max / numerator then none
  let product := r * numerator
  let fraction := product / denominator + (if ceil ∧ product % denominator ≠ 0 then 1 else 0)
  let whole := q * numerator
  if whole > u64Max - fraction then none
  return whole + fraction

/-- `std::uint64_t(1'000'000'000LL + rate_ppb)`. -/
def rateNumerator (ratePpb : Int) : UInt64 := UInt64.ofNat (1000000000 + ratePpb).toNat

def rateInRange (ratePpb : Int) : Bool := -utcMaxRatePpb ≤ ratePpb ∧ ratePpb ≤ utcMaxRatePpb

def elapsedUtc (raw : UInt64) (ratePpb : Int) (ceil : Bool := false) : Option UInt64 :=
  if rateInRange ratePpb then scale raw (rateNumerator ratePpb) 1000000000 ceil else none

/-- `project` within one rate segment. -/
def projectSegment (anchor : ClockSnapshot) (raw : UInt64) : Option UInt64 := do
  let future := decide (raw ≥ anchor.monotonicNowNs)
  let delta := if future then raw - anchor.monotonicNowNs else anchor.monotonicNowNs - raw
  let elapsed ← elapsedUtc delta anchor.ratePpb (!future)
  if future then
    if elapsed > u64Max - anchor.utcNowNs then none else some (anchor.utcNowNs + elapsed)
  else if elapsed > anchor.utcNowNs then none
  else some (anchor.utcNowNs - elapsed)

/-- The anchor has a second rate segment ahead of it. -/
def hasBoundary (anchor : ClockSnapshot) : Bool :=
  anchor.rateUntilMonotonicNs ≠ u64Max ∧ anchor.rateUntilMonotonicNs ≥ anchor.monotonicNowNs

/-- The anchor moved to the end of its first segment, at UTC `utc`. -/
def boundaryAt (anchor : ClockSnapshot) (utc : UInt64) : ClockSnapshot :=
  { anchor with
    rateUntilMonotonicNs := u64Max
    utcNowNs := utc
    monotonicNowNs := anchor.rateUntilMonotonicNs
    ratePpb := anchor.subsequentRatePpb }

def project (anchor : ClockSnapshot) (raw : UInt64) : Option UInt64 := do
  if hasBoundary anchor ∧ raw > anchor.rateUntilMonotonicNs then
    let utc ← projectSegment anchor anchor.rateUntilMonotonicNs
    projectSegment (boundaryAt anchor utc) raw
  else projectSegment anchor raw

/-- `inverse` within one rate segment. -/
def inverseSegment (anchor : ClockSnapshot) (utc : UInt64) : Option UInt64 := do
  if ¬ rateInRange anchor.ratePpb then none
  let future := decide (utc ≥ anchor.utcNowNs)
  let delta := if future then utc - anchor.utcNowNs else anchor.utcNowNs - utc
  let elapsed ← scale delta 1000000000 (rateNumerator anchor.ratePpb) future
  if future then
    if elapsed > u64Max - anchor.monotonicNowNs then none
    else some (anchor.monotonicNowNs + elapsed)
  else if elapsed > anchor.monotonicNowNs then none
  else some (anchor.monotonicNowNs - elapsed)

def inverse (anchor : ClockSnapshot) (utc : UInt64) : Option UInt64 := do
  if ¬ rateInRange anchor.ratePpb then none
  if hasBoundary anchor then
    let boundaryUtc ← projectSegment anchor anchor.rateUntilMonotonicNs
    if utc > boundaryUtc then inverseSegment (boundaryAt anchor boundaryUtc) utc
    else inverseSegment anchor utc
  else inverseSegment anchor utc

def durationUtcBound (raw : UInt64) (clock : ClockSnapshot) : Option UInt64 :=
  if rateInRange clock.ratePpb ∧ rateInRange clock.subsequentRatePpb ∧
      clock.rateUncertaintyPpb ≤ utcMaxRateUncertaintyPpb then
    let upper := max 0 (max clock.ratePpb clock.subsequentRatePpb +
      (clock.rateUncertaintyPpb.toNat : Int))
    scale raw (UInt64.ofNat (1000000000 + upper).toNat) 1000000000 true
  else none

def growth (age ppb : UInt64) : Option UInt64 := scale age ppb 1000000000 true

/-- `RateObservation`. -/
structure RateObservation where
  utcNs : UInt64 := 0
  rawNs : UInt64 := 0
  uncertaintyNs : UInt64 := 0
  ratePpb : Int := 0
  rateUncertaintyPpb : UInt32 := 0
  generation : UInt64 := 0

def distance (a b : UInt64) : UInt64 := if a ≥ b then a - b else b - a

/-- The unslewed source observation agrees with the model that was made of it. -/
def consistentImport (source : RateObservation) (model : ClockSnapshot) : Bool :=
  if model.syncAgeNs > model.monotonicNowNs ∨
      source.rawNs ≠ model.monotonicNowNs - model.syncAgeNs ∨
      source.generation ≠ model.modelGeneration ∨ source.uncertaintyNs > model.uncertaintyNs then
    false
  else
    let anchor : ClockSnapshot :=
      { monotonicNowNs := source.rawNs, utcNowNs := source.utcNs, ratePpb := source.ratePpb }
    match project anchor model.monotonicNowNs with
    | none => false
    | some estimate =>
      distance estimate model.utcNowNs ≤ model.uncertaintyNs - source.uncertaintyNs

end WsprryPico.Time
