import WsprryPico.Microchrony.Fit

/-!
# The NTP engine

The operations of `Engine` in `microchrony/microchrony.cpp`: the selection among the sources, the
discipline of the virtual clock, the exchange with a server, the reference clock and the frequency
reference. Each operation takes the raw time it is called at.
-/

namespace WsprryPico.Microchrony

variable {K : Type} [Scalar K]

/-! ## Combination of sources -/

structure SourceEstimate (K : Type) where
  offset : K
  offsetSd : K
  rate : K
  rateSd : K
  skew : K
  distance : K
  age : K
  controlSkew : K

structure CombinedEstimate (K : Type) where
  offset : K
  offsetSd : K
  rate : K
  rateSd : K
  skew : K
  frequencyBound : K

def combineSources (sources : List (SourceEstimate K)) : CombinedEstimate K :=
  let tiny : K := 1 / 10 ^ 24
  let offsetWeight (s : SourceEstimate K) : K := 1 / max (1 / 10 ^ 12) s.distance
  let frequencyWeight (s : SourceEstimate K) : K := 1 / max tiny (s.rateSd * s.rateSd)
  let error (s : SourceEstimate K) : K := max 0 (s.offsetSd + s.age * s.rateSd)
  let controlSkew (s : SourceEstimate K) : K := if 0 < s.controlSkew then s.controlSkew else s.skew
  let offsetWeights := (sources.map offsetWeight).sum
  let frequencyWeights := (sources.map frequencyWeight).sum
  let offset := (sources.map fun s => offsetWeight s * s.offset).sum
  let rate := (sources.map fun s => frequencyWeight s * s.rate).sum
  let offsetVariance :=
    (sources.map fun s => offsetWeight s * (error s * error s + s.offset * s.offset)).sum
  let skewWeights := (sources.map fun s => 1 / max tiny (controlSkew s * controlSkew s)).sum
  if offsetWeights = 0 ∨ frequencyWeights = 0 then
    { offset := offset, rate := rate, offsetSd := 0, rateSd := 0, skew := 0, frequencyBound := 0 }
  else
    let center := rate / frequencyWeights
    { offset := offset / offsetWeights
      offsetSd := sqrt (offsetVariance / offsetWeights)
      rate := center
      rateSd := sqrt (1 / frequencyWeights)
      skew := sqrt (1 / skewWeights)
      frequencyBound := sources.foldl (fun bound s => max bound (s.skew + |s.rate - center|)) 0 }

def correctionRate (offsetSd updateInterval ratio : K) : K :=
  if offsetSd < 0 ∨ updateInterval < 0 ∨ ratio ≤ 0 then 0
  else 1 / 2 * offsetSd * updateInterval * ratio

/-- `std::copysign`. -/
def copysign (magnitude sign : K) : K := if sign < 0 then -|magnitude| else |magnitude|

def phaseSlew (correction corrRate maximumRate : K) : K :=
  if corrRate < 0 ∨ maximumRate ≤ 0 ∨ correction = 0 then 0
  else
    let limit := min maximumRate |correction|
    let speed := if corrRate = 0 then limit else min limit (correction * correction / corrRate)
    copysign speed correction

/-- The weighted old and new frequency, and its skew. -/
def combineFrequency (previousRate previousSkew measuredRate measuredSkew : K) : K × K :=
  let oldVariance := 3 * previousSkew * previousSkew
  let newVariance := measuredSkew * measuredSkew
  let gain := oldVariance / max (1 / 10 ^ 30) (oldVariance + newVariance)
  let change := measuredRate - previousRate
  (previousRate + gain * change,
    (1 - gain) * previousSkew + gain * measuredSkew + sqrt (gain * (1 - gain)) * |change|)

/-! ## Sources -/

namespace Source

def utc (s : Source K) (raw : Nat) : Nat :=
  let e := s.status.estimate
  addTime e.utcNs (difference raw e.rawNs * (1 + e.rate))

/-- `distance`, which is infinite without a fit. -/
def distance (config : Config K) (s : Source K) (raw : Nat) : WithTop K :=
  let e := s.status.estimate
  if ¬ e.valid ∨ raw < e.rawNs then ⊤
  else
    ↑(e.rootDelay / 2 + e.rootDispersion +
      difference raw e.rawNs * max e.skew config.clockError)

def selectionDistance (s : Source K) (raw : Nat) : WithTop K :=
  (s.samples.drop s.fitStart).foldl (fun path sample =>
    let age := max 0 (difference raw sample.rawNs)
    min path
      ↑(sample.rootDelay / 2 + sample.rootDispersion + age * s.status.estimate.controlSkew)) ⊤

/-- The last acceptance is at most five seconds old. -/
def fresh (s : Source K) (now : Nat) : Bool :=
  s.status.lastAcceptedNs ≤ now && now - s.status.lastAcceptedNs ≤ 5 * second

def clearFlags (s : Source K) : Source K :=
  { s with status := { s.status with selectable := false, selected := false, combined := false } }

def withReason (s : Source K) (reason : Rejection) : Source K :=
  { s with status := { s.status with reason := reason } }

def withReplace (s : Source K) : Source K := { s with status := { s.status with replace := true } }

/-- Whether a source can take part at all. -/
def usable (s : Source K) : Bool :=
  s.status.endpoint ≠ 0 && s.status.online && s.status.reach ≠ 0 && !s.denied && s.synchronized &&
    s.status.estimate.valid

/-- The gates of `select`, and whether the source passed them. -/
def gate (config : Config K) (now : Nat) (slot : Slot) (s : Source K) : Source K × Bool :=
  let s := s.clearFlags
  if !s.usable then (s, false)
  else if slot = referenceSlot ∧ !s.fresh now then (s.withReason .offline, false)
  else if (config.maxDistance : WithTop K) < s.distance config now then
    ((s.withReason .distance).withReplace, false)
  else if config.maxJitter < s.status.estimate.jitter then (s.withReason .jitter, false)
  else (s, true)

def stratum (s : Source K) : Nat := (s.samples.getLastD {}).stratum

/-- The interval a source gives around its UTC, from `origin`. -/
def interval (config : Config K) (s : Source K) (now origin : Nat) : K × K :=
  let center := difference (s.utc now) origin
  let radius := (s.distance config now).untopD 0
  (center - radius, center + radius)

/-- The intervals of two sources have no common point. -/
def apart (config : Config K) (now : Nat) (s t : Source K) : Bool :=
  s.distance config now + t.distance config now < ((|difference (s.utc now) (t.utc now)| : K) :
    WithTop K)

end Source

/-- The common part of intervals; none while there are none. -/
def meet (common : Option (K × K)) (interval : K × K) : Option (K × K) :=
  match common with
  | none => some interval
  | some (low, high) => some (max low interval.1, min high interval.2)

/-- The sources whose bits are set in `mask`. -/
def chosen (candidates : List Slot) (mask : Nat) : List Slot :=
  (candidates.zipIdx.filter fun p => mask.testBit p.2).map (·.1)

namespace Engine

def modify (e : Engine K) (slot : Slot) (f : Source K → Source K) : Engine K :=
  { e with sources := Function.update e.sources slot (f (e.sources slot)) }

def source (e : Engine K) (slot : Slot) : Source K := e.sources slot

def frequencyReferenceStateAt (e : Engine K) (now : Nat) : FrequencyReferenceState :=
  match e.frequencyReferenceState with
  | .none => .none
  | .disagreement => .disagreement
  | state =>
    if e.frequencyReference.generation ≠ 0 ∧ (now < e.frequencyReference.sampledRawNs ∨
        e.frequencyReference.validUntilRawNs ≤ now) then .expired
    else state

/-! ## The virtual clock -/

/-- The part of the pending phase that is slewed in `elapsed` seconds. -/
def slewed (e : Engine K) (elapsed : K) : K :=
  let phase := e.slew * elapsed
  if |e.pendingPhase| < |phase| then e.pendingPhase else phase

/-- The bound on the rate of the clock error. -/
def errorRate (e : Engine K) : K := e.skew + e.config.clockError

def advance (e : Engine K) (now : Nat) : Engine K :=
  if ¬ e.clockValid ∨ now < e.clockRawNs then e
  else
    let elapsed := difference now e.clockRawNs
    let phase := e.slewed elapsed
    let pending := e.pendingPhase - phase
    let settled := |pending| < 1 / 1000000000
    { e with
      rootDispersion := e.rootDispersion + difference now e.dispersionRawNs * e.errorRate
      dispersionRawNs := now
      clockUtcNs := addTime e.clockUtcNs (elapsed * (1 + e.frequency) + phase)
      pendingPhase := if settled then 0 else pending
      slew := if settled then 0 else e.slew
      clockRawNs := now }

/-- The slew stays with the frequency within a tenth. -/
def clampSlew (e : Engine K) : Engine K :=
  { e with slew := max (-1 / 10 - e.frequency) (min e.slew (1 / 10 - e.frequency)) }

/-- The first UTC epoch, or the settlement of the time since the last one. -/
def settle (e : Engine K) (reference now : Nat) : Engine K :=
  if !e.clockValid then { e with clockValid := true, clockRawNs := now, clockUtcNs := reference }
  else e.advance now

/-- The frequency after a network estimate. -/
def blend (e : Engine K) (estimate : CombinedEstimate K) (now : Nat) : Engine K :=
  let e :=
    if e.frequencyReferenceStateAt now = .expired then
      { e with frequencySkew := max e.frequencySkew e.config.clockError }
    else e
  if estimate.frequencyBound ≤ e.config.maxUpdateSkewPpm / 1000000 then
    let combined := combineFrequency e.frequency e.frequencySkew estimate.rate estimate.skew
    let drift := e.config.maxDriftPpm / 1000000
    let frequency := max (-drift) (min combined.1 drift)
    let frequencySkew := max (1 / 1000000000000) combined.2
    { e with
      frequency := frequency
      frequencySkew := frequencySkew
      skew := max frequencySkew (estimate.frequencyBound + |estimate.rate - frequency|) }
  else e

def withNetwork (e : Engine K) (estimate : CombinedEstimate K) : Engine K :=
  { e with
    networkFrequencyPpb := llround (max (-1 / 10) (min estimate.rate (1 / 10)) * billion)
    networkFrequencyUncertaintyPpb := ⌈min 1 estimate.frequencyBound * billion⌉.toNat + 1 }

/-- The rates of a reference and of the network are further apart than their bounds allow. -/
def ratesApart (e : Engine K) (r : FrequencyReference) : Bool :=
  (r.uncertaintyPpb : K) + (e.networkFrequencyUncertaintyPpb : K) +
    e.config.maxClockErrorPpm * 1000 < |(r.ratePpb : K) - (e.networkFrequencyPpb : K)|

/-- The frequency of a reference replaces the one of the clock. -/
def takeReference (e : Engine K) (r : FrequencyReference) : Engine K :=
  { e with
    frequency := (r.ratePpb : K) / billion
    frequencySkew := (r.uncertaintyPpb : K) / billion
    skew := (r.uncertaintyPpb : K) / billion
    frequencyReferenceState := .selected }

/-- The frequency reference against a new network estimate. -/
def compareReference (e : Engine K) (now : Nat) : Engine K :=
  if e.frequencyReferenceState ≠ .none ∧ e.frequencyReferenceStateAt now ≠ .expired ∧
      e.frequencyReferenceState ≠ .disagreement then
    if e.ratesApart e.frequencyReference then { e with frequencyReferenceState := .disagreement }
    else if e.frequencyReference.uncertaintyPpb < e.networkFrequencyUncertaintyPpb then
      e.takeReference e.frequencyReference
    else { e with frequencyReferenceState := .quality }
  else e

/-- The correction of the phase towards `reference`. -/
def steer (e : Engine K) (offsetSd : K) (reference now : Nat) : Engine K :=
  let pending := difference reference e.clockUtcNs
  let interval :=
    if e.lastUpdateNs ≠ 0 ∧ e.lastUpdateNs < now then difference now e.lastUpdateNs else 1
  let corrRate := correctionRate (max e.config.precision offsetSd)
    (if e.lastUpdateNs ≠ 0 then interval else 0) e.config.correctionTimeRatio
  clampSlew
    { e with
      pendingPhase := pending
      slew := phaseSlew pending corrRate (e.config.maxSlewPpm / 1000000) }

def note (e : Engine K) (slot : Slot) (combined : List Slot) (now : Nat) : Update K where
  slot := slot
  rawNs := now
  measurement := (e.sources slot).samples.getLastD {}
  combined := combined.map fun i =>
    ((e.sources i).utc now, ((e.sources i).distance e.config now).untopD 0)

/-- What a discipline publishes of its sources. -/
def publish (e : Engine K) (slot : Slot) (combined : List Slot) (referenceDistance : K)
    (now : Nat) : Engine K :=
  let s := e.sources slot
  let last := s.samples.getLastD {}
  let rootDelay := s.status.estimate.rootDelay
  { e with
    rootDelay := rootDelay
    rootDispersion := max 0 (referenceDistance - rootDelay / 2)
    dispersionRawNs := now
    selected := some slot
    combinedCount := combined.length
    leap := last.leap
    lastUpdateNs := now
    lastSourceRawNs := last.receiveRawNs
    generation := e.generation + 1
    updates := e.note slot combined now :: e.updates }

/-- The estimates `discipline` combines, relative to the selected source. -/
def estimates (e : Engine K) (slot : Slot) (combined : List Slot) (now : Nat) :
    List (SourceEstimate K) :=
  let selected := e.sources slot
  combined.map fun i =>
    let s := e.sources i
    let estimate := s.status.estimate
    { offset := difference (s.utc now) (selected.utc now)
      offsetSd := estimate.controlOffsetSd
      rate := estimate.rate
      rateSd := estimate.controlRateSd
      skew := estimate.skew
      distance := (s.selectionDistance now).untopD 0
      age := difference selected.status.estimate.rawNs estimate.rawNs
      controlSkew := estimate.controlSkew }

/-- The UTC the combined sources agree on. -/
def referenceUtc (e : Engine K) (slot : Slot) (combined : List Slot) (now : Nat) : Nat :=
  addTime ((e.sources slot).utc now) (combineSources (e.estimates slot combined now)).offset

/-- The largest distance of a combined source, from that UTC. -/
def referenceDistance (e : Engine K) (slot : Slot) (combined : List Slot) (now : Nat) : K :=
  let reference := e.referenceUtc slot combined now
  combined.foldl (fun bound i =>
    let s := e.sources i
    max bound ((s.distance e.config now).untopD 0 + |difference (s.utc now) reference|)) 0

/-- A combined source is used up to its last fit. -/
def markUsed (e : Engine K) (combined : List Slot) : Engine K :=
  { e with usedGeneration := fun i =>
      if i ∈ combined then (e.sources i).status.generation else e.usedGeneration i }

/-- The selected source is another one, or has a new fit. -/
def changed (e : Engine K) (slot : Slot) : Bool :=
  e.selected ≠ some slot || e.usedGeneration slot ≠ (e.sources slot).status.generation

def discipline (e : Engine K) (slot : Slot) (combined : List Slot) (now : Nat) : Engine K :=
  if !e.changed slot then e
  else
    let estimate := combineSources (e.estimates slot combined now)
    let reference := e.referenceUtc slot combined now
    let distance := e.referenceDistance slot combined now
    ((((((e.markUsed combined).settle reference now).blend estimate now).withNetwork
      estimate).compareReference now).steer estimate.offsetSd reference now).publish slot combined
        distance now

/-! ## Selection -/

/-- Nothing is selected. -/
def deselect (e : Engine K) : Engine K :=
  { e with selected := none, combinedCount := 0, leap := .unsynchronized }

def gated (e : Engine K) (now : Nat) : Engine K :=
  { e with sources := fun i => ((e.sources i).gate e.config now i).1 }

/-- The sources that pass the gates. -/
def candidates (e : Engine K) (now : Nat) : List Slot :=
  (List.finRange 5).filter fun i => ((e.sources i).gate e.config now i).2

/-- A candidate of the network is apart from a live reference clock. -/
def disagrees (e : Engine K) (now : Nat) (candidates : List Slot) : Bool :=
  let reference := e.sources referenceSlot
  e.referenceEnabled && reference.status.estimate.valid && reference.fresh now &&
    candidates.any fun i => i ≠ referenceSlot && (e.sources i).apart e.config now reference

/-- The sources of `mask` have a common point. -/
def agrees (e : Engine K) (now : Nat) (candidates : List Slot) (mask : Nat) : Bool :=
  let origin := (e.sources (candidates.headD 0)).utc now
  let common := (chosen candidates mask).foldl (fun common i =>
    meet common ((e.sources i).interval e.config now origin)) none
  match common with
  | none => true
  | some (low, high) => low ≤ high

/-- The first of the largest sets of sources with a common point. -/
def largest (e : Engine K) (now : Nat) (candidates : List Slot) : List Slot :=
  (List.range' 1 (2 ^ candidates.length - 1)).foldl (fun best mask =>
    if e.agrees now candidates mask ∧ best.length < (chosen candidates mask).length then
      chosen candidates mask
    else best) []

/-- The path of a source with its stratum. -/
def rankDistance (e : Engine K) (now minimumStratum : Nat) (i : Slot) : WithTop K :=
  (e.sources i).selectionDistance now +
    ↑((((e.sources i).stratum - minimumStratum : Nat) : K) * e.config.stratumWeight)

def minimumStratum (e : Engine K) (members : List Slot) : Nat :=
  members.foldl (fun stratum i => min stratum (e.sources i).stratum) 16

/-- The first member at the least distance. -/
def nearest (rank : Slot → WithTop K) (members : List Slot) : Option Slot :=
  (members.foldl (fun (best : Option Slot × WithTop K) i =>
    if rank i < best.2 then (some i, rank i) else best) (none, ⊤)).1

/-- The candidates with their place in the largest set. -/
def mark (e : Engine K) (candidates members : List Slot) : Engine K :=
  { e with sources := fun i =>
      let s := e.sources i
      if i ∈ members then
        { s with status := { s.status with selectable := true, reason := .none } }
      else if i ∈ candidates then
        { s with status := { s.status with
          reason := .falseticker, replace := true, selectionScore := 1 } }
      else s }

/-- The current source can stay. -/
def currentUsable (e : Engine K) : Option Slot :=
  e.selected.filter fun current => (e.sources current).status.selectable

/-- The evidence for another source than the current one. -/
def rescore (e : Engine K) (rank : Slot → WithTop K) (candidates : List Slot) (current : Slot) :
    Engine K :=
  { e with sources := fun i =>
      let s := e.sources i
      if i ∈ candidates ∧ s.status.selectable ∧ i ≠ current then
        let ratio := (rank current).untopD 0 /
          max e.config.precision ((rank i).untopD 0 + e.config.reselectDistance)
        let score := max 1 (min (s.status.selectionScore * ratio) 1000000000000)
        { s with status := { s.status with selectionScore := score } }
      else s }

/-- The last of the challengers with the highest score from ten on, or the current source. -/
def challenger (e : Engine K) (candidates : List Slot) (current : Slot) : Slot :=
  (candidates.foldl (fun (best : Slot × K) i =>
    let status := (e.sources i).status
    if status.selectable ∧ i ≠ current ∧ best.2 ≤ status.selectionScore then
      (i, status.selectionScore)
    else best) (current, 10)).1

def resetScores (e : Engine K) : Engine K :=
  { e with sources := fun i =>
      let s := e.sources i
      { s with status := { s.status with selectionScore := 1 } } }

/-- The selectable sources near enough to the best one. -/
def combinable (e : Engine K) (now : Nat) (candidates : List Slot) (best : Slot) : List Slot :=
  let reference := e.sources best
  candidates.filter fun i =>
    let s := e.sources i
    s.status.selectable && (i = best ||
      ((s.selectionDistance now).untopD 0 ≤
          e.config.combineLimit * (reference.selectionDistance now).untopD 0 &&
        |s.status.estimate.rate - reference.status.estimate.rate| ≤
          s.status.estimate.skew + reference.status.estimate.skew))

def markCombined (e : Engine K) (combined : List Slot) (best : Slot) : Engine K :=
  { e with sources := fun i =>
      let s := e.sources i
      { s with status := { s.status with
        combined := i ∈ combined || s.status.combined
        selected := i = best || s.status.selected } } }

/-- The marks of a best source, and what the clock is to be disciplined with. -/
def adopt (e : Engine K) (now : Nat) (candidates : List Slot) (best : Slot) :
    Engine K × Option (Slot × List Slot) :=
  let e := if e.selected ≠ some best then e.resetScores else e
  let combined := e.combinable now candidates best
  (e.markCombined combined best, some (best, combined))

def scored (e : Engine K) (rank : Slot → WithTop K) (scoreUpdate : Bool) (candidates : List Slot)
    (current : Slot) : Engine K :=
  if scoreUpdate then e.rescore rank candidates current else e

/-- `select` from the largest set on. Its members have paths, so one of them is the nearest. -/
def choose (e : Engine K) (now : Nat) (scoreUpdate : Bool) (candidates members : List Slot) :
    Engine K × Option (Slot × List Slot) :=
  let e := e.mark candidates members
  let rank := e.rankDistance now (e.minimumStratum members)
  match nearest rank members with
  | none => (e, none)
  | some best =>
    match e.currentUsable with
    | none => e.adopt now candidates best
    | some current =>
      let e := e.scored rank scoreUpdate candidates current
      e.adopt now candidates (e.challenger candidates current)

/-- `select` up to the discipline of the clock. -/
def pass (e : Engine K) (now : Nat) (scoreUpdate : Bool) : Engine K × Option (Slot × List Slot) :=
  let candidates := e.candidates now
  let e := e.gated now
  let e := { e with referenceDisagreement := e.referenceDisagreement || e.disagrees now candidates }
  if e.referenceDisagreement then (e.deselect, none)
  else if candidates.length < e.config.minSources then (e.deselect, none)
  else
    let members := e.largest now candidates
    if members.length * 2 ≤ candidates.length ∨ members.length < e.config.minSources then
      (e.deselect, none)
    else e.choose now scoreUpdate candidates members

def select (e : Engine K) (now : Nat) (scoreUpdate : Bool := false) : Engine K :=
  match e.pass now scoreUpdate with
  | (e, none) => e
  | (e, some (slot, combined)) => e.discipline slot combined now

end Engine

end WsprryPico.Microchrony
