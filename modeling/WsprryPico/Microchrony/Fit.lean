import WsprryPico.Microchrony.Types

/-!
# The fit of a source

`regress`, `fit` and `append` of `microchrony/microchrony.cpp`: a weighted line through the
samples of a source, shortened from its old end while the signs of the residuals run too long.
-/

namespace WsprryPico.Microchrony

variable {K : Type} [Scalar K]

/-- The Student t quantiles, in thousandths. -/
def quantiles : List Nat :=
  [636600, 31600, 12920, 8610, 6869, 5959, 5408, 5041, 4781, 4587,
    4437, 4318, 4221, 4140, 4073, 4015, 3965, 3922, 3883, 3850,
    3819, 3792, 3768, 3745, 3725, 3707, 3690, 3674, 3659, 3646,
    3633, 3622, 3611, 3601, 3591, 3582, 3574, 3566, 3558, 3551]

def tCoefficient (freedom : Nat) : K :=
  if quantiles.length < freedom then 7 / 2 else (quantiles.getD (freedom - 1) 0 : K) / 1000

def peerDistance (s : Measurement K) : K :=
  s.delay / 2 + s.rootDispersion - (s.rootDispersionWire : K) / 65536

structure NoiseScale (K : Type) where
  minimum : K
  spread : K

def noiseScale (samples : List (Measurement K)) (precision : K) : NoiseScale K :=
  if samples.isEmpty then ⟨precision, precision⟩
  else
    let distances := (samples.map peerDistance).insertionSort (· ≤ ·)
    let n := distances.length
    let median := (distances.getD ((n - 1) / 2) 0 + distances.getD (n / 2) 0) / 2
    let minimum := distances.getD 0 0
    ⟨minimum + precision,
      max precision (min ((median - minimum) * 10 / 7) (max precision minimum))⟩

structure Line (K : Type) where
  slope : K
  y : K
  x : K
  rateSd : K
  offsetSd : K
  sd : K
  delayCoefficient : K
  rateBias : K
  offsetBias : K
  admissionSd : K
  admissionSkew : K
  controlRateSd : K
  controlOffsetSd : K
  runs : Nat
  positive : Nat
  negative : Nat
  activeRuns : Nat
  freedom : Nat

/-- A point of a line: the raw seconds, the change of UTC minus raw seconds, and the delay. -/
structure Point (K : Type) where
  x : K
  y : K
  delay : K

def Measurement.point (origin s : Measurement K) : Point K :=
  let x := difference s.rawNs origin.rawNs
  ⟨x, difference s.utcNs origin.utcNs - x, s.delay⟩

def RegressionPoint.point (origin : Measurement K) (predecessorRaw predecessorUtc : Nat)
    (s : RegressionPoint K) : Point K :=
  let basePhase := ((predecessorUtc : Int) - origin.utcNs) - ((predecessorRaw : Int) - origin.rawNs)
  ⟨difference s.rawNs origin.rawNs, ((basePhase + s.phaseNs : Int) : K) / billion, s.delay⟩

/-- The signs of residuals: how many are positive and negative, and their runs. -/
structure Signs where
  positive : Nat := 0
  negative : Nat := 0
  runs : Nat := 0
  previous : Int := 0

def Signs.test (tie : K) (signs : Signs) (residual : K) : Signs :=
  let sign : Int := if tie < residual then 1 else if residual < -tie then -1 else 0
  if sign = 0 then signs
  else
    { positive := signs.positive + if 0 < sign then 1 else 0
      negative := signs.negative + if sign < 0 then 1 else 0
      runs := signs.runs + if sign ≠ signs.previous then 1 else 0
      previous := sign }

/-- Centered weighted least squares. A `float` is exact here, so the rounding of a predecessor's
delay is zero. -/
def regress (samples : List (Measurement K)) (precision asymmetry : K) (noise : NoiseScale K)
    (runsSamples : List (Measurement K)) (predecessors : List (RegressionPoint K))
    (predecessorRaw predecessorUtc : Nat) : Line K :=
  let origin := samples.headD {}
  let last := samples.getLastD {}
  let minDelay := samples.foldl (fun d s => min d s.delay) origin.delay
  let weight (s : Measurement K) : K :=
    let relativeSd := 1 + max 0 (peerDistance s - noise.minimum) / noise.spread
    1 / (relativeSd * relativeSd)
  let points := samples.map fun s => (origin.point s, weight s)
  let total (f : Point K → K) : K := (points.map fun p => p.2 * f p.1).sum
  let z (p : Point K) : K := p.delay - minDelay
  let sw := total fun _ => 1
  let mx := total (fun p => p.x) / sw
  let my := total (fun p => p.y - asymmetry * z p) / sw
  let mz := total z / sw
  let dy (p : Point K) : K := p.y - asymmetry * z p - my
  let xx := total fun p => (p.x - mx) * (p.x - mx)
  let xySum := total fun p => (p.x - mx) * dy p
  let zz := total fun p => (z p - mz) * (z p - mz)
  let xz := total fun p => (p.x - mx) * (z p - mz)
  let yz := total fun p => dy p * (z p - mz)
  let slope := if 0 < xx then xySum / xx else 0
  let determinant := xx * zz - xz * xz
  let joint := 13 ≤ samples.length ∧ xx * zz / 100 < determinant ∧ sw * precision * precision < zz
  let residual (p : Point K) : K := p.y - my - slope * (p.x - mx) - asymmetry * z p
  let residualSum := total fun p => residual p * residual p
  let varianceSum := (points.map fun p => residual p.1 * residual p.1).sum
  let freedom := max 1 (samples.length - if joint then 3 else 2)
  let conditionalFreedom := max 1 (samples.length - 2)
  let conditionalVariance := residualSum / (conditionalFreedom : K)
  let tie := if (freedom : K) * precision * precision < varianceSum then 0 else precision
  let past := predecessors.map fun s => residual (s.point origin predecessorRaw predecessorUtc)
  let tested := (past ++ runsSamples.map fun s => residual (origin.point s)).foldl
    (Signs.test tie) {}
  let active := (points.map fun p => residual p.1).foldl (Signs.test tie) {}
  let variance := residualSum / (freedom : K)
  let dx := difference last.rawNs origin.rawNs - mx
  let alternative :=
    max (-1 / 2) (min (asymmetry + (yz * xx - xySum * xz) / determinant) (1 / 2))
  let leverage :=
    if joint then (zz * dx * dx + 2 * xz * dx * mz + xx * mz * mz) / determinant else dx * dx / xx
  { x := mx
    y := my
    slope := slope
    rateSd := if 0 < xx then sqrt (variance * if joint then zz / determinant else 1 / xx) else 1
    offsetSd := sqrt (variance * (1 / sw + leverage))
    sd := sqrt (varianceSum / (freedom : K))
    delayCoefficient := asymmetry
    rateBias := if joint then |(alternative - asymmetry) * xz / xx| else 0
    offsetBias := if joint then |(alternative - asymmetry) * (mz + xz / xx * dx)| else 0
    admissionSd := sqrt (conditionalVariance * (samples.length : K) / sw)
    admissionSkew :=
      if 0 < xx then sqrt (conditionalVariance / xx) * tCoefficient conditionalFreedom
      else 2 / 1000
    controlRateSd := if 0 < xx then sqrt (conditionalVariance / xx) else 1
    controlOffsetSd := sqrt (conditionalVariance * (1 / sw + dx * dx / xx))
    runs := tested.runs
    positive := tested.positive
    negative := tested.negative
    activeRuns := active.runs
    freedom := freedom }

namespace Source

/-- Where the residual test of the window from `fitStart` begins, and how many predecessors it
takes. -/
def horizon (s : Source K) : Nat × Nat :=
  let activeCount := s.samples.length - s.fitStart
  let preceding := min (s.runsCount - activeCount) activeCount
  let start := if preceding < s.fitStart then s.fitStart - preceding else 0
  (start, min s.predecessors.length (preceding - (s.fitStart - start)))

/-- The last predecessors. -/
def extra (s : Source K) (count : Nat) : List (RegressionPoint K) :=
  s.predecessors.drop (s.predecessors.length - count)

/-- The delay coefficient, learned only from strong evidence of one sign. -/
def learn (config : Config K) (s : Source K) : Source K :=
  let anchor := (s.samples.drop s.fitStart).headD {}
  let (start, extraCount) := s.horizon
  let points :=
    (s.extra extraCount).map (RegressionPoint.point anchor s.predecessorRawNs s.predecessorUtcNs) ++
      (s.samples.drop start).map anchor.point
  let n : K := (points.length : K)
  let mx := (points.map (·.x)).sum / n
  let my := (points.map (·.y)).sum / n
  let mz := (points.map (·.delay)).sum / n
  let total (f g : Point K → K) : K := (points.map fun p => f p * g p).sum
  let x (p : Point K) : K := p.x - mx
  let y (p : Point K) : K := p.y - my
  let z (p : Point K) : K := p.delay - mz
  let xx := total x x
  let xy := total x y
  let xz := total x z
  let zz := total z z
  let yz := total y z
  let determinant := xx * zz - xz * xz
  let identifiable := 4 ≤ points.length ∧ xx * zz / 100 < determinant ∧
    n * config.precision * config.precision < zz
  let coefficient := if identifiable then (yz * xx - xy * xz) / determinant else 0
  if ¬ identifiable ∨ coefficient * (s.asymmetryEvidence : K) < 0 then
    { s with asymmetryEvidence := 0, asymmetry := 0 }
  else
    let evidence :=
      if 45 / 100 ≤ |coefficient| then
        max (-1000) (min (s.asymmetryEvidence + if 0 < coefficient then 1 else -1) 1000)
      else s.asymmetryEvidence
    { s with
      asymmetryEvidence := evidence
      asymmetry := if 10 ≤ |evidence| then max (-1 / 2) (min coefficient (1 / 2)) else s.asymmetry }

/-- The signs of the residuals run too long for a line. -/
def runsShort (minSamples activeCount : Nat) (line : Line K) : Bool :=
  let signs := line.positive + line.negative
  let n : K := (signs : K)
  let pairs := n * n / 2
  let expected := 1 + pairs / n
  let variance := pairs * (pairs - n) / (n * n * (n - 1))
  minSamples < activeCount && 0 < line.positive && 0 < line.negative && 4 ≤ signs &&
    (line.runs : K) < expected - 165 / 100 * sqrt (max 0 variance)

def estimate (s : Source K) (line : Line K) : Estimate K :=
  let points := s.samples.drop s.fitStart
  let first := points.headD {}
  let last := points.getLastD {}
  let elapsed := difference last.rawNs first.rawNs
  let utcNs := addTime first.utcNs (elapsed + line.y + line.slope * (elapsed - line.x))
  let admissionSkew := max (1 / 1000000000000) line.admissionSkew
  { valid := utcNs ≠ 0
    rate := line.slope
    skew := max (1 / 1000000000000) (line.rateSd * tCoefficient line.freedom + line.rateBias)
    rateSd := max (1 / 1000000000000) line.rateSd
    offsetSd := line.offsetSd
    jitter := max (1 / 1000000000) line.sd
    asymmetry := line.delayCoefficient
    rootDelay := last.rootDelay
    rootDispersion := last.rootDispersion + line.offsetSd + line.offsetBias
    admissionJitter := max (1 / 1000000000) line.admissionSd
    admissionSkew := admissionSkew
    controlRateSd := max (1 / 1000000000000) line.controlRateSd
    controlSkew := admissionSkew
    controlOffsetSd := line.controlOffsetSd
    rawNs := last.rawNs
    utcNs := utcNs
    firstRawNs := first.rawNs
    samples := points.length
    runs := line.activeRuns }

/-- The estimate of fewer than three samples. -/
def coarse (s : Source K) : Estimate K :=
  let last := s.samples.getLastD {}
  { rawNs := last.rawNs
    utcNs := last.utcNs
    firstRawNs := (s.samples.headD {}).rawNs
    samples := s.samples.length
    rootDelay := last.rootDelay
    rootDispersion := last.rootDispersion + 4 }

/-- The line of the window from `fitStart`. -/
def line (config : Config K) (noise : NoiseScale K) (s : Source K) : Line K :=
  let (start, extraCount) := s.horizon
  regress (s.samples.drop s.fitStart) config.precision s.asymmetry noise (s.samples.drop start)
    (s.extra extraCount) s.predecessorRawNs s.predecessorUtcNs

def withEstimate (s : Source K) (e : Estimate K) : Source K :=
  { s with status := { s.status with estimate := e } }

/-- The loop of `fit`, which drops the oldest sample of the window while its runs are short. -/
def fitFrom (config : Config K) (noise : NoiseScale K) : Nat → Source K → Source K
  | 0, s => s.withEstimate s.coarse
  | fuel + 1, s =>
    let activeCount := s.samples.length - s.fitStart
    if activeCount < 3 then s.withEstimate s.coarse
    else
      let line := s.line config noise
      if runsShort config.minSamples activeCount line then
        fitFrom config noise fuel { s with fitStart := s.fitStart + 1 }
      else s.withEstimate (s.estimate line)

def fit (config : Config K) (s : Source K) : Source K :=
  if s.samples.isEmpty then s.withEstimate {}
  else
    let noise := noiseScale (s.samples.drop s.fitStart) config.precision
    (s.learn config).fitFrom config noise s.samples.length

/-- A full history gives its oldest sample to the predecessors. -/
def retireOldest (room : Nat) (s : Source K) : Source K :=
  let old := s.samples.headD {}
  let s :=
    if s.predecessors.isEmpty then
      { s with predecessorRawNs := old.rawNs, predecessorUtcNs := old.utcNs }
    else s
  let phase := ((old.utcNs : Int) - s.predecessorUtcNs) - ((old.rawNs : Int) - s.predecessorRawNs)
  let fits := -2 ^ 31 ≤ phase ∧ phase < 2 ^ 31
  let s :=
    if fits then s
    else
      { s with
        predecessors := []
        predecessorRawNs := old.rawNs
        predecessorUtcNs := old.utcNs
        runsCount := min s.runsCount s.samples.length }
  let phase := if fits then phase else 0
  let kept := if s.predecessors.length = room then s.predecessors.drop 1 else s.predecessors
  { s with
    predecessors := kept ++ [⟨old.rawNs, phase, old.delay⟩]
    samples := s.samples.drop 1
    fitStart := s.fitStart - 1 }

/-- The test horizon is aged, and a full history makes room. -/
def makeRoom (config : Config K) (room : Nat) (s : Source K) : Source K :=
  let s := { s with runsCount := min s.runsCount (2 * (s.samples.length - s.fitStart)) }
  if s.samples.length = min config.maxSamples room then s.retireOldest room else s

def withSample (config : Config K) (room : Nat) (measurement : Measurement K) (now : Nat)
    (s : Source K) : Source K :=
  { s with
    samples := s.samples ++ [measurement]
    runsCount := min (s.runsCount + 1) (2 * min config.maxSamples room - 1)
    synchronized := true
    status := { s.status with
      lastAcceptedNs := now
      replace := false
      generation := s.status.generation + 1 } }

/-- The least delay of the fit, and whether there is one. -/
def graded (measurement : Measurement K) (s : Source K) : Source K :=
  { s with
    minDelay := (s.samples.drop s.fitStart).foldl (fun d m => min d m.delay) measurement.delay
    status := { s.status with
      reason := if s.status.estimate.valid then .none else .insufficientSamples } }

def append (config : Config K) (room : Nat) (measurement : Measurement K) (now : Nat)
    (s : Source K) : Source K :=
  graded measurement (((s.makeRoom config room).withSample config room measurement now).fit config)

end Source

end WsprryPico.Microchrony
