import Mathlib.Tactic.NormNum
import WsprryPico.Wtp.Step

/-!
# Waveform plans

`rf/waveform.cpp`: the sample timeline and the oscillator increments of a job.
`planJob` rejects a job it cannot realize and is otherwise a function of the
job and the frequency correction. The three sample rates a build may select
are `SampleRate`. `max_correction_ppb` bounds the correction either way.

A plan with adjustments refused by the job is never returned, so the
adjustments of a plan are always `usable`.
-/

namespace WsprryPico.Rf

open Wtp

/-! ## Rates and increments -/

/-- The values `WSPRRY_PICO_RF_SAMPLE_RATE_HZ` may take. -/
inductive SampleRate where
  | mhz132 | mhz138 | mhz150

def SampleRate.hz : SampleRate → UInt64
  | .mhz132 => 132000000
  | .mhz138 => 138000000
  | .mhz150 => 150000000

def minimumFrequencyNhz : UInt64 := 100000000000000
def SampleRate.maximumFrequencyNhz (rate : SampleRate) : UInt64 := (rate.hz / 2 - 1) * 1000000000
def maxEvents : Nat := 512
def maxDurationNs : UInt64 := 3600000000000
def blockSamples : UInt64 := 16384 * 32
def maxCorrectionPpb : Int := 100000

def correctionInRange (ppb : Int) : Bool := -maxCorrectionPpb ≤ ppb ∧ ppb ≤ maxCorrectionPpb

/-- The default tone increments. -/
def SampleRate.increments (rate : SampleRate) : List UInt32 :=
  [0, 1, 2, 3].map fun i : UInt64 =>
    ((3570100 * 4294967296 + i * (375 * 16777216) + rate.hz / 2) / rate.hz).toUInt32

/-- WTP's integer nHz representation, rounded from the exact NCO rational. -/
def SampleRate.realizedNhz (rate : SampleRate) (increment : UInt32) : UInt64 :=
  let product := rate.hz * increment.toUInt64
  let fraction := product % 4294967296
  product / 4294967296 * 1000000000 + (fraction * 1000000000 + 2147483648) / 4294967296

/-- The long division of `frequency_increment`: `bits` quotient bits from
`remainder`, and the remainder they leave. -/
def divideBits (divisor : UInt64) : Nat → UInt64 → UInt64 → UInt64 × UInt64
  | 0, remainder, quotient => (remainder, quotient)
  | bits + 1, remainder, quotient =>
    if remainder * 2 ≥ divisor then
      divideBits divisor bits (remainder * 2 - divisor) (quotient * 2 + 1)
    else divideBits divisor bits (remainder * 2) (quotient * 2)

/-- The rounded quotient of `frequencyNhz * 2^32` and `divisor`. -/
def divideRounded (divisor frequencyNhz : UInt64) : UInt64 :=
  let (remainder, quotient) := divideBits divisor 32 frequencyNhz 0
  if remainder * 2 ≥ divisor then quotient + 1 else quotient

def SampleRate.frequencyIncrement (rate : SampleRate) (frequencyNhz : UInt64)
    (correctionPpb : Int) : Option UInt32 :=
  if frequencyNhz < minimumFrequencyNhz ∨ frequencyNhz > rate.maximumFrequencyNhz ∨
      ¬ correctionInRange correctionPpb then none
  else
    let divisor := rate.hz * UInt64.ofNat (1000000000 + correctionPpb).toNat
    let quotient := divideRounded divisor frequencyNhz
    if quotient = 0 ∨ quotient ≥ 2147483648 then none else some quotient.toUInt32

/-- The sample of an absolute time: the nearest one, or the next one for the end
of a final RF-off interval. -/
def SampleRate.samplesAt (rate : SampleRate) (ns : UInt64) (terminalOff : Bool) : Option UInt64 :=
  if ns > maxDurationNs then none
  else
    let common := UInt64.ofNat (Nat.gcd rate.hz.toNat 1000000000)
    let numerator := rate.hz / common
    let denominator := 1000000000 / common
    if terminalOff then some ((ns * numerator + denominator - 1) / denominator)
    else some ((ns * numerator + denominator / 2) / denominator)

/-! ## Plans -/

structure Segment where
  endSample : UInt64 := 0
  /-- Zero means RF off; the phase is frozen. -/
  increment : UInt32 := 0
  toneIndex : Nat := 0
  deriving DecidableEq

/-- `Plan`. The distinct increments stand without the zero padding; `count` is
the number of segments. -/
structure Plan where
  toneIncrements : List UInt32
  segments : List Segment := []
  totalSamples : UInt64 := 0
  deriving DecidableEq

/-- `Plan{}`. -/
def SampleRate.noPlan (rate : SampleRate) : Plan := { toneIncrements := rate.increments }

/-- The running totals of the event loop of `plan_job`. -/
structure PlanCursor where
  ns : UInt64 := 0
  sample : UInt64 := 0
  tones : List UInt32 := []

/-- The tone table with `increment` in it, and its index. -/
def findTone (increment : UInt32) (tones : List UInt32) : Option (List UInt32 × Nat) :=
  if tones.contains increment then some (tones, tones.idxOf increment)
  else if tones.length = 4 then none
  else some (tones ++ [increment], tones.length)

/-- The oscillator setting of one event: its increment, tones and tone index. -/
def SampleRate.planTone (rate : SampleRate) (allowAdjustment : Bool) (correctionPpb : Int)
    (tones : List UInt32) (event : RfEvent) : Option (UInt32 × List UInt32 × Nat) :=
  match event.rfOn, event.frequencyNhz with
  | true, none => none
  | true, some frequency => do
    let increment ← rate.frequencyIncrement frequency correctionPpb
    if !allowAdjustment ∧ rate.realizedNhz increment ≠ frequency then none
    let (tones, index) ← findTone increment tones
    return (increment, tones, index)
  | false, some _ => none
  | false, none => some (0, tones, 0)

/-- One round of the event loop of `plan_job`; `last` marks the final event. -/
def SampleRate.planEvent (rate : SampleRate) (job : Job) (correctionPpb : Int) (last : Bool)
    (cursor : PlanCursor) (event : RfEvent) : Option (Segment × PlanCursor) := do
  if event.offsetNs ≠ cursor.ns ∨ event.durationNs = 0 ∨
      event.durationNs > job.totalDurationNs - cursor.ns then none
  let ns := cursor.ns + event.durationNs
  let sample ← rate.samplesAt ns (last && !event.rfOn)
  if sample ≤ cursor.sample then none
  let (increment, tones, index) ←
    rate.planTone job.allowFrequencyAdjustment correctionPpb cursor.tones event
  return (⟨sample, increment, index⟩, ⟨ns, sample, tones⟩)

def SampleRate.planEvents (rate : SampleRate) (job : Job) (correctionPpb : Int) :
    PlanCursor → List RfEvent → Option (List Segment × PlanCursor)
  | cursor, [] => some ([], cursor)
  | cursor, event :: rest => do
    let (segment, cursor) ← rate.planEvent job correctionPpb rest.isEmpty cursor event
    let (segments, cursor) ← rate.planEvents job correctionPpb cursor rest
    return (segment :: segments, cursor)

def planModes : List String := ["tone", "wspr", "qrss", "fskcw", "dfcw"]

/-- The checks of `plan_job` before its event loop. -/
def plannable (job : Job) (correctionPpb : Int) : Bool :=
  correctionInRange correctionPpb && (correctionPpb = 0 || job.allowFrequencyAdjustment) &&
  validId job.jobId && !job.jobId.toList.all (· == '0') && job.profile = "rf-events/1" &&
  planModes.contains job.mode && job.events.valid && !job.events.isEmpty &&
  job.events.size ≤ maxEvents && job.totalDurationNs ≠ 0

def SampleRate.planJob (rate : SampleRate) (job : Job) (correctionPpb : Int) : Option Plan := do
  if !plannable job correctionPpb then none
  let total ← rate.samplesAt job.totalDurationNs (job.events.events.getLast?.any (!·.rfOn))
  if total = 0 then none
  let (segments, cursor) ← rate.planEvents job correctionPpb {} job.events.events
  if cursor.ns ≠ job.totalDurationNs then none
  return { toneIncrements := cursor.tones, segments := segments, totalSamples := total }

/-- The adjustments of a plan, from event `index` on. -/
def SampleRate.adjustments (rate : SampleRate) :
    Nat → List RfEvent → List Segment → List FrequencyAdjustment
  | index, event :: events, segment :: segments =>
    let rest := rate.adjustments (index + 1) events segments
    let realized := rate.realizedNhz segment.increment
    match event.frequencyNhz with
    | some frequency =>
      if segment.increment ≠ 0 ∧ realized ≠ frequency then ⟨index, frequency, realized⟩ :: rest
      else rest
    | none => rest
  | _, _, _ => []

/-- The samples of `plan` from `first` on, `valid` of them: what `render` puts
into a buffer. -/
structure Block where
  plan : Plan
  first : UInt64 := 0
  valid : UInt64 := 0

/-! ## The adjustments of a plan -/

variable {rate : SampleRate} {job : Job} {correctionPpb : Int} {event : RfEvent}

theorem frequencyIncrement_range {frequency : UInt64} {increment : UInt32}
    (h : rate.frequencyIncrement frequency correctionPpb = some increment) :
    0 < increment.toNat ∧ increment.toNat < 2 ^ 31 := by
  unfold SampleRate.frequencyIncrement at h
  split at h
  · cases h
  · simp only at h
    generalize divideRounded _ frequency = quotient at h
    split at h
    · cases h
    · rename_i hrange
      cases h
      rw [not_or, UInt64.not_le, UInt64.lt_iff_toNat_lt, ← UInt64.toNat_inj] at hrange
      have hbound : quotient.toNat < 2 ^ 31 := hrange.2
      have hpos : quotient.toNat ≠ 0 := hrange.1
      rw [UInt64.toNat_toUInt32]
      omega

theorem realizedNhz_pos {increment : UInt32} (hpos : 0 < increment.toNat)
    (hbound : increment.toNat < 2 ^ 31) : rate.realizedNhz increment ≠ 0 := by
  have hrate : 132000000 ≤ rate.hz.toNat ∧ rate.hz.toNat ≤ 150000000 := by
    cases rate <;> decide
  have hproduct : (rate.hz * increment.toUInt64).toNat = rate.hz.toNat * increment.toNat := by
    rw [UInt64.toNat_mul, UInt32.toNat_toUInt64, Nat.mod_eq_of_lt]
    calc rate.hz.toNat * increment.toNat
        ≤ 150000000 * 2 ^ 31 := Nat.mul_le_mul hrate.2 hbound.le
      _ < 2 ^ 64 := by norm_num
  have hlow : 132000000 ≤ rate.hz.toNat * increment.toNat :=
    hrate.1.trans (Nat.le_mul_of_pos_right _ hpos)
  have hhigh : rate.hz.toNat * increment.toNat < 150000000 * 2 ^ 31 :=
    lt_of_le_of_lt (Nat.mul_le_mul_right _ hrate.2) (by omega)
  intro hzero
  have hnat := congrArg UInt64.toNat hzero
  unfold SampleRate.realizedNhz at hnat
  simp only [UInt64.toNat_add, UInt64.toNat_mul, UInt64.toNat_div, UInt64.toNat_mod, hproduct,
    UInt64.reduceToNat] at hnat
  generalize rate.hz.toNat * increment.toNat = product at hlow hhigh hnat
  have hwhole : product / 4294967296 ≤ 75000000 := by omega
  have hfraction : product % 4294967296 < 4294967296 := Nat.mod_lt _ (by norm_num)
  have hsplit : 4294967296 * (product / 4294967296) + product % 4294967296 = product :=
    Nat.div_add_mod _ _
  generalize product / 4294967296 = whole at hwhole hsplit hnat
  generalize product % 4294967296 = fraction at hfraction hsplit hnat
  have hrounded : (fraction * 1000000000 + 2147483648) / 4294967296 ≤ 1000000000 := by omega
  rw [Nat.mod_eq_of_lt (a := whole * 1000000000) (by omega),
    Nat.mod_eq_of_lt (a := fraction * 1000000000) (by omega),
    Nat.mod_eq_of_lt (a := fraction * 1000000000 + 2147483648) (by omega),
    Nat.mod_eq_of_lt (by omega)] at hnat
  have hsmall : fraction * 1000000000 + 2147483648 < 4294967296 := by omega
  omega

/-- What a segment is of its event: an RF-on event runs at an increment in
range, at the requested frequency unless adjustments are allowed. -/
def Realizes (rate : SampleRate) (allowAdjustment : Bool) (event : RfEvent) (segment : Segment) :
    Prop :=
  segment.increment ≠ 0 → ∃ frequency, event.frequencyNhz = some frequency ∧
    (0 < segment.increment.toNat ∧ segment.increment.toNat < 2 ^ 31) ∧
    (allowAdjustment = true ∨ rate.realizedNhz segment.increment = frequency)

theorem planTone_cases {allowAdjustment : Bool} {tones tones' : List UInt32} {increment : UInt32}
    {index : Nat}
    (h : rate.planTone allowAdjustment correctionPpb tones event = some (increment, tones', index)) :
    (event.rfOn = true ∧ ∃ frequency, event.frequencyNhz = some frequency ∧
      rate.frequencyIncrement frequency correctionPpb = some increment ∧
      (allowAdjustment = true ∨ rate.realizedNhz increment = frequency) ∧
      findTone increment tones = some (tones', index)) ∨
    (event.rfOn = false ∧ event.frequencyNhz = none ∧ increment = 0 ∧ tones' = tones ∧
      index = 0) := by
  unfold SampleRate.planTone at h
  split at h
  · cases h
  · rename_i frequency hon hfrequency
    obtain ⟨selected, hselected, h⟩ := Option.bind_eq_some_iff.1 h
    split at h
    · cases h
    rename_i hallowed
    obtain ⟨⟨tones₁, index₁⟩, hfound, h⟩ := Option.bind_eq_some_iff.1 h
    cases h
    refine .inl ⟨hon, frequency, hfrequency, hselected, ?_, hfound⟩
    cases allowAdjustment with
    | true => exact .inl rfl
    | false => exact .inr (by simpa using hallowed)
  · cases h
  · rename_i hoff hnone
    cases h
    exact .inr ⟨hoff, hnone, rfl, rfl, rfl⟩

theorem planEvent_cases {last : Bool} {cursor cursor' : PlanCursor} {segment : Segment}
    (h : rate.planEvent job correctionPpb last cursor event = some (segment, cursor')) :
    (event.offsetNs = cursor.ns ∧ event.durationNs ≤ job.totalDurationNs - cursor.ns) ∧
    rate.samplesAt (cursor.ns + event.durationNs) (last && !event.rfOn) =
      some segment.endSample ∧
    cursor.sample < segment.endSample ∧
    (cursor'.ns = cursor.ns + event.durationNs ∧ cursor'.sample = segment.endSample) ∧
    rate.planTone job.allowFrequencyAdjustment correctionPpb cursor.tones event =
      some (segment.increment, cursor'.tones, segment.toneIndex) := by
  unfold SampleRate.planEvent at h
  split at h
  · cases h
  rename_i hplace
  obtain ⟨sample, hsample, h⟩ := Option.bind_eq_some_iff.1 h
  split at h
  · cases h
  rename_i hlater
  obtain ⟨⟨increment, tones, index⟩, htone, h⟩ := Option.bind_eq_some_iff.1 h
  cases h
  simp only [not_or, not_not, UInt64.not_lt] at hplace
  exact ⟨⟨hplace.1, hplace.2.2⟩, hsample, UInt64.not_le.mp hlater, ⟨rfl, rfl⟩, htone⟩

theorem planJob_cases {plan : Plan} (h : rate.planJob job correctionPpb = some plan) :
    job.events.events ≠ [] ∧
    rate.samplesAt job.totalDurationNs (job.events.events.getLast?.any (!·.rfOn)) =
      some plan.totalSamples ∧
    ∃ cursor, rate.planEvents job correctionPpb {} job.events.events =
        some (plan.segments, cursor) ∧
      cursor.ns = job.totalDurationNs ∧ cursor.tones = plan.toneIncrements := by
  unfold SampleRate.planJob at h
  split at h
  · cases h
  rename_i hplannable
  obtain ⟨total, htotal, h⟩ := Option.bind_eq_some_iff.1 h
  split at h
  · cases h
  obtain ⟨⟨segments, cursor⟩, hevents, h⟩ := Option.bind_eq_some_iff.1 h
  simp only at h
  split at h
  · cases h
  · rename_i hns
    cases h
    refine ⟨fun hnil => hplannable ?_, htotal, cursor, hevents, not_not.mp hns, rfl⟩
    simp [plannable, EventList.isEmpty, hnil]

theorem planEvent_realizes {last : Bool} {cursor cursor' : PlanCursor} {segment : Segment}
    (h : rate.planEvent job correctionPpb last cursor event = some (segment, cursor')) :
    Realizes rate job.allowFrequencyAdjustment event segment := by
  obtain ⟨-, -, -, -, htone⟩ := planEvent_cases h
  intro hne
  obtain ⟨-, frequency, hfrequency, hincrement, hallowed, -⟩ | ⟨-, -, hzero, -⟩ :=
    planTone_cases htone
  · exact ⟨frequency, hfrequency, frequencyIncrement_range hincrement, hallowed⟩
  · exact absurd hzero hne

theorem planEvents_realizes {events : List RfEvent} {cursor cursor' : PlanCursor}
    {segments : List Segment}
    (h : rate.planEvents job correctionPpb cursor events = some (segments, cursor')) :
    List.Forall₂ (Realizes rate job.allowFrequencyAdjustment) events segments := by
  induction events generalizing cursor segments with
  | nil =>
    cases h
    exact .nil
  | cons event events ih =>
    obtain ⟨⟨segment, cursor₁⟩, hevent, h⟩ := Option.bind_eq_some_iff.1 h
    obtain ⟨⟨segments', cursor₂⟩, hevents, h⟩ := Option.bind_eq_some_iff.1 h
    cases h
    exact .cons (planEvent_realizes hevent) (ih hevents)

theorem planJob_realizes {plan : Plan} (h : rate.planJob job correctionPpb = some plan) :
    List.Forall₂ (Realizes rate job.allowFrequencyAdjustment) job.events.events plan.segments := by
  obtain ⟨-, -, cursor, hevents, -⟩ := planJob_cases h
  exact planEvents_realizes hevents

theorem adjustments_nil {index : Nat} {events : List RfEvent} {segments : List Segment}
    (h : List.Forall₂ (Realizes rate false) events segments) :
    rate.adjustments index events segments = [] := by
  induction h generalizing index with
  | nil => rfl
  | cons hrealizes _ ih =>
    unfold SampleRate.adjustments
    split
    · rename_i frequency hfrequency
      rw [ih, if_neg]
      rintro ⟨hne, hdiffers⟩
      obtain ⟨frequency', hfrequency', -, hsame⟩ := hrealizes hne
      rw [hfrequency] at hfrequency'
      exact hdiffers ((hsame.resolve_left (by simp)).trans (Option.some.inj hfrequency').symm)
    · exact ih

/-- The adjustments from event `done.length` on are valid after those of `done`. -/
theorem adjustments_valid {allowAdjustment : Bool} (done : List RfEvent) {events : List RfEvent}
    {segments : List Segment} (prior : List FrequencyAdjustment)
    (h : List.Forall₂ (Realizes rate allowAdjustment) events segments)
    (hprior : ∀ adjustment ∈ prior, adjustment.eventIndex < done.length) :
    adjustmentsValid (done ++ events) prior
      (rate.adjustments done.length events segments) = true := by
  induction h generalizing done prior with
  | nil => rfl
  | @cons event segment events segments hrealizes _ ih =>
    have hrest : ∀ prior' : List FrequencyAdjustment,
        (∀ adjustment ∈ prior', adjustment.eventIndex < done.length + 1) →
        adjustmentsValid (done ++ event :: events) prior'
          (rate.adjustments (done.length + 1) events segments) = true := by
      intro prior' hprior'
      have hih := ih (done ++ [event]) prior' (by simpa using hprior')
      simpa using hih
    have hweak : ∀ adjustment ∈ prior, adjustment.eventIndex < done.length + 1 :=
      fun adjustment hmem => (hprior adjustment hmem).trans (Nat.lt_succ_self _)
    unfold SampleRate.adjustments
    split
    · rename_i frequency hfrequency
      dsimp only
      split
      · rename_i hadjusted
        obtain ⟨-, -, ⟨hpos, hbound⟩, -⟩ := hrealizes hadjusted.1
        unfold adjustmentsValid
        rw [if_neg]
        · refine hrest _ fun adjustment hmem => ?_
          rcases List.mem_append.1 hmem with hold | hnew
          · exact hweak adjustment hold
          · rw [List.mem_singleton.1 hnew]
            exact Nat.lt_succ_self _
        · have hfresh : ¬ ∃ x ∈ prior, x.eventIndex = done.length := by
            rintro ⟨x, hmem, heq⟩
            exact absurd (hprior x hmem) (by omega)
          simpa [hfrequency, realizedNhz_pos hpos hbound] using hfresh
      · exact hrest prior hweak
    · exact hrest prior hweak

/-- JobService accepts the adjustments of every plan. -/
theorem adjustments_usable {plan : Plan} (h : rate.planJob job correctionPpb = some plan) :
    PrepareResult.usable job
      { accepted := true, adjustments := rate.adjustments 0 job.events.events plan.segments } := by
  have hrealizes := planJob_realizes h
  refine ⟨rfl, ?_, ?_⟩
  · cases hallow : job.allowFrequencyAdjustment with
    | true => exact .inl rfl
    | false => exact .inr (adjustments_nil (hallow ▸ hrealizes))
  · simpa using adjustments_valid [] [] hrealizes (by simp)

end WsprryPico.Rf
