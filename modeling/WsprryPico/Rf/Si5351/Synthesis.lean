import WsprryPico.Rf.Si5351.Plan

/-!
# The synthesis of Si5351 plans

`divider`, `tone`, `pll_tone`, `plan_reference`, `plan` and `valid_plan` of `rf/si5351_plan.cpp`.
`F` stands for `long double`: any type with its operations. Read exactly, it is a field; nothing
here depends on how it rounds.
-/

namespace WsprryPico.Rf.Si5351

/-- The functions of `<cmath>` the synthesis uses. -/
class LongDouble (F : Type) where
  isFinite : F → Bool
  floor : F → Int
  round : F → Int
  fabs : F → F

open LongDouble

variable {F : Type} [Add F] [Sub F] [Mul F] [Div F] [NatCast F] [IntCast F] [LE F] [LT F]
  [DecidableLE F] [DecidableLT F] [DecidableEq F] [LongDouble F]

/-! ## Dividers -/

def maximumDenominator : Nat := 1048575

def Divider.ratio (d : Divider) : F :=
  (d.integer.toNat : F) + (d.numerator.toNat : F) / (d.denominator.toNat : F)

/-- Two consecutive convergents `p0 / q0` and `p1 / q1` of a continued fraction. -/
structure Convergents where
  p0 : Nat := 0
  q0 : Nat := 1
  p1 : Nat := 1
  q1 : Nat := 0

def Convergents.next (coefficient : Nat) (s : Convergents) : Convergents :=
  ⟨s.p1, s.q1, s.p0 + coefficient * s.p1, s.q0 + coefficient * s.q1⟩

/-- A coefficient beyond which the denominator is too large. -/
def Convergents.full (coefficient : Int) (s : Convergents) : Bool :=
  (maximumDenominator : Int) < coefficient ||
    (s.q1 ≠ 0 && (((maximumDenominator - s.q0) / s.q1 : Nat) : Int) < coefficient)

/-- The loop over the continued fraction, and whether it left the loop by itself. -/
def converge : Nat → F → Convergents → Convergents × Bool
  | 0, _, s => (s, false)
  | iterations + 1, remainder, s =>
    if !isFinite remainder then (s, true)
    else
      let coefficient := floor remainder
      if s.full coefficient then (s, true)
      else
        let s := s.next coefficient.toNat
        let fractional := remainder - (coefficient : F)
        if fractional = ((0 : Nat) : F) then (s, true)
        else converge iterations (((1 : Nat) : F) / fractional) s

/-- The last convergent, or the last legal semiconvergent if it is closer. -/
def Convergents.closest (target : F) (s : Convergents) : Nat × Nat :=
  let scale := (maximumDenominator - s.q0) / s.q1
  let bp := s.p0 + scale * s.p1
  let bq := s.q0 + scale * s.q1
  if bq ≠ 0 ∧ fabs ((bp : F) / (bq : F) - target) < fabs ((s.p1 : F) / (s.q1 : F) - target) then
    (bp, bq)
  else (s.p1, s.q1)

def dividerP1 (a b c : Nat) : Nat := 128 * a + 128 * b / c - 512

def dividerP2 (b c : Nat) : Nat := 128 * b - c * (128 * b / c)

def dividerRegisters (p q c rCode : Nat) : Vector UInt8 8 :=
  #v[(c >>> 8).toUInt8, c.toUInt8, (((p >>> 16) &&& 3) ||| (rCode <<< 4)).toUInt8, (p >>> 8).toUInt8,
    p.toUInt8, (((c >>> 16) <<< 4) ||| ((q >>> 16) &&& 15)).toUInt8, (q >>> 8).toUInt8, q.toUInt8]

/-- The divider `a + b / c`. -/
def encodeDivider (a b c rCode : Nat) : Divider :=
  { integer := a.toUInt32
    numerator := b.toUInt32
    denominator := c.toUInt32
    p1 := (dividerP1 a b c).toUInt32
    p2 := (dividerP2 b c).toUInt32
    p3 := c.toUInt32
    registers := dividerRegisters (dividerP1 a b c) (dividerP2 b c) c rCode }

/-- A fraction that rounds to one is carried into the integer. -/
def carried (a : Nat) (fraction : Nat × Nat) : Nat × Nat × Nat :=
  if fraction.1 = fraction.2 then (a + 1, 0, 1) else (a, fraction.1, fraction.2)

/-- The fraction in its lowest terms. -/
def reduced (abc : Nat × Nat × Nat) : Nat × Nat × Nat :=
  let common := Nat.gcd abc.2.1 abc.2.2
  (abc.1, abc.2.1 / common, abc.2.2 / common)

def encodable (abc : Nat × Nat × Nat) : Bool :=
  dividerP1 abc.1 abc.2.1 abc.2.2 < 2 ^ 18 && dividerP2 abc.2.1 abc.2.2 < 2 ^ 20 &&
    abc.2.2 ≤ maximumDenominator

def divider (ratio : F) (rCode : Nat) : Option Divider :=
  if !isFinite ratio || decide (ratio < ((8 : Nat) : F)) || decide (((2048 : Nat) : F) < ratio) ||
      7 < rCode then none
  else
    let a := (floor ratio).toNat
    let target := ratio - (a : F)
    let s := (converge 64 target {}).1
    if s.q1 = 0 then none
    else
      let abc := reduced (carried a (s.closest target))
      if !encodable abc then none else some (encodeDivider abc.1 abc.2.1 abc.2.2 rCode)

/-! ## Tones -/

def minimumOutputHz : Nat := 8000
def maximumOutputHz : Nat := 160000000
def vhfDenominatorMinimum : Nat := 983040
def vhfDenominatorMaximum : Nat := 1048575
def vhfDenominatorSpanMaximum : Nat := 4095
def vhfCandidateEvaluationsMaximum : Nat := 32768

/-- `Tone`, with its frequencies. -/
structure RatedTone (F : Type) where
  requestedNhz : UInt64
  programmedHz : F
  achievedHz : F
  errorHz : F
  multisynth : Divider
  pll : Option Divider := none
  rDivider : Nat := 1
  control : UInt8
  deriving DecidableEq

/-- The MultiSynth runs below 1 MHz, or its ratio is too large. -/
def needsR (target pll : F) (rCode : Nat) : Bool :=
  target * ((1 <<< rCode : Nat) : F) < ((1000000 : Nat) : F) ||
    ((2048 : Nat) : F) < pll / (target * ((1 <<< rCode : Nat) : F))

/-- The loop over the R divider; `left` is how often it may still double. -/
def findRCode (target pll : F) : (left rCode : Nat) → Nat
  | 0, rCode => rCode
  | left + 1, rCode =>
    if needsR target pll rCode then findRCode target pll left (rCode + 1) else rCode

def tone (requested : UInt64) (target pll : F) (drive : UInt32) (pllB : Bool) (maximumError : F) :
    Option (RatedTone F) :=
  if requested = 0 || !isFinite target || target ≤ ((0 : Nat) : F) then none
  else
    let rCode := findRCode target pll 7 0
    if target * ((1 <<< rCode : Nat) : F) < ((1000000 : Nat) : F) then none
    else
      match divider (pll / (target * ((1 <<< rCode : Nat) : F))) rCode with
      | none => none
      | some ms =>
        let achieved := pll / ms.ratio / ((1 <<< rCode : Nat) : F)
        if maximumError < fabs (achieved - target) then none
        else
          some
            { requestedNhz := requested
              programmedHz := target
              achievedHz := achieved
              errorHz := achieved - target
              multisynth := ms
              rDivider := 1 <<< rCode
              control := 0x0c ||| (if pllB then 0x20 else 0) ||| (if ms.integerMode then 0x40 else 0) |||
                (drive / 2 - 1).toUInt8 }

/-- The fixed MultiSynth of a tone that retunes its PLL. -/
def integerMultisynth (integerMs : Nat) : Divider :=
  let p1 := if integerMs = 6 then 256 else 0
  { integer := integerMs.toUInt32
    p1 := p1.toUInt32
    registers := #v[0, 1, if integerMs = 4 then 0x0c else 0, (p1 >>> 8).toUInt8, p1.toUInt8, 0, 0, 0] }

/-- What a search for PLL tones has in common for all its candidates. -/
structure PllSearch (F : Type) where
  reference : Nat
  drive : UInt32
  integerMs : Nat
  maximumError : F
  commonP1 : UInt32

/-- The integer and the numerator over `c`, a full one carried. -/
def pllFraction (integer b c : Nat) : Nat × Nat := if b = c then (integer + 1, 0) else (integer, b)

def pllCandidate (search : PllSearch F) (requested : UInt64) (target : F) (c : Nat) :
    Option (RatedTone F) :=
  let ratio := target * (search.integerMs : F) / (search.reference : F)
  let integer := (floor ratio).toNat
  let fraction := ratio - (integer : F)
  let b := (round (fraction * (c : F))).toNat
  if search.maximumError * (search.integerMs : F) / (search.reference : F) * (c : F) <
      fabs (fraction * (c : F) - (b : F)) then none
  else
    let pll := encodeDivider (pllFraction integer b c).1 (pllFraction integer b c).2 c 0
    if pll.p1 ≠ search.commonP1 then none
    else
      let achieved := pll.ratio * (search.reference : F) / (search.integerMs : F)
      if fabs (achieved - target) ≤ search.maximumError then
        some
          { requestedNhz := requested
            programmedHz := target
            achievedHz := achieved
            errorHz := achieved - target
            multisynth := integerMultisynth search.integerMs
            pll := some pll
            control := 0x4c ||| (search.drive / 2 - 1).toUInt8 }
      else none

/-- The candidates still allowed, and how many were evaluated. -/
structure Evaluations where
  remaining : Nat
  evaluated : Nat := 0

/-- The loop over the denominators of a band, from `c` down to `low`. -/
def searchDenominator (search : PllSearch F) (requested : UInt64) (target : F) (low : Nat) :
    (remaining evaluated c : Nat) → Option (RatedTone F) × Evaluations
  | 0, evaluated, _ => (none, ⟨0, evaluated⟩)
  | remaining + 1, evaluated, c =>
    if low ≤ c then
      match pllCandidate search requested target c with
      | some tone => (some tone, ⟨remaining, evaluated + 1⟩)
      | none => searchDenominator search requested target low remaining (evaluated + 1) (c - 1)
    else (none, ⟨remaining + 1, evaluated⟩)

/-- The checks of `pll_tone` before its search. -/
def pllFeasible (search : PllSearch F) (target : F) : Bool :=
  let output := target * (search.integerMs : F)
  (search.integerMs = 4 || search.integerMs = 6) && !(target ≤ ((0 : Nat) : F)) &&
    !((maximumOutputHz : F) < target) && !(output < ((600000000 : Nat) : F)) &&
    !(((900000000 : Nat) : F) < output) && !(output / (search.reference : F) < ((15 : Nat) : F)) &&
    !(((90 : Nat) : F) < output / (search.reference : F))

def pllTone (search : PllSearch F) (low high : Nat) (requested : UInt64) (target : F)
    (evaluations : Evaluations) : Option (RatedTone F) × Evaluations :=
  if pllFeasible search target then
    searchDenominator search requested target low evaluations.remaining evaluations.evaluated high
  else (none, evaluations)

/-! ## Plans -/

/-- The storage of a tone that is not used. -/
def RatedTone.empty : RatedTone F :=
  { requestedNhz := 0
    programmedHz := ((0 : Nat) : F)
    achievedHz := ((0 : Nat) : F)
    errorHz := ((0 : Nat) : F)
    multisynth := {}
    control := 0 }

/-- `Plan`, with its frequencies and the whole storage of its tones. -/
structure RatedPlan (F : Type) where
  configuration : Configuration
  transmitPll : Divider
  toneStorage : Vector (RatedTone F) maximumTones
  toneCount : Nat := 0
  loopbackPll : Option Divider := none
  loopback : Option (RatedTone F) := none
  correctionPpb : Int
  transmitPllHz : F
  loopbackPllHz : F
  maximumErrorHz : F
  deriving DecidableEq

def RatedPlan.tones (p : RatedPlan F) : List (RatedTone F) :=
  if p.toneCount ≤ maximumTones then p.toneStorage.toList.take p.toneCount else []

def RatedPlan.push (tone : RatedTone F) (p : RatedPlan F) : RatedPlan F :=
  { p with
    toneStorage := p.toneStorage.setIfInBounds p.toneCount tone
    toneCount := p.toneCount + 1 }

/-- Positive correction means a fast source, so that lower frequencies are programmed. -/
def correctionFactor (correction : Int) : F :=
  ((1 : Nat) : F) + (correction : F) / ((1000000000 : Nat) : F)

def targetHz (correction : Int) (requested : UInt64) : F :=
  (requested.toNat : F) / ((1000000000 : Nat) : F) / correctionFactor correction

/-- The PLL below its 900 MHz ceiling. -/
def planPll (config : Configuration) : Option Divider :=
  match divider (((899000000 : Nat) : F) / (config.referenceHz.toNat : F)) 0 with
  | none => none
  | some pll =>
    if (pll.ratio : F) < ((15 : Nat) : F) ∨ ((90 : Nat) : F) < (pll.ratio : F) then none else some pll

/-- The lowest and the highest target, if all are supported. -/
def targetBounds (correction : Int) : List UInt64 → F × F → Option (F × F)
  | [], bounds => some bounds
  | requested :: rest, (lowest, highest) =>
    let target : F := targetHz correction requested
    if requested.toNat < minimumOutputHz * 1000000000 ∨ (maximumOutputHz : F) < target then none
    else
      targetBounds correction rest
        (if target < lowest then target else lowest, if highest < target then target else highest)

/-- The fixed MultiSynth with which the PLL is retuned, zero where it stays; `none` if no MultiSynth
serves all targets. -/
def chooseMultisynth (lowest highest pllHz : F) : Option Nat :=
  if pllHz / ((8 : Nat) : F) < highest then
    if ((600000000 : Nat) : F) ≤ lowest * ((6 : Nat) : F) ∧
        highest * ((6 : Nat) : F) ≤ ((900000000 : Nat) : F) then some 6
    else if ((600000000 : Nat) : F) ≤ lowest * ((4 : Nat) : F) ∧
        highest * ((4 : Nat) : F) ≤ ((900000000 : Nat) : F) then some 4
    else none
  else some 0

/-- P1 of the feedback of a target. -/
def feedbackP1 (config : Configuration) (correction : Int) (integerMs : Nat) (requested : UInt64) :
    UInt32 :=
  let ratio : F := targetHz correction requested * (integerMs : F) / (config.referenceHz.toNat : F)
  (floor (((128 : Nat) : F) * ratio) - 512).toNat.toUInt32

/-- The tones of one band, up to the first that has none. -/
def fillBand (search : PllSearch F) (correction : Int) (low high : Nat) :
    List UInt64 → RatedPlan F → Evaluations → RatedPlan F × Evaluations
  | [], p, evaluations => (p, evaluations)
  | requested :: rest, p, evaluations =>
    match pllTone search low high requested (targetHz correction requested) evaluations with
    | (some tone, evaluations) => fillBand search correction low high rest (p.push tone) evaluations
    | (none, evaluations) => (p, evaluations)

/-- The bands of denominators, each tried from its first tone. -/
def searchBands (search : PllSearch F) (correction : Int) (frequencies : List UInt64) (high : Nat)
    (p : RatedPlan F) (evaluations : Evaluations) : RatedPlan F × Evaluations :=
  if h : vhfDenominatorMinimum ≤ high ∧ 0 < evaluations.remaining then
    let low := max vhfDenominatorMinimum (high - vhfDenominatorSpanMaximum)
    let filled := fillBand search correction low high frequencies { p with toneCount := 0 } evaluations
    if filled.1.toneCount = frequencies.length then filled
    else if low = vhfDenominatorMinimum then filled
    else searchBands search correction frequencies (low - 1) filled.1 filled.2
  else (p, evaluations)
termination_by high
decreasing_by
  have hmin : vhfDenominatorMinimum = 983040 := rfl
  omega

/-- The search as a plan runs it. -/
def vhfSearch (config : Configuration) (frequencies : List UInt64) (correction : Int)
    (maximumError : F) (integerMs : Nat) (commonP1 : UInt32) (p : RatedPlan F) :
    RatedPlan F × Evaluations :=
  searchBands ⟨config.referenceHz.toNat, config.driveMa, integerMs, maximumError, commonP1⟩
    correction frequencies vhfDenominatorMaximum p ⟨vhfCandidateEvaluationsMaximum, 0⟩

/-- The tones of a plan whose PLL is retuned for each. -/
def planRetuned (config : Configuration) (frequencies : List UInt64) (correction : Int)
    (maximumError : F) (integerMs : Nat) (p : RatedPlan F) : Except String (RatedPlan F) :=
  let p1 := feedbackP1 (F := F) config correction integerMs
  let commonP1 := p1 (frequencies.headD 0)
  if frequencies.any fun requested => p1 requested ≠ commonP1 then
    .error "incompatible_vhf_feedback_integer"
  else
    let p := (vhfSearch config frequencies correction maximumError integerMs commonP1 p).1
    if p.toneCount ≠ frequencies.length then .error "unsupported_vhf_tone_family"
    else
      match p.tones.head?.bind (·.pll) with
      | none => .error "unsupported_vhf_tone_family"
      | some pll =>
        .ok { p with
          transmitPll := pll
          transmitPllHz := pll.ratio * (config.referenceHz.toNat : F) }

/-- The tones of a plan with one PLL. -/
def planFixed (config : Configuration) (correction : Int) (maximumError : F) :
    List UInt64 → RatedPlan F → Except String (RatedPlan F)
  | [], p => .ok p
  | requested :: rest, p =>
    match tone requested (targetHz correction requested) p.transmitPllHz config.driveMa false
        maximumError with
    | none => .error "unsupported_frequency_or_quantization"
    | some tone => planFixed config correction maximumError rest (p.push tone)

/-- The loopback output, of the nominal oscillator. -/
def planLoopback (config : Configuration) (pll : Divider) (maximumError : F) (p : RatedPlan F) :
    Except String (RatedPlan F) :=
  match config.loopback with
  | none => .ok p
  | some _ =>
    let pllHz := pll.ratio * (config.referenceHz.toNat : F)
    match tone 1000000000000000 ((1000000 : Nat) : F) pllHz 2 true maximumError with
    | none => .error "invalid_loopback_plan"
    | some tone =>
      .ok { p with loopbackPll := some pll, loopbackPllHz := pllHz, loopback := some tone }

/-- The checks of `plan` on its arguments. -/
def planError (config : Configuration) (frequencies : List UInt64) (correction : Int)
    (maximumError : F) : Option String :=
  match validate config with
  | some error => some error
  | none =>
    if frequencies.isEmpty ∨ maximumTones < frequencies.length then some "invalid_plan_size"
    else if correction < -correctionLimitPpb ∨ correctionLimitPpb < correction then
      some "invalid_correction"
    else if !isFinite maximumError ∨ maximumError < ((0 : Nat) : F) ∨ ((1 : Nat) : F) < maximumError then
      some "invalid_quantization_budget"
    else none

def plan (config : Configuration) (frequencies : List UInt64) (correction : Int)
    (maximumError : F) : Except String (RatedPlan F) :=
  match planError config frequencies correction maximumError with
  | some error => .error error
  | none =>
    match planPll (F := F) config with
    | none => .error "invalid_pll"
    | some pll =>
      let begun : RatedPlan F :=
        { configuration := config
          transmitPll := pll
          toneStorage := .replicate maximumTones .empty
          correctionPpb := correction
          transmitPllHz := pll.ratio * (config.referenceHz.toNat : F)
          loopbackPllHz := ((0 : Nat) : F)
          maximumErrorHz := maximumError }
      match targetBounds correction frequencies ((maximumOutputHz : F), ((0 : Nat) : F)) with
      | none => .error "unsupported_frequency_or_quantization"
      | some (lowest, highest) =>
        match chooseMultisynth lowest highest begun.transmitPllHz with
        | none => .error "incompatible_pll_tone_set"
        | some integerMs =>
          let toned :=
            if integerMs ≠ 0 then
              planRetuned config frequencies correction maximumError integerMs begun
            else planFixed config correction maximumError frequencies begun
          match toned with
          | .error error => .error error
          | .ok p => planLoopback config pll maximumError p

def validPlan (supplied : RatedPlan F) : Bool :=
  if supplied.toneCount = 0 ∨ maximumTones < supplied.toneCount then false
  else
    match plan supplied.configuration (supplied.tones.map (·.requestedNhz)) supplied.correctionPpb
        supplied.maximumErrorHz with
    | .error _ => false
    | .ok rebuilt => rebuilt = supplied

/-! ## What a job reads of a plan -/

/-- A tone with the two results of its frequencies that are read. -/
def RatedTone.tone (t : RatedTone F) : Tone :=
  { requestedNhz := t.requestedNhz
    realizedNhz := (round (t.achievedHz * ((1000000000 : Nat) : F))).toNat.toUInt64
    adjusted := !(fabs (t.achievedHz - (t.requestedNhz.toNat : F) / ((1000000000 : Nat) : F)) <
      ((1 : Nat) : F) / ((2000000000 : Nat) : F))
    multisynth := t.multisynth
    pll := t.pll
    rDivider := t.rDivider.toUInt32
    control := t.control }

def RatedPlan.plan (p : RatedPlan F) : Plan :=
  { configuration := p.configuration
    transmitPll := p.transmitPll
    tones := p.tones.map (·.tone)
    loopbackPll := p.loopbackPll
    loopback := p.loopback.map (·.tone)
    correctionPpb := p.correctionPpb }

/-- The planner of a job, for one budget. -/
def synthesisOf (maximumError : F) (validPlan : Plan → Bool) (validReferencePlan : ReferencePlan → Bool) :
    Synthesis :=
  { plan := fun config frequencies correction =>
      (plan config frequencies correction maximumError).map RatedPlan.plan
    validPlan
    validReferencePlan }

end WsprryPico.Rf.Si5351
