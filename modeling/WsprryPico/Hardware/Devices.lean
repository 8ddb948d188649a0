import WsprryPico.Rf.Si5351.Plan
import WsprryPico.Time.Pairer

/-!
# Devices on pins

`hardware/pins.cpp`, `hardware/filter_settings.cpp`, `hardware/si5351_settings.cpp` and
`hardware/gps_settings.cpp`: the plan of the GPIOs, the settings of the filter bank, the
Si5351 and the GPS receiver, and their validators. A validator claims one GPIO after the
other in a table of owners; `none` is its empty error text.
-/

namespace WsprryPico.Hardware

structure I2cPair where
  controller : Nat
  sda : Nat
  scl : Nat

def i2cPairs : List I2cPair :=
  [⟨0, 0, 1⟩, ⟨0, 4, 5⟩, ⟨0, 8, 9⟩, ⟨0, 12, 13⟩, ⟨0, 16, 17⟩, ⟨0, 20, 21⟩,
   ⟨1, 2, 3⟩, ⟨1, 6, 7⟩, ⟨1, 10, 11⟩, ⟨1, 14, 15⟩, ⟨1, 18, 19⟩, ⟨1, 26, 27⟩]

def eligible (gp : Nat) : Bool := gp ≤ 22 || (gp ≥ 26 && gp ≤ 28)

inductive Engine where
  | direct | i2c
  deriving DecidableEq

inductive Indicator where
  | onboard | external | disabled
  deriving DecidableEq

structure PinPlan where
  engine : Engine := .direct
  rf : Option Nat := some 2
  i2cPair : Option Nat := none
  button : Option Nat := some 14
  amplifier : Option Nat := none
  lpf : List Nat := []
  indicator : Indicator := .onboard
  indicatorGp : Option Nat := none
  deriving DecidableEq

structure Validation where
  error : Option String := none
  role : String := ""
  owner : String := ""
  gp : Option Nat := none
  owners : Nat → String := fun _ => ""

namespace Validation

def valid (v : Validation) : Bool := v.error.isNone

def fail (error role : String) (v : Validation) : Validation :=
  { v with error := some error, role := role }

/-- Goes on with a table of owners, or ends with an error in it. -/
def ensure (condition : Bool) (failed : Validation) : Except Validation Unit :=
  if condition then .ok () else .error failed

def claim (gp : Nat) (role : String) (v : Validation) : Except Validation Validation :=
  if !eligible gp then .error { v.fail "invalid_gp" role with gp := some gp }
  else if v.owners gp ≠ "" then
    .error { v.fail "pin_conflict" role with gp := some gp, owner := v.owners gp }
  else .ok { v with owners := fun pin => if pin = gp then role else v.owners pin }

def claimAll : List (Nat × String) → Validation → Except Validation Validation
  | [], v => .ok v
  | (gp, role) :: rest, v => do
    let v ← v.claim gp role
    claimAll rest v

end Validation

namespace PinPlan

/-- A pin that may be absent, with its role. -/
def optional (gp : Option Nat) (role : String) : List (Nat × String) := gp.toList.map (·, role)

def engineValid (p : PinPlan) : Bool :=
  !(p.engine = .direct && (p.rf.isNone || p.i2cPair.isSome)) &&
  !(p.engine = .i2c && (p.rf.isSome || p.i2cPair.isNone))

def claimPair (p : PinPlan) (v : Validation) : Except Validation Validation :=
  match p.i2cPair with
  | none => .ok v
  | some index =>
    match i2cPairs[index]? with
    | none => .error (v.fail "invalid_pair" "i2c")
    | some pair => v.claimAll [(pair.sda, "i2c_sda"), (pair.scl, "i2c_scl")]

def lpfRoles (p : PinPlan) : List (Nat × String) := p.lpf.mapIdx fun i gp => (gp, s!"lpf_{i}")

def allocate (p : PinPlan) : Except Validation Validation := do
  Validation.ensure p.engineValid (Validation.fail "engine_allocation" "rf" {})
  let v ← Validation.claimAll (optional p.rf "rf") {}
  let v ← p.claimPair v
  let v ← v.claimAll (optional p.button "button")
  let v ← v.claimAll (optional p.amplifier "amplifier")
  Validation.ensure (p.lpf.length ≤ 26) (v.fail "too_many_selectors" "lpf")
  let v ← v.claimAll p.lpfRoles
  Validation.ensure ((p.indicator = .external) = p.indicatorGp.isSome)
    (v.fail "indicator_allocation" "indicator")
  v.claimAll (optional p.indicatorGp "indicator")

/-- `hardware::validate`. -/
def validate (p : PinPlan) : Validation :=
  match p.allocate with
  | .ok v => v
  | .error v => v

def operational (p : PinPlan) : Bool := p.validate.valid && p.lpf = []

end PinPlan

/-! ## Filters -/

structure FilterOutput where
  id : Nat := 0
  gp : Nat := 0
  name : List UInt8 := []
  deriving DecidableEq

structure FilterRange where
  name : List UInt8 := []
  selector : Nat := 0
  lowHz : Nat := 0
  highHz : Nat := 0
  deriving DecidableEq

def maximumOutputs : Nat := 5

def maximumRanges : Nat := 10

def maximumDelayMs : Nat := 250

structure FilterSettings where
  releaseMs : Nat := 20
  settleMs : Nat := 20
  outputCount : Nat := 0
  rangeCount : Nat := 0
  outputs : Vector FilterOutput maximumOutputs := .replicate _ {}
  ranges : Vector FilterRange maximumRanges := .replicate _ {}
  deriving DecidableEq

namespace FilterSettings

def used (s : FilterSettings) : List FilterOutput := s.outputs.toList.take s.outputCount

def mapped (s : FilterSettings) : List FilterRange := s.ranges.toList.take s.rangeCount

end FilterSettings

def nameValid (s : List UInt8) : Bool :=
  !(s.isEmpty || s.length > 16 || s.head? = some 32 || s.getLast? = some 32) &&
  s.all fun c => (97 ≤ c && c ≤ 122) || (65 ≤ c && c ≤ 90) || (48 ≤ c && c ≤ 57) || c = 32 ||
    c = 45 || c = 95 || c = 47

/-- The loop over the outputs, those before in `seen`. -/
def outputsError (seen : List FilterOutput) : List FilterOutput → Option String
  | [] => none
  | o :: rest =>
    if o.id = 0 || o.id > maximumOutputs || !nameValid o.name then some "invalid_filter_selector"
    else if seen.any fun p => p.id = o.id || p.name = o.name then
      some "duplicate_filter_selector"
    else outputsError (seen ++ [o]) rest

/-- A range against one before it. -/
def rangeConflict (r p : FilterRange) : Option String :=
  if p.name = r.name then some "duplicate_filter_range"
  else if p.selector ≠ r.selector && r.lowHz ≤ p.highHz && p.lowHz ≤ r.highHz then
    some "ambiguous_filter_range"
  else none

def rangesError (outputs : List FilterOutput) (seen : List FilterRange) :
    List FilterRange → Option String
  | [] => none
  | r :: rest =>
    if !(outputs.any (·.id = r.selector)) || !nameValid r.name || r.lowHz = 0 ||
        r.highHz > 1000000000 || r.lowHz > r.highHz then some "invalid_filter_range"
    else
      match seen.findSome? (rangeConflict r) with
      | some error => some error
      | none => rangesError outputs (seen ++ [r]) rest

def PinPlan.withFilters (p : PinPlan) (s : FilterSettings) : PinPlan :=
  { p with lpf := p.lpf ++ s.used.map (·.gp) }

def validateFilters (s : FilterSettings) (pins : PinPlan) : Option String :=
  if s.outputCount > maximumOutputs || s.rangeCount > maximumRanges ||
      s.releaseMs > maximumDelayMs || s.settleMs > maximumDelayMs then some "filter_limits"
  else
    match outputsError [] s.used with
    | some error => some error
    | none =>
      let allocation := (pins.withFilters s).validate
      match allocation.error with
      | some error => some ("filter_" ++ error ++ "_" ++ allocation.role ++ "_" ++ allocation.owner)
      | none => rangesError s.used [] s.mapped

/-! ## Si5351 -/

/-- `rf::ReferenceUse`. -/
inductive ReferenceUse where
  | measurementOnly | trustedLocal
  deriving DecidableEq

structure ReferencePolicy where
  use : ReferenceUse := .measurementOnly
  trustedUncertaintyPpb : Option Nat := none
  maximumAgeNs : Nat := 30000000000
  minimumWindowNs : Nat := 10000000000
  maximumWindowNs : Nat := 60000000000
  maximumMeasurementUncertaintyPpb : Nat := 1000

/-- `rf::valid_reference_policy`. -/
def ReferencePolicy.valid (p : ReferencePolicy) : Bool :=
  !(p.minimumWindowNs < 1000000000 || p.minimumWindowNs > p.maximumWindowNs ||
    p.maximumWindowNs > 60000000000 || p.maximumAgeNs = 0 || p.maximumAgeNs > 300000000000 ||
    p.maximumMeasurementUncertaintyPpb = 0 || p.maximumMeasurementUncertaintyPpb > 100000) &&
  match p.use with
  | .trustedLocal => p.trustedUncertaintyPpb.any fun ppb => 0 < ppb && ppb ≤ 100000
  | .measurementOnly => p.trustedUncertaintyPpb.isNone

def correctionLimitPpb : Int := 100000

structure Si5351Settings where
  synthesis : Rf.Si5351.Configuration := {}
  address : Nat := 0x60
  loopbackInput : Option Nat := none
  gate : Option Nat := none
  referenceUse : ReferenceUse := .measurementOnly
  trustedUncertaintyPpb : Option Nat := none
  manualCorrectionPpb : Int := 0
  automaticCalibration : Bool := false
  deriving DecidableEq

def validateSi5351Settings (s : Si5351Settings) : Option String :=
  match Rf.Si5351.validate s.synthesis with
  | some error => some error
  | none =>
    if s.address ≠ 0x60 then some "unsupported_address"
    else if s.synthesis.loopback.isSome ≠ s.loopbackInput.isSome then some "partial_loopback"
    else if s.loopbackInput.any fun gp => !eligible gp || gp % 2 = 0 then
      some "unsupported_capture_pin"
    else if s.gate.isSome && (!s.gate.all eligible || s.gate = s.loopbackInput) then
      some "invalid_gate_pin"
    else if !ReferencePolicy.valid
        { use := s.referenceUse, trustedUncertaintyPpb := s.trustedUncertaintyPpb } ||
        (s.referenceUse = .trustedLocal && s.loopbackInput.isNone) then
      some "invalid_reference_policy"
    else if s.manualCorrectionPpb < -correctionLimitPpb ||
        s.manualCorrectionPpb > correctionLimitPpb then some "invalid_correction"
    else if s.automaticCalibration && s.loopbackInput.isNone then
      some "automatic_calibration_requires_loopback"
    else none

structure Si5351Allocation where
  pins : Validation
  pwmSlice : Option Nat := none
  error : Option String := none

def Si5351Allocation.valid (a : Si5351Allocation) : Bool := a.pins.valid && a.error.isNone

def pwmSliceOf (gp : Nat) : Nat := (gp >>> 1) &&& 7

/-- The `claim` of `validate_si5351`: an error is one of the allocation. -/
def Si5351Allocation.claim (gp : Nat) (role : String) (a : Si5351Allocation) :
    Except Si5351Allocation Si5351Allocation :=
  if !eligible gp then
    .error { a with
      error := some "invalid_gp"
      pins := { a.pins with gp := some gp, role := role } }
  else if a.pins.owners gp ≠ "" then
    .error { a with
      error := some "pin_conflict"
      pins := { a.pins with gp := some gp, role := role, owner := a.pins.owners gp } }
  else
    .ok { a with pins := { a.pins with
      owners := fun pin => if pin = gp then role else a.pins.owners pin } }

def Si5351Allocation.claimLoopback (unavailablePwmSlices gp : Nat) (a : Si5351Allocation) :
    Except Si5351Allocation Si5351Allocation := do
  let a ← a.claim gp "loopback"
  if gp % 2 = 0 then .error { a with error := some "unsupported_capture_pin" }
  else if unavailablePwmSlices &&& (1 <<< pwmSliceOf gp) ≠ 0 then
    .error { a with error := some "pwm_slice_conflict" }
  else .ok { a with pwmSlice := some (pwmSliceOf gp) }

def Si5351Allocation.claimGate (s : Si5351Settings) (a : Si5351Allocation) :
    Except Si5351Allocation Si5351Allocation :=
  match s.gate with
  | some gp => a.claim gp "si5351_gate"
  | none => .ok a

/-- The gate and the loopback input. -/
def Si5351Allocation.claimDevice (s : Si5351Settings) (unavailablePwmSlices : Nat)
    (a : Si5351Allocation) : Except Si5351Allocation Si5351Allocation := do
  let a ← a.claimGate s
  match s.loopbackInput with
  | some gp => a.claimLoopback unavailablePwmSlices gp
  | none => .ok a

def validateSi5351 (plan : PinPlan) (s : Si5351Settings) (unavailablePwmSlices : Nat)
    (filters : FilterSettings) : Si5351Allocation :=
  let result : Si5351Allocation := { pins := plan.validate }
  if !result.pins.valid then result
  else
    match validateFilters filters plan with
    | some error => { result with error := some error }
    | none =>
      let result := { result with pins := (plan.withFilters filters).validate }
      if plan.engine ≠ .i2c then { result with error := some "inactive_si5351" }
      else
        match validateSi5351Settings s with
        | some error => { result with error := some error }
        | none =>
          match result.claimDevice s unavailablePwmSlices with
          | .ok a => a
          | .error a => a

/-! ## GPS -/

inductive Receiver where
  | qlg3 | e108
  deriving DecidableEq

inductive Location where
  | manual | gps
  deriving DecidableEq

inductive Daylight where
  | always | day | night
  deriving DecidableEq

structure GpsSettings where
  enabled : Bool := false
  receiver : Receiver := .qlg3
  rxGp : Nat := 1
  ppsGp : Nat := 3
  baud : Nat := 9600
  txGp : Option Nat := none
  pairingQualified : Bool := false
  utcSecondOffset : Int := 0
  ppsOffsetNs : Int := 0
  minimumMessageDelayMs : Nat := 0
  maximumMessageDelayMs : Nat := 800
  receiverUncertaintyUs : Nat := 100
  captureUncertaintyUs : Nat := 100
  location : Location := .manual
  positionMaximumAgeS : Nat := 30
  automaticRfCalibration : Bool := false
  calibrationMaximumAgeS : Nat := 3600
  daylight : Daylight := .always
  deriving DecidableEq

def GpsSettings.pairing (s : GpsSettings) : Time.Gps.PairingPolicy :=
  ⟨s.pairingQualified, s.utcSecondOffset, s.minimumMessageDelayMs * 1000000,
    s.maximumMessageDelayMs * 1000000, s.receiverUncertaintyUs * 1000, s.ppsOffsetNs⟩

def gpsUart (rx : Nat) : Option Nat :=
  if [1, 13, 17].contains rx then some 0
  else if [5, 9, 21].contains rx then some 1
  else none

def txUart (tx : Nat) : Option Nat :=
  if [0, 12, 16, 28].contains tx then some 0
  else if [4, 8, 20].contains tx then some 1
  else none

def validateGpsSettings (s : GpsSettings) : Option String :=
  let uart := gpsUart s.rxGp
  if uart.isNone || !eligible s.ppsGp || s.ppsGp % 2 = 0 || s.ppsGp = s.rxGp then
    some "invalid_gps_pins"
  else if s.baud ≠ 9600 && s.baud ≠ 19200 && s.baud ≠ 38400 && s.baud ≠ 115200 then
    some "unsupported_gps_baud"
  else if s.txGp.any fun tx =>
      s.receiver = .qlg3 || (txUart tx).isNone || txUart tx ≠ uart || tx = s.ppsGp then
    some "unsupported_gps_transmit"
  else if !({ s.pairing with qualified := true } : Time.Gps.PairingPolicy).valid ||
      s.captureUncertaintyUs < 1 || s.captureUncertaintyUs > 100000 ||
      s.positionMaximumAgeS < 1 || s.positionMaximumAgeS > 3600 ||
      s.calibrationMaximumAgeS < 10 || s.calibrationMaximumAgeS > 86400 then
    some "invalid_gps_policy"
  else if (!s.enabled && (s.location = .gps || s.automaticRfCalibration || s.daylight ≠ .always)) ||
      (s.automaticRfCalibration && !s.pairingQualified) then some "gps_required"
  else none

def GpsSettings.gpios (s : GpsSettings) : List Nat := s.rxGp :: s.ppsGp :: s.txGp.toList

/-- The table of owners with the outputs of the filter bank in it. -/
def markFilters (v : Validation) (outputs : List FilterOutput) : Validation :=
  outputs.foldl (fun v o =>
    { v with owners := fun pin => if pin = o.gp then "filter_selector" else v.owners pin }) v

/-- The allocation that the pins of the receiver are checked against, by the engine. -/
def gpsAllocation (pins : PinPlan) (si : Option Si5351Settings) (s : GpsSettings)
    (filters : FilterSettings) : Except String Validation :=
  match pins.engine with
  | .i2c =>
    match si with
    | none => .error "si5351_configuration_required"
    | some si =>
      let complete := validateSi5351 pins si (1 <<< pwmSliceOf s.ppsGp) filters
      if !complete.valid then .error "invalid_si5351_allocation" else .ok complete.pins
  | .direct =>
    match validateFilters filters pins with
    | some error => .error error
    | none => .ok (markFilters pins.validate filters.used)

def validateGps (pins : PinPlan) (si : Option Si5351Settings) (s : GpsSettings)
    (filters : FilterSettings) : Option String :=
  match validateGpsSettings s with
  | some error => some error
  | none =>
    if !s.enabled then none
    else
      match gpsAllocation pins si s filters with
      | .error error => some error
      | .ok allocation =>
        match allocation.error with
        | some error => some error
        | none =>
          if s.gpios.any fun gp => allocation.owners gp ≠ "" then some "gps_pin_conflict" else none

end WsprryPico.Hardware
