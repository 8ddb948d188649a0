import WsprryPico.Lib.Triple
import WsprryPico.Rf.Si5351.Plan

/-!
# The Si5351 device

`rf/si5351_device.cpp` over an arbitrary bus. The device caches what it knows of
the chip: the state of its outputs, the mask register, the control register of
the transmit output. Every failed or unconfirmed write drops the cache (`fault`).
-/

namespace WsprryPico.Rf.Si5351

open Lib

variable {ω α : Type}

/-- A register bus: its answers and what they do to the world. -/
structure Bus (ω : Type) where
  read : Nat → Nat → UInt64 → ω → Option (List UInt8) × ω
  write : Nat → List UInt8 → UInt64 → ω → Bool × ω

inductive ClockOutputState where
  | unknown | registerDisabled | registerEnabled
  deriving DecidableEq

inductive Pending where
  | none | enable | disable
  deriving DecidableEq

structure Device where
  states : Output → ClockOutputState := fun _ => .unknown
  transmit : Output := .clk0
  loopback : Option Output := none
  configuration : Option Configuration := none
  transmitPll : Option Divider := none
  transmitMultisynth : Option Divider := none
  configured : Bool := false
  unassignedOutputsDisabled : Bool := false
  transmitLocked : Bool := false
  referenceLocked : Bool := false
  transmitConfigured : Bool := false
  transmitPrimed : Bool := false
  pending : Pending := .none
  enableMask : Option UInt8 := none
  transmitControl : Option UInt8 := none

namespace Device

def transmitState (d : Device) : ClockOutputState := d.states d.transmit

def referenceState (d : Device) : ClockOutputState :=
  match d.loopback with
  | some output => d.states output
  | none => if d.unassignedOutputsDisabled then .registerDisabled else .unknown

def setState (output : Output) (state : ClockOutputState) (d : Device) : Device :=
  { d with states := fun o => if o = output then state else d.states o }

/-- `fault`: everything but the assignment of the outputs is dropped. -/
def faulted (d : Device) : Device := { transmit := d.transmit, loopback := d.loopback }

/-- What a confirmed write of one byte leaves in the cache. -/
def cached (reg : Nat) (bytes : List UInt8) (d : Device) : Device :=
  match bytes with
  | [byte] =>
    { d with
      enableMask := if reg = 3 then some byte else d.enableMask
      transmitControl := if reg = 16 + d.transmit.index then some byte else d.transmitControl }
  | _ => d

end Device

/-- The device with the world of its bus. -/
structure Controller (ω : Type) where
  device : Device
  world : ω

abbrev DeviceM (ω : Type) := StateM (Controller ω)

namespace DeviceM

def device : DeviceM ω Device := fun c => (c.device, c)

def update (f : Device → Device) : DeviceM ω Unit := fun c => ((), { c with device := f c.device })

def onWorld (f : ω → α × ω) : DeviceM ω α := fun c => ((f c.world).1, { c with world := (f c.world).2 })

/-- A step that only some runs need. -/
def ifNeeded (needed : Bool) (m : DeviceM ω Bool) : DeviceM ω Bool := if needed then m else pure true

end DeviceM

namespace Bus

open DeviceM

variable (bus : Bus ω)

/-- The write of `checked_write` and its confirmation. -/
def confirmed (reg : Nat) (bytes : List UInt8) (deadline : UInt64) : DeviceM ω Bool := do
  if bytes.isEmpty || bytes.length > 8 then
    return false
  if !(← onWorld (bus.write reg bytes deadline)) then
    return false
  return (← onWorld (bus.read reg bytes.length deadline)) = some bytes

def checkedWrite (reg : Nat) (bytes : List UInt8) (deadline : UInt64) : DeviceM ω Bool := do
  if !(← bus.confirmed reg bytes deadline) then
    update .faulted
    return false
  update (.cached reg bytes)
  return true

def maskedWrite (reg : Nat) (mask bits : UInt8) (deadline : UInt64) : DeviceM ω Bool := do
  match ← onWorld (bus.read reg 1 deadline) with
  | some [value] => bus.checkedWrite reg [(value &&& ~~~mask) ||| (bits &&& mask)] deadline
  | _ =>
    update .faulted
    return false

/-- Writes one after the other, until one fails. -/
def sequence : List (DeviceM ω Bool) → DeviceM ω Bool
  | [] => pure true
  | m :: rest => do
    if !(← m) then
      return false
    sequence rest

def quiesce (deadline : UInt64) : DeviceM ω Bool := do
  update .faulted
  let masked ← bus.checkedWrite 3 [0xff] deadline
  let powered ← bus.checkedWrite 16 (List.replicate 8 0x80) deadline
  if masked && powered then
    update fun d =>
      { d with states := fun _ => .registerDisabled, unassignedOutputsDisabled := true }
  return powered && masked

/-- The registers that do not depend on the frequencies: clock inputs, crystal load,
spread spectrum, disable states. -/
def baseRegisters (load : UInt8) (deadline : UInt64) : List (DeviceM ω Bool) :=
  [bus.maskedWrite 15 0x0c 0 deadline, bus.checkedWrite 183 [load] deadline,
   bus.maskedWrite 149 0x80 0 deadline, bus.maskedWrite 24 0x3f 0 deadline]

/-- The bit of integer mode in a feedback register. -/
def integerBit (pll : Divider) : UInt8 := if pll.integerMode then 0x40 else 0

def loopbackRegisters (output : Output) (pll : Divider) (tone : Tone) (deadline : UInt64) :
    List (DeviceM ω Bool) :=
  [bus.checkedWrite 34 pll.registers.toList deadline,
   bus.checkedWrite (42 + output.index * 8) tone.multisynth.registers.toList deadline,
   bus.maskedWrite 23 0x40 (integerBit pll) deadline,
   bus.checkedWrite (16 + output.index) [tone.control ||| 0x80] deadline]

/-- The soft reset of the PLLs in `bits`; its register clears itself. -/
def softReset (bits : UInt8) (deadline : UInt64) : DeviceM ω Bool := do
  match ← onWorld (bus.read 177 1 deadline) with
  | some [previous] =>
    if !(← onWorld (bus.write 177 [(previous &&& 0x5f) ||| bits] deadline)) then
      update .faulted
      return false
    match ← onWorld (bus.read 177 1 deadline) with
    | some [observed] =>
      if observed &&& 0x5f ≠ previous &&& 0x5f then
        update .faulted
        return false
      return true
    | _ =>
      update .faulted
      return false
  | _ =>
    update .faulted
    return false

def locked (deadline : UInt64) : DeviceM ω Bool := do
  if !(← device).configured then
    return false
  match ← onWorld (bus.read 0 1 deadline) with
  | some [status] =>
    let locked := (← device).transmitConfigured && status &&& 0xa8 = 0
    update fun d =>
      { d with
        transmitLocked := locked
        referenceLocked := d.loopback.isSome && status &&& 0xc8 = 0 }
    return locked
  | _ =>
    update .faulted
    return false

/-- The PLL of a VHF tone. -/
def retune (pll : Divider) (deadline : UInt64) : DeviceM ω Bool := do
  let d ← device
  let changedMode := d.transmitPll.all fun previous => previous.integerMode ≠ pll.integerMode
  if !(← bus.checkedWrite 26 pll.registers.toList deadline) then
    return false
  if !(← ifNeeded changedMode (bus.maskedWrite 22 0x40 (integerBit pll) deadline)) then
    return false
  if !(← bus.locked deadline) then
    update .faulted
    return false
  update fun d => { d with transmitPll := some pll }
  return true

/-- The divider and the control register of a tone. -/
def writeTone (tone : Tone) (active : Bool) (deadline : UInt64) : DeviceM ω Bool := do
  let d ← device
  if tone.pll.isSome && d.transmitMultisynth = some tone.multisynth &&
      d.transmitControl.any (· &&& 0x7f = tone.control) then
    return true
  update fun d => { d with transmitPrimed := false }
  if !(← bus.checkedWrite (42 + d.transmit.index * 8) tone.multisynth.registers.toList deadline) then
    return false
  if !(← bus.checkedWrite (16 + d.transmit.index)
      [tone.control ||| (if active then 0 else 0x80)] deadline) then
    return false
  update fun d => { d with transmitMultisynth := some tone.multisynth }
  return true

/-- The registers of a tone, its PLL first where it has one of its own. -/
def tuneTo (d : Device) (tone : Tone) (deadline : UInt64) : DeviceM ω Bool := do
  let active := d.transmitState = .registerEnabled
  match tone.pll with
  | some pll =>
    if !(← ifNeeded (d.transmitPll ≠ some pll) (bus.retune pll deadline)) then
      return false
    bus.writeTone tone active deadline
  | none => bus.writeTone tone active deadline

def transmitTone (tone : Tone) (deadline : UInt64) : DeviceM ω Bool := do
  let d ← device
  if !d.configured || !d.transmitConfigured || d.pending ≠ .none || tone.control &&& 0xa0 ≠ 0 then
    return false
  bus.tuneTo d tone deadline

/-- The checks of `configure` that precede every bus access. -/
def bound (synthesis : Synthesis) (config : Configuration) (plan : Plan) : Bool :=
  (validate config).isNone && plan.configuration = config && synthesis.validPlan plan &&
    config.loopback.isSome = plan.loopback.isSome &&
    config.loopback.isSome = plan.loopbackPll.isSome

/-- The writes of `configure` between the assignment of the outputs and the first tone. -/
def planRegisters (config : Configuration) (plan : Plan) (first : Tone) (load : UInt8)
    (preserve : Bool) (deadline : UInt64) : List (DeviceM ω Bool) :=
  bus.checkedWrite (16 + config.transmit.index) [first.control ||| 0x80] deadline ::
    (if preserve then [] else bus.baseRegisters load deadline) ++
    [bus.checkedWrite 26 plan.transmitPll.registers.toList deadline,
     bus.maskedWrite 22 0x40 (integerBit plan.transmitPll) deadline] ++
    match config.loopback, plan.loopbackPll, plan.loopback with
    | some output, some pll, some tone =>
      if preserve then [] else bus.loopbackRegisters output pll tone deadline
    | _, _, _ => []

/-- `configure` from the assignment of the outputs on. -/
def program (config : Configuration) (plan : Plan) (first : Tone) (load : UInt8) (preserve : Bool)
    (deadline : UInt64) : DeviceM ω Bool := do
  update fun d => { d with transmit := config.transmit, loopback := config.loopback }
  if !(← sequence (bus.planRegisters config plan first load preserve deadline)) then
    return false
  update fun d =>
    { d with
      configured := true
      configuration := some config
      transmitLocked := false
      transmitPrimed := false
      referenceLocked := preserve && d.referenceLocked
      transmitConfigured := true
      transmitPll := some plan.transmitPll }
  if !(← bus.transmitTone first deadline) then
    return false
  bus.softReset (if config.loopback.isSome && !preserve then 0xa0 else 0x20) deadline

def configure (synthesis : Synthesis) (config : Configuration) (plan : Plan) (deadline : UInt64) :
    DeviceM ω Bool := do
  match bound synthesis config plan, crystalLoadRegister config, plan.tones with
  | true, some load, first :: _ =>
    let d ← device
    let preserve := d.configured && d.configuration = some config
    if preserve && (d.pending ≠ .none || d.transmitState ≠ .registerDisabled) then
      return false
    if !(← ifNeeded (!preserve) (bus.quiesce deadline)) then
      return false
    bus.program config plan first load preserve deadline
  | _, _, _ => return false

def configureReference (synthesis : Synthesis) (config : Configuration) (plan : ReferencePlan)
    (deadline : UInt64) : DeviceM ω Bool := do
  if plan.configuration ≠ config || !synthesis.validReferencePlan plan then
    return false
  match crystalLoadRegister config, config.loopback with
  | some load, some output =>
    if !(← bus.quiesce deadline) then
      return false
    update fun d => { d with transmit := config.transmit, loopback := config.loopback }
    if !(← sequence (bus.baseRegisters load deadline ++
        bus.loopbackRegisters output plan.pll plan.output deadline)) then
      return false
    if !(← bus.softReset 0x80 deadline) then
      return false
    update fun d => { d with configured := true, configuration := some config }
    return true
  | _, _ => return false

/-- Both shutdown mechanisms of an output, the second even where the first fails. -/
def shutDown (output : Output) (deadline : UInt64) : DeviceM ω Bool := do
  let mask ← bus.maskedWrite 3 output.bit output.bit deadline
  let power ← bus.maskedWrite (16 + output.index) 0x80 0x80 deadline
  return mask && power

def startUp (output : Output) (deadline : UInt64) : DeviceM ω Bool := do
  if !(← bus.maskedWrite (16 + output.index) 0x80 0 deadline) then
    return false
  bus.maskedWrite 3 output.bit 0 deadline

def turned (output : Output) (value : Bool) (deadline : UInt64) : DeviceM ω Bool :=
  if value then bus.startUp output deadline else bus.shutDown output deadline

/-- What `enabled` requires to turn an output on. -/
def startable (output : Output) (d : Device) : Bool :=
  d.pending = .none &&
    if output = d.transmit then d.transmitLocked && d.transmitConfigured else d.referenceLocked

def enabled (output : Output) (value : Bool) (deadline : UInt64) : DeviceM ω Bool := do
  let d ← device
  if !d.configured || (value && !startable output d) then
    return false
  update (.setState output .unknown)
  if !(← bus.turned output value deadline) then
    return false
  update fun d =>
    let d := d.setState output (if value then .registerEnabled else .registerDisabled)
    if output = d.transmit then { d with pending := .none, transmitPrimed := false } else d
  return true

def transmitEnabled (value : Bool) (deadline : UInt64) : DeviceM ω Bool := do
  bus.enabled (← device).transmit value deadline

def referenceEnabled (value : Bool) (deadline : UInt64) : DeviceM ω Bool := do
  match (← device).loopback with
  | some output => bus.enabled output value deadline
  | none => return !value

/-- The output is enabled in `mask` and `control`. -/
def runs (output : Output) (mask control : UInt8) : Bool :=
  mask &&& output.bit = 0 && control &&& 0x80 = 0

/-- What the registers read say about the transmit output. -/
def confirms (mask control : UInt8) (d : Device) : Bool :=
  d.enableMask = some mask && d.transmitControl.all (· = control) &&
    match d.pending with
    | .none => true
    | .enable => runs d.transmit mask control
    | .disable => !runs d.transmit mask control

def observed (mask control : UInt8) (d : Device) : Device :=
  let enabled := runs d.transmit mask control
  { d.setState d.transmit (if enabled then .registerEnabled else .registerDisabled) with
    transmitControl := some control
    transmitPrimed := d.transmitConfigured && !enabled && control &&& 0x80 = 0
    pending := .none }

def verifyTransmit (deadline : UInt64) : DeviceM ω Bool := do
  let d ← device
  if !d.configured || d.enableMask.isNone then
    return false
  match ← onWorld (bus.read 3 1 deadline) with
  | some [mask] =>
    match ← onWorld (bus.read (16 + d.transmit.index) 1 deadline) with
    | some [control] =>
      if !confirms mask control d then
        update .faulted
        return false
      update (observed mask control)
      return true
    | _ =>
      update .faulted
      return false
  | _ =>
    update .faulted
    return false

/-- What `prime_transmit` requires. -/
def primable (d : Device) : Bool :=
  d.configured && d.transmitConfigured && d.transmitLocked && d.pending = .none &&
    d.transmitState = .registerDisabled && d.enableMask.any (· &&& d.transmit.bit ≠ 0)

def primeTransmit (deadline : UInt64) : DeviceM ω Bool := do
  let d ← device
  if !primable d then
    return false
  if d.transmitPrimed then
    return true
  if !(← bus.verifyTransmit deadline) then
    return false
  if !(← bus.maskedWrite (16 + d.transmit.index) 0x80 0 deadline) then
    return false
  update fun d => { d with transmitPrimed := true }
  return true

/-- What `request_transmit_enabled` requires to request the output. -/
def requestable (d : Device) : Bool :=
  d.transmitConfigured && d.transmitPrimed && d.transmitLocked && d.pending = .none &&
    d.transmitState = .registerDisabled

def requestTransmitEnabled (value : Bool) (deadline : UInt64) : DeviceM ω Bool := do
  let d ← device
  match d.configured, d.enableMask with
  | true, some enableMask =>
    if value && !requestable d then
      return false
    let mask := if value then enableMask &&& ~~~d.transmit.bit else enableMask ||| d.transmit.bit
    update (.setState d.transmit .unknown)
    if !(← onWorld (bus.write 3 [mask] deadline)) then
      update .faulted
      return false
    update fun d => { d with enableMask := some mask, pending := if value then .enable else .disable }
    return true
  | _, _ => return false

end Bus

end WsprryPico.Rf.Si5351
