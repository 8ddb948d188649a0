import Mathlib.Algebra.Group.Nat.Defs
import Mathlib.Logic.Basic

/-!
# Si5351 plans

The data of `rf/si5351_plan.hpp` and the checks of `validate`. The synthesis of
register values from frequencies is `long double` arithmetic; it is a parameter
(`Synthesis`), and a tone keeps of its frequencies the two results the code
reads: `realized_nhz` and the comparison with the request.
-/

namespace WsprryPico.Rf.Si5351

inductive Output where
  | clk0 | clk1 | clk2
  deriving DecidableEq

def Output.index : Output → Nat
  | .clk0 => 0
  | .clk1 => 1
  | .clk2 => 2

def Output.bit : Output → UInt8
  | .clk0 => 1
  | .clk1 => 2
  | .clk2 => 4

inductive Reference where
  | crystal | externalXa
  deriving DecidableEq

structure Configuration where
  referenceHz : UInt32 := 0
  reference : Reference := .crystal
  crystalLoadPf : Option UInt32 := none
  transmit : Output := .clk0
  loopback : Option Output := none
  driveMa : UInt32 := 2
  deriving DecidableEq

structure Divider where
  integer : UInt32 := 0
  numerator : UInt32 := 0
  denominator : UInt32 := 1
  p1 : UInt32 := 0
  p2 : UInt32 := 0
  p3 : UInt32 := 1
  registers : Vector UInt8 8 := .replicate 8 0
  deriving DecidableEq

/-- An even integer divider, which the chip runs in integer mode. -/
def Divider.integerMode (d : Divider) : Bool := d.numerator = 0 && d.integer % 2 = 0

structure Tone where
  requestedNhz : UInt64 := 0
  /-- `realized_nhz`: the achieved frequency, rounded to nanohertz. -/
  realizedNhz : UInt64 := 0
  /-- The achieved frequency is half a nanohertz or more off the request. -/
  adjusted : Bool := false
  multisynth : Divider := {}
  pll : Option Divider := none
  rDivider : UInt32 := 1
  control : UInt8 := 0
  deriving DecidableEq

structure ReferencePlan where
  configuration : Configuration
  pll : Divider
  output : Tone

def maximumTones : Nat := 4
def correctionLimitPpb : Int := 100000

/-- `Plan`; its tones in use are a list. -/
structure Plan where
  configuration : Configuration
  transmitPll : Divider
  tones : List Tone
  loopbackPll : Option Divider
  loopback : Option Tone
  correctionPpb : Int := 0
  deriving DecidableEq

def validate (config : Configuration) : Option String :=
  if config.referenceHz ≠ 25000000 ∧ config.referenceHz ≠ 27000000 then
    some "unsupported_reference_frequency"
  else if config.reference = .crystal ∧ config.crystalLoadPf ≠ some 6 ∧
      config.crystalLoadPf ≠ some 8 ∧ config.crystalLoadPf ≠ some 10 then
    some "invalid_crystal_load"
  else if config.reference = .externalXa ∧ config.crystalLoadPf.isSome then
    some "inactive_crystal_load"
  else if config.loopback = some config.transmit then some "output_conflict"
  else if config.driveMa ≠ 2 ∧ config.driveMa ≠ 4 ∧ config.driveMa ≠ 6 ∧ config.driveMa ≠ 8 then
    some "invalid_drive"
  else none

def crystalLoadRegister (config : Configuration) : Option UInt8 :=
  if (validate config).isSome then none
  else
    let load := if config.reference = .externalXa then 10 else config.crystalLoadPf.getD 0
    let code : UInt8 := if load = 6 then 1 else if load = 8 then 2 else 3
    some ((0x12 : UInt8) ||| code <<< 6)

/-- The planner: register values for a set of frequencies, and the check that a
plan is one of its own. -/
structure Synthesis where
  plan : Configuration → List UInt64 → Int → Except String Plan
  validPlan : Plan → Bool
  validReferencePlan : ReferencePlan → Bool

end WsprryPico.Rf.Si5351
