import WsprryPico.Rf.Waveform

/-!
# Filter selection

`rf/filter_selector.cpp`: the paths that cover every nominal and programmed
frequency of a job. A path is an output of the filter bank; the mask of a
coverage has one bit for each of the five an installation may have.
-/

namespace WsprryPico.Rf

open Wtp

structure FilterRange where
  selector : UInt32 := 0
  lowHz : UInt32 := 0
  highHz : UInt32 := 0

/-- `hardware::FilterSettings`: the outputs by their ids and the ranges in use. -/
structure FilterSettings where
  required : Bool := false
  releaseMs : UInt32 := 20
  settleMs : UInt32 := 20
  outputs : List UInt32 := []
  ranges : List FilterRange := []

def FilterSettings.preparationNs (settings : FilterSettings) : UInt64 :=
  if settings.required then (settings.releaseMs + settings.settleMs).toUInt64 * 1000000 else 0

/-- The path of output `id` is requested at `nominal` and realized at `programmed`. -/
def FilterSettings.covers (settings : FilterSettings) (id : UInt32) (nominal programmed : UInt64) :
    Bool :=
  let ranges := settings.ranges.filter (·.selector = id)
  (ranges.any fun r =>
    decide (nominal ≥ r.lowHz.toUInt64 * 1000000000 ∧ nominal ≤ r.highHz.toUInt64 * 1000000000)) &&
  ranges.any fun r =>
    decide (programmed > r.lowHz.toUInt64 * 1000000000 ∧
      programmed < r.highHz.toUInt64 * 1000000000)

/-- The bits of the outputs `p` accepts, from bit `index` on. -/
def pathMask (p : UInt32 → Bool) : UInt32 → List UInt32 → UInt32
  | _, [] => 0
  | index, id :: rest =>
    (if p id then (1 : UInt32) <<< index else 0) ||| pathMask p (index + 1) rest

structure FilterCoverage where
  mask : UInt32 := 31
  seen : Bool := false

namespace FilterCoverage

variable (settings : FilterSettings)

def includePoint (nominal programmed : UInt64) (coverage : FilterCoverage) : FilterCoverage :=
  if !settings.required then coverage
  else
    { mask := coverage.mask &&& pathMask (settings.covers · nominal programmed) 0 settings.outputs
      seen := true }

def selection (coverage : FilterCoverage) : Int :=
  if !settings.required then -1
  else if !coverage.seen || coverage.mask = 0 || coverage.mask &&& (coverage.mask - 1) ≠ 0 then -2
  else
    match (List.range settings.outputs.length).find?
        (fun i => coverage.mask = (1 : UInt32) <<< UInt32.ofNat i) with
    | some i => i
    | none => -2

end FilterCoverage

/-- The coverage of the RF-on events, each at the frequency `programmed` gives it. -/
def coverEvents (settings : FilterSettings) (programmed : Nat → UInt64 → UInt64) :
    Nat → List RfEvent → FilterCoverage → FilterCoverage
  | _, [], coverage => coverage
  | index, event :: rest, coverage =>
    coverEvents settings programmed (index + 1) rest <|
      match event.rfOn, event.frequencyNhz with
      | true, some frequency =>
        coverage.includePoint settings frequency (programmed index frequency)
      | _, _ => coverage

/-- The members `FilterSelector` has beside its settings and outputs. -/
structure FilterSelector where
  selected : Int := -1
  initialized : Bool := false
  inactive : Bool := false
  verified : Bool := false

/-- The programmed frequency of event `index`. -/
def SampleRate.planned (rate : SampleRate) (plan : Plan) (index : Nat) : UInt64 :=
  rate.realizedNhz ((plan.segments[index]?.map (·.increment)).getD 0)

/-- `FilterSelector::prepare`. -/
def FilterSelector.prepare (rate : SampleRate) (settings : FilterSettings) (job : Job) (plan : Plan)
    (selector : FilterSelector) : Bool × FilterSelector :=
  if !selector.initialized || !selector.inactive || job.events.size ≠ plan.segments.length then
    (false, selector)
  else
    let candidate := (coverEvents settings (fun index _ => rate.planned plan index) 0
      job.events.events {}).selection settings
    if candidate = -2 then (false, selector)
    else (true, { selector with selected := candidate })

theorem FilterSelector.prepare_refused {rate : SampleRate} {settings : FilterSettings} {job : Job}
    {plan : Plan} {selector : FilterSelector}
    (h : (selector.prepare rate settings job plan).1 = false) :
    (selector.prepare rate settings job plan).2 = selector := by
  unfold FilterSelector.prepare at h ⊢
  split at h
  · rename_i hidle
    rw [if_pos hidle]
  · rename_i hidle
    rw [if_neg hidle]
    simp only at h ⊢
    split at h
    · rename_i hnone
      rw [if_pos hnone]
    · cases h

end WsprryPico.Rf
