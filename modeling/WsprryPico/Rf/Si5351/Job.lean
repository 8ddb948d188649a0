import WsprryPico.Rf.Si5351.Plan
import WsprryPico.Rf.Waveform

/-!
# Si5351 jobs

`rf/si5351_job.cpp`: a job compiled to event boundaries in microseconds and tone
indices. A boundary is rounded from the absolute time of its event; a tone is
`none` where the source has `JobPlan::off`.
-/

namespace WsprryPico.Rf.Si5351

open Wtp

structure PlannedEvent where
  endUs : UInt32
  tone : Option Nat
  deriving DecidableEq

structure JobPlan where
  digest : PayloadDigest
  synthesis : Plan
  events : List PlannedEvent
  requestedDurationNs : UInt64
  minimumTransitionNs : UInt64

namespace JobPlan

def maximumEvents : Nat := 512

def count (plan : JobPlan) : Nat := plan.events.length

/-- `tone[index]`. -/
def tone (plan : JobPlan) (index : Nat) : Option Nat := plan.events[index]?.bind (·.tone)

/-- `end_us[index]` in nanoseconds. -/
def endNs (plan : JobPlan) (index : Nat) : UInt64 :=
  ((plan.events[index]?.map PlannedEvent.endUs).getD 0).toUInt64 * 1000

/-- The end of the last event. -/
def spanNs (plan : JobPlan) : UInt64 := plan.endNs (plan.count - 1)

/-- `synthesis.tones()[tone]`. -/
def toneAt (plan : JobPlan) (tone : Nat) : Tone := plan.synthesis.tones[tone]?.getD {}

end JobPlan

/-- What the event loop of `plan_job` carries along. -/
structure JobCursor where
  previous : UInt64 := 0
  previousUs : UInt32 := 0
  frequencies : List UInt64 := []

/-- The tone of an event, a new one if its frequency is. -/
def selectTone (frequencies : List UInt64) (event : RfEvent) :
    Except String (Option Nat × List UInt64) :=
  match event.rfOn, event.frequencyNhz with
  | true, some frequency =>
    match frequencies.findIdx? (· = frequency) with
    | some found => .ok (some found, frequencies)
    | none =>
      if frequencies.length = maximumTones then .error "tone_limit"
      else .ok (some frequencies.length, frequencies ++ [frequency])
  | _, _ => .ok (none, frequencies)

/-- One round of the event loop; `last` marks the final event. A terminal off
marker that collapses leaves no event. -/
def planEvent (job : Job) (minimumTransition : UInt64) (last : Bool) (cursor : JobCursor)
    (event : RfEvent) : Except String (List PlannedEvent × JobCursor) :=
  let terminalOff := last && !event.rfOn
  let previous := cursor.previous + event.durationNs
  let endUs := ((previous + (if terminalOff then 999 else 500)) / 1000).toUInt32
  if event.offsetNs ≠ cursor.previous ∨ event.durationNs = 0 ∨
      event.durationNs > job.totalDurationNs - cursor.previous ∨
      event.rfOn ≠ event.frequencyNhz.isSome then .error "invalid_event"
  else if event.durationNs < minimumTransition ∧ !terminalOff then .error "transition_interval"
  else if endUs ≤ cursor.previousUs ∧ !terminalOff then .error "collapsed_event"
  else
    match selectTone cursor.frequencies event with
    | .error error => .error error
    | .ok (selected, frequencies) =>
      .ok (if endUs > cursor.previousUs then [⟨endUs, selected⟩] else [],
        ⟨previous, endUs, frequencies⟩)

def planEvents (job : Job) (minimumTransition : UInt64) :
    JobCursor → List RfEvent → Except String (List PlannedEvent × JobCursor)
  | cursor, [] => .ok ([], cursor)
  | cursor, event :: rest =>
    match planEvent job minimumTransition rest.isEmpty cursor event with
    | .error error => .error error
    | .ok (planned, cursor) =>
      match planEvents job minimumTransition cursor rest with
      | .error error => .error error
      | .ok (others, cursor) => .ok (planned ++ others, cursor)

theorem planEvents_cons {job : Job} {minimumTransition : UInt64} {cursor next : JobCursor}
    {event : RfEvent} {rest : List RfEvent} {planned : List PlannedEvent}
    (h : planEvents job minimumTransition cursor (event :: rest) = .ok (planned, next)) :
    ∃ first middle others,
      planEvent job minimumTransition rest.isEmpty cursor event = .ok (first, middle) ∧
      planEvents job minimumTransition middle rest = .ok (others, next) ∧
      planned = first ++ others := by
  unfold planEvents at h
  split at h
  · cases h
  rename_i first middle hevent
  split at h
  · cases h
  rename_i others final hrest
  cases h
  exact ⟨first, middle, others, hevent, hrest, rfl⟩

/-- The checks of `plan_job` before its event loop. -/
def admissibleJob (job : Job) (correction : Int) (minimumTransition : UInt64) : Bool :=
  validId job.jobId && !job.jobId.toList.all (· == '0') && job.profile = "rf-events/1" &&
  planModes.contains job.mode && job.events.valid && !job.events.isEmpty &&
  job.events.size ≤ JobPlan.maximumEvents && job.totalDurationNs ≠ 0 &&
  job.totalDurationNs ≤ 3600000000000 && minimumTransition ≥ 1000 &&
  minimumTransition ≤ 1000000000 && (correction = 0 || job.allowFrequencyAdjustment)

def planJob (synthesis : Synthesis) (configuration : Configuration) (job : Job) (correction : Int)
    (minimumTransition : UInt64) : Except String JobPlan :=
  if !admissibleJob job correction minimumTransition then .error "invalid_job_or_transition_policy"
  else
    match planEvents job minimumTransition {} job.events.events with
    | .error error => .error error
    | .ok (events, cursor) =>
      if cursor.previous ≠ job.totalDurationNs ∨ cursor.frequencies = [] ∨ events = [] then
        .error "incomplete_job"
      else
        match synthesis.plan configuration cursor.frequencies correction with
        | .error error => .error error
        | .ok plan =>
          if !job.allowFrequencyAdjustment && plan.tones.any (·.adjusted) then
            .error "frequency_adjustment_required"
          else
            .ok
              { digest := jobDigest job
                synthesis := plan
                events := events
                requestedDurationNs := job.totalDurationNs
                minimumTransitionNs := minimumTransition }

end WsprryPico.Rf.Si5351
