import WsprryPico.Rf.Si5351.Dividers
import WsprryPico.Rf.Si5351.Job
import WsprryPico.Rf.Si5351.PlanShape

/-!
# The boundaries of a planned job

Each boundary is rounded from the absolute end of its event, so that no error accumulates; a tone
index names the tone whose request is the event's.
-/

namespace WsprryPico.Rf.Si5351

open Wtp

/-- A boundary in microseconds for an end in nanoseconds: the nearest, ties upwards; a terminal
off event is rounded up. -/
def Rounded (endNs : ℕ) (terminalOff : Bool) (endUs : ℕ) : Prop :=
  if terminalOff then endNs ≤ 1000 * endUs ∧ 1000 * endUs < endNs + 1000
  else 1000 * endUs ≤ endNs + 500 ∧ endNs < 1000 * endUs + 500

/-- The tone index of an event, among the frequencies of the job. -/
def Selected (frequencies : List UInt64) (event : RfEvent) (tone : Option ℕ) : Prop :=
  if event.rfOn then ∃ index, tone = some index ∧ frequencies[index]? = event.frequencyNhz ∧
    event.frequencyNhz.isSome = true
  else tone = none

/-- The boundaries of events, from an end in nanoseconds and the boundary it was rounded to. -/
inductive BoundariesOf (frequencies : List UInt64) : ℕ → ℕ → List RfEvent → List PlannedEvent → Prop
  | done {endNs endUs : ℕ} : BoundariesOf frequencies endNs endUs [] []
  | dropped {endNs endUs : ℕ} {event : RfEvent} (hoff : event.rfOn = false)
      (hsame : Rounded (endNs + event.durationNs.toNat) true endUs) :
      BoundariesOf frequencies endNs endUs [event] []
  | kept {endNs endUs : ℕ} {event : RfEvent} {rest : List RfEvent} {planned : PlannedEvent}
      {others : List PlannedEvent} (hlater : endUs < planned.endUs.toNat)
      (hrounded : Rounded (endNs + event.durationNs.toNat) (rest.isEmpty && !event.rfOn)
        planned.endUs.toNat)
      (hselected : Selected frequencies event planned.tone)
      (hrest : BoundariesOf frequencies (endNs + event.durationNs.toNat) planned.endUs.toNat rest others) :
      BoundariesOf frequencies endNs endUs (event :: rest) (planned :: others)

/-- What the event loop holds between two events. -/
structure Timed (job : Job) (cursor : JobCursor) (endNs endUs : ℕ) : Prop where
  previous : cursor.previous.toNat = endNs
  previousUs : cursor.previousUs.toNat = endUs
  within : endNs ≤ job.totalDurationNs.toNat
  rounded : 1000 * endUs ≤ endNs + 500
  nodup : cursor.frequencies.Nodup
  size : cursor.frequencies.length ≤ maximumTones

variable {job : Job} {cursor next : JobCursor} {event : RfEvent} {endNs endUs : ℕ}

theorem selectTone_spec {frequencies frequencies' : List UInt64} {selected : Option ℕ}
    (hnodup : frequencies.Nodup) (hsize : frequencies.length ≤ maximumTones)
    (hon : event.rfOn = event.frequencyNhz.isSome)
    (h : selectTone frequencies event = .ok (selected, frequencies')) :
    frequencies <+: frequencies' ∧ frequencies'.Nodup ∧ frequencies'.length ≤ maximumTones ∧
      Selected frequencies' event selected := by
  unfold selectTone at h
  split at h
  · rename_i frequency hrf hfrequency
    split at h
    · rename_i index hindex
      cases h
      obtain ⟨hlt, heq, -⟩ := List.findIdx?_eq_some_iff_getElem.mp hindex
      refine ⟨List.prefix_refl _, hnodup, hsize, ?_⟩
      unfold Selected
      rw [if_pos hrf]
      refine ⟨index, rfl, ?_, by rw [hfrequency]; rfl⟩
      rw [List.getElem?_eq_getElem hlt, hfrequency, of_decide_eq_true heq]
    · rename_i hnone
      split at h
      · cases h
      · rename_i hfull
        cases h
        have hnew : frequency ∉ frequencies := by
          intro hmem
          have hno := List.findIdx?_eq_none_iff.mp hnone frequency hmem
          simp at hno
        refine ⟨List.prefix_append _ _, ?_, ?_, ?_⟩
        · exact List.nodup_append.mpr ⟨hnodup, List.nodup_singleton _, fun a ha b hb hab => by
            rw [List.mem_singleton.mp hb] at hab
            exact hnew (hab ▸ ha)⟩
        · rw [List.length_append, List.length_singleton]
          omega
        · unfold Selected
          rw [if_pos hrf]
          refine ⟨frequencies.length, rfl, ?_, by rw [hfrequency]; rfl⟩
          rw [List.getElem?_concat_length, hfrequency]
  · rename_i hother
    cases h
    refine ⟨List.prefix_refl _, hnodup, hsize, ?_⟩
    unfold Selected
    split
    · rename_i hrf
      cases hfrequency : event.frequencyNhz with
      | none =>
        rw [hrf, hfrequency] at hon
        cases hon
      | some frequency => exact absurd hfrequency (hother _ hrf)
    · rfl

theorem boundary_toNat {previous added : UInt64} (hprevious : previous.toNat ≤ 3600000000000)
    (hadded : added.toNat ≤ 999) :
    ((previous + added) / 1000).toUInt32.toNat = (previous.toNat + added.toNat) / 1000 := by
  have hsum : (previous + added).toNat = previous.toNat + added.toNat := by
    rw [UInt64.toNat_add]
    exact Nat.mod_eq_of_lt (by omega)
  rw [UInt64.toNat_toUInt32, UInt64.toNat_div, hsum]
  exact Nat.mod_eq_of_lt (by simp only [UInt64.reduceToNat]; omega)

/-- What one round of the event loop gives. -/
structure Advanced (job : Job) (cursor next : JobCursor) (event : RfEvent) (endNs : ℕ) : Prop where
  previous : next.previous.toNat = endNs + event.durationNs.toNat
  within : endNs + event.durationNs.toNat ≤ job.totalDurationNs.toNat
  frequencies : cursor.frequencies <+: next.frequencies
  nodup : next.frequencies.Nodup
  size : next.frequencies.length ≤ maximumTones

theorem planEvent_spec {minimumTransition : UInt64} {last : Bool} {planned : List PlannedEvent}
    (ht : Timed job cursor endNs endUs) (htotal : job.totalDurationNs.toNat ≤ 3600000000000)
    (h : planEvent job minimumTransition last cursor event = .ok (planned, next)) :
    Advanced job cursor next event endNs ∧
      ((∃ e, planned = [e] ∧ endUs < e.endUs.toNat ∧
          Rounded (endNs + event.durationNs.toNat) (last && !event.rfOn) e.endUs.toNat ∧
          Selected next.frequencies event e.tone ∧ next.previousUs = e.endUs) ∨
        planned = [] ∧ last = true ∧ event.rfOn = false ∧
          Rounded (endNs + event.durationNs.toNat) true endUs) := by
  unfold planEvent at h
  dsimp only at h
  generalize hend : ((cursor.previous + event.durationNs +
    (if (last && !event.rfOn) = true then 999 else 500)) / 1000).toUInt32 = endUs' at h
  split at h
  · cases h
  rename_i hvalid
  split at h
  · cases h
  split at h
  · cases h
  rename_i hcollapsed
  split at h
  · cases h
  rename_i selected frequencies hselect
  cases h
  simp only [not_or, not_not, gt_iff_lt, ne_eq] at hvalid
  obtain ⟨-, hduration, hfits, hon⟩ := hvalid
  obtain ⟨hbefore, hnodup, hsize, hselected⟩ := selectTone_spec ht.nodup ht.size hon hselect
  have hdur : event.durationNs.toNat ≤ job.totalDurationNs.toNat - endNs := by
    have hle := UInt64.le_iff_toNat_le.mp (UInt64.not_lt.mp hfits)
    rw [UInt64.toNat_sub_of_le _ _ (UInt64.le_iff_toNat_le.mpr (ht.previous ▸ ht.within)),
      ht.previous] at hle
    exact hle
  have hpos : 0 < event.durationNs.toNat := by
    refine Nat.pos_of_ne_zero fun hzero => hduration ?_
    exact UInt64.toNat_inj.mp hzero
  have hwithin := ht.within
  have hprevious : (cursor.previous + event.durationNs).toNat = endNs + event.durationNs.toNat := by
    rw [UInt64.toNat_add, ht.previous]
    exact Nat.mod_eq_of_lt (by omega)
  refine ⟨⟨hprevious, by omega, hbefore, hnodup, hsize⟩, ?_⟩
  have hbound : (cursor.previous + event.durationNs).toNat ≤ 3600000000000 := by omega
  have hrounded : Rounded (endNs + event.durationNs.toNat) (last && !event.rfOn) endUs'.toNat := by
    unfold Rounded
    cases hoff : last && !event.rfOn with
    | true =>
      rw [hoff, if_pos rfl] at hend
      rw [if_pos rfl, ← hend, boundary_toNat hbound (by decide), hprevious]
      simp only [UInt64.reduceToNat]
      omega
    | false =>
      rw [hoff, if_neg Bool.false_ne_true] at hend
      rw [if_neg Bool.false_ne_true, ← hend, boundary_toNat hbound (by decide), hprevious]
      simp only [UInt64.reduceToNat]
      omega
  by_cases hlater : cursor.previousUs < endUs'
  · refine .inl ⟨⟨endUs', selected⟩, if_pos hlater, ?_, hrounded, hselected, rfl⟩
    rw [← ht.previousUs]
    exact UInt32.lt_iff_toNat_lt.mp hlater
  · -- only a terminal off event may end where the one before it did
    have hle := UInt32.le_iff_toNat_le.mp (UInt32.not_lt.mp hlater)
    rw [ht.previousUs] at hle
    have hoff : (last && !event.rfOn) = true := by
      by_contra hno
      exact hcollapsed ⟨UInt32.not_lt.mp hlater, by rw [Bool.eq_false_iff.mpr hno]; rfl⟩
    rw [hoff] at hrounded
    have hsame : endUs'.toNat = endUs := by
      have hup : endNs + event.durationNs.toNat ≤ 1000 * endUs'.toNat ∧
          1000 * endUs'.toNat < endNs + event.durationNs.toNat + 1000 := hrounded
      have hbefore := ht.rounded
      omega
    rw [hsame] at hrounded
    rw [Bool.and_eq_true, Bool.not_eq_true'] at hoff
    exact .inr ⟨if_neg hlater, hoff.1, hoff.2, hrounded⟩

theorem Selected.mono {frequencies frequencies' : List UInt64} {tone : Option ℕ}
    (h : Selected frequencies event tone) (hbefore : frequencies <+: frequencies') :
    Selected frequencies' event tone := by
  unfold Selected at h ⊢
  split
  · rename_i hrf
    rw [if_pos hrf] at h
    obtain ⟨index, rfl, hfrequency, hsome⟩ := h
    refine ⟨index, rfl, ?_, hsome⟩
    obtain ⟨frequency, heq⟩ := Option.isSome_iff_exists.mp hsome
    rw [heq] at hfrequency ⊢
    obtain ⟨more, rfl⟩ := hbefore
    rw [List.getElem?_append_left (List.getElem?_eq_some_iff.mp hfrequency).1]
    exact hfrequency
  · rename_i hrf
    rwa [if_neg hrf] at h

/-- The event loop rounds every boundary from the absolute end of its event. -/
theorem planEvents_follows {minimumTransition : UInt64} {events : List RfEvent}
    (htotal : job.totalDurationNs.toNat ≤ 3600000000000) :
    ∀ {cursor next : JobCursor} {endNs endUs : ℕ} {planned : List PlannedEvent},
      Timed job cursor endNs endUs →
      planEvents job minimumTransition cursor events = .ok (planned, next) →
      BoundariesOf next.frequencies endNs endUs events planned ∧ cursor.frequencies <+: next.frequencies ∧
        next.frequencies.Nodup ∧ next.frequencies.length ≤ maximumTones := by
  induction events with
  | nil =>
    intro cursor next endNs endUs planned ht h
    cases h
    exact ⟨.done, List.prefix_refl _, ht.nodup, ht.size⟩
  | cons event rest ih =>
    intro cursor next endNs endUs planned ht h
    obtain ⟨first, middle, others, hevent, hrest, rfl⟩ := planEvents_cons h
    obtain ⟨hadvanced, ⟨e, rfl, hlater, hrounded, hselected, hus⟩ | ⟨rfl, hlast, hoff, hsame⟩⟩ :=
      planEvent_spec ht htotal hevent
    · cases rest with
      | nil =>
        cases hrest
        exact ⟨.kept hlater hrounded hselected .done, hadvanced.frequencies, hadvanced.nodup,
          hadvanced.size⟩
      | cons other rest =>
        have hnearest : 1000 * e.endUs.toNat ≤ endNs + event.durationNs.toNat + 500 := hrounded.1
        obtain ⟨hfollows, hbefore, hnodup, hsize⟩ := ih ⟨hadvanced.previous, by rw [hus],
          hadvanced.within, hnearest, hadvanced.nodup, hadvanced.size⟩ hrest
        exact ⟨.kept hlater hrounded (hselected.mono hbefore) hfollows,
          hadvanced.frequencies.trans hbefore, hnodup, hsize⟩
    · have hempty := List.isEmpty_iff.mp hlast
      subst hempty
      cases hrest
      exact ⟨.dropped hoff hsame, hadvanced.frequencies, hadvanced.nodup, hadvanced.size⟩

/-! ## Read by index -/

variable {frequencies : List UInt64} {events : List RfEvent} {planned : List PlannedEvent}

theorem BoundariesOf.pairwise (h : BoundariesOf frequencies endNs endUs events planned) :
    planned.Pairwise (fun e e' => e.endUs.toNat < e'.endUs.toNat) ∧
      ∀ e ∈ planned, endUs < e.endUs.toNat := by
  induction h with
  | done => exact ⟨.nil, nofun⟩
  | dropped => exact ⟨.nil, nofun⟩
  | kept hlater _ _ _ ih =>
    refine ⟨List.pairwise_cons.mpr ⟨ih.2, ih.1⟩, fun e he => ?_⟩
    obtain rfl | he := List.mem_cons.mp he
    · exact hlater
    · exact hlater.trans (ih.2 e he)

/-- The absolute end of event `index`, in nanoseconds. -/
def eventEnd (events : List RfEvent) (index : ℕ) : ℕ :=
  ((events.take (index + 1)).map (·.durationNs.toNat)).sum

theorem BoundariesOf.boundary (h : BoundariesOf frequencies endNs endUs events planned) (index : ℕ)
    {e : PlannedEvent} (he : planned[index]? = some e) :
    ∃ event, events[index]? = some event ∧
      Rounded (endNs + eventEnd events index) (decide (index + 1 = events.length) && !event.rfOn)
        e.endUs.toNat ∧ Selected frequencies event e.tone := by
  induction h generalizing index with
  | done => exact nomatch he
  | dropped => exact nomatch he
  | @kept endNs endUs event rest first others hlater hrounded hselected hrest ih =>
    cases index with
    | zero =>
      cases he
      refine ⟨event, rfl, ?_, hselected⟩
      have hlast : decide (0 + 1 = (event :: rest).length) = rest.isEmpty := by
        cases rest <;> simp
      rw [hlast]
      simpa [eventEnd] using hrounded
    | succ index =>
      obtain ⟨event', hevent, hrounded', hselected'⟩ := ih index he
      refine ⟨event', hevent, ?_, hselected'⟩
      have hlast : decide (index + 1 + 1 = (event :: rest).length) = decide (index + 1 = rest.length) := by
        simp
      have hend : endNs + eventEnd (event :: rest) (index + 1) =
          endNs + event.durationNs.toNat + eventEnd rest index := by
        simp only [eventEnd, List.take_succ_cons, List.map_cons, List.sum_cons]
        omega
      rw [hlast, hend]
      exact hrounded'

/-- Only a terminal off event may be missing, whose rounded end is the last boundary. -/
theorem BoundariesOf.missing (h : BoundariesOf frequencies endNs endUs events planned) :
    planned.length = events.length ∨ planned.length + 1 = events.length ∧
      ∃ event, events.getLast? = some event ∧ event.rfOn = false ∧
        Rounded (endNs + eventEnd events planned.length) true
          ((planned.getLast?.map (·.endUs.toNat)).getD endUs) := by
  induction h with
  | done => exact .inl rfl
  | @dropped endNs endUs event hoff hsame =>
    refine .inr ⟨rfl, event, rfl, hoff, ?_⟩
    simpa [eventEnd] using hsame
  | @kept endNs endUs event rest first others hlater hrounded hselected hrest ih =>
    obtain hall | ⟨hlength, last, hlast, hoff, hsame⟩ := ih
    · exact .inl (by rw [List.length_cons, List.length_cons, hall])
    · refine .inr ⟨by rw [List.length_cons, List.length_cons, hlength], last, ?_, hoff, ?_⟩
      · rw [List.getLast?_cons, hlast]
        rfl
      · have hend : endNs + eventEnd (event :: rest) (first :: others).length =
            endNs + event.durationNs.toNat + eventEnd rest others.length := by
          simp only [eventEnd, List.length_cons, List.take_succ_cons, List.map_cons, List.sum_cons]
          omega
        rw [hend, List.getLast?_cons]
        cases hothers : others.getLast? with
        | none =>
          rw [hothers] at hsame
          exact hsame
        | some e =>
          rw [hothers] at hsame
          exact hsame

/-! ## A planned job -/

variable {F : Type} [Add F] [Sub F] [Mul F] [Div F] [NatCast F] [IntCast F] [LE F] [LT F]
  [DecidableLE F] [DecidableLT F] [DecidableEq F] [LongDouble F]

theorem admissibleJob_bounds {correction : Int} {minimumTransition : UInt64}
    (h : admissibleJob job correction minimumTransition = true) :
    job.totalDurationNs.toNat ≤ 3600000000000 ∧ job.events.events.length ≤ JobPlan.maximumEvents := by
  simp only [admissibleJob, Bool.and_eq_true, decide_eq_true_eq] at h
  exact ⟨UInt64.le_iff_toNat_le.mp h.1.1.1.2, h.1.1.1.1.1.2⟩

/-- What `plan_job` accepts: its boundaries and tone indices are those of its events. -/
theorem planJob_follows {maximumError : F} {validPlan : Plan → Bool}
    {validReferencePlan : ReferencePlan → Bool} {config : Configuration} {correction : Int}
    {minimumTransition : UInt64} {p : JobPlan}
    (h : planJob (synthesisOf maximumError validPlan validReferencePlan) config job correction
      minimumTransition = .ok p) :
    job.events.events.length ≤ JobPlan.maximumEvents ∧ ∃ frequencies : List UInt64,
      frequencies.Nodup ∧ frequencies.length ≤ maximumTones ∧
        p.synthesis.tones.map (·.requestedNhz) = frequencies ∧
        BoundariesOf frequencies 0 0 job.events.events p.events := by
  unfold planJob at h
  split at h
  · cases h
  rename_i hadmissible
  obtain ⟨htotal, hevents⟩ := admissibleJob_bounds (by simpa using hadmissible)
  refine ⟨hevents, ?_⟩
  split at h
  · cases h
  rename_i planned cursor hplanned
  split at h
  · cases h
  split at h
  · cases h
  rename_i plan' hplan
  split at h
  · cases h
  cases h
  have hstart : Timed job {} 0 0 := ⟨rfl, rfl, Nat.zero_le _, by omega, .nil, Nat.zero_le _⟩
  obtain ⟨hfollows, -, hnodup, hsize⟩ := planEvents_follows htotal hstart hplanned
  refine ⟨cursor.frequencies, hnodup, hsize, ?_, hfollows⟩
  dsimp only [synthesisOf] at hplan
  rcases hrated : plan config cursor.frequencies correction maximumError with error | rated
  · rw [hrated] at hplan
    cases hplan
  · rw [hrated] at hplan
    cases hplan
    obtain ⟨pll, -, hshape⟩ := plan_planned hrated
    rw [← hshape.requests]
    simp only [RatedPlan.plan, List.map_map]
    rfl

/-- The boundaries of an accepted job do not accumulate rounding, whatever the arithmetic of its
synthesis. -/
theorem planJob_boundaries {maximumError : F} {validPlan : Plan → Bool}
    {validReferencePlan : ReferencePlan → Bool} {config : Configuration} {correction : Int}
    {minimumTransition : UInt64} {p : JobPlan}
    (h : planJob (synthesisOf maximumError validPlan validReferencePlan) config job correction
      minimumTransition = .ok p) :
    p.count ≤ JobPlan.maximumEvents ∧
    p.events.Pairwise (fun e e' => e.endUs < e'.endUs) ∧
    (∀ (index : ℕ) e, p.events[index]? = some e → ∃ event, job.events.events[index]? = some event ∧
      Rounded (eventEnd job.events.events index)
        (decide (index + 1 = job.events.events.length) && !event.rfOn) e.endUs.toNat ∧
      1000 * e.endUs.toNat ≤ eventEnd job.events.events index + 1000 ∧
      eventEnd job.events.events index ≤ 1000 * e.endUs.toNat + 1000 ∧
      (e.tone = none ↔ event.rfOn = false) ∧
      ∀ tone, e.tone = some tone → ∃ t, p.synthesis.tones[tone]? = some t ∧
        event.frequencyNhz = some t.requestedNhz) ∧
    p.synthesis.tones.length ≤ maximumTones ∧ (p.synthesis.tones.map (·.requestedNhz)).Nodup ∧
    (p.count = job.events.events.length ∨ p.count + 1 = job.events.events.length ∧
      ∃ event, job.events.events.getLast? = some event ∧ event.rfOn = false ∧
        Rounded (eventEnd job.events.events p.count) true
          ((p.events.getLast?.map (·.endUs.toNat)).getD 0)) := by
  obtain ⟨hevents, frequencies, hnodup, hsize, hrequests, hfollows⟩ := planJob_follows h
  have hmissing := hfollows.missing
  rw [Nat.zero_add] at hmissing
  refine ⟨?_, ?_, fun index e he => ?_, ?_, by rw [hrequests]; exact hnodup, hmissing⟩
  · unfold JobPlan.count
    obtain hall | ⟨hlength, -⟩ := hmissing <;> omega
  · exact hfollows.pairwise.1.imp fun hlt => UInt32.lt_iff_toNat_lt.mpr hlt
  · obtain ⟨event, hevent, hrounded, hselected⟩ := hfollows.boundary index he
    rw [Nat.zero_add] at hrounded
    have hclose : 1000 * e.endUs.toNat ≤ eventEnd job.events.events index + 1000 ∧
        eventEnd job.events.events index ≤ 1000 * e.endUs.toNat + 1000 := by
      unfold Rounded at hrounded
      split at hrounded <;> omega
    refine ⟨event, hevent, hrounded, hclose.1, hclose.2, ?_, fun tone htone => ?_⟩
    · unfold Selected at hselected
      cases hrf : event.rfOn with
      | true =>
        rw [hrf, if_pos rfl] at hselected
        obtain ⟨index', htone, -⟩ := hselected
        simp [htone]
      | false =>
        rw [hrf, if_neg Bool.false_ne_true] at hselected
        simp [hselected]
    · unfold Selected at hselected
      split at hselected
      · obtain ⟨index', hindex, hfrequency, hsome⟩ := hselected
        cases htone.symm.trans hindex
        obtain ⟨frequency, heq⟩ := Option.isSome_iff_exists.mp hsome
        rw [heq, ← hrequests, List.getElem?_map, Option.map_eq_some_iff] at hfrequency
        obtain ⟨t, ht, hrequested⟩ := hfrequency
        exact ⟨t, ht, by rw [heq, hrequested]⟩
      · cases htone.symm.trans hselected
  · rw [← hrequests, List.length_map] at hsize
    exact hsize

/-- Two tones with a gap between them, off the microsecond, and a terminal off event that
collapses. -/
def keyedJob : Job :=
  { jobId := "11111111111111111111111111111111"
    mode := "qrss"
    totalDurationNs := 250000999
    events := ⟨[⟨0, 100000300, true, some 10140200000000000⟩, ⟨100000300, 50000400, false, none⟩,
      ⟨150000700, 100000100, true, some 10140200000000000⟩, ⟨250000800, 199, false, none⟩], .none⟩
    allowFrequencyAdjustment := true }

theorem planJob_boundaries_keyed : ∃ p, planJob (synthesisOf (1 / 1000 : ℚ) (fun _ => true)
      fun _ => true) { referenceHz := 25000000, crystalLoadPf := some 8 } keyedJob 0 1000 = .ok p ∧
    p.events = [⟨100000, some 0⟩, ⟨150001, none⟩, ⟨250001, some 0⟩] ∧
    p.events.Pairwise (fun e e' => e.endUs < e'.endUs) ∧ Rounded 150000700 false 150001 := by
  have hevents : ((planJob (synthesisOf (1 / 1000 : ℚ) (fun _ => true) fun _ => true)
      { referenceHz := 25000000, crystalLoadPf := some 8 } keyedJob 0 1000).toOption.map
        (·.events)) = some [⟨100000, some 0⟩, ⟨150001, none⟩, ⟨250001, some 0⟩] := by
    decide +kernel
  rcases h : planJob (synthesisOf (1 / 1000 : ℚ) (fun _ => true) fun _ => true)
    { referenceHz := 25000000, crystalLoadPf := some 8 } keyedJob 0 1000 with error | p
  · rw [h] at hevents
    cases hevents
  · rw [h] at hevents
    have hplanned : p.events = _ := Option.some.inj hevents
    obtain ⟨-, hascend, hrounded, -⟩ := planJob_boundaries h
    obtain ⟨event, hevent, hend, -⟩ := hrounded 1 ⟨150001, none⟩ (by rw [hplanned]; rfl)
    cases hevent
    exact ⟨p, rfl, hplanned, hascend, hend⟩

end WsprryPico.Rf.Si5351
