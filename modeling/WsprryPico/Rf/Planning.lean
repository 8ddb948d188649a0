import WsprryPico.Lib.Nearest
import WsprryPico.Rf.Waveform

/-!
# The timeline of a plan

Each boundary of a plan is its own absolute time, rounded once, so the rounding does not add up
over the events of a job. The end of a final RF-off event is padded to the next sample instead.
-/

namespace WsprryPico.Rf

open Wtp Lib

variable {rate : SampleRate} {job : Job} {correctionPpb : Int} {event : RfEvent}
  {segment : Segment} {cursor cursor' : PlanCursor} {last : Bool}

/-! ## Samples -/

/-- The sample is off the time by at most half a sample. -/
def SampleRate.Half (rate : SampleRate) (ns sample : Nat) : Prop :=
  |2 * ((sample : Int) * 1000000000 - (ns * rate.hz.toNat : Nat))| ≤ 1000000000

/-- The sample is the next one from the time on. -/
def SampleRate.Padded (rate : SampleRate) (ns sample : Nat) : Prop :=
  ns * rate.hz.toNat ≤ sample * 1000000000 ∧ sample * 1000000000 < ns * rate.hz.toNat + 1000000000

theorem rounded_toNat {ns n d added : UInt64} (hns : ns.toNat ≤ 3600000000000)
    (hn : n.toNat ≤ 100) (hadded : added.toNat ≤ 1000) :
    ((ns * n + added) / d).toNat = (ns.toNat * n.toNat + added.toNat) / d.toNat := by
  have hproduct : ns.toNat * n.toNat ≤ 3600000000000 * 100 := Nat.mul_le_mul hns hn
  rw [UInt64.toNat_div, UInt64.toNat_add, UInt64.toNat_mul, Nat.mod_eq_of_lt (a := _ * _) (by omega),
    Nat.mod_eq_of_lt (by omega)]

/-- The sample of an end is rounded in 64 bits as in the integers, that of a final RF-off event
up. -/
theorem samplesAt_rounded {ns sample : UInt64} {terminalOff : Bool}
    (h : rate.samplesAt ns terminalOff = some sample) :
    sample.toNat = (ns.toNat * rate.hz.toNat + if terminalOff then 999999999 else 500000000) /
      1000000000 := by
  unfold SampleRate.samplesAt at h
  split at h
  · cases h
  · rename_i hlimit
    have hns : ns.toNat ≤ 3600000000000 := UInt64.le_iff_toNat_le.mp (UInt64.not_lt.mp hlimit)
    have hround : ∀ n d added : UInt64, n.toNat ≤ 100 → added.toNat ≤ 1000 →
        ((ns * n + added) / d).toNat = (ns.toNat * n.toNat + added.toNat) / d.toNat :=
      fun _ _ _ hn hadded => rounded_toNat hns hn hadded
    have hup : ∀ n d : UInt64, n.toNat ≤ 100 → (d - 1).toNat ≤ 1000 →
        ((ns * n + d - 1) / d).toNat = (ns.toNat * n.toNat + (d - 1).toNat) / d.toNat := by
      intro n d hn hd
      rw [UInt64.sub_eq_add_neg, UInt64.add_assoc, ← UInt64.sub_eq_add_neg]
      exact hround n d (d - 1) hn hd
    cases terminalOff <;> cases h <;> cases rate <;> simp only [SampleRate.hz, UInt64.reduceToNat]
    case false.refl.mhz132 => exact (hround 33 250 125 (by decide) (by decide)).trans (by simp; omega)
    case false.refl.mhz138 => exact (hround 69 500 250 (by decide) (by decide)).trans (by simp; omega)
    case false.refl.mhz150 => exact (hround 3 20 10 (by decide) (by decide)).trans (by simp; omega)
    case true.refl.mhz132 => exact (hup 33 250 (by decide) (by decide)).trans (by simp; omega)
    case true.refl.mhz138 => exact (hup 69 500 (by decide) (by decide)).trans (by simp; omega)
    case true.refl.mhz150 => exact (hup 3 20 (by decide) (by decide)).trans (by simp; omega)

theorem samplesAt_nearest {ns sample : UInt64} (h : rate.samplesAt ns false = some sample) :
    sample.toNat = nearest (ns.toNat * rate.hz.toNat) 1000000000 := by
  rw [samplesAt_rounded h, nearest]
  simp only [Bool.false_eq_true, if_false]
  omega

theorem samplesAt_half {ns sample : UInt64} (h : rate.samplesAt ns false = some sample) :
    rate.Half ns.toNat sample.toNat := by
  have herror := nearest_error (by decide : 0 < 1000000000) (ns.toNat * rate.hz.toNat)
  rw [← samplesAt_nearest h] at herror
  exact herror

theorem samplesAt_padded {ns sample : UInt64} (h : rate.samplesAt ns true = some sample) :
    rate.Padded ns.toNat sample.toNat := by
  have hsample : sample.toNat = (_ + 999999999) / _ := samplesAt_rounded h
  unfold SampleRate.Padded
  omega

/-! ## Tones -/

/-- The table of tones has at most four increments, all different. -/
def FewTones (tones : List UInt32) : Prop := tones.length ≤ 4 ∧ tones.Nodup

/-- The index of a tone finds it in the table, whose entries stay where they are. -/
theorem findTone_few {increment : UInt32} {tones tones' : List UInt32} {index : Nat}
    (hfew : FewTones tones) (h : findTone increment tones = some (tones', index)) :
    FewTones tones' ∧ tones <+: tones' ∧ tones'[index]? = some increment := by
  unfold findTone at h
  split_ifs at h with hknown hfull
  · cases h
    have hmem : increment ∈ tones := List.contains_iff_mem.mp hknown
    refine ⟨hfew, List.prefix_rfl, ?_⟩
    rw [List.getElem?_eq_getElem (List.idxOf_lt_length_of_mem hmem), List.getElem_idxOf]
  · cases h
    have hnew : increment ∉ tones := fun hmem => hknown (List.contains_iff_mem.mpr hmem)
    refine ⟨⟨?_, ?_⟩, List.prefix_append _ _, by simp⟩
    · have hlength := hfew.1
      rw [List.length_append, List.length_singleton]
      omega
    · rw [List.nodup_append]
      exact ⟨hfew.2, List.nodup_singleton _, fun x hx y hy heq =>
        hnew (List.mem_singleton.mp hy ▸ heq ▸ hx)⟩

/-- The segment runs at the increment of the event's frequency, which its index finds. -/
def Selects (rate : SampleRate) (correctionPpb : Int) (tones : List UInt32) (event : RfEvent)
    (segment : Segment) : Prop :=
  event.rfOn = true ∨ segment.increment ≠ 0 → ∃ frequency, event.frequencyNhz = some frequency ∧
    rate.frequencyIncrement frequency correctionPpb = some segment.increment ∧
    tones[segment.toneIndex]? = some segment.increment

theorem Selects.extend {tones tones' : List UInt32} (h : tones <+: tones')
    (hselects : Selects rate correctionPpb tones event segment) :
    Selects rate correctionPpb tones' event segment := by
  intro hon
  obtain ⟨frequency, hfrequency, hincrement, hindex⟩ := hselects hon
  obtain ⟨rest, rfl⟩ := h
  obtain ⟨hlt, -⟩ := List.getElem?_eq_some_iff.mp hindex
  exact ⟨frequency, hfrequency, hincrement, (List.getElem?_append_left hlt).trans hindex⟩

theorem planTone_spec {allowAdjustment : Bool} {tones tones' : List UInt32} {increment : UInt32}
    {index : Nat} (sample : UInt64) (hfew : FewTones tones)
    (h : rate.planTone allowAdjustment correctionPpb tones event = some (increment, tones', index)) :
    FewTones tones' ∧ tones <+: tones' ∧
      Selects rate correctionPpb tones' event ⟨sample, increment, index⟩ := by
  obtain ⟨-, frequency, hfrequency, hselected, -, hfound⟩ | ⟨hoff, -, hzero, rfl, -⟩ :=
    planTone_cases h
  · obtain ⟨hfew', hextends, hindex⟩ := findTone_few hfew hfound
    exact ⟨hfew', hextends, fun _ => ⟨frequency, hfrequency, hselected, hindex⟩⟩
  · refine ⟨hfew, List.prefix_rfl, ?_⟩
    rintro (hon | hne)
    · cases hoff.symm.trans hon
    · exact absurd hzero hne

/-! ## Events -/

/-- The boundary of an event is padded at the end of a final RF-off event, else nearest. -/
def Ends (rate : SampleRate) (last : Bool) (event : RfEvent) (segment : Segment) : Prop :=
  if last = true ∧ event.rfOn = false then
    rate.Padded (event.offsetNs.toNat + event.durationNs.toNat) segment.endSample.toNat
  else rate.Half (event.offsetNs.toNat + event.durationNs.toNat) segment.endSample.toNat

/-- The time after an event within the job. -/
theorem ns_toNat (hwithin : cursor.ns ≤ job.totalDurationNs)
    (hduration : event.durationNs ≤ job.totalDurationNs - cursor.ns) :
    (cursor.ns + event.durationNs).toNat = cursor.ns.toNat + event.durationNs.toNat ∧
      cursor.ns + event.durationNs ≤ job.totalDurationNs := by
  have htotal := job.totalDurationNs.toNat_lt
  have hwithin' := UInt64.le_iff_toNat_le.mp hwithin
  rw [UInt64.le_iff_toNat_le, UInt64.toNat_sub_of_le _ _ hwithin] at hduration
  have hsum : (cursor.ns + event.durationNs).toNat = cursor.ns.toNat + event.durationNs.toNat := by
    rw [UInt64.toNat_add, Nat.mod_eq_of_lt (by omega)]
  refine ⟨hsum, UInt64.le_iff_toNat_le.mpr ?_⟩
  omega

theorem planEvent_ends (hwithin : cursor.ns ≤ job.totalDurationNs)
    (h : rate.planEvent job correctionPpb last cursor event = some (segment, cursor')) :
    Ends rate last event segment ∧ cursor'.ns ≤ job.totalDurationNs := by
  obtain ⟨⟨hoffset, hduration⟩, hsample, -, ⟨hns, -⟩, -⟩ := planEvent_cases h
  obtain ⟨hsum, hwithin'⟩ := ns_toNat hwithin hduration
  refine ⟨?_, hns ▸ hwithin'⟩
  unfold Ends
  rw [hoffset, ← hsum]
  split_ifs with hfinal
  · rw [hfinal.1, hfinal.2] at hsample
    exact samplesAt_padded hsample
  · have hflag : (last && !event.rfOn) = false := by simpa [not_and] using hfinal
    rw [hflag] at hsample
    exact samplesAt_half hsample

/-- What the loop makes of the events from a cursor on. -/
structure Timeline (rate : SampleRate) (job : Job) (correctionPpb : Int) (cursor : PlanCursor)
    (events : List RfEvent) (segments : List Segment) (cursor' : PlanCursor) : Prop where
  length : segments.length = events.length
  rising : (cursor.sample :: segments.map Segment.endSample).Pairwise (· < ·)
  ends : ∀ (i : Nat) event segment, events[i]? = some event → segments[i]? = some segment →
    Ends rate (i + 1 = events.length) event segment
  selects : ∀ (i : Nat) event segment, events[i]? = some event → segments[i]? = some segment →
    Selects rate correctionPpb cursor'.tones event segment
  few : FewTones cursor'.tones
  widens : cursor.tones <+: cursor'.tones
  final : ∀ event segment, events.getLast? = some event → segments.getLast? = some segment →
    rate.samplesAt cursor'.ns (!event.rfOn) = some segment.endSample

theorem planEvents_timeline {events : List RfEvent} {segments : List Segment}
    (hwithin : cursor.ns ≤ job.totalDurationNs) (hfew : FewTones cursor.tones)
    (h : rate.planEvents job correctionPpb cursor events = some (segments, cursor')) :
    Timeline rate job correctionPpb cursor events segments cursor' := by
  induction events generalizing cursor segments with
  | nil =>
    cases h
    exact ⟨rfl, List.pairwise_singleton _ _, by simp, by simp, hfew, List.prefix_rfl, by simp⟩
  | cons event events ih =>
    obtain ⟨⟨segment, cursor₁⟩, hevent, h⟩ := Option.bind_eq_some_iff.1 h
    obtain ⟨⟨segments', cursor₂⟩, hevents, h⟩ := Option.bind_eq_some_iff.1 h
    cases h
    obtain ⟨-, hsample, hlater, ⟨hns, hnext⟩, htone⟩ := planEvent_cases hevent
    obtain ⟨hends, hwithin'⟩ := planEvent_ends hwithin hevent
    obtain ⟨hfew', hextends, hselects⟩ := planTone_spec segment.endSample hfew htone
    have rest := ih hwithin' hfew' hevents
    have hlength := rest.length
    refine ⟨by rw [List.length_cons, List.length_cons, hlength], ?_, ?_, ?_, rest.few,
      hextends.trans rest.widens, ?_⟩
    · have hrising := rest.rising
      rw [hnext] at hrising
      rw [List.map_cons, List.pairwise_cons]
      refine ⟨fun sample hmem => ?_, hrising⟩
      rcases List.mem_cons.mp hmem with rfl | hmem
      · exact hlater
      · exact UInt64.lt_trans hlater ((List.pairwise_cons.mp hrising).1 sample hmem)
    · rintro (- | i) x y hx hy
      · cases hx
        cases hy
        have hflag : (List.isEmpty events) = decide (0 + 1 = (event :: events).length) := by
          cases events <;> simp
        rwa [hflag] at hends
      · have h := rest.ends i x y hx hy
        simpa using h
    · rintro (- | i) x y hx hy
      · cases hx
        cases hy
        exact hselects.extend rest.widens
      · exact rest.selects i x y hx hy
    · intro x y hx hy
      cases events with
      | nil =>
        cases hevents
        cases hx
        cases hy
        rw [hns]
        exact hsample
      | cons event' events' =>
        have hsegments : segments' ≠ [] := by
          rw [← List.length_pos_iff, hlength]
          exact Nat.succ_pos _
        rw [List.getLast?_cons_cons] at hx
        refine rest.final x y hx ?_
        obtain ⟨first, more, rfl⟩ := List.exists_cons_of_ne_nil hsegments
        rwa [List.getLast?_cons_cons] at hy

/-! ## Jobs -/

theorem planJob_timeline {plan : Plan} (h : rate.planJob job correctionPpb = some plan) :
    ∃ cursor, Timeline rate job correctionPpb {} job.events.events plan.segments cursor ∧
      cursor.tones = plan.toneIncrements ∧
      plan.segments.getLast?.map Segment.endSample = some plan.totalSamples := by
  obtain ⟨hne, htotal, cursor, hevents, hns, htones⟩ := planJob_cases h
  have timeline := planEvents_timeline (UInt64.zero_le) ⟨Nat.zero_le _, List.nodup_nil⟩ hevents
  refine ⟨cursor, timeline, htones, ?_⟩
  obtain ⟨event, hevent⟩ := Option.ne_none_iff_exists'.mp
    (mt List.getLast?_eq_none_iff.mp hne)
  have hsegments : plan.segments ≠ [] := by
    rw [← List.length_pos_iff, timeline.length]
    exact List.length_pos_iff.mpr hne
  obtain ⟨segment, hsegment⟩ := Option.ne_none_iff_exists'.mp
    (mt List.getLast?_eq_none_iff.mp hsegments)
  have hfinal := timeline.final event segment hevent hsegment
  rw [hevent, Option.any_some, ← hns, hfinal] at htotal
  rw [hsegment, Option.map_some]
  exact htotal

/-- No rounding of a plan adds up: its segments end at rising samples, each the nearest one to the
absolute end of its event, within half a sample, or the next one at the end of a final RF-off event.
The last is the total, and the index of each RF-on segment finds the increment of its frequency
among at most four tones. -/
theorem plan_timeline {plan : Plan} (h : rate.planJob job correctionPpb = some plan) :
    plan.segments.length = job.events.events.length ∧
    (0 :: plan.segments.map Segment.endSample).Pairwise (· < ·) ∧
    (∀ (i : Nat) event segment, job.events.events[i]? = some event →
      plan.segments[i]? = some segment →
      let time : Nat := (event.offsetNs.toNat + event.durationNs.toNat) * rate.hz.toNat
      let boundary : Nat := segment.endSample.toNat
      (if i + 1 = job.events.events.length ∧ event.rfOn = false then
        time ≤ boundary * 1000000000 ∧ boundary * 1000000000 < time + 1000000000
      else
        (∀ k : Int, |(boundary : Int) * 1000000000 - time| ≤ |k * 1000000000 - time|) ∧
          |2 * ((boundary : Int) * 1000000000 - time)| ≤ 1000000000) ∧
      (event.rfOn = true → ∃ frequency, event.frequencyNhz = some frequency ∧
        rate.frequencyIncrement frequency correctionPpb = some segment.increment ∧
        plan.toneIncrements[segment.toneIndex]? = some segment.increment)) ∧
    plan.segments.getLast?.map Segment.endSample = some plan.totalSamples ∧
    plan.toneIncrements.length ≤ 4 ∧ plan.toneIncrements.Nodup := by
  obtain ⟨cursor, timeline, htones, hlast⟩ := planJob_timeline h
  refine ⟨timeline.length, timeline.rising, ?_, hlast, htones ▸ timeline.few⟩
  intro i event segment hevent hsegment
  refine ⟨?_, fun hon => htones ▸ timeline.selects i event segment hevent hsegment (.inl hon)⟩
  have hends := timeline.ends i event segment hevent hsegment
  simp only [Ends, decide_eq_true_eq] at hends
  split_ifs at hends ⊢ with hfinal
  · exact hends
  · exact ⟨fun k => le_of_half hends k, hends⟩

/-- A tone of a second, and a stop marker of a nanosecond. -/
def markedTone : Job :=
  { jobId := "0123456789abcdef0123456789abcdef"
    mode := "tone"
    totalDurationNs := 1000000001
    events := { events := [⟨0, 1000000000, true, some 3570100000000000⟩, ⟨1000000000, 1, false, none⟩] }
    allowFrequencyAdjustment := true }

def markedPlan : Plan :=
  { toneIncrements := [111112049]
    segments := [⟨138000000, 111112049, 0⟩, ⟨138000001, 0, 0⟩]
    totalSamples := 138000001 }

theorem markedTone_plan : SampleRate.planJob .mhz138 markedTone 0 = some markedPlan := by
  decide +kernel

theorem plan_timeline_marked :
    (0 :: markedPlan.segments.map Segment.endSample).Pairwise (· < ·) ∧
    SampleRate.frequencyIncrement .mhz138 3570100000000000 0 = some 111112049 ∧
    markedPlan.segments.getLast?.map Segment.endSample = some markedPlan.totalSamples := by
  obtain ⟨-, hrising, hevents, hlast, -⟩ := plan_timeline markedTone_plan
  obtain ⟨frequency, hfrequency, hincrement, -⟩ := (hevents 0 _ _ rfl rfl).2 rfl
  cases hfrequency
  exact ⟨hrising, hincrement, hlast⟩

/-- The end of the stop marker is nearer to the sample before the one it is padded to. -/
theorem marker_padded : SampleRate.planJob .mhz138 markedTone 0 = some markedPlan ∧
    markedTone.events.events[1]? = some ⟨1000000000, 1, false, none⟩ ∧
    markedPlan.segments[1]? = some ⟨138000001, 0, 0⟩ ∧
    |(138000000 : Int) * 1000000000 - 1000000001 * 138000000| <
      |138000001 * 1000000000 - 1000000001 * 138000000| ∧
    ¬ |2 * ((138000001 : Int) * 1000000000 - 1000000001 * 138000000)| ≤ 1000000000 := by
  refine ⟨markedTone_plan, rfl, rfl, ?_, ?_⟩ <;> decide

end WsprryPico.Rf
