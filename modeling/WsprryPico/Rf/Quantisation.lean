import Mathlib.Tactic.Ring
import WsprryPico.Rf.Planning

/-!
# Tone quantisation

The long division of `frequency_increment` is the quotient rounded to the nearest, and none of its
steps leaves 64 bits. The frequency reported of an increment is off by half a nanohertz, far less
than half an increment, so it is quantised to the same increment.
-/

namespace WsprryPico.Rf

open Wtp Lib

variable {rate : SampleRate} {divisor frequency : UInt64} {correctionPpb : Int}

/-! ## Long division -/

/-- After `bits` rounds of the long division: the quotient so far and what is left of it. -/
structure Divided (divisor frequency : UInt64) (bits : Nat) (state : UInt64 × UInt64) : Prop where
  total : state.2.toNat * divisor.toNat + state.1.toNat = frequency.toNat * 2 ^ bits
  rest : state.1.toNat < divisor.toNat
  quotient : state.2.toNat < 2 ^ bits

/-- The rounds made first, then the others. -/
theorem divideBits_add (m n : Nat) (r q : UInt64) : divideBits divisor (m + n) r q =
    divideBits divisor n (divideBits divisor m r q).1 (divideBits divisor m r q).2 := by
  induction m generalizing r q with
  | zero => rw [Nat.zero_add, divideBits]
  | succ m ih =>
    rw [Nat.succ_add, divideBits, divideBits]
    split_ifs
    · exact ih _ _
    · exact ih _ _

/-- A round doubles the rest without a carry out of 64 bits. -/
theorem Divided.round {bits : Nat} {state : UInt64 × UInt64} (h : Divided divisor frequency bits state)
    (hdivisor : divisor.toNat ≤ 2 ^ 63) (hbits : bits < 63) :
    (state.1 * 2).toNat = state.1.toNat * 2 ∧ (state.2 * 2).toNat = state.2.toNat * 2 ∧
    Divided divisor frequency (bits + 1) (divideBits divisor 1 state.1 state.2) := by
  obtain ⟨hsplit, hrest, hquotient⟩ := h
  have hpow : 2 ^ bits ≤ 2 ^ 62 := Nat.pow_le_pow_right (by decide) (by omega)
  have hdouble : (state.1 * 2).toNat = state.1.toNat * 2 := by
    rw [UInt64.toNat_mul]
    exact Nat.mod_eq_of_lt (by simp; omega)
  have htwice : (state.2 * 2).toNat = state.2.toNat * 2 := by
    rw [UInt64.toNat_mul]
    exact Nat.mod_eq_of_lt (by simp; omega)
  have htotal : frequency.toNat * 2 ^ (bits + 1) =
      state.2.toNat * 2 * divisor.toNat + state.1.toNat * 2 := by
    rw [pow_succ, ← Nat.mul_assoc, ← hsplit]
    ring
  refine ⟨hdouble, htwice, ?_⟩
  unfold divideBits
  split_ifs with hfits
  · have hle : divisor.toNat ≤ state.1.toNat * 2 := by
      rw [← hdouble]
      exact UInt64.le_iff_toNat_le.mp hfits
    have hsub : (state.1 * 2 - divisor).toNat = state.1.toNat * 2 - divisor.toNat := by
      rw [UInt64.toNat_sub_of_le _ _ hfits, hdouble]
    have hnext : (state.2 * 2 + 1).toNat = state.2.toNat * 2 + 1 := by
      rw [UInt64.toNat_add, htwice]
      exact Nat.mod_eq_of_lt (by simp; omega)
    rw [divideBits]
    refine ⟨?_, ?_, ?_⟩
    · rw [hsub, hnext, htotal, Nat.add_mul, Nat.one_mul]
      omega
    · dsimp only
      omega
    · dsimp only
      omega
  · have hlt : state.1.toNat * 2 < divisor.toNat := by
      rw [← hdouble]
      exact UInt64.lt_iff_toNat_lt.mp (UInt64.not_le.mp hfits)
    rw [divideBits]
    refine ⟨?_, ?_, ?_⟩
    · rw [hdouble, htwice, htotal]
    · dsimp only
      omega
    · dsimp only
      omega

theorem divideBits_divided (hdivisor : divisor.toNat ≤ 2 ^ 63)
    (hsmall : frequency.toNat < divisor.toNat) {bits : Nat} (hbits : bits ≤ 63) :
    Divided divisor frequency bits (divideBits divisor bits frequency 0) := by
  induction bits with
  | zero => exact ⟨by simp [divideBits], by simpa [divideBits] using hsmall, by simp [divideBits]⟩
  | succ bits ih =>
    rw [divideBits_add]
    exact ((ih (by omega)).round hdivisor (by omega)).2.2

/-- The long division is the quotient rounded to the nearest. -/
theorem divideRounded_nearest (hdivisor : divisor.toNat ≤ 2 ^ 63)
    (hsmall : frequency.toNat < divisor.toNat) :
    (divideRounded divisor frequency).toNat = nearest (frequency.toNat * 2 ^ 32) divisor.toNat := by
  have h := divideBits_divided hdivisor hsmall (by decide : 32 ≤ 63)
  obtain ⟨hdouble, -, -⟩ := h.round hdivisor (by decide)
  obtain ⟨hsplit, hrest, hquotient⟩ := h
  unfold divideRounded
  generalize divideBits divisor 32 frequency 0 = state at hsplit hrest hquotient hdouble
  obtain ⟨remainder, quotient⟩ := state
  dsimp only at hsplit hrest hquotient hdouble ⊢
  symm
  split_ifs with hhalf
  · have hle : divisor.toNat ≤ remainder.toNat * 2 := by
      rw [← hdouble]
      exact UInt64.le_iff_toNat_le.mp hhalf
    have hnext : (quotient + 1).toNat = quotient.toNat + 1 := by
      rw [UInt64.toNat_add]
      exact Nat.mod_eq_of_lt (by simp; omega)
    rw [hnext, ← hsplit]
    refine nearest_eq ?_ ?_
    · nlinarith
    · nlinarith
  · have hlt : remainder.toNat * 2 < divisor.toNat := by
      rw [← hdouble]
      exact UInt64.lt_iff_toNat_lt.mp (UInt64.not_le.mp hhalf)
    rw [← hsplit]
    refine nearest_eq ?_ ?_
    · nlinarith
    · nlinarith

/-! ## Increments -/

theorem hz_bounds (rate : SampleRate) : 132000000 ≤ rate.hz.toNat ∧ rate.hz.toNat ≤ 150000000 := by
  cases rate <;> decide

/-- The corrected sample rate, in nHz. -/
def SampleRate.corrected (rate : SampleRate) (correctionPpb : Int) : Nat :=
  rate.hz.toNat * (1000000000 + correctionPpb).toNat

theorem corrected_toNat (h : correctionInRange correctionPpb = true) :
    (rate.hz * UInt64.ofNat (1000000000 + correctionPpb).toNat).toNat =
      rate.corrected correctionPpb := by
  have hrange := of_decide_eq_true h
  unfold maxCorrectionPpb at hrange
  have hfactor : (1000000000 + correctionPpb).toNat ≤ 1000100000 := by omega
  have hproduct := Nat.mul_le_mul (hz_bounds rate).2 hfactor
  unfold SampleRate.corrected
  rw [UInt64.toNat_mul, UInt64.toNat_ofNat', Nat.mod_eq_of_lt (a := Int.toNat _) (by omega),
    Nat.mod_eq_of_lt (by omega)]

theorem corrected_bounds (h : correctionInRange correctionPpb = true)
    (hmaximum : frequency ≤ rate.maximumFrequencyNhz) :
    frequency.toNat < rate.corrected correctionPpb ∧ rate.corrected correctionPpb ≤ 2 ^ 63 := by
  have hrange := of_decide_eq_true h
  unfold maxCorrectionPpb at hrange
  have hlow : 999900000 ≤ (1000000000 + correctionPpb).toNat := by omega
  have hhigh : (1000000000 + correctionPpb).toNat ≤ 1000100000 := by omega
  have hproduct := Nat.mul_le_mul (hz_bounds rate).2 hhigh
  have hproduct' := Nat.mul_le_mul_left rate.hz.toNat hlow
  have hmaximum := UInt64.le_iff_toNat_le.mp hmaximum
  have hbound : rate.maximumFrequencyNhz.toNat < rate.hz.toNat * 999900000 := by
    cases rate <;> decide
  unfold SampleRate.corrected
  omega

/-- The increment is the quotient rounded once, unless it is zero or past the Nyquist limit. -/
theorem frequencyIncrement_eq (hminimum : minimumFrequencyNhz ≤ frequency)
    (hmaximum : frequency ≤ rate.maximumFrequencyNhz) (h : correctionInRange correctionPpb = true) :
    rate.frequencyIncrement frequency correctionPpb =
      if nearest (frequency.toNat * 2 ^ 32) (rate.corrected correctionPpb) = 0 ∨
          2 ^ 31 ≤ nearest (frequency.toNat * 2 ^ 32) (rate.corrected correctionPpb) then none
      else some (UInt32.ofNat (nearest (frequency.toNat * 2 ^ 32) (rate.corrected correctionPpb))) := by
  obtain ⟨hsmall, hlarge⟩ := corrected_bounds h hmaximum
  rw [← corrected_toNat h] at hsmall hlarge
  have hguard : ¬ (frequency < minimumFrequencyNhz ∨ frequency > rate.maximumFrequencyNhz ∨
      ¬ correctionInRange correctionPpb = true) := by
    rw [not_or, not_or, UInt64.not_lt, gt_iff_lt, UInt64.not_lt, not_not]
    exact ⟨hminimum, hmaximum, h⟩
  have hnearest := divideRounded_nearest hlarge hsmall
  unfold SampleRate.frequencyIncrement
  rw [if_neg hguard]
  dsimp only
  rw [← corrected_toNat h, ← hnearest]
  generalize divideRounded (rate.hz * UInt64.ofNat (1000000000 + correctionPpb).toNat)
    frequency = quotient
  have hzero : quotient = 0 ↔ quotient.toNat = 0 := by
    rw [← UInt64.toNat_inj]
    rfl
  have hlimit : quotient ≥ 2147483648 ↔ 2 ^ 31 ≤ quotient.toNat := by
    rw [ge_iff_le, UInt64.le_iff_toNat_le]
    rfl
  exact if_congr (or_congr hzero hlimit) rfl rfl

/-! ## Realized frequencies -/

/-- The frequency reported of an increment is the exact one rounded once, in 64 bits. -/
theorem realizedNhz_nearest {increment : UInt32} (h : increment.toNat < 2 ^ 31) :
    (rate.realizedNhz increment).toNat =
      nearest (rate.hz.toNat * increment.toNat * 1000000000) (2 ^ 32) := by
  have hproduct : (rate.hz * increment.toUInt64).toNat = rate.hz.toNat * increment.toNat := by
    have hle := Nat.mul_le_mul (hz_bounds rate).2 h.le
    rw [UInt64.toNat_mul, UInt32.toNat_toUInt64, Nat.mod_eq_of_lt (by omega)]
  have hbound : rate.hz.toNat * increment.toNat < 150000000 * 2 ^ 31 :=
    lt_of_le_of_lt (Nat.mul_le_mul_right _ (hz_bounds rate).2) (by omega)
  unfold SampleRate.realizedNhz nearest
  simp only [UInt64.toNat_add, UInt64.toNat_mul, UInt64.toNat_div, UInt64.toNat_mod, hproduct,
    UInt64.reduceToNat]
  generalize rate.hz.toNat * increment.toNat = product at hbound
  have hsplit : 4294967296 * (product / 4294967296) + product % 4294967296 = product :=
    Nat.div_add_mod _ _
  have hfraction : product % 4294967296 < 4294967296 := Nat.mod_lt _ (by decide)
  have hwhole : product / 4294967296 ≤ 75000000 := by omega
  generalize product / 4294967296 = whole at hwhole hsplit
  generalize product % 4294967296 = fraction at hfraction hsplit
  rw [Nat.mod_eq_of_lt (a := whole * 1000000000) (by omega),
    Nat.mod_eq_of_lt (a := fraction * 1000000000) (by omega),
    Nat.mod_eq_of_lt (a := fraction * 1000000000 + 2147483648) (by omega),
    Nat.mod_eq_of_lt (by omega)]
  omega

/-- The frequency reported of an increment is quantised to the increment. -/
theorem frequencyIncrement_realized {increment : UInt32} (hpos : 0 < increment.toNat)
    (hlimit : increment.toNat < 2 ^ 31)
    (hminimum : minimumFrequencyNhz ≤ rate.realizedNhz increment)
    (hmaximum : rate.realizedNhz increment ≤ rate.maximumFrequencyNhz) :
    rate.frequencyIncrement (rate.realizedNhz increment) 0 = some increment := by
  have herror := nearest_error (by decide : 0 < 2 ^ 32)
    (rate.hz.toNat * increment.toNat * 1000000000)
  rw [← realizedNhz_nearest hlimit] at herror
  have hcorrected : rate.corrected 0 = rate.hz.toNat * 1000000000 := rfl
  have hclose : nearest ((rate.realizedNhz increment).toNat * 2 ^ 32) (rate.corrected 0) =
      increment.toNat := by
    refine nearest_of_close ?_
    have hhz := (hz_bounds rate).1
    obtain ⟨hlow, hhigh⟩ := abs_le.mp herror
    rw [hcorrected, abs_lt]
    push_cast at hlow hhigh ⊢
    constructor <;> linarith
  rw [frequencyIncrement_eq hminimum hmaximum rfl, hclose, if_neg (by omega)]
  exact congrArg some UInt32.ofNat_toNat

/-! ## Jobs of realized frequencies -/

/-- The event at the frequency its segment realizes. -/
def SampleRate.retune (rate : SampleRate) (event : RfEvent) (segment : Segment) : RfEvent :=
  if event.rfOn then { event with frequencyNhz := some (rate.realizedNhz segment.increment) }
  else event

/-- The job at the frequencies its plan realizes, with adjustments allowed or not. -/
def SampleRate.reloaded (rate : SampleRate) (job : Job) (plan : Plan) (allowed : Bool) : Job :=
  { job with
    allowFrequencyAdjustment := allowed
    events := { job.events with
      events := List.zipWith rate.retune job.events.events plan.segments } }

theorem retune_fields (rate : SampleRate) (event : RfEvent) (segment : Segment) :
    (rate.retune event segment).offsetNs = event.offsetNs ∧
    (rate.retune event segment).durationNs = event.durationNs ∧
    (rate.retune event segment).rfOn = event.rfOn := by
  unfold SampleRate.retune
  split_ifs
  · exact ⟨rfl, rfl, rfl⟩
  · exact ⟨rfl, rfl, rfl⟩

/-- The frequency a segment realizes can be asked for. -/
def SampleRate.Admitted (rate : SampleRate) (segment : Segment) : Prop :=
  segment.increment ≠ 0 → minimumFrequencyNhz ≤ rate.realizedNhz segment.increment ∧
    rate.realizedNhz segment.increment ≤ rate.maximumFrequencyNhz

variable {job : Job} {plan : Plan} {allowed : Bool} {event : RfEvent} {segment : Segment}
  {cursor cursor' : PlanCursor} {last : Bool}

/-- A tone asked for at the frequency it realizes is the same one, and needs no adjustment. -/
theorem planTone_retune {allowAdjustment : Bool} {tones tones' : List UInt32} {increment : UInt32}
    {index : Nat} {sample : UInt64} (hadmitted : rate.Admitted ⟨sample, increment, index⟩)
    (h : rate.planTone allowAdjustment 0 tones event = some (increment, tones', index)) :
    rate.planTone allowed 0 tones (rate.retune event ⟨sample, increment, index⟩) =
      some (increment, tones', index) := by
  unfold SampleRate.planTone at h
  split at h
  · cases h
  · rename_i frequency hon hfrequency
    obtain ⟨selected, hselected, h⟩ := Option.bind_eq_some_iff.1 h
    split at h
    · cases h
    obtain ⟨⟨tones₁, index₁⟩, hfound, h⟩ := Option.bind_eq_some_iff.1 h
    cases h
    obtain ⟨hpos, hlimit⟩ := frequencyIncrement_range hselected
    have hne : increment ≠ 0 := fun hzero => by
      rw [hzero] at hpos
      exact absurd hpos (by decide)
    obtain ⟨hminimum, hmaximum⟩ := hadmitted hne
    have hagain := frequencyIncrement_realized hpos hlimit hminimum hmaximum
    simp [SampleRate.planTone, SampleRate.retune, hon, hagain, hfound]
  · cases h
  · rename_i hoff hnone
    cases h
    simp [SampleRate.planTone, SampleRate.retune, hoff, hnone]

theorem planEvent_retune (hadmitted : rate.Admitted segment)
    (h : rate.planEvent job 0 last cursor event = some (segment, cursor')) :
    rate.planEvent (rate.reloaded job plan allowed) 0 last cursor (rate.retune event segment) =
      some (segment, cursor') := by
  obtain ⟨hoffset, hduration, hon⟩ := retune_fields rate event segment
  unfold SampleRate.planEvent at h ⊢
  rw [hoffset, hduration, hon]
  change (if event.offsetNs ≠ cursor.ns ∨ event.durationNs = 0 ∨
    event.durationNs > job.totalDurationNs - cursor.ns then _ else _) = _
  split at h
  · cases h
  rename_i hplace
  rw [if_neg hplace]
  obtain ⟨sample, hsample, h⟩ := Option.bind_eq_some_iff.1 h
  refine Option.bind_eq_some_iff.2 ⟨sample, hsample, ?_⟩
  split at h
  · cases h
  rename_i hlater
  rw [if_neg hlater]
  obtain ⟨⟨increment, tones, index⟩, htone, h⟩ := Option.bind_eq_some_iff.1 h
  cases h
  exact Option.bind_eq_some_iff.2 ⟨_, planTone_retune hadmitted htone, rfl⟩

theorem planEvents_retune {events : List RfEvent} {segments : List Segment}
    (hadmitted : ∀ segment ∈ segments, rate.Admitted segment)
    (h : rate.planEvents job 0 cursor events = some (segments, cursor')) :
    rate.planEvents (rate.reloaded job plan allowed) 0 cursor
      (List.zipWith rate.retune events segments) = some (segments, cursor') := by
  induction events generalizing cursor segments with
  | nil => exact h
  | cons event events ih =>
    unfold SampleRate.planEvents at h
    obtain ⟨⟨segment, cursor₁⟩, hevent, h⟩ := Option.bind_eq_some_iff.1 h
    obtain ⟨⟨segments', cursor₂⟩, hevents, h⟩ := Option.bind_eq_some_iff.1 h
    cases h
    have hrest := ih (List.forall_mem_cons.1 hadmitted).2 hevents
    have hlength := (planEvents_realizes hevents).length_eq
    have hlast : (List.zipWith rate.retune events segments').isEmpty = events.isEmpty := by
      cases events with
      | nil => rfl
      | cons => cases segments' with
        | nil => cases hlength
        | cons => rfl
    rw [List.zipWith_cons_cons, SampleRate.planEvents, hlast,
      planEvent_retune (hadmitted segment List.mem_cons_self) hevent]
    simp [hrest]

theorem retuned_rfOn (rate : SampleRate) {events : List RfEvent} {segments : List Segment}
    (h : segments.length = events.length) :
    (List.zipWith rate.retune events segments).map RfEvent.rfOn = events.map RfEvent.rfOn := by
  induction events generalizing segments with
  | nil => rfl
  | cons event events ih =>
    cases segments with
    | nil => cases h
    | cons segment segments =>
      rw [List.zipWith_cons_cons, List.map_cons, List.map_cons, (retune_fields rate event segment).2.2,
        ih (Nat.succ.inj h)]

theorem lastOff_map (events : List RfEvent) :
    events.getLast?.any (!·.rfOn) = (events.map RfEvent.rfOn).getLast?.any (!·) := by
  rw [List.getLast?_map]
  cases events.getLast? <;> rfl

/-- A job at the frequencies its plan realizes, where they can be asked for, has the same plan and
needs no adjustment. -/
theorem planJob_reloaded (h : rate.planJob job 0 = some plan)
    (hadmitted : ∀ segment ∈ plan.segments, rate.Admitted segment) :
    rate.planJob (rate.reloaded job plan allowed) 0 = some plan := by
  have hlength := (planJob_realizes h).length_eq
  have hevents : (rate.reloaded job plan allowed).events.events.length = job.events.events.length := by
    simp [SampleRate.reloaded, hlength]
  have hempty : (rate.reloaded job plan allowed).events.isEmpty = job.events.isEmpty := by
    unfold EventList.isEmpty
    rw [Bool.eq_iff_iff, List.isEmpty_iff_length_eq_zero, List.isEmpty_iff_length_eq_zero, hevents]
  have hplannable : plannable (rate.reloaded job plan allowed) 0 = plannable job 0 := by
    unfold plannable EventList.size
    rw [hempty, hevents]
    rfl
  have hoff : (rate.reloaded job plan allowed).events.events.getLast?.any (!·.rfOn) =
      job.events.events.getLast?.any (!·.rfOn) := by
    rw [lastOff_map, lastOff_map, ← retuned_rfOn rate hlength.symm]
    rfl
  unfold SampleRate.planJob at h ⊢
  rw [hplannable, hoff]
  split at h
  · cases h
  rename_i hready
  rw [if_neg hready]
  obtain ⟨total, htotal, h⟩ := Option.bind_eq_some_iff.1 h
  refine Option.bind_eq_some_iff.2 ⟨total, htotal, ?_⟩
  split at h
  · cases h
  rename_i hpositive
  rw [if_neg hpositive]
  obtain ⟨⟨segments, cursor⟩, hplanned, h⟩ := Option.bind_eq_some_iff.1 h
  simp only at h
  split at h
  · cases h
  · rename_i hns
    cases h
    refine Option.bind_eq_some_iff.2 ⟨_, planEvents_retune hadmitted hplanned, ?_⟩
    exact if_neg hns

/-- The increment is the exact quotient rounded once, halves up, and no step of the division leaves
64 bits. The frequency realized by an increment is quantised to it, where it can be asked for, so
a job at the frequencies its plan realizes needs no adjustment without a correction. -/
theorem tone_quantisation (rate : SampleRate) :
    (∀ frequency correctionPpb, minimumFrequencyNhz ≤ frequency →
      frequency ≤ rate.maximumFrequencyNhz → correctionInRange correctionPpb = true →
      let divisor := rate.hz.toNat * (1000000000 + correctionPpb).toNat
      let quotient := nearest (frequency.toNat * 2 ^ 32) divisor
      let division (bits : Nat) := divideBits
        (rate.hz * UInt64.ofNat (1000000000 + correctionPpb).toNat) bits frequency 0
      rate.frequencyIncrement frequency correctionPpb =
        (if quotient = 0 ∨ 2 ^ 31 ≤ quotient then none else some (UInt32.ofNat quotient)) ∧
      divisor < 2 ^ 64 ∧ ∀ bits ≤ 32, (division bits).1.toNat * 2 < 2 ^ 64 ∧
        (division bits).2.toNat * 2 + 1 < 2 ^ 64) ∧
    (∀ frequency correctionPpb increment,
      rate.frequencyIncrement frequency correctionPpb = some increment →
      minimumFrequencyNhz ≤ rate.realizedNhz increment →
      rate.realizedNhz increment ≤ rate.maximumFrequencyNhz →
      rate.frequencyIncrement (rate.realizedNhz increment) 0 = some increment) ∧
    ∀ job plan allowed, rate.planJob job 0 = some plan →
      (∀ segment ∈ plan.segments, rate.Admitted segment) →
      rate.planJob (rate.reloaded job plan allowed) 0 = some plan ∧
      rate.adjustments 0 (rate.reloaded job plan allowed).events.events plan.segments = [] := by
  refine ⟨fun frequency correctionPpb hminimum hmaximum h => ?_,
    fun frequency correctionPpb increment h hminimum hmaximum => ?_,
    fun job plan allowed h hadmitted => ⟨planJob_reloaded h hadmitted, ?_⟩⟩
  · obtain ⟨hsmall, hlarge⟩ := corrected_bounds h hmaximum
    refine ⟨frequencyIncrement_eq hminimum hmaximum h, hlarge.trans_lt (by decide), ?_⟩
    intro bits hbits
    rw [← corrected_toNat h] at hsmall hlarge
    obtain ⟨-, hrest, hquotient⟩ := divideBits_divided hlarge hsmall (hbits.trans (by decide))
    have hpow : 2 ^ bits ≤ 2 ^ 32 := Nat.pow_le_pow_right (by decide) hbits
    dsimp only
    constructor <;> omega
  · obtain ⟨hpos, hlimit⟩ := frequencyIncrement_range h
    exact frequencyIncrement_realized hpos hlimit hminimum hmaximum
  · have hstrict : rate.planJob (rate.reloaded job plan false) 0 = some plan :=
      planJob_reloaded h hadmitted
    exact adjustments_nil (planJob_realizes hstrict)

theorem tone_quantisation_marked :
    SampleRate.frequencyIncrement .mhz138 3570100000000000 0 = some 111112049 ∧
    SampleRate.frequencyIncrement .mhz138 (SampleRate.realizedNhz .mhz138 111112049) 0 =
      some 111112049 ∧
    SampleRate.planJob .mhz138 (SampleRate.reloaded .mhz138 markedTone markedPlan false) 0 =
      some markedPlan := by
  obtain ⟨hrounded, hrealized, hreloaded⟩ := tone_quantisation .mhz138
  have hincrement := (hrounded 3570100000000000 0 (by decide) (by decide) (by decide)).1.trans
    (show _ = some 111112049 by decide)
  have hadmitted : ∀ segment ∈ markedPlan.segments, SampleRate.Admitted .mhz138 segment := by
    unfold SampleRate.Admitted
    decide
  exact ⟨hincrement, hrealized _ 0 _ hincrement (by decide) (by decide),
    (hreloaded markedTone markedPlan false markedTone_plan hadmitted).1⟩

/-- The realized frequency of the lowest tone is below the range, and that of a corrected tone is
quantised to another increment under the same correction. -/
theorem realized_not_requantised :
    SampleRate.frequencyIncrement .mhz138 minimumFrequencyNhz 0 = some 3112295 ∧
    SampleRate.frequencyIncrement .mhz138 (SampleRate.realizedNhz .mhz138 3112295) 0 = none ∧
    SampleRate.frequencyIncrement .mhz138 3570100000000000 100000 = some 111100939 ∧
    SampleRate.frequencyIncrement .mhz138 (SampleRate.realizedNhz .mhz138 111100939) 100000 ≠
      some 111100939 := by
  decide +kernel

end WsprryPico.Rf
