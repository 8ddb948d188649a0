import WsprryPico.Encoding.Morse

/-!
# Compiled messages

What `measure_message` announces is what `compile_message` emits: the count and
the total are those of the emissions, the sums that `std::uint64_t` keeps are
exact, and the events lie end to end.
-/

namespace WsprryPico.Encoding.Morse

open Lib Wtp Time

/-! ## What is accepted -/

/-- The inputs that pass the checks one by one. -/
structure Accepted (input : MorseMessage) : Prop where
  mark : input.markFrequencyNhz ≠ 0
  space : input.mode ≠ "qrss" → input.spaceFrequencyNhz ≠ 0
  dot : input.dotNs ≠ 0
  dash : input.dashNs ≠ 0
  intra : input.intraGapNs ≠ 0
  character : input.characterGapNs ≠ 0
  word : input.wordGapNs ≠ 0
  some' : input.repeatCount ≠ 0
  few : ¬ input.repeatCount > 512
  gap : input.repeatCount > 1 → input.repeatGapNs ≠ 0

theorem refusal_none {input : MorseMessage} (h : refusal input = none) : Accepted input := by
  unfold refusal at h
  split_ifs at h with h1 h2 h3 h4 h5 h6
  simp only [not_or, not_and] at h4 h5
  obtain ⟨hmark, hspace⟩ := h4
  obtain ⟨hdot, hdash, hintra, hcharacter, hword, hsome, hfew, hgap⟩ := h5
  exact ⟨hmark, fun hq => (hspace hq).1, hdot, hdash, hintra, hcharacter, hword, hsome, hfew, hgap⟩

theorem refusal_reason {input : MorseMessage} {reason : String} (h : refusal input = some reason) :
    reason ≠ "" := by
  rintro rfl
  unfold refusal at h
  split_ifs at h <;> exact absurd (Option.some.inj h) (by decide)

/-- An emission an event can hold. -/
def Emission.Fit (e : Emission) : Prop := e.duration ≠ 0 ∧ (e.on = true → e.frequency ≠ 0)

section Visit

variable {input : MorseMessage} (h : Accepted input)
include h

theorem element_fit (code : Char) : (element input code).Fit := by
  refine ⟨?_, fun _ => ?_⟩
  · show (if _ then input.dotNs else input.dashNs) ≠ 0
    split
    · exact h.dot
    · exact h.dash
  · show (if _ then input.spaceFrequencyNhz else input.markFrequencyNhz) ≠ 0
    split
    · rename_i hmode
      exact h.space (by rw [hmode.1]; decide)
    · exact h.mark

theorem pause_fit {duration : UInt64} (hd : duration ≠ 0) : (pause input duration).Fit := by
  refine ⟨hd, fun hon => h.space ?_⟩
  rw [of_decide_eq_true hon]
  decide

theorem visitCode_fit (code : List Char) : ∀ e ∈ visitCode input code, e.Fit := by
  induction code with
  | nil => exact fun e he => nomatch he
  | cons c rest ih =>
    intro e he
    rw [visitCode, List.mem_cons, List.mem_append] at he
    rcases he with rfl | he | he
    · exact element_fit h c
    · split at he
      · cases he
      · rw [List.mem_singleton.mp he]
        exact pause_fit h h.intra
    · exact ih e he

theorem separator_fit (rest : List UInt8) : ∀ e ∈ separator input rest, e.Fit := by
  intro e he
  unfold separator at he
  split at he
  · cases he
  · rw [List.mem_singleton.mp he]
    refine pause_fit h ?_
    split
    · exact h.character
    · exact h.word

theorem visit_fit (text : List UInt8) : ∀ e ∈ visit input text, e.Fit := by
  induction text with
  | nil => exact fun e he => nomatch he
  | cons c rest ih =>
    intro e he
    rw [visit] at he
    split at he
    · exact ih e he
    · rw [List.mem_append, List.mem_append] at he
      rcases he with (he | he) | he
      · exact visitCode_fit h _ e he
      · exact separator_fit h _ e he
      · exact ih e he

theorem emissions_fit : ∀ e ∈ emissions input, e.Fit := by
  intro e he
  unfold emissions at he
  rw [List.mem_append, List.mem_flatMap] at he
  rcases he with ⟨round, hround, he⟩ | he
  · rw [repetition, List.mem_append] at he
    rcases he with he | he
    · exact visit_fit h _ e he
    · split at he
      · rw [List.mem_singleton.mp he]
        refine ⟨h.gap ?_, nofun⟩
        rw [gt_iff_lt, UInt32.lt_iff_toNat_lt]
        show 1 < _
        omega
      · cases he
  · rw [List.mem_singleton.mp he]
    exact ⟨by decide, nofun⟩

end Visit

/-! ## Sums -/

def span (es : List Emission) : Nat := (es.map (·.duration.toNat)).sum

@[simp] theorem span_nil : span [] = 0 := rfl
@[simp] theorem span_cons (e : Emission) (es : List Emission) :
    span (e :: es) = e.duration.toNat + span es := by simp [span]
@[simp] theorem span_append (es es' : List Emission) : span (es ++ es') = span es + span es' := by
  simp [span]

/-- A quantity that adds up over the emissions is that of the pattern for each
repetition, that of the gaps between them and that of the tail. -/
theorem emissions_measure (μ : List Emission → Nat)
    (happend : ∀ es es', μ (es ++ es') = μ es + μ es') {input : MorseMessage}
    (h : input.repeatCount ≠ 0) :
    μ (emissions input) = μ (visit input input.text) * input.repeatCount.toNat +
      μ [⟨input.repeatGapNs, false, 0⟩] * (input.repeatCount.toNat - 1) +
      μ [⟨messageTailNs, false, 0⟩] := by
  have hnil : μ [] = 0 := by
    have := happend [] []
    rw [List.append_nil] at this
    omega
  have hpos : input.repeatCount.toNat ≠ 0 := fun h0 => h (UInt32.toNat_inj.mp h0)
  obtain ⟨k, hk⟩ := Nat.exists_eq_succ_of_ne_zero hpos
  have hrounds : ∀ n ≤ k, μ ((List.range n).flatMap (repetition input)) =
      n * (μ (visit input input.text) + μ [⟨input.repeatGapNs, false, 0⟩]) := by
    intro n hn
    induction n with
    | zero => rw [Nat.zero_mul]; exact hnil
    | succ n ih =>
      rw [List.range_succ, List.flatMap_append, happend, ih (by omega), List.flatMap_singleton,
        repetition, if_pos (by omega), happend, Nat.succ_mul]
  unfold emissions
  rw [happend, hk, Nat.succ_eq_add_one, List.range_succ, List.flatMap_append, happend,
    hrounds k (Nat.le_refl k), List.flatMap_singleton, repetition, if_neg (by omega),
    List.append_nil, Nat.add_sub_cancel]
  ring

theorem tally_fold (es : List Emission) (t : Tally) :
    (es.foldl Tally.add t).patternEvents = t.patternEvents + es.length ∧
    ((es.foldl Tally.add t).overflow = false → t.overflow = false ∧
      (es.foldl Tally.add t).patternDuration.toNat = t.patternDuration.toNat + span es) := by
  induction es generalizing t with
  | nil => exact ⟨rfl, fun h => ⟨h, rfl⟩⟩
  | cons e es ih =>
    obtain ⟨hcount, hsum⟩ := ih (t.add e)
    rw [List.foldl_cons, List.length_cons, span_cons]
    unfold Tally.add at hcount hsum ⊢
    split
    · rename_i hover
      rw [if_pos hover] at hcount hsum
      refine ⟨by rw [hcount]; show t.patternEvents + 1 + _ = _; omega, fun h => ?_⟩
      cases (hsum h).1
    · rename_i hroom
      rw [if_neg hroom] at hcount hsum
      refine ⟨by rw [hcount]; show t.patternEvents + 1 + _ = _; omega, fun h => ?_⟩
      obtain ⟨hclear, hsum⟩ := hsum h
      refine ⟨hclear, ?_⟩
      rw [hsum]
      show (t.patternDuration + e.duration).toNat + _ = _
      rw [toNat_add_of_room hroom]
      omega

theorem toNat_mul_of_room {left right : UInt64} (hpos : right ≠ 0)
    (h : ¬ left > u64Max / right) : (left * right).toNat = left.toNat * right.toNat := by
  have hle := UInt64.le_iff_toNat_le.mp (UInt64.not_lt.mp h)
  rw [UInt64.toNat_div, toNat_u64Max] at hle
  have hright : 0 < right.toNat := Nat.pos_of_ne_zero fun h0 => hpos (UInt64.toNat_inj.mp h0)
  have hprod := (Nat.le_div_iff_mul_le hright).mp hle
  rw [UInt64.toNat_mul, Nat.mod_eq_of_lt (by omega)]

/-- What `measure_message` has accepted. -/
structure Measured (input : MorseMessage) (eventLimit : Nat) (durationLimit : UInt64)
    (result : MorseResult) : Prop where
  accepted : Accepted input
  unbuilt : result.job = none
  count : result.calculatedEvents = (emissions input).length
  total : result.calculatedDurationNs.toNat = span (emissions input)
  brief : result.calculatedDurationNs ≤ durationLimit ∧
    result.calculatedDurationNs ≤ maxMessageDurationNs
  few : result.calculatedEvents ≤ eventLimit ∧ result.calculatedEvents ≤ 512

theorem not_lt_min {a b c : UInt64} (h : ¬ a > min b c) : a ≤ b ∧ a ≤ c := by
  have hle := UInt64.not_lt.mp h
  rw [show min b c = if b ≤ c then b else c from rfl] at hle
  split at hle
  · rename_i hbc
    exact ⟨hle, UInt64.le_trans hle hbc⟩
  · rename_i hbc
    exact ⟨UInt64.le_trans hle (UInt64.le_of_lt (UInt64.not_le.mp hbc)), hle⟩

theorem measurePattern_measured {input : MorseMessage} (haccepted : Accepted input)
    {eventLimit : Nat} {durationLimit : UInt64}
    (h : (measurePattern input ((visit input input.text).foldl Tally.add {}) eventLimit
      durationLimit).error = "") :
    Measured input eventLimit durationLimit
      (measurePattern input ((visit input input.text).foldl Tally.add {}) eventLimit
        durationLimit) := by
  obtain ⟨hevents, hduration⟩ := tally_fold (visit input input.text) {}
  generalize (visit input input.text).foldl Tally.add {} = pattern at h hevents hduration ⊢
  have hsome : input.repeatCount.toNat ≠ 0 := fun h0 =>
    haccepted.some' (UInt32.toNat_inj.mp h0)
  have hcount : input.repeatCount.toUInt64.toNat = input.repeatCount.toNat :=
    UInt32.toNat_toUInt64 _
  have hless : (input.repeatCount.toUInt64 - 1).toNat = input.repeatCount.toNat - 1 := by
    rw [UInt64.toNat_sub_of_le _ _ (UInt64.le_iff_toNat_le.mpr ?_), hcount]
    · rfl
    · rw [hcount]
      show 1 ≤ _
      omega
  unfold measurePattern at h ⊢
  dsimp only at h ⊢
  split_ifs at h ⊢ with h1 h2 h3 h4 h5
  iterate 5 exact absurd h (by simp)
  simp only [not_or, not_and, Bool.not_eq_true] at h2 h3
  obtain ⟨hclear, hrepeated, hgaps⟩ := h2
  have hpattern := (hduration hclear).2
  have hrepeated := toNat_mul_of_room (fun h0 => hsome (by rw [← hcount, h0]; rfl)) hrepeated
  have hgaps : (input.repeatGapNs * (input.repeatCount.toUInt64 - 1)).toNat =
      input.repeatGapNs.toNat * (input.repeatCount.toNat - 1) := by
    by_cases hone : input.repeatCount > 1
    · have hone' : 1 < input.repeatCount.toNat := UInt32.lt_iff_toNat_lt.mp hone
      rw [toNat_mul_of_room (fun h0 => ?_) (hgaps hone), hless]
      have := congrArg UInt64.toNat h0
      rw [hless] at this
      exact absurd this (by show _ ≠ 0; omega)
    · have hone' : ¬ 1 < input.repeatCount.toNat := fun hlt =>
        hone (UInt32.lt_iff_toNat_lt.mpr hlt)
      have hzero : input.repeatCount.toUInt64 - 1 = 0 := by
        rw [← UInt64.toNat_inj, hless]
        show _ = 0
        omega
      rw [hzero, UInt64.mul_zero, show input.repeatCount.toNat - 1 = 0 by omega, Nat.mul_zero]
      rfl
  obtain ⟨hroom, htail⟩ := h3
  have hsum := toNat_add_of_room hroom
  have htail : ¬ messageTailNs > u64Max - (pattern.patternDuration *
      input.repeatCount.toUInt64 + input.repeatGapNs * (input.repeatCount.toUInt64 - 1)) := by
    have hsub : ∀ a b c : UInt64, a - (b + c) = a - b - c := by grind
    rw [hsub]
    exact htail
  have htotal := toNat_add_of_room htail
  refine ⟨haccepted, rfl, ?_, ?_, not_lt_min h4, ?_⟩
  · rw [emissions_measure List.length (fun _ _ => List.length_append) haccepted.some']
    show pattern.patternEvents * _ + _ = _ * _ + 1 * _ + 1
    rw [hevents]
    show (0 + _) * _ + _ = _
    rw [Nat.zero_add]
    omega
  · rw [emissions_measure span span_append haccepted.some']
    show (_ + messageTailNs).toNat = _
    rw [htotal, hsum, hrepeated, hgaps, hpattern, hcount]
    simp
  · have := Nat.not_lt.mp h5
    exact ⟨this.trans (Nat.min_le_left _ _), this.trans (Nat.min_le_right _ _)⟩

theorem measureMessage_measured {input : MorseMessage} {eventLimit : Nat} {durationLimit : UInt64}
    (h : (measureMessage input eventLimit durationLimit).error = "") :
    Measured input eventLimit durationLimit
      (measureMessage input eventLimit durationLimit) := by
  unfold measureMessage at h ⊢
  cases hrefusal : refusal input with
  | some reason =>
    rw [hrefusal] at h
    exact absurd h (refusal_reason hrefusal)
  | none =>
    rw [hrefusal] at h
    exact measurePattern_measured (refusal_none hrefusal) h

theorem measureMessage_unbuilt (input : MorseMessage) (eventLimit : Nat) (durationLimit : UInt64) :
    (measureMessage input eventLimit durationLimit).job = none := by
  unfold measureMessage
  split
  · rfl
  · unfold measurePattern
    dsimp only
    split_ifs <;> rfl

/-! ## Events -/

/-- How long the events last. -/
def elapsed (events : List RfEvent) : Nat := (events.map (·.durationNs.toNat)).sum

def Emission.event (e : Emission) (offset : UInt64) : RfEvent :=
  ⟨offset, e.duration, e.on, if e.on then some e.frequency else none⟩

/-- The events of the emissions from an offset on. -/
def laid : UInt64 → List Emission → List RfEvent
  | _, [] => []
  | offset, e :: es => e.event offset :: laid (offset + e.duration) es

theorem laid_length (offset : UInt64) (es : List Emission) :
    (laid offset es).length = es.length := by
  induction es generalizing offset with
  | nil => rfl
  | cons e es ih => rw [laid, List.length_cons, List.length_cons, ih]

theorem laid_elapsed (offset : UInt64) (es : List Emission) :
    elapsed (laid offset es) = span es := by
  induction es generalizing offset with
  | nil => rfl
  | cons e es ih =>
    rw [span_cons, ← ih (offset + e.duration)]
    exact List.sum_cons

theorem laid_mem {offset : UInt64} {es : List Emission} {event : RfEvent}
    (h : event ∈ laid offset es) : ∃ e ∈ es, ∃ t, event = e.event t := by
  induction es generalizing offset with
  | nil => exact nomatch h
  | cons e es ih =>
    rcases List.mem_cons.mp h with h | h
    · exact ⟨e, List.mem_cons_self, offset, h⟩
    · obtain ⟨e', he, t, ht⟩ := ih h
      exact ⟨e', List.mem_cons_of_mem e he, t, ht⟩

theorem laid_append (offset : UInt64) (es : List Emission) (e : Emission) :
    ∃ t, laid offset (es ++ [e]) = laid offset es ++ [e.event t] := by
  induction es generalizing offset with
  | nil => exact ⟨offset, rfl⟩
  | cons e' es ih =>
    obtain ⟨t, ht⟩ := ih (offset + e'.duration)
    exact ⟨t, by rw [List.cons_append, laid, ht]; rfl⟩

theorem offset_step {offset : UInt64} {e : Emission} {es : List Emission}
    (h : offset.toNat + span (e :: es) < 2 ^ 64) :
    (offset + e.duration).toNat = offset.toNat + e.duration.toNat := by
  rw [span_cons] at h
  rw [UInt64.toNat_add, Nat.mod_eq_of_lt (by omega)]

/-- Each event starts where those before it end. -/
theorem laid_contiguous {offset : UInt64} {es : List Emission}
    (h : offset.toNat + span es < 2 ^ 64) {i : Nat} {event : RfEvent}
    (hi : (laid offset es)[i]? = some event) :
    event.offsetNs.toNat = offset.toNat + elapsed ((laid offset es).take i) := by
  induction es generalizing offset i with
  | nil => exact nomatch hi
  | cons e es ih =>
    have hstep := offset_step h
    rw [span_cons] at h
    cases i with
    | zero =>
      cases hi
      rfl
    | succ i =>
      have hsucc := ih (by omega) (i := i) hi
      rw [hsucc, hstep]
      show _ = offset.toNat + (List.sum (_ :: _))
      rw [List.sum_cons]
      show _ = offset.toNat + (e.duration.toNat + elapsed _)
      omega

/-- The event loop of `validate_job` has nothing to say about such events but where
their frequencies lie. -/
theorem validateEvents_laid {config : ServiceConfig} {total offset : UInt64} {es : List Emission}
    (hfit : ∀ e ∈ es, e.Fit) (h : offset.toNat + span es = total.toNat) :
    validateEvents config total offset (laid offset es) = .none ↔
      ∀ event ∈ laid offset es, ∀ f, event.frequencyNhz = some f →
        config.minimumFrequencyNhz ≤ f ∧ f ≤ config.maximumFrequencyNhz := by
  have hlt := total.toNat_lt
  induction es generalizing offset with
  | nil =>
    have heq : offset = total := UInt64.toNat_inj.mp h
    simp [laid, validateEvents, heq]
  | cons e es ih =>
    have hstep := offset_step (by omega : offset.toNat + span (e :: es) < 2 ^ 64)
    rw [span_cons] at h
    have hrest : validateEvents config total (offset + e.duration) _ = .none ↔ _ :=
      ih (fun e' he => hfit e' (List.mem_cons_of_mem e he)) (by omega)
    obtain ⟨hduration, hfrequency⟩ := hfit e List.mem_cons_self
    have hroom : ¬ e.duration > u64Max - offset := by
      rw [gt_iff_lt, UInt64.lt_iff_toNat_lt, UInt64.toNat_sub_of_le _ _
        (UInt64.le_iff_toNat_le.mpr (by rw [toNat_u64Max]; omega)), toNat_u64Max]
      omega
    rw [laid, validateEvents, if_neg (by simp [Emission.event, hduration, hroom])]
    rw [if_neg (by cases hon : e.on <;> simp_all [Emission.event])]
    rw [List.forall_mem_cons]
    have hin : (∀ f, (e.event offset).frequencyNhz = some f →
        config.minimumFrequencyNhz ≤ f ∧ f ≤ config.maximumFrequencyNhz) ↔
        ¬ ((e.event offset).frequencyNhz.any fun f =>
          f < config.minimumFrequencyNhz ∨ f > config.maximumFrequencyNhz) = true := by
      cases (e.event offset).frequencyNhz <;> simp
    split
    · rename_i hrejected
      exact ⟨nofun, fun hall => absurd hrejected (hin.mp hall.1)⟩
    · rename_i hadmitted
      exact hrest.trans ⟨fun hall => ⟨hin.mpr hadmitted, hall⟩, And.right⟩

/-! ## Storing -/

/-- The allocator has the pages of so many events. -/
def Granted (allocate : Nat → Bool) (count : Nat) : Prop :=
  ∀ page, page * Codec.pageEvents < count → allocate page = true

theorem reserve_granted {allocate : Nat → Bool} {l : EventList} {count : Nat}
    (hfew : count ≤ Codec.maximumEvents) (h : Granted allocate count) :
    Codec.reserve allocate l count = (l, true) := by
  unfold Codec.reserve
  rw [if_neg (Nat.not_lt.mpr hfew), if_pos]
  rw [List.all_eq_true]
  intro page hpage
  rw [List.mem_range] at hpage
  refine h page ?_
  unfold Codec.pageEvents at hpage ⊢
  omega

theorem reserve_refused_page {allocate : Nat → Bool} {l : EventList} {count page : Nat}
    (hpage : page * Codec.pageEvents < count) (h : allocate page = false) :
    (Codec.reserve allocate l count).2 = false := by
  unfold Codec.reserve
  split
  · rfl
  · rw [if_neg]
    intro hall
    rw [List.all_eq_true] at hall
    have hgranted := hall page (List.mem_range.mpr (by unfold Codec.pageEvents at hpage ⊢; omega))
    rw [h] at hgranted
    cases hgranted

theorem pushBack_granted {allocate : Nat → Bool} {l : EventList} {value : RfEvent}
    (hfew : l.size < Codec.maximumEvents) (h : Granted allocate (l.size + 1)) :
    Codec.pushBack allocate l value = ({ l with events := l.events ++ [value] }, true) := by
  unfold Codec.pushBack
  rw [reserve_granted hfew h, if_neg (Nat.not_le.mpr hfew), if_pos rfl]

/-- The emitter stores the events of what it is given, while there is room. -/
theorem emit_fold {allocate : Nat → Bool} (es : List Emission) (offset : UInt64) (l : EventList)
    (hfew : l.size + es.length ≤ Codec.maximumEvents)
    (h : Granted allocate (l.size + es.length)) :
    (es.foldl (Emitter.emit allocate) ⟨true, offset, l⟩).stored = true ∧
    (es.foldl (Emitter.emit allocate) ⟨true, offset, l⟩).events =
      { l with events := l.events ++ laid offset es } := by
  induction es generalizing offset l with
  | nil => exact ⟨rfl, by rw [laid, List.append_nil]; rfl⟩
  | cons e es ih =>
    rw [List.length_cons] at hfew h
    have hpush : Codec.pushBack allocate l (e.event offset) =
        ({ l with events := l.events ++ [e.event offset] }, true) :=
      pushBack_granted (by omega) fun page hpage => h page (by omega)
    have hemit : Emitter.emit allocate ⟨true, offset, l⟩ e =
        ⟨true, offset + e.duration, { l with events := l.events ++ [e.event offset] }⟩ := by
      unfold Emitter.emit
      dsimp only
      rw [if_pos rfl]
      show Emitter.mk (Codec.pushBack allocate l (e.event offset)).2 _
        (Codec.pushBack allocate l (e.event offset)).1 = _
      rw [hpush]
    have hsize : (EventList.size { l with events := l.events ++ [e.event offset] }) =
        l.size + 1 := List.length_append
    rw [List.foldl_cons, hemit]
    obtain ⟨hstored, hevents⟩ := ih (offset + e.duration)
      { l with events := l.events ++ [e.event offset] } (by rw [hsize]; omega)
      fun page hpage => h page (by rw [hsize] at hpage; omega)
    refine ⟨hstored, hevents.trans ?_⟩
    rw [laid, List.append_assoc]
    rfl

/-! ## The job -/

/-- A job as it was announced. -/
structure Announced (input : MorseMessage) (result : MorseResult) (job : Job) : Prop where
  stored : job.events.valid = true
  count : job.events.size = result.calculatedEvents
  total : job.totalDurationNs = result.calculatedDurationNs
  /-- The events lie end to end from zero, and no sum of durations wraps. -/
  contiguous : ∀ i event, job.events.events[i]? = some event →
    event.offsetNs.toNat = elapsed (job.events.events.take i)
  positive : ∀ event ∈ job.events.events, event.durationNs ≠ 0
  whole : elapsed job.events.events = job.totalDurationNs.toNat
  ends : ∃ event, job.events.events.getLast? = some event ∧ event.rfOn = false
  /-- `validate_job` has no objection but to the identifier, the mode, the limits and the
  frequencies. -/
  valid : ∀ config, validateJob config job = .none ↔
    validId input.jobId = true ∧ input.mode ∈ config.supportedModes ∧
    job.events.size ≤ config.maxEvents ∧ job.totalDurationNs ≤ config.maxJobDurationNs ∧
    ∀ event ∈ job.events.events, ∀ f, event.frequencyNhz = some f →
      config.minimumFrequencyNhz ≤ f ∧ f ≤ config.maximumFrequencyNhz

variable {allocate : Nat → Bool} {input : MorseMessage} {eventLimit : Nat}
  {durationLimit : UInt64} {result : MorseResult}

theorem Measured.announced {offset : UInt64}
    (h : Measured input eventLimit durationLimit result) (hzero : offset = 0) :
    Announced input result
      { jobId := input.jobId
        mode := input.mode
        totalDurationNs := result.calculatedDurationNs
        events := { events := laid offset (emissions input) }
        allowFrequencyAdjustment := input.allowFrequencyAdjustment } := by
  subst hzero
  have htotal : (0 : UInt64).toNat + span (emissions input) =
      result.calculatedDurationNs.toNat := by rw [h.total]; exact Nat.zero_add _
  have hlt := result.calculatedDurationNs.toNat_lt
  have hcount : (laid 0 (emissions input)).length = result.calculatedEvents := by
    rw [laid_length, h.count]
  obtain ⟨t, hlast⟩ : ∃ t, laid 0 (emissions input) = laid 0 _ ++ [Emission.event _ t] :=
    laid_append 0 _ ⟨messageTailNs, false, 0⟩
  refine ⟨rfl, hcount, rfl, fun i event hi => ?_, fun event he => ?_, ?_, ?_, fun config => ?_⟩
  · have := laid_contiguous (by omega) hi
    rw [this]
    exact Nat.zero_add _
  · obtain ⟨e, hmem, t, rfl⟩ := laid_mem he
    exact (emissions_fit h.accepted e hmem).1
  · rw [h.total]
    exact laid_elapsed 0 _
  · refine ⟨Emission.event ⟨messageTailNs, false, 0⟩ t, ?_, rfl⟩
    show (laid 0 (emissions input)).getLast? = _
    rw [hlast, List.getLast?_concat]
  · have hsome : laid 0 (emissions input) ≠ [] := by
      rw [hlast]
      exact List.append_ne_nil_of_right_ne_nil _ (List.cons_ne_nil _ _)
    have hloop : validateEvents config _ 0 _ = .none ↔ _ :=
      validateEvents_laid (emissions_fit h.accepted) htotal
    unfold validateJob
    rw [if_neg (show ¬ (!EventList.valid ⟨_, .none⟩) = true by simp [EventList.valid])]
    split_ifs with hid hprofile hmode hlimit
    · have hempty : EventList.isEmpty ⟨laid 0 (emissions input), .none⟩ = false := by
        simpa [EventList.isEmpty] using hsome
      rw [hempty, Bool.or_false, Bool.not_eq_true'] at hid
      exact ⟨nofun, fun hall => by rw [hid] at hall; exact nomatch hall.1⟩
    · exact absurd rfl hprofile
    · refine ⟨nofun, fun hall => ?_⟩
      rcases hlimit with hlimit | hlimit
      · exact absurd hall.2.2.1 (Nat.not_le.mpr hlimit)
      · exact absurd hall.2.2.2.1 (UInt64.not_le.mpr hlimit)
    · simp only [Bool.or_eq_true, Bool.not_eq_true', not_or, Bool.not_eq_false] at hid
      rw [not_or] at hlimit
      refine hloop.trans ⟨fun hall => ⟨hid.1, hmode, Nat.not_lt.mp hlimit.1,
        UInt64.not_lt.mp hlimit.2, hall⟩, fun hall => hall.2.2.2.2⟩
    · exact ⟨nofun, fun hall => absurd hall.2.1 hmode⟩

/-- What `measure_message` accepts, `compile_message` makes into the job announced, if the
storage of its events is granted; what it rejects, `compile_message` rejects as it does. -/
theorem compile_measured (allocate : Nat → Bool) (input : MorseMessage) (eventLimit : Nat)
    (durationLimit : UInt64) :
    let measured := measureMessage input eventLimit durationLimit
    let compiled := compileMessage allocate input eventLimit durationLimit
    (measured.error ≠ "" → compiled = measured ∧ compiled.job = none) ∧
    (measured.error = "" →
      (Granted allocate measured.calculatedEvents →
        ∃ job, compiled = { measured with job := some job } ∧ Announced input measured job) ∧
      (¬ Granted allocate measured.calculatedEvents →
        compiled = { measured with error := "resource_exhausted" } ∧ compiled.job = none)) := by
  have hunbuilt := measureMessage_unbuilt input eventLimit durationLimit
  refine ⟨fun hreject => ?_, fun haccept => ⟨fun hgranted => ?_, fun hrefused => ?_⟩⟩
  · have : compileMessage allocate input eventLimit durationLimit = _ := if_pos hreject
    rw [this]
    exact ⟨rfl, hunbuilt⟩
  · have hmeasured := measureMessage_measured haccept
    have hfew : (EventList.size {}) + (emissions input).length ≤ Codec.maximumEvents := by
      rw [← hmeasured.count]
      show 0 + _ ≤ 512
      have := hmeasured.few.2
      omega
    obtain ⟨hstored, hevents⟩ := emit_fold (emissions input) 0 {} hfew (by
      rw [← hmeasured.count]
      show Granted allocate (0 + _)
      rwa [Nat.zero_add])
    refine ⟨_, ?_, hmeasured.announced rfl⟩
    unfold compileMessage
    rw [if_neg (not_not.mpr haccept), reserve_granted hmeasured.few.2 hgranted]
    show (if (!((emissions input).foldl _ (Emitter.mk true 0 {})).stored) = true then _ else _) = _
    rw [hstored, hevents]
    rfl
  · obtain ⟨page, hpage⟩ := not_forall.mp hrefused
    obtain ⟨hpage, hno⟩ := Classical.not_imp.mp hpage
    have hreserve := reserve_refused_page (l := {}) hpage (Bool.eq_false_iff.mpr hno)
    have : compileMessage allocate input eventLimit durationLimit =
        { measureMessage input eventLimit durationLimit with
          job := none, error := "resource_exhausted" } := by
      unfold compileMessage
      dsimp only
      rw [if_neg (not_not.mpr haccept), hreserve]
      rfl
    rw [this, ← hunbuilt]
    exact ⟨rfl, rfl⟩

/-- `CQ`, twice, in slow Morse. -/
def slow : MorseMessage :=
  { jobId := "00000000000000000000000000000001"
    mode := "fskcw"
    text := ascii "cq cq"
    markFrequencyNhz := 10140000000000000
    spaceFrequencyNhz := 10139996000000000
    dotNs := 3000000000
    dashNs := 9000000000
    intraGapNs := 3000000000
    characterGapNs := 9000000000
    wordGapNs := 21000000000
    repeatCount := 2
    repeatGapNs := 30000000000 }

theorem slow_measured : (measureMessage slow 512 maxMessageDurationNs).error = "" := by
  decide +kernel

theorem slow_compiled :
    ∃ job, (compileMessage (fun _ => true) slow 512 maxMessageDurationNs).job = some job ∧
      Announced slow (measureMessage slow 512 maxMessageDurationNs) job := by
  obtain ⟨job, hjob, hannounced⟩ :=
    ((compile_measured (fun _ => true) slow 512 maxMessageDurationNs).2 slow_measured).1
      fun _ _ => rfl
  exact ⟨job, congrArg MorseResult.job hjob, hannounced⟩

/-- A page that is refused leaves an accepted message without a job. -/
theorem slow_refused : (measureMessage slow 512 maxMessageDurationNs).error = "" ∧
    (compileMessage (fun _ => false) slow 512 maxMessageDurationNs).job = none := by
  decide +kernel

end WsprryPico.Encoding.Morse
