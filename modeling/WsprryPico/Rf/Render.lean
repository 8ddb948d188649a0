import WsprryPico.Rf.Planning
import WsprryPico.Rf.WordTable

/-!
# Rendering

`Waveform` of `rf/waveform.cpp`: it renders a plan into buffers of words, by whole
words from the tables and bit by bit at the ends of segments. The concatenated
buffers are the words of the per-sample oscillator of the plan.
-/

namespace WsprryPico.Rf

open Lib

structure Waveform where
  tables : List WordTable := List.replicate 4 {}
  tableIncrements : List UInt32 := List.replicate 4 0
  plan : Option Plan := none
  segment : Nat := 0
  position : UInt64 := 0
  phase : UInt32 := 0

/-- `tone_increments` of a plan, with its zero padding. -/
def Plan.tones (plan : Plan) : List UInt32 :=
  plan.toneIncrements ++ List.replicate (4 - plan.toneIncrements.length) 0

def Waveform.reset (plan : Plan) (w : Waveform) : Waveform :=
  let w := if w.tableIncrements ≠ plan.tones then
      { w with tables := plan.tones.map buildTable, tableIncrements := plan.tones }
    else w
  { w with plan := some plan, segment := 0, position := 0, phase := 0 }

/-- Words from a table, and the phase after them. -/
def renderWords (table : WordTable) (advance : UInt32) : Nat → UInt32 → List UInt32 × UInt32
  | 0, phase => ([], phase)
  | count + 1, phase =>
    let rest := renderWords table advance count (phase + advance)
    (lookup table phase :: rest.1, rest.2)

/-- The variables of `render`: `output` is what stands before its index, `word` the
word at the index while `used` of its bits are in use. -/
structure Rendering where
  segment : Nat
  position : UInt64
  phase : UInt32
  output : List UInt32 := []
  word : UInt32 := 0
  used : Nat := 0

/-- Whole words of a segment. -/
def renderSegment (tables : List WordTable) (segment : Segment) (words : Nat) (r : Rendering) :
    Rendering :=
  let out := if segment.increment ≠ 0 then
      renderWords (tables.getD segment.toneIndex {}) (segment.increment * 32) words r.phase
    else (List.replicate words 0, r.phase)
  { r with
    output := r.output ++ out.1
    phase := out.2
    position := r.position + UInt64.ofNat words * 32 }

def renderSample (segment : Segment) (r : Rendering) : Rendering :=
  let word := if r.used = 0 then 0 else r.word
  let word := if segment.increment ≠ 0 then
      word ||| ((r.phase >>> 31) <<< UInt32.ofNat r.used) else word
  let phase := if segment.increment ≠ 0 then r.phase + segment.increment else r.phase
  let r := { r with word, phase, position := r.position + 1 }
  if r.used + 1 = 32 then { r with used := 0, output := r.output ++ [word] }
  else { r with used := r.used + 1 }

/-- One round of the loop of `render`. -/
def renderStep (plan : Plan) (tables : List WordTable) (size : Nat) (r : Rendering) : Rendering :=
  let segment := plan.segments.getD r.segment {}
  let words := if r.used = 0 then
      min ((segment.endSample - r.position) / 32).toNat (size - r.output.length) else 0
  let r := if words ≠ 0 then renderSegment tables segment words r else renderSample segment r
  if r.position = segment.endSample then { r with segment := r.segment + 1 } else r

/-- The loop of `render`; every round uses a bit of the buffer. -/
def renderLoop (plan : Plan) (tables : List WordTable) (size : Nat) : Nat → Rendering → Rendering
  | 0, r => r
  | bits + 1, r =>
    if r.position < plan.totalSamples ∧ r.output.length < size then
      renderLoop plan tables size bits (renderStep plan tables size r)
    else r

/-- The buffer of a call, and the samples it has. -/
def Waveform.render (size : Nat) (w : Waveform) : (List UInt32 × UInt64) × Waveform :=
  match w.plan with
  | none => ((List.replicate size 0, 0), w)
  | some plan =>
    let r := renderLoop plan w.tables size (size * 32)
      { segment := w.segment, position := w.position, phase := w.phase }
    let output := if r.used ≠ 0 then r.output ++ [r.word] else r.output
    ((output ++ List.replicate (size - output.length) 0, r.position - w.position),
      { w with segment := r.segment, position := r.position, phase := r.phase })

/-! ## The reference -/

/-- The increment of the segment that a sample is in. -/
def Plan.incrementAt (plan : Plan) (k : Nat) : UInt32 :=
  ((plan.segments.find? fun segment => decide (k < segment.endSample.toNat)).getD {}).increment

/-- The phase of the oscillator at a sample. -/
def Plan.phaseAt (plan : Plan) : Nat → UInt32
  | 0 => 0
  | k + 1 => plan.phaseAt k + plan.incrementAt k

def Plan.sample (plan : Plan) (k : Nat) : Bool :=
  decide (k < plan.totalSamples.toNat) && decide (plan.incrementAt k ≠ 0) &&
    high (plan.phaseAt k)

/-- Thirty-two samples, the first one in the lowest bit. -/
def Plan.word (plan : Plan) (j : Nat) : UInt32 := wordUpTo (fun i => plan.sample (32 * j + i)) 32

/-! ## The segments of a plan -/

/-- The segments go on from a sample to another. -/
def Ascends : UInt64 → List Segment → UInt64 → Prop
  | first, [], last => first = last
  | first, segment :: rest, last => first < segment.endSample ∧ Ascends segment.endSample rest last

/-- The segments cover the samples, and their increments are among the tones. -/
structure Plan.Sound (plan : Plan) : Prop where
  ascends : Ascends 0 plan.segments plan.totalSamples
  tones : ∀ segment ∈ plan.segments, segment.increment ≠ 0 →
    plan.toneIncrements[segment.toneIndex]? = some segment.increment
  few : plan.toneIncrements.length ≤ 4

variable {rate : SampleRate} {job : Wtp.Job} {correctionPpb : Int} {plan : Plan}

/-- Segments that end at rising samples go on up to the end of the last one. -/
theorem ascends_of_rising {first last : UInt64} {segments : List Segment}
    (h : (first :: segments.map Segment.endSample).Pairwise (· < ·))
    (hlast : (segments.getLast?.map Segment.endSample).getD first = last) :
    Ascends first segments last := by
  induction segments generalizing first with
  | nil => exact hlast
  | cons segment rest ih =>
    rw [List.map_cons, List.pairwise_cons] at h
    refine ⟨h.1 _ List.mem_cons_self, ih h.2 ?_⟩
    cases rest with
    | nil => exact hlast
    | cons =>
      rw [List.getLast?_cons_cons, List.getLast?_cons] at hlast
      rwa [List.getLast?_cons]

/-- Every plan of `plan_job` is sound. -/
theorem planJob_sound (h : rate.planJob job correctionPpb = some plan) : plan.Sound := by
  obtain ⟨cursor, timeline, htones, hlast⟩ := planJob_timeline h
  refine ⟨ascends_of_rising timeline.rising (by rw [hlast]; rfl), fun segment hmem hne => ?_,
    htones ▸ timeline.few.1⟩
  obtain ⟨i, hsegment⟩ := List.mem_iff_getElem?.mp hmem
  have hlt := (List.getElem?_eq_some_iff.mp hsegment).1
  have hevent := List.getElem?_eq_getElem (timeline.length ▸ hlt)
  obtain ⟨-, -, -, hat⟩ := timeline.selects i _ segment hevent hsegment (.inr hne)
  exact htones ▸ hat

/-! ## Places in a plan -/

theorem Ascends.at {first last : UInt64} {segments : List Segment} (h : Ascends first segments last)
    {i : Nat} {s : Segment} (hs : segments[i]? = some s) :
    first < s.endSample ∧ s.endSample ≤ last := by
  induction segments generalizing first i s with
  | nil => exact nomatch hs
  | cons segment rest ih =>
    cases i with
    | zero =>
      obtain rfl : segment = s := Option.some.inj hs
      refine ⟨h.1, ?_⟩
      cases rest with
      | nil => exact UInt64.le_of_eq h.2
      | cons next rest =>
        obtain ⟨hlt, hle⟩ := ih h.2 (i := 0) (s := next) rfl
        exact UInt64.le_trans (UInt64.le_of_lt hlt) hle
    | succ i =>
      obtain ⟨hlt, hle⟩ := ih h.2 hs
      exact ⟨UInt64.lt_trans h.1 hlt, hle⟩

/-- A segment is the last one, or ends before the next one. -/
theorem Ascends.next {first last : UInt64} {segments : List Segment}
    (h : Ascends first segments last) {i : Nat} {s : Segment} (hs : segments[i]? = some s) :
    s.endSample = last ∨ ∃ next, segments[i + 1]? = some next ∧ s.endSample < next.endSample := by
  induction segments generalizing first i with
  | nil => exact nomatch hs
  | cons segment rest ih =>
    cases i with
    | zero =>
      obtain rfl : segment = s := Option.some.inj hs
      cases rest with
      | nil => exact .inl h.2
      | cons next rest => exact .inr ⟨next, rfl, h.2.1⟩
    | succ i => exact ih h.2 hs

/-- The place of a sample: its segment, with the ones before it behind. -/
structure Placed (plan : Plan) (segment : Nat) (position : UInt64) : Prop where
  within : position ≤ plan.totalSamples
  behind : ∀ i s, i < segment → plan.segments[i]? = some s → s.endSample ≤ position
  ahead : position < plan.totalSamples →
    ∃ s, plan.segments[segment]? = some s ∧ position < s.endSample

theorem placed_start (h : plan.Sound) : Placed plan 0 0 := by
  refine ⟨UInt64.zero_le, (fun i s hi => nomatch hi), fun hlt => ?_⟩
  have hascends := h.ascends
  cases hsegments : plan.segments with
  | nil =>
    rw [hsegments] at hascends
    exact absurd (hascends ▸ hlt) (UInt64.lt_irrefl _)
  | cons s rest =>
    rw [hsegments] at hascends
    exact ⟨s, rfl, hascends.1⟩

theorem Placed.advance (h : plan.Sound) {i : Nat} {position position' : UInt64} {s : Segment}
    (hplaced : Placed plan i position) (hs : plan.segments[i]? = some s)
    (hle : position ≤ position') (hend : position' ≤ s.endSample) :
    Placed plan (if position' = s.endSample then i + 1 else i) position' := by
  obtain ⟨hfirst, hlast⟩ := h.ascends.at hs
  have hbehind : ∀ j t, j < i → plan.segments[j]? = some t → t.endSample ≤ position' :=
    fun j t hj ht => UInt64.le_trans (hplaced.behind j t hj ht) hle
  by_cases hat : position' = s.endSample
  · rw [if_pos hat]
    refine ⟨UInt64.le_trans hend hlast, fun j t hj ht => ?_, fun hlt => ?_⟩
    · by_cases hji : j = i
      · subst hji
        rw [hat, Option.some.inj (ht.symm.trans hs)]
        exact UInt64.le_refl _
      · exact hbehind j t (by omega) ht
    · rcases h.ascends.next hs with hfinal | ⟨next, hnext, hlt'⟩
      · rw [hat, hfinal] at hlt
        exact absurd hlt (UInt64.lt_irrefl _)
      · exact ⟨next, hnext, hat ▸ hlt'⟩
  · rw [if_neg hat]
    exact ⟨UInt64.le_trans hend hlast, hbehind, fun _ => ⟨s, hs, UInt64.lt_of_le_of_ne hend hat⟩⟩

theorem Placed.increment {i : Nat} {position : UInt64} {s : Segment}
    (hplaced : Placed plan i position) (hs : plan.segments[i]? = some s) {k : Nat}
    (hle : position.toNat ≤ k) (hlt : k < s.endSample.toNat) :
    plan.incrementAt k = s.increment := by
  have hfind : plan.segments.find? (fun segment => decide (k < segment.endSample.toNat)) =
      some s := by
    obtain ⟨hi, rfl⟩ := List.getElem?_eq_some_iff.mp hs
    refine List.find?_eq_some_iff_getElem.mpr ⟨decide_eq_true hlt, i, hi, rfl, fun j hj => ?_⟩
    have hbehind := hplaced.behind j _ hj (List.getElem?_eq_getElem (Nat.lt_trans hj hi))
    have := UInt64.le_iff_toNat_le.mp hbehind
    simp only [Bool.not_eq_true', decide_eq_false_iff_not]
    omega
  rw [Plan.incrementAt, hfind]
  rfl

theorem phaseAt_run {increment : UInt32} {first : Nat} (n : Nat)
    (h : ∀ k, first ≤ k → k < first + n → plan.incrementAt k = increment) :
    plan.phaseAt (first + n) = plan.phaseAt first + UInt32.ofNat n * increment := by
  induction n with
  | zero => simp
  | succ n ih =>
    rw [← Nat.add_assoc, Plan.phaseAt, ih fun k hle hlt => h k hle (by omega),
      h (first + n) (by omega) (by omega), UInt32.ofNat_add, UInt32.add_mul, ← UInt32.add_assoc]
    simp

theorem sample_run {increment : UInt32} {first n : Nat}
    (h : ∀ k, first ≤ k → k < first + n → plan.incrementAt k = increment)
    (hwithin : first + n ≤ plan.totalSamples.toNat) {i : Nat} (hi : i < n) :
    plan.sample (first + i) =
      (decide (increment ≠ 0) && high (plan.phaseAt first + UInt32.ofNat i * increment)) := by
  rw [Plan.sample, h _ (by omega) (by omega), phaseAt_run i fun k hle hlt => h k hle (by omega),
    decide_eq_true (show first + i < plan.totalSamples.toNat by omega), Bool.true_and]

theorem sample_after {k : Nat} (h : plan.totalSamples.toNat ≤ k) : plan.sample k = false := by
  rw [Plan.sample, decide_eq_false (by omega)]
  rfl

/-! ## The loop -/

theorem renderWords_eq (table : WordTable) (advance : UInt32) (count : Nat) (phase : UInt32) :
    renderWords table advance count phase =
      ((List.range count).map fun i => lookup table (phase + UInt32.ofNat i * advance),
        phase + UInt32.ofNat count * advance) := by
  induction count generalizing phase with
  | zero => simp [renderWords]
  | succ count ih =>
    have hnext : ∀ i, phase + advance + UInt32.ofNat i * advance =
        phase + UInt32.ofNat (i + 1) * advance := fun i => by
      rw [UInt32.ofNat_add, UInt32.add_mul, UInt32.add_assoc, UInt32.add_comm advance]
      simp
    rw [renderWords, ih, List.range_succ_eq_map, hnext]
    simp [hnext]

/-- The tables are those of the tones of the plan. -/
def Tabled (plan : Plan) (tables : List WordTable) : Prop :=
  ∀ segment ∈ plan.segments, segment.increment ≠ 0 →
    tables.getD segment.toneIndex {} = buildTable segment.increment

/-- The words so far are those of the plan, from `base` on. -/
structure Rendered (plan : Plan) (base size : Nat) (r : Rendering) : Prop where
  bound : r.used < 32
  room : 32 * r.output.length + r.used ≤ 32 * size
  position : r.position.toNat = 32 * (base + r.output.length) + r.used
  phase : r.phase = plan.phaseAt r.position.toNat
  output : r.output = (List.range' base r.output.length).map plan.word
  word : r.used ≠ 0 →
    r.word = wordUpTo (fun i => plan.sample (32 * (base + r.output.length) + i)) r.used

variable {tables : List WordTable} {base size : Nat} {r : Rendering} {s : Segment}

theorem range'_append_map (f : Nat → UInt32) (base m n : Nat) :
    (List.range' base (m + n)).map f =
      (List.range' base m).map f ++ (List.range n).map fun i => f (base + m + i) := by
  rw [← List.range'_append_1, List.map_append, List.range'_eq_map_range (s := base + m), List.map_map]
  rfl

theorem ofNat_samples (i b : Nat) (increment : UInt32) :
    UInt32.ofNat i * (increment * 32) + UInt32.ofNat b * increment =
      UInt32.ofNat (32 * i + b) * increment := by
  rw [UInt32.ofNat_add, UInt32.ofNat_mul, UInt32.add_mul]
  grind

theorem segment_words (htabled : Tabled plan tables) (hmem : s ∈ plan.segments) {words j : Nat}
    (h : ∀ k, 32 * j ≤ k → k < 32 * j + 32 * words → plan.incrementAt k = s.increment)
    (hwithin : 32 * j + 32 * words ≤ plan.totalSamples.toNat) :
    (if s.increment ≠ 0 then
        renderWords (tables.getD s.toneIndex {}) (s.increment * 32) words (plan.phaseAt (32 * j))
      else (List.replicate words 0, plan.phaseAt (32 * j))) =
      ((List.range words).map fun i => plan.word (j + i),
        plan.phaseAt (32 * j + 32 * words)) := by
  have hsample : ∀ i b, i < words → b < 32 → plan.sample (32 * (j + i) + b) =
      (decide (s.increment ≠ 0) && high (plan.phaseAt (32 * j) +
        UInt32.ofNat (32 * i + b) * s.increment)) := fun i b hi hb => by
    rw [← sample_run h hwithin (show 32 * i + b < 32 * words by omega)]
    congr 1
    omega
  rw [phaseAt_run (32 * words) h]
  by_cases hon : s.increment ≠ 0
  · rw [if_pos hon, renderWords_eq, htabled s hmem hon]
    refine Prod.ext (List.map_congr_left fun i hi => ?_) ?_
    · rw [lookup_eq, oracleWord_eq]
      refine wordUpTo_congr fun b hb => ?_
      rw [hsample i b (List.mem_range.mp hi) hb, decide_eq_true hon, Bool.true_and,
        UInt32.add_assoc, ofNat_samples]
    · simpa using congrArg (plan.phaseAt (32 * j) + ·) (ofNat_samples words 0 s.increment)
  · rw [if_neg hon]
    rw [not_not] at hon
    refine Prod.ext ?_ (by simp [hon])
    refine List.ext_getElem (by simp) fun i hi _ => ?_
    rw [List.getElem_replicate, List.getElem_map, List.getElem_range]
    refine (wordUpTo_false fun b hb => ?_).symm
    rw [hsample i b (by simpa using hi) hb, hon]
    rfl

/-- How much of a buffer is in use. -/
def Rendering.bits (r : Rendering) : Nat := 32 * r.output.length + r.used

theorem renderSegment_rendered (htabled : Tabled plan tables) (h : Rendered plan base size r)
    (hplaced : Placed plan r.segment r.position) (hs : plan.segments[r.segment]? = some s)
    (hused : r.used = 0) {words : Nat} (hsize : words ≤ size - r.output.length)
    (hwords : r.position.toNat + 32 * words ≤ s.endSample.toNat)
    (hend : s.endSample ≤ plan.totalSamples) :
    Rendered plan base size (renderSegment tables s words r) ∧
      (renderSegment tables s words r).position.toNat = r.position.toNat + 32 * words ∧
      (renderSegment tables s words r).bits = r.bits + 32 * words := by
  have hbits := s.endSample.toNat_lt
  have hat : r.position.toNat = 32 * (base + r.output.length) := by
    rw [h.position, hused, Nat.add_zero]
  have hposition : (r.position + UInt64.ofNat words * 32).toNat = r.position.toNat + 32 * words := by
    rw [UInt64.toNat_add, UInt64.toNat_mul, UInt64.toNat_ofNat_of_lt' (by show _ < 2 ^ 64; omega)]
    show (r.position.toNat + words * 32 % 2 ^ 64) % 2 ^ 64 = _
    omega
  have hincrement : ∀ k, 32 * (base + r.output.length) ≤ k →
      k < 32 * (base + r.output.length) + 32 * words → plan.incrementAt k = s.increment :=
    fun k hle hlt => hplaced.increment hs (by omega) (by omega)
  have hle := UInt64.le_iff_toNat_le.mp hend
  have hout := segment_words htabled (List.mem_of_getElem? hs) hincrement (by omega)
  have heq : renderSegment tables s words r =
      { r with
        output := r.output ++ (List.range words).map fun i => plan.word (base + r.output.length + i)
        phase := plan.phaseAt (32 * (base + r.output.length) + 32 * words)
        position := r.position + UInt64.ofNat words * 32 } := by
    unfold renderSegment
    rw [h.phase, hat, hout]
  rw [heq]
  have hlength : (r.output ++ (List.range words).map fun i =>
      plan.word (base + r.output.length + i)).length = r.output.length + words := by simp
  have hroom := h.room
  refine ⟨⟨h.bound, ?_, ?_, ?_, ?_, fun hne => absurd hused hne⟩, hposition, ?_⟩
  · show 32 * (r.output ++ _).length + r.used ≤ 32 * size
    rw [hlength]
    omega
  · show (r.position + UInt64.ofNat words * 32).toNat = 32 * (base + (r.output ++ _).length) + r.used
    rw [hlength, hposition]
    omega
  · show plan.phaseAt _ = plan.phaseAt (r.position + UInt64.ofNat words * 32).toNat
    rw [hposition, hat]
  · show r.output ++ _ = (List.range' base (r.output ++ _).length).map plan.word
    rw [hlength, range'_append_map, ← h.output]
  · show 32 * (r.output ++ _).length + r.used = 32 * r.output.length + r.used + 32 * words
    rw [hlength]
    omega

theorem renderSample_word (h : Rendered plan base size r)
    (hincrement : plan.incrementAt r.position.toNat = s.increment)
    (hwithin : r.position.toNat < plan.totalSamples.toNat) :
    (renderSample s r).phase = plan.phaseAt (r.position.toNat + 1) ∧
      (if s.increment ≠ 0 then
        (if r.used = 0 then 0 else r.word) ||| ((r.phase >>> 31) <<< UInt32.ofNat r.used)
       else if r.used = 0 then 0 else r.word) =
        wordUpTo (fun i => plan.sample (32 * (base + r.output.length) + i)) (r.used + 1) := by
  have hword : (if r.used = 0 then 0 else r.word) =
      wordUpTo (fun i => plan.sample (32 * (base + r.output.length) + i)) r.used := by
    by_cases hused : r.used = 0
    · rw [if_pos hused, hused]
      rfl
    · rw [if_neg hused, h.word hused]
  have hsample : plan.sample (32 * (base + r.output.length) + r.used) =
      (decide (s.increment ≠ 0) && high r.phase) := by
    rw [← h.position, Plan.sample, hincrement, h.phase, decide_eq_true hwithin, Bool.true_and]
  have hphase : (renderSample s r).phase =
      if s.increment ≠ 0 then r.phase + s.increment else r.phase := by
    unfold renderSample
    dsimp only
    split <;> rfl
  rw [hphase, Plan.phaseAt, hincrement, ← h.phase, hword, wordUpTo, hsample]
  by_cases hon : s.increment ≠ 0
  · rw [if_pos hon, if_pos hon, decide_eq_true hon, Bool.true_and, shiftRight_phase]
    exact ⟨rfl, rfl⟩
  · rw [if_neg hon, if_neg hon, decide_eq_false hon, Bool.false_and]
    rw [not_not] at hon
    simp [hon]

theorem renderSample_rendered (h : Rendered plan base size r)
    (hplaced : Placed plan r.segment r.position) (hs : plan.segments[r.segment]? = some s)
    (hsize : r.output.length < size) (hlt : r.position < s.endSample)
    (hend : s.endSample ≤ plan.totalSamples) :
    Rendered plan base size (renderSample s r) ∧
      (renderSample s r).position.toNat = r.position.toNat + 1 ∧
      (renderSample s r).bits = r.bits + 1 := by
  have hbits := s.endSample.toNat_lt
  have hlt := UInt64.lt_iff_toNat_lt.mp hlt
  have hle := UInt64.le_iff_toNat_le.mp hend
  have hposition : (r.position + 1).toNat = r.position.toNat + 1 := by
    rw [UInt64.toNat_add]
    show (r.position.toNat + 1) % 2 ^ 64 = _
    omega
  obtain ⟨hphase, hword⟩ := renderSample_word h
    (hplaced.increment hs (Nat.le_refl _) hlt) (by omega)
  have hat := h.position
  have hroom := h.room
  have hbound := h.bound
  unfold renderSample at hphase ⊢
  dsimp only at hphase ⊢
  rw [hword] at hphase ⊢
  by_cases hfull : r.used + 1 = 32
  · rw [if_pos hfull] at hphase ⊢
    have hlast : plan.word (base + r.output.length) =
        wordUpTo (fun i => plan.sample (32 * (base + r.output.length) + i)) (r.used + 1) := by
      rw [hfull]
      rfl
    refine ⟨⟨Nat.succ_pos 31, ?_, ?_, ?_, ?_, fun hne => absurd rfl hne⟩, hposition, ?_⟩
    · simp only [List.length_append, List.length_singleton]
      omega
    · simp only [List.length_append, List.length_singleton, hposition]
      omega
    · rw [hposition]
      exact hphase
    · rw [List.length_append, List.length_singleton, range'_append_map, ← h.output, ← hlast]
      rfl
    · simp only [Rendering.bits, List.length_append, List.length_singleton]
      omega
  · rw [if_neg hfull] at hphase ⊢
    refine ⟨⟨?_, ?_, ?_, ?_, h.output, fun _ => rfl⟩, hposition, rfl⟩
    · show r.used + 1 < 32
      omega
    · show 32 * r.output.length + (r.used + 1) ≤ 32 * size
      omega
    · rw [hposition, hat]
      rfl
    · rw [hposition]
      exact hphase

/-- A round keeps the invariant, and uses more of the buffer. -/
theorem renderStep_rendered (hsound : plan.Sound) (htabled : Tabled plan tables)
    (h : Rendered plan base size r) (hplaced : Placed plan r.segment r.position)
    (hmore : r.position < plan.totalSamples) (hsize : r.output.length < size) :
    Rendered plan base size (renderStep plan tables size r) ∧
      Placed plan (renderStep plan tables size r).segment (renderStep plan tables size r).position ∧
      r.bits < (renderStep plan tables size r).bits := by
  obtain ⟨s, hs, hlt⟩ := hplaced.ahead hmore
  have hend := (hsound.ascends.at hs).2
  have hgetD : plan.segments.getD r.segment {} = s := by
    rw [List.getD_eq_getElem?_getD, hs]
    rfl
  let words := if r.used = 0 then
    min ((s.endSample - r.position) / 32).toNat (size - r.output.length) else 0
  let r' := if words ≠ 0 then renderSegment tables s words r else renderSample s r
  have hround : Rendered plan base size r' ∧ r'.segment = r.segment ∧ r.position ≤ r'.position ∧
      r'.position ≤ s.endSample ∧ r.bits < r'.bits := by
    have hlt' := UInt64.lt_iff_toNat_lt.mp hlt
    by_cases hwords : words ≠ 0
    · have hused : r.used = 0 := by
        by_contra hused
        exact hwords (if_neg hused)
      have hcount : words = min ((s.endSample - r.position) / 32).toNat (size - r.output.length) :=
        if_pos hused
      have hdiv : ((s.endSample - r.position) / 32).toNat =
          (s.endSample.toNat - r.position.toNat) / 32 := by
        rw [UInt64.toNat_div, UInt64.toNat_sub_of_le _ _ (UInt64.le_of_lt hlt)]
        rfl
      obtain ⟨hrendered, hposition, hbits⟩ := renderSegment_rendered htabled h hplaced hs hused
        (show words ≤ size - r.output.length by omega) (by omega) hend
      have heq : r' = renderSegment tables s words r := if_pos hwords
      rw [heq, UInt64.le_iff_toNat_le, UInt64.le_iff_toNat_le, hposition, hbits]
      exact ⟨hrendered, rfl, by omega, by omega, by omega⟩
    · obtain ⟨hrendered, hposition, hbits⟩ := renderSample_rendered h hplaced hs hsize hlt hend
      have heq : r' = renderSample s r := if_neg hwords
      have hsegment : (renderSample s r).segment = r.segment := by
        unfold renderSample
        dsimp only
        split <;> rfl
      rw [heq, UInt64.le_iff_toNat_le, UInt64.le_iff_toNat_le, hposition, hbits]
      exact ⟨hrendered, hsegment, by omega, by omega, by omega⟩
  obtain ⟨hrendered, hsegment, hle, hle', hbits⟩ := hround
  have hstep : renderStep plan tables size r =
      if r'.position = s.endSample then { r' with segment := r'.segment + 1 } else r' := by
    unfold renderStep
    rw [hgetD]
  have hadvance := hplaced.advance hsound hs hle hle'
  rw [hstep]
  by_cases hat : r'.position = s.endSample
  · rw [if_pos hat] at hadvance ⊢
    exact ⟨⟨hrendered.bound, hrendered.room, hrendered.position, hrendered.phase, hrendered.output,
      hrendered.word⟩, hsegment ▸ hadvance, hbits⟩
  · rw [if_neg hat] at hadvance ⊢
    exact ⟨hrendered, hsegment ▸ hadvance, hbits⟩

theorem renderLoop_rendered (hsound : plan.Sound) (htabled : Tabled plan tables) (n : Nat)
    (h : Rendered plan base size r) (hplaced : Placed plan r.segment r.position)
    (hfuel : 32 * size ≤ r.bits + n) :
    Rendered plan base size (renderLoop plan tables size n r) ∧
      Placed plan (renderLoop plan tables size n r).segment
        (renderLoop plan tables size n r).position ∧
      ¬ ((renderLoop plan tables size n r).position < plan.totalSamples ∧
        (renderLoop plan tables size n r).output.length < size) := by
  induction n generalizing r with
  | zero =>
    refine ⟨h, hplaced, fun hmore => ?_⟩
    have hbound := h.bound
    have hlength : r.output.length < size := hmore.2
    unfold Rendering.bits at hfuel
    omega
  | succ n ih =>
    unfold renderLoop
    by_cases hmore : r.position < plan.totalSamples ∧ r.output.length < size
    · rw [if_pos hmore]
      obtain ⟨hrendered, hplaced', hbits⟩ := renderStep_rendered hsound htabled h hplaced hmore.1 hmore.2
      exact ih hrendered hplaced' (by omega)
    · rw [if_neg hmore]
      exact ⟨h, hplaced, hmore⟩

/-! ## The stream of a plan -/

/-- The state of a waveform that has given the words of the plan before `base`. -/
structure Streaming (plan : Plan) (base : Nat) (w : Waveform) : Prop where
  planned : w.plan = some plan
  tabled : Tabled plan w.tables
  placed : Placed plan w.segment w.position
  position : w.position.toNat = min (32 * base) plan.totalSamples.toNat
  phase : w.phase = plan.phaseAt w.position.toNat

variable {w : Waveform}

theorem word_after {j : Nat} (h : plan.totalSamples.toNat ≤ 32 * j) : plan.word j = 0 :=
  wordUpTo_false fun i _ => sample_after (by omega)

theorem rendered_buffer (h : Rendered plan base size r) (hplaced : Placed plan r.segment r.position)
    (hdone : ¬ (r.position < plan.totalSamples ∧ r.output.length < size)) :
    let output := if r.used ≠ 0 then r.output ++ [r.word] else r.output
    output ++ List.replicate (size - output.length) 0 = (List.range' base size).map plan.word ∧
      r.position.toNat = min (32 * (base + size)) plan.totalSamples.toNat := by
  have hbound := h.bound
  have hroom := h.room
  have hat := h.position
  have hwithin := UInt64.le_iff_toNat_le.mp hplaced.within
  have hfinal : r.output.length < size → r.position.toNat = plan.totalSamples.toNat := by
    intro hlt
    have hle := UInt64.le_iff_toNat_le.mp (UInt64.not_lt.mp fun hmore => hdone ⟨hmore, hlt⟩)
    omega
  -- the words of the output, and of a last one that the samples do not fill
  have hzeros : ∀ m, r.output.length ≤ m → m ≤ size →
      (m < size → plan.totalSamples.toNat ≤ 32 * (base + m)) →
      (List.range' base m).map plan.word ++ List.replicate (size - m) 0 =
        (List.range' base size).map plan.word := by
    intro m _ hle hafter
    obtain ⟨n, rfl⟩ := Nat.exists_eq_add_of_le hle
    rw [range'_append_map, Nat.add_sub_cancel_left]
    congr 1
    refine List.ext_getElem (by simp) fun i hi _ => ?_
    rw [List.getElem_replicate, List.getElem_map, List.getElem_range]
    have hi : i < n := by simpa using hi
    have := hafter (by omega)
    exact (word_after (by omega)).symm
  dsimp only
  by_cases hused : r.used = 0
  · rw [if_neg (not_not.mpr hused)]
    refine ⟨?_, ?_⟩
    · have := hzeros r.output.length (Nat.le_refl _) (by omega) fun hlt => by
        have := hfinal hlt
        omega
      rwa [← h.output] at this
    · rcases Nat.lt_or_ge r.output.length size with hlt | hge
      · have := hfinal hlt
        omega
      · omega
  · have hlt : r.output.length < size := by omega
    have hend := hfinal hlt
    rw [if_pos hused]
    refine ⟨?_, by omega⟩
    have hword : r.word = plan.word (base + r.output.length) := by
      rw [h.word hused]
      exact wordUpTo_extend (by omega) (Nat.le_refl _) fun i hi => sample_after (by omega)
    have hout : r.output ++ [r.word] = (List.range' base (r.output.length + 1)).map plan.word := by
      rw [range'_append_map, ← h.output, hword]
      rfl
    have hrest := hzeros (r.output.length + 1) (by omega) (by omega) fun _ => by omega
    rw [hout, List.length_map, List.length_range']
    exact hrest

theorem renderLoop_done (n : Nat) (h : ¬ r.position < plan.totalSamples) :
    renderLoop plan tables size n r = r := by
  cases n with
  | zero => rfl
  | succ n => exact if_neg fun hmore => h hmore.1

/-- What the loop of a call leaves. -/
theorem render_loop (hsound : plan.Sound) (h : Streaming plan base w) (size : Nat) :
    let r := renderLoop plan w.tables size (size * 32)
      { segment := w.segment, position := w.position, phase := w.phase }
    let output := if r.used ≠ 0 then r.output ++ [r.word] else r.output
    output ++ List.replicate (size - output.length) 0 = (List.range' base size).map plan.word ∧
      r.position.toNat = min (32 * (base + size)) plan.totalSamples.toNat ∧
      Placed plan r.segment r.position ∧ r.phase = plan.phaseAt r.position.toNat := by
  have hat := h.position
  by_cases hrunning : 32 * base ≤ plan.totalSamples.toNat
  · have hstart : Rendered plan base size
        { segment := w.segment, position := w.position, phase := w.phase } :=
      { bound := Nat.succ_pos 31
        room := by simp
        position := by
          show w.position.toNat = 32 * (base + 0) + 0
          omega
        phase := h.phase
        output := rfl
        word := fun hne => absurd rfl hne }
    obtain ⟨hrendered, hplaced, hdone⟩ := renderLoop_rendered hsound h.tabled (size * 32) hstart
      h.placed (by simp only [Rendering.bits]; omega)
    obtain ⟨houtput, hposition⟩ := rendered_buffer hrendered hplaced hdone
    exact ⟨houtput, hposition, hplaced, hrendered.phase⟩
  · have hdone : ¬ w.position < plan.totalSamples := by
      rw [UInt64.lt_iff_toNat_lt]
      omega
    rw [renderLoop_done (size * 32) hdone]
    refine ⟨?_, ?_, h.placed, h.phase⟩
    · refine List.ext_getElem (by simp) fun i hi _ => ?_
      simp only [ne_eq, not_true_eq_false, if_false, List.nil_append, List.getElem_replicate,
        List.getElem_map, List.getElem_range']
      exact (word_after (by omega)).symm
    · show w.position.toNat = _
      omega

/-- A call of `render` gives the next words, and how many samples they have. -/
theorem render_spec (hsound : plan.Sound) (h : Streaming plan base w) (size : Nat) :
    (w.render size).1.1 = (List.range' base size).map plan.word ∧
      (w.render size).1.2.toNat =
        min (32 * (base + size)) plan.totalSamples.toNat -
          min (32 * base) plan.totalSamples.toNat ∧
      Streaming plan (base + size) (w.render size).2 := by
  obtain ⟨houtput, hposition, hplaced, hphase⟩ := render_loop hsound h size
  have hat := h.position
  unfold Waveform.render
  rw [h.planned]
  refine ⟨houtput, ?_, rfl, h.tabled, hplaced, hposition, hphase⟩
  rw [UInt64.toNat_sub_of_le _ _ (UInt64.le_iff_toNat_le.mpr (by omega)), hposition, hat]

/-- The tables are built from the increments they are for, or were never built. -/
def Waveform.Ready (w : Waveform) : Prop :=
  w.tables = w.tableIncrements.map buildTable ∨ ∀ increment ∈ w.tableIncrements, increment = 0

theorem reset_ready (h : w.Ready) (plan : Plan) : (w.reset plan).Ready := by
  unfold Waveform.reset
  dsimp only
  split
  · exact .inl rfl
  · exact h

theorem render_ready (h : w.Ready) (size : Nat) : (w.render size).2.Ready := by
  unfold Waveform.render
  split
  · exact h
  · exact h

theorem reset_streaming (hsound : plan.Sound) (h : w.Ready) : Streaming plan 0 (w.reset plan) := by
  have htables : (w.reset plan).tables = plan.tones.map buildTable ∨
      ∀ increment ∈ plan.tones, increment = 0 := by
    unfold Waveform.reset
    dsimp only
    by_cases hsame : w.tableIncrements ≠ plan.tones
    · rw [if_pos hsame]
      exact .inl rfl
    · rw [if_neg hsame]
      rw [not_not] at hsame
      rw [← hsame]
      exact h
  have htabled : Tabled plan (w.reset plan).tables := by
    intro s hs hon
    have htone := hsound.tones s hs hon
    have hpadded : plan.tones[s.toneIndex]? = some s.increment := by
      rw [Plan.tones, List.getElem?_append_left (List.getElem?_eq_some_iff.mp htone).1, htone]
    rcases htables with hbuilt | hzero
    · rw [List.getD_eq_getElem?_getD, hbuilt, List.getElem?_map, hpadded]
      rfl
    · exact absurd (hzero _ (List.mem_of_getElem? hpadded)) hon
  have hplaced := placed_start hsound
  unfold Waveform.reset at htabled ⊢
  dsimp only at htabled ⊢
  split at htabled
  all_goals
    rename_i hsame
  · rw [if_pos hsame]
    exact ⟨rfl, htabled, hplaced, by simp, rfl⟩
  · rw [if_neg hsame]
    exact ⟨rfl, htabled, hplaced, by simp, rfl⟩

inductive WaveformCall where
  | reset (plan : Plan)
  | render (size : Nat)

namespace Waveform

/-- The state after the calls of a run. -/
def run (calls : List WaveformCall) (w : Waveform) : Waveform :=
  calls.foldl (fun w call =>
    match call with
    | .reset plan => w.reset plan
    | .render size => (w.render size).2) w

/-- The buffers that calls of `render` fill. -/
def renders : List Nat → Waveform → List (List UInt32)
  | [], _ => []
  | size :: sizes, w => (w.render size).1.1 :: renders sizes (w.render size).2

end Waveform

theorem run_ready (h : w.Ready) (calls : List WaveformCall) : (w.run calls).Ready := by
  induction calls generalizing w with
  | nil => exact h
  | cons call calls ih =>
    cases call with
    | reset plan => exact ih (reset_ready h plan)
    | render size => exact ih (render_ready h size)

theorem renders_spec (hsound : plan.Sound) (h : Streaming plan base w) (sizes : List Nat) :
    (w.renders sizes).flatten = (List.range' base sizes.sum).map plan.word := by
  induction sizes generalizing base w with
  | nil => rfl
  | cons size sizes ih =>
    obtain ⟨houtput, -, hstreaming⟩ := render_spec hsound h size
    rw [Waveform.renders, List.flatten_cons, houtput, ih hstreaming, List.sum_cons,
      ← List.map_append, List.range'_append_1]

/-- The buffers of every plan, in any sizes, are the words of its per-sample
oscillator; the table lookup is the word of thirty-two samples. -/
theorem stream_is_oscillator {rate : SampleRate} {job : Wtp.Job} {correctionPpb : Int}
    {plan : Plan} (h : rate.planJob job correctionPpb = some plan) (earlier : List WaveformCall)
    (sizes : List Nat) :
    ((((({} : Waveform).run earlier).reset plan).renders sizes).flatten =
      (List.range sizes.sum).map plan.word) ∧
    ∀ phase increment, lookup (buildTable increment) phase = oracleWord phase increment := by
  refine ⟨?_, fun phase increment => lookup_eq increment phase⟩
  have hready : (({} : Waveform).run earlier).Ready :=
    run_ready (.inr fun increment hmem => by simpa using hmem) earlier
  rw [renders_spec (planJob_sound h) (reset_streaming (planJob_sound h) hready),
    List.range_eq_range']

/-- A carrier, a gap and another carrier, one microsecond each. -/
def keyedJob : Wtp.Job :=
  { jobId := "11111111111111111111111111111111"
    mode := "tone"
    totalDurationNs := 3000
    events :=
      { events :=
          [⟨0, 1000, true, some 14097100000000000⟩, ⟨1000, 1000, false, none⟩,
           ⟨2000, 1000, true, some 14097200000000000⟩] }
    allowFrequencyAdjustment := true }

theorem stream_is_oscillator_keyed :
    ∃ plan, SampleRate.mhz138.planJob keyedJob 0 = some plan ∧
      ((({} : Waveform).reset plan).renders [3, 0, 12]).flatten =
        (List.range 15).map plan.word := by
  have hplanned : (SampleRate.mhz138.planJob keyedJob 0).isSome = true := by decide +kernel
  obtain ⟨plan, hplan⟩ := Option.isSome_iff_exists.mp hplanned
  exact ⟨plan, hplan, (stream_is_oscillator hplan [] [3, 0, 12]).1⟩

end WsprryPico.Rf
