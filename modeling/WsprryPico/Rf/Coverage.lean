import Mathlib.Data.Nat.Bitwise
import WsprryPico.Rf.Chain

/-!
# Unique coverage

The mask of `FilterCoverage` is the set of the outputs whose bands cover every
point, so that the selection is the one output that does. The order of the
points does not matter.
-/

namespace WsprryPico.Rf

open Wtp

/-! ## Bands -/

/-- The frequency lies in a range of the output, the ends included. -/
def FilterSettings.Requested (settings : FilterSettings) (id : UInt32) (frequency : UInt64) :
    Prop :=
  ∃ r ∈ settings.ranges, r.selector = id ∧ r.lowHz.toNat * 10 ^ 9 ≤ frequency.toNat ∧
    frequency.toNat ≤ r.highHz.toNat * 10 ^ 9

/-- The frequency lies in a range of the output, off its ends. -/
def FilterSettings.Realized (settings : FilterSettings) (id : UInt32) (frequency : UInt64) : Prop :=
  ∃ r ∈ settings.ranges, r.selector = id ∧ r.lowHz.toNat * 10 ^ 9 < frequency.toNat ∧
    frequency.toNat < r.highHz.toNat * 10 ^ 9

/-- Output `i` covers every nominal and every programmed frequency of the points. -/
def FilterSettings.CoversAll (settings : FilterSettings) (points : List (UInt64 × UInt64))
    (i : Nat) : Prop :=
  ∃ id, settings.outputs[i]? = some id ∧ (∀ point ∈ points, settings.Requested id point.1) ∧
    ∀ point ∈ points, settings.Realized id point.2

/-- Output `i` is the only one that does. -/
def FilterSettings.Sole (settings : FilterSettings) (points : List (UInt64 × UInt64))
    (i : Nat) : Prop :=
  settings.CoversAll points i ∧ ∀ j, settings.CoversAll points j → j = i

theorem bound_toNat (hz : UInt32) : (hz.toUInt64 * 1000000000).toNat = hz.toNat * 10 ^ 9 := by
  have hlt := hz.toNat_lt
  rw [UInt64.toNat_mul, UInt32.toNat_toUInt64]
  show hz.toNat * 1000000000 % 2 ^ 64 = _
  omega

theorem covers_iff (settings : FilterSettings) (id : UInt32) (nominal programmed : UInt64) :
    settings.covers id nominal programmed = true ↔
      settings.Requested id nominal ∧ settings.Realized id programmed := by
  unfold FilterSettings.covers FilterSettings.Requested FilterSettings.Realized
  simp only [Bool.and_eq_true, List.any_eq_true, List.mem_filter, decide_eq_true_eq, ge_iff_le,
    gt_iff_lt, UInt64.le_iff_toNat_le, UInt64.lt_iff_toNat_lt, bound_toNat, and_assoc]

/-! ## Masks -/

theorem toNat_one_shift {i : Nat} (h : i < 32) :
    ((1 : UInt32) <<< UInt32.ofNat i).toNat = 2 ^ i := by
  have hi : (UInt32.ofNat i).toNat % 32 = i := by
    rw [UInt32.toNat_ofNat', Nat.mod_eq_of_lt (by omega : i < 2 ^ 32), Nat.mod_eq_of_lt h]
  rw [UInt32.toNat_shiftLeft, hi]
  show 1 <<< i % 2 ^ 32 = _
  rw [Nat.one_shiftLeft, Nat.mod_eq_of_lt (Nat.pow_lt_pow_right (by decide) h)]

theorem pathMask_testBit (p : UInt32 → Bool) (index : Nat) {outputs : List UInt32}
    (h : index + outputs.length ≤ 32) (j : Nat) :
    (pathMask p (UInt32.ofNat index) outputs).toNat.testBit j = true ↔
      index ≤ j ∧ ∃ id, outputs[j - index]? = some id ∧ p id = true := by
  induction outputs generalizing index with
  | nil => simp [pathMask]
  | cons id rest ih =>
    rw [List.length_cons] at h
    have hrest := ih (index + 1) (by omega)
    have hnext : UInt32.ofNat index + 1 = UInt32.ofNat (index + 1) := by
      rw [UInt32.ofNat_add]
      rfl
    rw [pathMask, hnext, UInt32.toNat_or, Nat.testBit_or, Bool.or_eq_true, hrest]
    have hbit : (if p id = true then (1 : UInt32) <<< UInt32.ofNat index else 0).toNat.testBit j
        = true ↔ p id = true ∧ index = j := by
      split
      · rename_i hp
        rw [toNat_one_shift (by omega), Nat.testBit_two_pow]
        simp [hp]
      · rename_i hp
        simp [hp]
    rw [hbit]
    rcases Nat.lt_trichotomy j index with hj | rfl | hj
    · constructor
      · rintro (⟨-, heq⟩ | ⟨hle, -⟩) <;> omega
      · rintro ⟨hle, -⟩
        omega
    · simp [show ¬ j + 1 ≤ j by omega]
    · have hsub : j - index = (j - (index + 1)) + 1 := by omega
      rw [hsub, List.getElem?_cons_succ]
      constructor
      · rintro (⟨-, heq⟩ | ⟨-, hmem⟩)
        · omega
        · exact ⟨by omega, hmem⟩
      · rintro ⟨-, hmem⟩
        exact Or.inr ⟨hj, hmem⟩

/-! ## The coverage -/

variable {settings : FilterSettings}

theorem includePoint_seen (hrequired : settings.required = true) (nominal programmed : UInt64)
    (coverage : FilterCoverage) :
    coverage.includePoint settings nominal programmed =
      { mask := coverage.mask &&&
          pathMask (settings.covers · nominal programmed) 0 settings.outputs
        seen := true } := by
  unfold FilterCoverage.includePoint
  rw [hrequired]
  rfl

/-- The bits of a coverage are the outputs, of those it started with, that cover every point. -/
theorem coverage_testBit (hrequired : settings.required = true)
    (hfew : settings.outputs.length ≤ 32) (points : List (UInt64 × UInt64))
    (coverage : FilterCoverage) (j : Nat) :
    (points.foldl (fun coverage point => coverage.includePoint settings point.1 point.2)
      coverage).mask.toNat.testBit j = true ↔
      coverage.mask.toNat.testBit j = true ∧ ∀ point ∈ points,
        ∃ id, settings.outputs[j]? = some id ∧ settings.covers id point.1 point.2 = true := by
  induction points generalizing coverage with
  | nil => simp
  | cons point points ih =>
    have hpath := pathMask_testBit (settings.covers · point.1 point.2) 0
      (by omega : 0 + settings.outputs.length ≤ 32) j
    rw [List.foldl_cons, ih, includePoint_seen hrequired, UInt32.toNat_and, Nat.testBit_and,
      Bool.and_eq_true, List.forall_mem_cons, and_assoc]
    exact and_congr_right fun _ => and_congr_left fun _ =>
      hpath.trans ⟨fun h => h.2, fun h => ⟨Nat.zero_le j, h⟩⟩

theorem coverage_seen (hrequired : settings.required = true) {points : List (UInt64 × UInt64)}
    (hsome : points ≠ []) : (coverPoints settings points).seen = true := by
  have hkeep : ∀ (points : List (UInt64 × UInt64)) (coverage : FilterCoverage),
      coverage.seen = true → (points.foldl (fun coverage point =>
        coverage.includePoint settings point.1 point.2) coverage).seen = true := by
    intro points
    induction points with
    | nil => exact fun coverage h => h
    | cons point points ih =>
      exact fun coverage _ => ih _ (congrArg FilterCoverage.seen (includePoint_seen hrequired ..))
  cases points with
  | nil => exact absurd rfl hsome
  | cons point points =>
    exact hkeep points _ (congrArg FilterCoverage.seen (includePoint_seen hrequired ..))

/-- Of a table of at most five outputs, the bits of some points are the outputs that cover them
all. -/
theorem coverPoints_testBit (hrequired : settings.required = true)
    (hfew : settings.outputs.length ≤ 5) {points : List (UInt64 × UInt64)} (hsome : points ≠ [])
    (j : Nat) :
    (coverPoints settings points).mask.toNat.testBit j = true ↔ settings.CoversAll points j := by
  have hstart : ∀ j, (UInt32.toNat 31).testBit j = true ↔ j < 5 := by
    intro j
    rw [show UInt32.toNat 31 = 2 ^ 5 - 1 from rfl, Nat.testBit_two_pow_sub_one, decide_eq_true_eq]
  refine (coverage_testBit hrequired (by omega) points {} j).trans ?_
  rw [hstart]
  constructor
  · rintro ⟨-, hall⟩
    obtain ⟨point, hpoint⟩ := List.exists_mem_of_ne_nil points hsome
    obtain ⟨id, hid, -⟩ := hall point hpoint
    have hcovers : ∀ point ∈ points, settings.covers id point.1 point.2 = true := by
      intro point hpoint
      obtain ⟨id', hid', hcovers⟩ := hall point hpoint
      rwa [Option.some.inj (hid.symm.trans hid')]
    exact ⟨id, hid, fun point hpoint => ((covers_iff ..).mp (hcovers point hpoint)).1,
      fun point hpoint => ((covers_iff ..).mp (hcovers point hpoint)).2⟩
  · rintro ⟨id, hid, hrequested, hrealized⟩
    have hlt : j < settings.outputs.length := (List.getElem?_eq_some_iff.mp hid).1
    exact ⟨by omega, fun point hpoint => ⟨id, hid, (covers_iff ..).mpr
      ⟨hrequested point hpoint, hrealized point hpoint⟩⟩⟩

/-! ## The selection -/

theorem mask_single {mask : UInt32} {i : Nat} (h : i < 32) :
    mask = (1 : UInt32) <<< UInt32.ofNat i ↔
      ∀ j, mask.toNat.testBit j = true ↔ j = i := by
  rw [← UInt32.toNat_inj, toNat_one_shift h]
  constructor
  · rintro heq j
    rw [heq, Nat.testBit_two_pow, decide_eq_true_eq]
    exact eq_comm
  · intro hbits
    refine Nat.eq_of_testBit_eq fun j => Bool.eq_iff_iff.mpr ?_
    rw [hbits, Nat.testBit_two_pow, decide_eq_true_eq]
    exact eq_comm

theorem selection_eq_iff (hrequired : settings.required = true)
    (hfew : settings.outputs.length ≤ 5) {coverage : FilterCoverage} (hseen : coverage.seen = true)
    (i : Nat) : coverage.selection settings = i ↔
      i < settings.outputs.length ∧ coverage.mask = (1 : UInt32) <<< UInt32.ofNat i := by
  have hsingle : ∀ i < 5, (1 : UInt32) <<< UInt32.ofNat i ≠ 0 ∧
      ((1 : UInt32) <<< UInt32.ofNat i) &&& ((1 : UInt32) <<< UInt32.ofNat i - 1) = 0 := by decide
  have hinj : ∀ i < 5, ∀ j < 5, (1 : UInt32) <<< UInt32.ofNat i = (1 : UInt32) <<< UInt32.ofNat j →
      i = j := by decide
  unfold FilterCoverage.selection
  rw [hrequired, hseen, if_neg (by decide)]
  constructor
  · intro h
    split at h
    · omega
    · split at h
      · rename_i j hj
        obtain rfl : j = i := by omega
        have hfound := List.find?_some hj
        have hmem := List.mem_of_find?_eq_some hj
        exact ⟨List.mem_range.mp hmem, of_decide_eq_true hfound⟩
      · omega
  · rintro ⟨hlt, hmask⟩
    have hi := hsingle i (by omega)
    rw [hmask, if_neg (by simpa using hi)]
    cases hfind : (List.range settings.outputs.length).find? (fun j =>
        (1 : UInt32) <<< UInt32.ofNat i = (1 : UInt32) <<< UInt32.ofNat j) with
    | none =>
      exact absurd (decide_eq_true rfl) (List.find?_eq_none.mp hfind i (List.mem_range.mpr hlt))
    | some j =>
      have hj := List.mem_range.mp (List.mem_of_find?_eq_some hfind)
      have hfound := List.find?_some hfind
      have heq := of_decide_eq_true hfound
      rw [hinj i (by omega) j (by omega) heq]

theorem selection_range (settings : FilterSettings) (coverage : FilterCoverage) :
    (∃ i : Nat, coverage.selection settings = i) ∨ coverage.selection settings = -2 ∨
      (settings.required = false ∧ coverage.selection settings = -1) := by
  unfold FilterCoverage.selection
  split
  · rename_i h
    exact Or.inr (Or.inr ⟨by simpa using h, rfl⟩)
  · split
    · exact Or.inr (Or.inl rfl)
    · split
      · exact Or.inl ⟨_, rfl⟩
      · exact Or.inr (Or.inl rfl)

theorem coverPoints_perm {points points' : List (UInt64 × UInt64)} (h : points.Perm points') :
    coverPoints settings points' = coverPoints settings points := by
  have hcomm : RightCommutative fun (coverage : FilterCoverage) (point : UInt64 × UInt64) =>
      coverage.includePoint settings point.1 point.2 := by
    refine ⟨fun coverage point point' => ?_⟩
    unfold FilterCoverage.includePoint
    split
    · rfl
    · rw [UInt32.and_assoc, UInt32.and_comm (pathMask _ _ _), ← UInt32.and_assoc]
  exact (h.foldl_eq ({} : FilterCoverage)).symm

/-- An output is selected when it is the only one that covers every point. -/
theorem coverPoints_sole (hrequired : settings.required = true)
    (hfew : settings.outputs.length ≤ 5) {points : List (UInt64 × UInt64)} (hsome : points ≠ [])
    (i : Nat) : (coverPoints settings points).selection settings = i ↔ settings.Sole points i := by
  rw [selection_eq_iff hrequired hfew (coverage_seen hrequired hsome)]
  have hbits := coverPoints_testBit hrequired hfew hsome
  constructor
  · rintro ⟨hlt, hmask⟩
    have hsingle := (mask_single (by omega)).mp hmask
    exact ⟨(hbits i).mp ((hsingle i).mpr rfl), fun j hj => (hsingle j).mp ((hbits j).mpr hj)⟩
  · rintro ⟨hcovers, hsole⟩
    obtain ⟨id, hid, -⟩ := id hcovers
    have hlt := (List.getElem?_eq_some_iff.mp hid).1
    refine ⟨hlt, (mask_single (by omega)).mpr fun j => (hbits j).trans ⟨hsole j, ?_⟩⟩
    rintro rfl
    exact hcovers

theorem coverPoints_none (hrequired : settings.required = true)
    (hfew : settings.outputs.length ≤ 5) {points : List (UInt64 × UInt64)} (hsome : points ≠ []) :
    (coverPoints settings points).selection settings = -2 ↔ ¬ ∃ i, settings.Sole points i := by
  have hsole := coverPoints_sole hrequired hfew hsome
  constructor
  · rintro hnone ⟨i, hi⟩
    have := (hsole i).mpr hi
    omega
  · intro hnone
    obtain ⟨i, hi⟩ | h | ⟨hoff, -⟩ := selection_range settings (coverPoints settings points)
    · exact absurd ⟨i, (hsole i).mp hi⟩ hnone
    · exact h
    · rw [hrequired] at hoff
      cases hoff

/-! ## The selector -/

def eventPoints (programmed : Nat → UInt64 → UInt64) : Nat → List RfEvent → List (UInt64 × UInt64)
  | _, [] => []
  | index, event :: rest =>
    match event.rfOn, event.frequencyNhz with
    | true, some frequency =>
      (frequency, programmed index frequency) :: eventPoints programmed (index + 1) rest
    | _, _ => eventPoints programmed (index + 1) rest

theorem coverEvents_eq (programmed : Nat → UInt64 → UInt64) (index : Nat) (events : List RfEvent)
    (coverage : FilterCoverage) : coverEvents settings programmed index events coverage =
      (eventPoints programmed index events).foldl
        (fun coverage point => coverage.includePoint settings point.1 point.2) coverage := by
  induction events generalizing index coverage with
  | nil => rfl
  | cons event rest ih =>
    rw [coverEvents, ih, eventPoints]
    obtain ⟨offset, duration, on, frequency⟩ := event
    cases on <;> cases frequency <;> rfl

theorem selection_unseen (hrequired : settings.required = true) {coverage : FilterCoverage}
    (h : coverage.seen = false) : coverage.selection settings = -2 := by
  unfold FilterCoverage.selection
  rw [hrequired, h, if_neg (by decide)]
  rfl

theorem selected_sole (hrequired : settings.required = true) (hfew : settings.outputs.length ≤ 5)
    {points : List (UInt64 × UInt64)} (h : (coverPoints settings points).selection settings ≠ -2) :
    ∃ i : Nat, (coverPoints settings points).selection settings = i ∧ settings.Sole points i := by
  have hsome : points ≠ [] := by
    rintro rfl
    exact h (selection_unseen hrequired rfl)
  by_contra hnone
  refine h ((coverPoints_none hrequired hfew hsome).mpr ?_)
  rintro ⟨i, hi⟩
  exact hnone ⟨i, (coverPoints_sole hrequired hfew hsome i).mpr hi, hi⟩

def jobPoints (rate : SampleRate) (job : Job) (plan : Plan) : List (UInt64 × UInt64) :=
  eventPoints (fun index _ => rate.planned plan index) 0 job.events.events

theorem FilterSelector.prepare_sole {rate : SampleRate} {job : Job} {plan : Plan}
    {selector : FilterSelector} (hrequired : settings.required = true)
    (hfew : settings.outputs.length ≤ 5)
    (h : (selector.prepare rate settings job plan).1 = true) :
    ∃ i : Nat, (selector.prepare rate settings job plan).2.selected = i ∧
      settings.Sole (jobPoints rate job plan) i := by
  unfold FilterSelector.prepare at h ⊢
  rw [coverEvents_eq] at h ⊢
  change (if _ then _ else if (coverPoints settings (jobPoints rate job plan)).selection settings
    = -2 then _ else _ : Bool × FilterSelector).1 = true at h
  split at h
  · cases h
  · rename_i hidle
    split at h
    · cases h
    · rename_i hselected
      obtain ⟨i, hi, hsole⟩ := selected_sole hrequired hfew hselected
      refine ⟨i, ?_, hsole⟩
      rw [if_neg hidle]
      show (if (coverPoints settings (jobPoints rate job plan)).selection settings = -2 then _
        else _ : Bool × FilterSelector).2.selected = i
      rw [if_neg hselected]
      exact hi

theorem FilterSelector.prepareFrequencies_refused {points : List (UInt64 × UInt64)}
    {selector : FilterSelector} (h : (selector.prepareFrequencies settings points).1 = false) :
    (selector.prepareFrequencies settings points).2 = selector := by
  unfold FilterSelector.prepareFrequencies at h ⊢
  split at h
  · rename_i hidle
    rw [if_pos hidle]
  · rename_i hidle
    rw [if_neg hidle]
    simp only at h ⊢
    split at h
    · rename_i hnone
      rw [if_pos hnone]
    · cases h

/-- With a required table, an output is selected when it is the only one whose band covers every
nominal and every programmed frequency, and none where no output is or there is no frequency. A
table that is not required selects none. The order does not matter, and a preparation that fails
keeps the selection it found. -/
theorem coverage_unique {settings : FilterSettings} (hfew : settings.outputs.length ≤ 5)
    (points : List (UInt64 × UInt64)) :
    (settings.required = true → points ≠ [] →
      (∀ i : Nat, (coverPoints settings points).selection settings = i ↔
        settings.Sole points i) ∧
      ((coverPoints settings points).selection settings = -2 ↔
        ¬ ∃ i, settings.Sole points i)) ∧
    (settings.required = true → points = [] →
      (coverPoints settings points).selection settings = -2) ∧
    (settings.required = false → (coverPoints settings points).selection settings = -1) ∧
    (∀ points', points.Perm points' →
      coverPoints settings points' = coverPoints settings points) ∧
    (∀ (selector : FilterSelector) (rate : SampleRate) (job : Job) (plan : Plan),
      ((selector.prepare rate settings job plan).1 = false →
        (selector.prepare rate settings job plan).2 = selector) ∧
      (settings.required = true → (selector.prepare rate settings job plan).1 = true →
        ∃ i : Nat, (selector.prepare rate settings job plan).2.selected = i ∧
          settings.Sole (jobPoints rate job plan) i)) ∧
    ∀ selector : FilterSelector, (selector.prepareFrequencies settings points).1 = false →
      (selector.prepareFrequencies settings points).2 = selector := by
  refine ⟨fun hrequired hsome => ⟨coverPoints_sole hrequired hfew hsome,
    coverPoints_none hrequired hfew hsome⟩, fun hrequired hnone => ?_, fun hrequired => ?_,
    fun points' h => coverPoints_perm h, fun selector rate job plan =>
      ⟨FilterSelector.prepare_refused, fun hrequired h =>
        FilterSelector.prepare_sole hrequired hfew h⟩,
    fun selector => FilterSelector.prepareFrequencies_refused⟩
  · rw [hnone]
    exact selection_unseen hrequired rfl
  · unfold FilterCoverage.selection
    rw [hrequired]
    rfl

def twoBands (required : Bool) : FilterSettings :=
  { required
    outputs := [1, 2]
    ranges := [⟨1, 7000000, 7300000⟩, ⟨2, 10100000, 10150000⟩] }

/-- Two tones of the upper band, with what they are realized as. -/
def twoTones : List (UInt64 × UInt64) :=
  [(10140000000000000, 10140000000000001), (10140200000000000, 10140200000000003)]

theorem twoBands_sole (required : Bool) : (twoBands required).Sole twoTones 1 := by
  have hselected : (coverPoints (twoBands true) twoTones).selection (twoBands true) = (1 : Nat) := by
    decide +kernel
  have hsole : (twoBands true).Sole _ 1 :=
    (coverPoints_sole rfl (by decide) (List.cons_ne_nil _ _) 1).mp hselected
  exact hsole

theorem twoBands_selected :
    (coverPoints (twoBands true) twoTones).selection (twoBands true) = (1 : Nat) := by
  have hunique := @coverage_unique (twoBands true) (by decide) twoTones
  exact ((hunique.1 rfl (List.cons_ne_nil _ _)).1 1).mpr (twoBands_sole true)

/-- A table that is not required selects no output, though one alone covers both tones. -/
theorem twoBands_manual :
    (coverPoints (twoBands false) twoTones).selection (twoBands false) = -1 ∧
      (twoBands false).Sole twoTones 1 :=
  ⟨by decide +kernel, twoBands_sole false⟩

end WsprryPico.Rf
