import Mathlib.Algebra.Order.Archimedean.Real.Basic
import WsprryPico.Time.UtcBound

/-!
# The reference counter

`rf/reference_counter.cpp` adds up the edges a sixteen-bit capture counter shows
from one bracketed read to the next. The edges themselves are a function of time
that a hardware bound limits; the counter shows them modulo `2^16`.
-/

namespace WsprryPico.Rf

open Time Wtp

structure CounterSample where
  counter : UInt16 := 0
  beforeNs : UInt64 := 0
  afterNs : UInt64 := 0
  deriving DecidableEq

structure ReferenceWindow where
  startRawNs : UInt64 := 0
  endRawNs : UInt64 := 0
  edges : UInt64 := 0
  endpointUncertaintyNs : UInt64 := 0
  planGeneration : UInt64 := 0
  coherent : Bool := false

structure ReferenceCounter where
  first : CounterSample := {}
  previous : CounterSample := {}
  maximumRate : UInt64 := 0
  generation : UInt64 := 0
  edges : UInt64 := 0
  active : Bool := false
  error : String := "not_started"
  deriving DecidableEq

namespace ReferenceCounter

def reject (c : ReferenceCounter) (reason : String) : ReferenceCounter × Bool :=
  ({ c with error := reason, active := false }, false)

def begin (c : ReferenceCounter) (sample : CounterSample) (maximumRate generation : UInt64) :
    ReferenceCounter × Bool :=
  let c := { c with active := false, error := "invalid_capture" }
  if generation = 0 ∨ maximumRate = 0 ∨ maximumRate > 1000000000 ∨
      sample.afterNs < sample.beforeNs ∨ sample.afterNs - sample.beforeNs > 10000 then (c, false)
  else
    ({ c with
        first := sample, previous := sample, maximumRate, generation, edges := 0, error := ""
        active := true }, true)

/-- The most edges of a gap: its ceiling edge bound and one boundary edge. -/
def maximumEdges (longestGap maximumRate : UInt64) : UInt64 :=
  (longestGap * maximumRate + 999999999) / 1000000000 + 1

def sample (c : ReferenceCounter) (value : CounterSample) (generation : UInt64) :
    ReferenceCounter × Bool :=
  if !c.active then (c, false)
  else if generation ≠ c.generation then c.reject "plan_changed"
  else if value.afterNs < value.beforeNs ∨ value.beforeNs ≤ c.previous.afterNs ∨
      value.afterNs - value.beforeNs > 10000 then c.reject "capture_order"
  else
    let longestGap := value.afterNs - c.previous.beforeNs
    if longestGap > 1000000000 then c.reject "counter_service_gap"
    else
      let maximumEdges := maximumEdges longestGap c.maximumRate
      if maximumEdges ≥ 65536 then c.reject "counter_service_gap"
      else
        let difference := (value.counter - c.previous.counter).toUInt64
        if difference > maximumEdges then c.reject "counter_rate_bound"
        else if c.edges > u64Max - difference then c.reject "counter_overflow"
        else ({ c with edges := c.edges + difference, previous := value }, true)

def finish (c : ReferenceCounter) : ReferenceWindow :=
  if !c.active ∨ c.previous.beforeNs ≤ c.first.afterNs then {}
  else
    let startWidth := c.first.afterNs - c.first.beforeNs
    let endWidth := c.previous.afterNs - c.previous.beforeNs
    { startRawNs := c.first.beforeNs + startWidth / 2
      endRawNs := c.previous.beforeNs + endWidth / 2
      edges := c.edges
      endpointUncertaintyNs := (startWidth + 1) / 2 + (endWidth + 1) / 2
      planGeneration := c.generation
      coherent := true }

end ReferenceCounter

/-! ## The signal -/

/-- The edges up to each nanosecond, which come at most at a rate (a second) and one more in
any gap. -/
structure Bounded (count : ℝ → ℕ) (rate : UInt64) : Prop where
  mono : Monotone count
  rate : ∀ s t, s ≤ t → count t ≤ count s + ⌈(t - s) * rate.toNat / 10 ^ 9⌉₊ + 1

/-- The sample is what a read at the instant `t`, within its bracket, shows of the signal. -/
structure CounterSample.Reads (value : CounterSample) (count : ℝ → ℕ) (t : ℝ) : Prop where
  bracket : (value.beforeNs.toNat : ℝ) ≤ t ∧ t ≤ value.afterNs.toNat
  counter : value.counter = UInt16.ofNat (count t)

/-- Some signal of the bound reads as the two samples and wraps the counter between them. -/
def HidesWrap (previous value : CounterSample) (rate : UInt64) : Prop :=
  ∃ (count : ℝ → ℕ) (s t : ℝ), Bounded count rate ∧ s ≤ t ∧ previous.Reads count s ∧
    value.Reads count t ∧ count s + 65536 ≤ count t

/-! ## One gap -/

/-- The bound of a gap, as the source computes it. -/
theorem maximumEdges_toNat {gap rate : UInt64} (hgap : gap ≤ 1000000000)
    (hrate : rate ≤ 1000000000) : (ReferenceCounter.maximumEdges gap rate).toNat =
      (gap.toNat * rate.toNat + 999999999) / 1000000000 + 1 := by
  have hgap : gap.toNat ≤ 1000000000 := UInt64.le_iff_toNat_le.mp hgap
  have hrate : rate.toNat ≤ 1000000000 := UInt64.le_iff_toNat_le.mp hrate
  have hprod : gap.toNat * rate.toNat ≤ 1000000000 * 1000000000 := Nat.mul_le_mul hgap hrate
  unfold ReferenceCounter.maximumEdges
  rw [UInt64.toNat_add, UInt64.toNat_div, UInt64.toNat_add, UInt64.toNat_mul]
  show ((gap.toNat * rate.toNat % 2 ^ 64 + 999999999) % 2 ^ 64 / 1000000000 + 1) % 2 ^ 64 = _
  rw [Nat.mod_eq_of_lt (by omega : gap.toNat * rate.toNat < 2 ^ 64),
    Nat.mod_eq_of_lt (by omega : _ + 999999999 < 2 ^ 64), Nat.mod_eq_of_lt (by omega)]

/-- It bounds what a signal can do in the gap. -/
theorem Bounded.gap {count : ℝ → ℕ} {rate : UInt64} (h : Bounded count rate) {s t : ℝ}
    (hst : s ≤ t) {gap : Nat} (hgap : t - s ≤ gap) :
    count t ≤ count s + ((gap * rate.toNat + 999999999) / 1000000000 + 1) := by
  have hceil : ⌈(t - s) * rate.toNat / 10 ^ 9⌉₊ ≤ (gap * rate.toNat + 999999999) / 1000000000 := by
    rw [Nat.ceil_le]
    have hnat : gap * rate.toNat ≤ (gap * rate.toNat + 999999999) / 1000000000 * 1000000000 := by
      omega
    have hreal : (gap * rate.toNat : ℝ) ≤
        ((gap * rate.toNat + 999999999) / 1000000000 : ℕ) * 1000000000 := by
      exact_mod_cast hnat
    have hmul : (t - s) * rate.toNat ≤ (gap : ℝ) * rate.toNat :=
      mul_le_mul_of_nonneg_right hgap (Nat.cast_nonneg _)
    rw [div_le_iff₀ (by positivity)]
    norm_num
    linarith
  have := h.rate s t hst
  omega

theorem unwrap {m n : Nat} (hle : m ≤ n) (hlt : n < m + 65536) :
    (UInt16.ofNat n - UInt16.ofNat m).toNat = n - m := by
  rw [UInt16.toNat_sub, UInt16.toNat_ofNat', UInt16.toNat_ofNat']
  omega

/-! ## One sample -/

/-- What `sample` asks before it counts. -/
structure ReferenceCounter.Admits (c : ReferenceCounter) (value : CounterSample) : Prop where
  active : c.active = true
  order : c.previous.afterNs < value.beforeNs
  bracket : value.beforeNs ≤ value.afterNs
  gap : value.afterNs - c.previous.beforeNs ≤ 1000000000
  clear : maximumEdges (value.afterNs - c.previous.beforeNs) c.maximumRate < 65536
  room : ¬ c.edges > u64Max - (value.counter - c.previous.counter).toUInt64

theorem ReferenceCounter.sample_cases (c : ReferenceCounter) (value : CounterSample)
    (generation : UInt64) :
    ((c.sample value generation).2 = false ∧ (c.sample value generation).1.active = false) ∨
    (c.Admits value ∧ c.sample value generation =
      ({ c with
          edges := c.edges + (value.counter - c.previous.counter).toUInt64
          previous := value }, true)) := by
  unfold sample
  by_cases hactive : c.active = true
  · rw [hactive]
    dsimp only
    split_ifs with h1 h2 h3 h4 h5 h6 h7
    · cases h1
    iterate 6 exact Or.inl ⟨rfl, rfl⟩
    simp only [not_or, UInt64.not_le, UInt64.not_lt, gt_iff_lt] at h3 h4 h5
    exact Or.inr ⟨⟨hactive, h3.2.1, h3.1, h4, h5, h7⟩, rfl⟩
  · rw [Bool.not_eq_true] at hactive
    rw [hactive]
    exact Or.inl ⟨rfl, hactive⟩

section Gap

variable {c : ReferenceCounter} {value : CounterSample} {count : ℝ → ℕ} {s t : ℝ}

/-- The instants of two reads are in order, and no further apart than the gap. -/
theorem ReferenceCounter.Admits.instants (h : c.Admits value) (hs : c.previous.Reads count s)
    (ht : value.Reads count t) :
    s ≤ t ∧ t - s ≤ (value.afterNs - c.previous.beforeNs).toNat := by
  have horder : c.previous.afterNs.toNat < value.beforeNs.toNat := UInt64.lt_iff_toNat_lt.mp h.order
  have hbracket : value.beforeNs.toNat ≤ value.afterNs.toNat := UInt64.le_iff_toNat_le.mp h.bracket
  have hprevious : c.previous.beforeNs.toNat ≤ c.previous.afterNs.toNat := by
    exact_mod_cast hs.bracket.1.trans hs.bracket.2
  have hle : c.previous.beforeNs.toNat ≤ value.afterNs.toNat := by omega
  have hcast : (c.previous.afterNs.toNat : ℝ) ≤ value.beforeNs.toNat := by exact_mod_cast horder.le
  rw [UInt64.toNat_sub_of_le _ _ (UInt64.le_iff_toNat_le.mpr hle), Nat.cast_sub hle]
  obtain ⟨hs1, hs2⟩ := hs.bracket
  obtain ⟨ht1, ht2⟩ := ht.bracket
  constructor <;> linarith

theorem ReferenceCounter.Admits.few (h : c.Admits value) (hrate : c.maximumRate ≤ 1000000000)
    (hbounded : Bounded count c.maximumRate) (hs : c.previous.Reads count s)
    (ht : value.Reads count t) : count t < count s + 65536 := by
  obtain ⟨horder, hgap⟩ := h.instants hs ht
  have hcount := hbounded.gap horder hgap
  have hclear : (maximumEdges _ c.maximumRate).toNat < 65536 := UInt64.lt_iff_toNat_lt.mp h.clear
  rw [maximumEdges_toNat h.gap hrate] at hclear
  omega

theorem ReferenceCounter.Admits.edges (h : c.Admits value) (hrate : c.maximumRate ≤ 1000000000)
    (hbounded : Bounded count c.maximumRate) (hs : c.previous.Reads count s)
    (ht : value.Reads count t) :
    (c.edges + (value.counter - c.previous.counter).toUInt64).toNat + count s =
      c.edges.toNat + count t := by
  have hmono := hbounded.mono (h.instants hs ht).1
  have hdifference : (value.counter - c.previous.counter).toUInt64.toNat = count t - count s := by
    rw [UInt16.toNat_toUInt64, ht.counter, hs.counter]
    exact unwrap hmono (h.few hrate hbounded hs ht)
  have hroom : ¬ (value.counter - c.previous.counter).toUInt64 > u64Max - c.edges := by
    have h := h.room
    have hedges := c.edges.toNat_lt
    have hsome := (value.counter - c.previous.counter).toUInt64.toNat_lt
    rw [gt_iff_lt, UInt64.lt_iff_toNat_lt, UInt64.toNat_sub_of_le _ _ (UInt64.le_iff_toNat_le.mpr
      (by rw [toNat_u64Max]; omega)), toNat_u64Max] at h ⊢
    omega
  rw [toNat_add_of_room hroom, hdifference]
  omega

end Gap

/-! ## Runs -/

inductive CounterCall where
  | begin (sample : CounterSample) (maximumRate generation : UInt64)
  | sample (value : CounterSample) (generation : UInt64)

/-- A counter, and the instants of the reads it holds. -/
structure Observed where
  counter : ReferenceCounter := {}
  first : ℝ := 0
  last : ℝ := 0

/-- A call whose sample was read at the instant `t`. -/
def Observed.step (o : Observed) (call : CounterCall) (t : ℝ) : Observed :=
  match call with
  | .begin sample maximumRate generation =>
    let begun := o.counter.begin sample maximumRate generation
    if begun.2 then ⟨begun.1, t, t⟩ else { o with counter := begun.1 }
  | .sample value generation =>
    let sampled := o.counter.sample value generation
    if sampled.2 then { o with counter := sampled.1, last := t }
    else { o with counter := sampled.1 }

def observe (calls : List (CounterCall × ℝ)) : Observed :=
  calls.foldl (fun o call => o.step call.1 call.2) {}

/-- The sample of a call reads the signal, and the bound it gives is one of the signal. -/
def CounterCall.Honest (count : ℝ → ℕ) (t : ℝ) : CounterCall → Prop
  | .begin first maximumRate _ => first.Reads count t ∧ Bounded count maximumRate
  | .sample value _ => value.Reads count t

/-- What an active counter has counted. -/
structure Observed.Tracks (o : Observed) (count : ℝ → ℕ) : Prop where
  rate : o.counter.maximumRate ≤ 1000000000
  bounded : Bounded count o.counter.maximumRate
  first : o.counter.first.Reads count o.first
  previous : o.counter.previous.Reads count o.last
  edges : o.counter.edges.toNat + count o.first = count o.last

theorem Observed.step_tracks {o : Observed} {count : ℝ → ℕ} {call : CounterCall} {t : ℝ}
    (h : o.counter.active = true → o.Tracks count) (hcall : call.Honest count t) :
    (o.step call t).counter.active = true → (o.step call t).Tracks count := by
  cases call with
  | begin sample maximumRate generation =>
    obtain ⟨hreads, hbounded⟩ := hcall
    unfold step ReferenceCounter.begin
    dsimp only
    split_ifs with hrefused
    · exact nofun
    · exact nofun
    · simp only [not_or, gt_iff_lt, UInt64.not_lt] at hrefused
      intro _
      exact ⟨hrefused.2.2.1, hbounded, hreads, hreads, Nat.zero_add _⟩
    · rename_i hdone
      exact absurd rfl hdone
  | sample value generation =>
    unfold step
    dsimp only
    obtain ⟨hrefused, hinactive⟩ | ⟨hadmits, hsample⟩ := o.counter.sample_cases value generation
    · rw [hrefused]
      intro hactive
      exact absurd (hinactive.symm.trans hactive) (by decide)
    · rw [hsample, if_pos rfl]
      intro _
      obtain ⟨hrate, hbounded, hfirst, hprevious, hedges⟩ := h hadmits.active
      refine ⟨hrate, hbounded, hfirst, hcall, ?_⟩
      have hgap := hadmits.edges hrate hbounded hprevious hcall
      show (o.counter.edges + _).toNat + count o.first = count t
      omega

theorem observe_tracks {count : ℝ → ℕ} {calls : List (CounterCall × ℝ)}
    (h : ∀ call ∈ calls, call.1.Honest count call.2) :
    (observe calls).counter.active = true → (observe calls).Tracks count := by
  have hrun : ∀ (calls : List (CounterCall × ℝ)) (o : Observed),
      (∀ call ∈ calls, call.1.Honest count call.2) →
      (o.counter.active = true → o.Tracks count) →
      (calls.foldl (fun o call => o.step call.1 call.2) o).counter.active = true →
      (calls.foldl (fun o call => o.step call.1 call.2) o).Tracks count := by
    intro calls
    induction calls with
    | nil => exact fun o _ ho => ho
    | cons call calls ih =>
      intro o hcalls ho
      rw [List.forall_mem_cons] at hcalls
      exact ih _ hcalls.2 (Observed.step_tracks ho hcalls.1)
  exact hrun calls {} h nofun

theorem finish_coherent {c : ReferenceCounter} (h : c.finish.coherent = true) :
    c.active = true ∧ c.finish.edges = c.edges := by
  unfold ReferenceCounter.finish at h ⊢
  split at h
  · cases h
  · rename_i hopen
    rw [if_neg hopen]
    rw [not_or, Bool.not_eq_true', Bool.not_eq_false] at hopen
    exact ⟨hopen.1, rfl⟩

theorem finish_stopped {c : ReferenceCounter} (h : c.active = false) :
    c.finish.coherent = false := by
  unfold ReferenceCounter.finish
  rw [if_pos (Or.inl (by rw [h]; rfl))]

/-- In every run of calls whose samples read a signal of the bound, the edges counted are those
of the signal between the first and the last sample, also in the window. A sample that could
hide a wrap of the counter stops the count. -/
theorem edges_counted (count : ℝ → ℕ) (calls : List (CounterCall × ℝ))
    (h : ∀ call ∈ calls, call.1.Honest count call.2) :
    let o := observe calls
    (o.counter.active = true → o.counter.edges.toNat + count o.first = count o.last) ∧
    (o.counter.finish.coherent = true →
      o.counter.finish.edges.toNat + count o.first = count o.last) ∧
    ∀ value generation, HidesWrap o.counter.previous value o.counter.maximumRate →
      (o.counter.sample value generation).2 = false ∧
      (o.counter.sample value generation).1.active = false ∧
      (o.counter.sample value generation).1.finish.coherent = false := by
  intro o
  have htracks := observe_tracks h
  refine ⟨fun hactive => (htracks hactive).edges, fun hcoherent => ?_,
    fun value generation hhides => ?_⟩
  · obtain ⟨hactive, hedges⟩ := finish_coherent hcoherent
    rw [hedges]
    exact (htracks hactive).edges
  · obtain ⟨hrefused, hinactive⟩ | ⟨hadmits, -⟩ := o.counter.sample_cases value generation
    · exact ⟨hrefused, hinactive, finish_stopped hinactive⟩
    · obtain ⟨signal, s, t, hbounded, -, hs, ht, hwrap⟩ := hhides
      have hfew := hadmits.few (htracks hadmits.active).rate hbounded hs ht
      omega

/-- An edge each microsecond. -/
noncomputable def megahertz (t : ℝ) : ℕ := ⌊t / 1000⌋₊

theorem megahertz_bounded : Bounded megahertz 1000000 := by
  refine ⟨fun s t h => Nat.floor_mono (by linarith), fun s t h => ?_⟩
  unfold megahertz
  have hceil := Nat.le_ceil ((t - s) * (UInt64.toNat 1000000) / 10 ^ 9)
  have hrate : ((UInt64.toNat 1000000 : ℕ) : ℝ) = 1000000 := by norm_cast
  rw [hrate] at hceil ⊢
  refine Nat.le_of_lt_succ ((Nat.floor_lt' (Nat.succ_ne_zero _)).mpr ?_)
  have hfloor := Nat.lt_floor_add_one (s / 1000)
  push_cast
  linarith

/-- Three reads sixty milliseconds apart, between which the counter wraps once. -/
noncomputable def wrapped : List (CounterCall × ℝ) :=
  [(.begin ⟨0, 0, 0⟩ 1000000 1, 0),
    (.sample ⟨60000, 60000000, 60000000⟩ 1, 60000000),
    (.sample ⟨54464, 120000000, 120000000⟩ 1, 120000000)]

theorem wrapped_counted : (observe wrapped).counter.active = true ∧
    (observe wrapped).counter.edges.toNat + megahertz 0 = megahertz 120000000 := by
  have hactive : (observe wrapped).counter.active = true := by decide +kernel
  have hcount : megahertz 0 = 0 ∧ megahertz 60000000 = 60000 ∧ megahertz 120000000 = 120000 := by
    refine ⟨?_, ?_, ?_⟩ <;> unfold megahertz <;> norm_num
  refine ⟨hactive, (edges_counted megahertz wrapped ?_).1 hactive⟩
  unfold wrapped
  simp only [List.forall_mem_cons, List.not_mem_nil, false_imp_iff, implies_true, and_true]
  refine ⟨⟨⟨?_, ?_⟩, megahertz_bounded⟩, ⟨?_, ?_⟩, ⟨?_, ?_⟩⟩
  · norm_num
  · rw [hcount.1]; rfl
  · exact_mod_cast (by decide : UInt64.toNat 60000000 ≤ 60000000 ∧
      60000000 ≤ UInt64.toNat 60000000)
  · rw [hcount.2.1]; rfl
  · exact_mod_cast (by decide : UInt64.toNat 120000000 ≤ 120000000 ∧
      120000000 ≤ UInt64.toNat 120000000)
  · rw [hcount.2.2]; rfl

end WsprryPico.Rf
