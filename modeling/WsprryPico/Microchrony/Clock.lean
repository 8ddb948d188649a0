import WsprryPico.Microchrony.Frames

/-!
# The virtual clock

What an observation, the retirement and the clearing of a frequency reference do, in terms
of the clock settled at the call. The clock shown at the time it was settled is the clock it
was settled to, whatever the frequency from then on.
-/

namespace WsprryPico.Microchrony

open Engine

variable {K : Type} [Scalar K] {e : Engine K} {now : Nat}

namespace Engine

theorem advance_state : (e.advance now).frequencyReferenceState = e.frequencyReferenceState :=
  of_view advance_unclocked Engine.frequencyReferenceState fun _ => rfl

theorem advance_lastUpdate : (e.advance now).lastUpdateNs = e.lastUpdateNs :=
  of_view advance_unclocked Engine.lastUpdateNs fun _ => rfl

theorem advance_ratesApart (r : FrequencyReference) :
    (e.advance now).ratesApart r = e.ratesApart r :=
  of_view advance_unclocked (fun e => e.ratesApart r) fun _ => rfl

theorem admits_early {r : FrequencyReference} (h : e.admits r now = true) :
    e.early now = false := by
  simp only [admits, Bool.and_eq_true, Bool.not_eq_true'] at h
  exact h.2

/-- The clock settled, with a new frequency reference. -/
def consumed (e : Engine K) (r : FrequencyReference) (now : Nat) : Engine K :=
  { e.advance now with
    frequencyReference := r
    generation := e.generation + 1 }

/-- The network contradicts the rate of a reference. -/
def Contradicts (e : Engine K) (r : FrequencyReference) : Prop :=
  e.lastUpdateNs ≠ 0 ∧ e.ratesApart r = true

theorem consumed_contradicts (r : FrequencyReference) (now : Nat) :
    ((e.consumed r now).lastUpdateNs ≠ 0 ∧ (e.consumed r now).ratesApart r = true) ↔
      e.Contradicts r := by
  have hupdate : (e.consumed r now).lastUpdateNs = e.lastUpdateNs := advance_lastUpdate
  have hrates : (e.consumed r now).ratesApart r = e.ratesApart r := advance_ratesApart r
  rw [hupdate, hrates, Contradicts]

/-- An observation is refused, or consumed: contradicted, of too little quality, or taken. -/
theorem observe_cases (e : Engine K) (r : FrequencyReference) (now : Nat) :
    (e.admits r now = false ∧ e.observeFrequencyReference r now = (false, e)) ∨
    (e.admits r now = true ∧
      ((e.Contradicts r ∧ e.observeFrequencyReference r now =
          (false, { e.consumed r now with frequencyReferenceState := .disagreement })) ∨
        (¬ e.Contradicts r ∧ (e.observeFrequencyReference r now =
            (true, { e.consumed r now with frequencyReferenceState := .quality }) ∨
          e.observeFrequencyReference r now =
            (true, ((e.consumed r now).takeReference r).clampSlew))))) := by
  have hunfold : e.observeFrequencyReference r now =
      if !e.admits r now then (false, e)
      else if (e.consumed r now).lastUpdateNs ≠ 0 ∧ (e.consumed r now).ratesApart r then
        (false, { e.consumed r now with frequencyReferenceState := .disagreement })
      else if (e.consumed r now).lastUpdateNs ≠ 0 ∧
          (e.consumed r now).networkFrequencyUncertaintyPpb ≤ r.uncertaintyPpb then
        (true, { e.consumed r now with frequencyReferenceState := .quality })
      else (true, ((e.consumed r now).takeReference r).clampSlew) := rfl
  rw [hunfold]
  rcases hadmits : e.admits r now with - | -
  · exact .inl ⟨rfl, rfl⟩
  · refine .inr ⟨rfl, ?_⟩
    rw [← consumed_contradicts r now]
    simp only [Bool.not_true, Bool.false_eq_true, if_false]
    split_ifs with happart
    · exact .inl ⟨happart, rfl⟩
    · exact .inr ⟨happart, .inl rfl⟩
    · exact .inr ⟨happart, .inr rfl⟩

/-- The clock settled, with the reference expired. -/
def expired (e : Engine K) (now : Nat) : Engine K := (e.advance now).expireReference now

/-- The rate and the skew of the network alone. -/
def networkRate (e : Engine K) : K :=
  if e.lastUpdateNs ≠ 0 then (e.networkFrequencyPpb : K) / billion else 0

def networkSkew (e : Engine K) : K :=
  if e.lastUpdateNs ≠ 0 then (e.networkFrequencyUncertaintyPpb : K) / billion else 0

/-- The clock at the rate of the network alone. -/
def withoutReference (e : Engine K) : Engine K :=
  clampSlew
    { e with
      frequencyReferenceState := .none
      frequency := e.networkRate
      skew := e.networkSkew
      frequencySkew := e.networkSkew }

theorem clear_cases (e : Engine K) (now : Nat) :
    ((e.frequencyReferenceState = .none ∨ e.early now = true) ∧
      e.clearFrequencyReference now = e) ∨
    (e.early now = false ∧ e.clearFrequencyReference now =
      { (e.expired now).withoutReference with generation := (e.expired now).generation + 1 }) := by
  unfold clearFrequencyReference
  split_ifs with h
  · exact .inl ⟨h, rfl⟩
  · rw [not_or, Bool.not_eq_true] at h
    exact .inr ⟨h.2, rfl⟩

theorem retire_cases (e : Engine K) (now : Nat) :
    e.retireFrequencyReference now = e ∨
    (e.early now = false ∧ e.retireFrequencyReference now =
      { e.expired now with
        frequencySkew := max (e.expired now).frequencySkew (e.expired now).config.clockError
        generation := (e.expired now).generation + 1 }) := by
  unfold retireFrequencyReference
  split_ifs with h
  · exact .inl rfl
  · rw [not_or, not_or, not_or, Bool.not_eq_true] at h
    exact .inr ⟨h.2.2.1, rfl⟩

end Engine

variable {e' : Engine K}

/-! ## Times -/

section Ordered

variable [IsStrictOrderedRing K]

theorem billion_pos : (0 : K) < billion := by
  unfold billion
  norm_num

theorem llround_zero : llround (0 : K) = 0 := by
  unfold llround
  rw [if_pos (le_refl 0), zero_add, Int.floor_eq_zero_iff, Set.mem_Ico]
  constructor <;> norm_num

theorem addTime_zero (base : Nat) : addTime base (0 : K) = base := by
  have hsmall : ¬ (int64Max : K) / billion ≤ |0| := by
    rw [abs_zero, not_le]
    refine div_pos ?_ billion_pos
    exact_mod_cast (by decide : 0 < int64Max)
  unfold addTime
  rw [if_neg hsmall, zero_mul, llround_zero]
  simp

theorem llround_mono {x y : K} (h : x ≤ y) : llround x ≤ llround y := by
  unfold llround
  split_ifs with hx hy hy
  · exact Int.floor_le_floor (by linarith)
  · exact absurd (hx.trans h) hy
  · have hfloor : 0 ≤ ⌊-x + 1 / 2⌋ := Int.floor_nonneg.mpr (by linarith [not_le.mp hx])
    have hfloor' : 0 ≤ ⌊y + 1 / 2⌋ := Int.floor_nonneg.mpr (by linarith)
    omega
  · have hfloor : ⌊-y + 1 / 2⌋ ≤ ⌊-x + 1 / 2⌋ := Int.floor_le_floor (by linarith)
    omega

theorem llround_nonneg {x : K} (h : 0 ≤ x) : 0 ≤ llround x := by
  rw [← llround_zero (K := K)]
  exact llround_mono h

theorem llround_le {x : K} {n : Nat} (hx : 0 ≤ x) (h : x ≤ n) : llround x ≤ n := by
  unfold llround
  rw [if_pos hx, ← Int.lt_add_one_iff, Int.floor_lt]
  push_cast
  linarith

/-- A time moved forward, far from the largest. -/
theorem addTime_forward {base : Nat} {delta : K} (hdelta : 0 ≤ delta)
    (hbase : base < 2 ^ 63) (hsmall : delta * billion < int64Max) :
    addTime base delta = base + (llround (delta * billion)).toNat := by
  have hbound : ¬ (int64Max : K) / billion ≤ |delta| := by
    rw [abs_of_nonneg hdelta, not_le, lt_div_iff₀ billion_pos]
    exact hsmall
  have hnonneg : 0 ≤ delta * billion := mul_nonneg hdelta billion_pos.le
  have hround := llround_nonneg hnonneg
  have hle : llround (delta * billion) ≤ (int64Max : Nat) := llround_le hnonneg hsmall.le
  have hroom : (llround (delta * billion)).toNat ≤ uint64Max - base := by
    simp only [int64Max, uint64Max] at hle ⊢
    omega
  unfold addTime
  rw [if_neg hbound]
  rw [if_neg (not_lt.mpr hround), if_pos hroom]

theorem addTime_mono {base : Nat} {delta delta' : K} (hdelta : 0 ≤ delta) (h : delta ≤ delta')
    (hbase : base < 2 ^ 63) (hsmall : delta' * billion < int64Max) :
    addTime base delta ≤ addTime base delta' := by
  have hmul : delta * billion ≤ delta' * billion := mul_le_mul_of_nonneg_right h billion_pos.le
  rw [addTime_forward hdelta hbase (hmul.trans_lt hsmall),
    addTime_forward (hdelta.trans h) hbase hsmall]
  have hround := llround_mono hmul
  omega

end Ordered

theorem difference_self (a : Nat) : (difference a a : K) = 0 := by
  simp [difference]

/-! ## What is shown at the time of settlement -/

/-- What a tracking says with authority over transmissions. -/
def Tracking.authority (t : Tracking K) : Nat × Nat × Nat × Bool × Leap × Bool :=
  (t.utcNs, t.sourceRawNs, t.selected, t.referenceClock, t.leap, t.synchronized)

namespace Engine

/-- An engine without its frequency and its evidence of frequency. -/
def anchored (e : Engine K) : Engine K :=
  { e with
    frequency := 0
    skew := 0
    frequencySkew := 0
    slew := 0
    pendingPhase := 0
    generation := 0
    networkFrequencyPpb := 0
    networkFrequencyUncertaintyPpb := 0
    frequencyReference := {}
    frequencyReferenceState := .none }

/-- An engine without the clock and its frequency. -/
def settlement (e : Engine K) : Engine K := e.unclocked.anchored

theorem tracking_utc (hvalid : e.clockValid = true) (hle : e.clockRawNs ≤ now) :
    (e.tracking now).utcNs = addTime e.clockUtcNs
      (difference now e.clockRawNs * (1 + e.frequency) +
        e.slewed (difference now e.clockRawNs)) := by
  unfold tracking
  rw [if_neg (by simpa [hvalid] using hle)]
  rfl

def rootDistance (e : Engine K) (now : Nat) : K :=
  e.rootDelay / 2 + (e.rootDispersion + difference now e.dispersionRawNs * e.errorRate)

theorem tracking_synchronized (hvalid : e.clockValid = true) (hle : e.clockRawNs ≤ now) :
    (e.tracking now).synchronized = (e.selected.isSome && !e.referenceDisagreement &&
      (e.selected ≠ some referenceSlot ||
        (e.lastSourceRawNs ≤ now && now - e.lastSourceRawNs ≤ 5 * second)) &&
      e.leap ≠ .unsynchronized && e.rootDistance now ≤ e.config.maxDistance) := by
  unfold tracking
  rw [if_neg (by simpa [hvalid] using hle)]
  rfl

theorem advance_eq (hvalid : e.clockValid = true) (hle : e.clockRawNs ≤ now) :
    (e.advance now).clockRawNs = now ∧ (e.advance now).dispersionRawNs = now ∧
    (e.advance now).clockUtcNs = (e.tracking now).utcNs ∧
    (e.advance now).rootDispersion =
      e.rootDispersion + difference now e.dispersionRawNs * e.errorRate := by
  have hadvance : ¬ (¬ e.clockValid = true ∨ now < e.clockRawNs) := by simpa [hvalid] using hle
  rw [tracking_utc hvalid hle]
  unfold advance
  rw [if_neg hadvance]
  exact ⟨rfl, rfl, rfl, rfl⟩

theorem early_eq_false (h : e.early now = false) (hvalid : e.clockValid = true) :
    e.clockRawNs ≤ now := by
  simpa [early, hvalid] using h

/-- The number a tracking shows of the selected source. -/
def shownSlot (selected : Option Slot) : Nat :=
  match selected with
  | some slot => if slot = referenceSlot then sourceCapacity else slot
  | none => sourceCapacity

theorem authority_eq (e : Engine K) (now : Nat) :
    (e.tracking now).authority = ((e.tracking now).utcNs, e.lastSourceRawNs,
      shownSlot e.selected, decide (e.selected = some referenceSlot), e.leap,
      (e.tracking now).synchronized) := by
  unfold tracking Tracking.authority
  split_ifs <;> rfl

theorem tracking_invalid (h : e.clockValid = false) (now : Nat) :
    (e.tracking now).utcNs = 0 ∧ (e.tracking now).synchronized = false := by
  unfold tracking
  rw [if_pos (.inl (by simp [h]))]
  exact ⟨rfl, rfl⟩

variable [IsStrictOrderedRing K]

theorem slewed_zero : e.slewed 0 = 0 := by
  unfold slewed
  dsimp only
  rw [mul_zero, abs_zero, if_neg (not_lt.mpr (abs_nonneg _))]

/-- A clock settled at `now` shows then what it showed before, whatever its frequency. -/
theorem settled_authority (hearly : e.early now = false)
    (h : e'.anchored = (e.advance now).anchored) :
    (e'.tracking now).authority = (e.tracking now).authority := by
  have hview : e'.settlement = e.settlement := by
    have hadvance : (e.advance now).settlement = e.settlement := by
      unfold settlement
      rw [advance_unclocked]
    exact Eq.trans (congrArg unclocked h) hadvance
  have hselected := of_view hview Engine.selected fun _ => rfl
  have hsource := of_view hview Engine.lastSourceRawNs fun _ => rfl
  have hleap := of_view hview Engine.leap fun _ => rfl
  have hclock := of_view hview Engine.clockValid fun _ => rfl
  rw [authority_eq, authority_eq e, hsource, hselected, hleap]
  rcases hvalid : e.clockValid with - | -
  · obtain ⟨hutc, hsync⟩ := tracking_invalid hvalid now
    obtain ⟨hutc', hsync'⟩ := tracking_invalid (hclock.trans hvalid) now
    rw [hutc, hsync, hutc', hsync']
  · have hle := early_eq_false hearly hvalid
    have hvalid' := hclock.trans hvalid
    obtain ⟨hraw, hdispersionRaw, hutc, hdispersion⟩ := advance_eq hvalid hle
    have hraw' : e'.clockRawNs = now := (of_view h Engine.clockRawNs fun _ => rfl).trans hraw
    have hle' : e'.clockRawNs ≤ now := hraw'.le
    have hutc' : (e'.tracking now).utcNs = (e.tracking now).utcNs := by
      rw [tracking_utc hvalid' hle', hraw', difference_self, zero_mul, slewed_zero, add_zero,
        addTime_zero, ← hutc]
      exact of_view h Engine.clockUtcNs fun _ => rfl
    have hdistance : e'.rootDistance now = e.rootDistance now := by
      have hdelay := of_view hview Engine.rootDelay fun _ => rfl
      have hroot := of_view h Engine.rootDispersion fun _ => rfl
      have hdispersionRaw' := of_view h Engine.dispersionRawNs fun _ => rfl
      unfold rootDistance
      rw [hdelay, hroot, hdispersionRaw', hdispersionRaw, hdispersion, difference_self, zero_mul,
        add_zero]
    have hdisagreement := of_view hview Engine.referenceDisagreement fun _ => rfl
    have hconfig := of_view hview Engine.config fun _ => rfl
    rw [hutc', tracking_synchronized hvalid' hle', tracking_synchronized hvalid hle, hdistance,
      hselected, hsource, hleap, hdisagreement, hconfig]

end Engine

end WsprryPico.Microchrony
