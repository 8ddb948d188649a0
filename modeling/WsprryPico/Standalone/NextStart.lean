import WsprryPico.Standalone.Scheduler
import WsprryPico.Time.Durations

/-!
# The displayed start

The slot that `next_wspr_start` displays is the least start of a schedule that is two seconds ahead
and behind the watermark. A later poll selects no start before it, and selects it within the ten
seconds before it.
-/

namespace WsprryPico.Standalone

open Lib Time Wtp

/-! ## The starts of a schedule -/

namespace Schedule

def periodNs (s : Schedule) : Nat := s.periodS.toNat * 1000000000

/-- One second behind the phase. -/
def phaseNs (s : Schedule) : Nat := s.phaseS.toNat * 1000000000 + 1000000000

/-- A UTC nanosecond at which a frame of the schedule starts. -/
def Starts (s : Schedule) (t : Nat) : Prop := Recurs s.phaseNs s.periodNs t

variable {s : Schedule}

theorem WellFormed.phase_lt (h : s.WellFormed) : s.phaseNs < s.periodNs := by
  have hperiod := h.period
  have hphase := h.phase
  unfold phaseNs periodNs
  omega

theorem WellFormed.period_le (h : s.WellFormed) : s.periodNs ≤ 86400000000000 := by
  have hperiod := h.period
  unfold periodNs
  omega

theorem WellFormed.starts_mod (h : s.WellFormed) {t : Nat} (ht : s.Starts t) :
    t % 120000000000 = 1000000000 := by
  obtain ⟨k, rfl⟩ := ht
  obtain ⟨q, hq⟩ := Nat.dvd_of_mod_eq_zero h.period.2.2.1
  obtain ⟨r, hr⟩ := Nat.dvd_of_mod_eq_zero h.phase.2
  unfold phaseNs periodNs
  rw [hq, hr, show 120 * r * 1000000000 + 1000000000 + k * (120 * q * 1000000000) =
    1000000000 + (r + k * q) * 120000000000 by ring, Nat.add_mul_mod_self_right]

theorem WellFormed.toNat_period (h : s.WellFormed) :
    (s.periodS.toUInt64 * 1000000000).toNat = s.periodNs := by
  have hle := h.period_le
  rw [UInt64.toNat_mul, UInt32.toNat_toUInt64]
  unfold periodNs at hle ⊢
  show s.periodS.toNat * 1000000000 % 2 ^ 64 = _
  omega

theorem WellFormed.toNat_phase (h : s.WellFormed) :
    (s.phaseS.toUInt64 * 1000000000 + 1000000000).toNat = s.phaseNs := by
  have hlt := h.phase_lt
  have hle := h.period_le
  rw [UInt64.toNat_add, UInt64.toNat_mul, UInt32.toNat_toUInt64]
  unfold phaseNs at hlt ⊢
  show (s.phaseS.toNat * 1000000000 % 2 ^ 64 + 1000000000) % 2 ^ 64 = _
  omega

end Schedule

/-! ## The slots of `poll` and of `next_wspr_start` -/

namespace Scheduler

variable {schedule : Schedule} {now watermark : UInt64}

theorem toNat_sntpMax : sntpMaxUtcNs.toNat = 4102444800000000000 := by decide

theorem toNat_sntpMin : sntpMinUtcNs.toNat = 1735689600000000000 := by decide

theorem lt_sntpMax : now < sntpMaxUtcNs ↔ now.toNat < 4102444800000000000 := by
  rw [UInt64.lt_iff_toNat_lt, toNat_sntpMax]

theorem toNat_rounded (h : schedule.WellFormed) (x : UInt64)
    (hfits : x.toNat / schedule.periodNs * schedule.periodNs + schedule.phaseNs < 2 ^ 64) :
    (x / (schedule.periodS.toUInt64 * 1000000000) * (schedule.periodS.toUInt64 * 1000000000) +
      (schedule.phaseS.toUInt64 * 1000000000 + 1000000000)).toNat =
    x.toNat / schedule.periodNs * schedule.periodNs + schedule.phaseNs := by
  rw [UInt64.toNat_add, h.toNat_phase, UInt64.toNat_mul, UInt64.toNat_div, h.toNat_period]
  have hlt := x.toNat_lt
  have hle := Nat.div_mul_le_self x.toNat schedule.periodNs
  rw [Nat.mod_eq_of_lt (Nat.lt_of_le_of_lt hle hlt), Nat.mod_eq_of_lt hfits]

/-- The slot of a poll is the first start behind the time of the poll. -/
theorem pollSlot_eq (h : schedule.WellFormed) (hnow : now < sntpMaxUtcNs) :
    (pollSlot now schedule).toNat =
      nextTerm schedule.phaseNs schedule.periodNs (now.toNat + 1) := by
  have hphase := h.phase_lt
  have hperiod := h.period_le
  have hle := Nat.div_mul_le_self now.toNat schedule.periodNs
  rw [lt_sntpMax] at hnow
  have hslot := toNat_rounded h now (by omega)
  rw [← rounded_next hphase (Nat.le_add_right now.toNat 1) (Nat.le_refl _)]
  simp only [Nat.lt_add_one_iff]
  unfold pollSlot
  dsimp only
  by_cases hbelow : now.toNat / schedule.periodNs * schedule.periodNs + schedule.phaseNs ≤ now.toNat
  · rw [if_pos hbelow, if_pos (UInt64.le_iff_toNat_le.mpr (by rwa [hslot])),
      UInt64.toNat_add, hslot, h.toNat_period, Nat.mod_eq_of_lt (by omega)]
  · rw [if_neg hbelow, if_neg fun hle => hbelow ?_, hslot]
    rwa [UInt64.le_iff_toNat_le, hslot] at hle

theorem toNat_max (a b : UInt64) : (max a b).toNat = max a.toNat b.toNat := by
  rw [show max a b = if a ≤ b then b else a from rfl]
  split
  · rename_i h
    exact (Nat.max_eq_right (UInt64.le_iff_toNat_le.mp h)).symm
  · rename_i h
    exact (Nat.max_eq_left (Nat.le_of_not_le fun hle => h (UInt64.le_iff_toNat_le.mpr hle))).symm

/-- Two seconds ahead, and behind the watermark. -/
def earliest (now watermark : UInt64) : Nat := max (now.toNat + 2000000000) (watermark.toNat + 1)

theorem toNat_earliest (hnow : now < sntpMaxUtcNs) (hmark : watermark ≠ u64Max) :
    (max (now + 2000000000) (watermark + 1)).toNat = earliest now watermark := by
  rw [lt_sntpMax] at hnow
  have hlt := watermark.toNat_lt
  have hne : watermark.toNat ≠ 2 ^ 64 - 1 := fun h => hmark (UInt64.toNat_inj.mp h)
  have hsum : (now + 2000000000).toNat = now.toNat + 2000000000 := by
    rw [UInt64.toNat_add]
    exact Nat.mod_eq_of_lt (by show now.toNat + 2000000000 < 2 ^ 64; omega)
  have hsucc : (watermark + 1).toNat = watermark.toNat + 1 := by
    rw [UInt64.toNat_add]
    exact Nat.mod_eq_of_lt (by show watermark.toNat + 1 < 2 ^ 64; omega)
  rw [toNat_max, hsum, hsucc]
  rfl

/-- The displayed slot of a schedule is its first start that is late enough. -/
theorem nextSlot_eq (h : schedule.WellFormed) (hnow : now < sntpMaxUtcNs)
    (hmark : watermark ≠ u64Max) (hfits : earliest now watermark + 172800000000000 < 2 ^ 64) :
    (nextSlot now watermark schedule).toNat =
      nextTerm schedule.phaseNs schedule.periodNs (earliest now watermark) := by
  have hphase := h.phase_lt
  have hperiod := h.period_le
  have hearliest := toNat_earliest hnow hmark
  have hle := Nat.div_mul_le_self (earliest now watermark) schedule.periodNs
  have hslot := toNat_rounded h (max (now + 2000000000) (watermark + 1))
    (by rw [hearliest]; omega)
  rw [hearliest] at hslot
  rw [← rounded_next hphase (Nat.le_refl _) (Nat.le_succ _)]
  unfold nextSlot
  dsimp only
  by_cases hbelow : earliest now watermark / schedule.periodNs * schedule.periodNs +
      schedule.phaseNs < earliest now watermark
  · rw [if_pos hbelow, if_pos (UInt64.lt_iff_toNat_lt.mpr (by rwa [hslot, hearliest])),
      UInt64.toNat_add, hslot, h.toNat_period, Nat.mod_eq_of_lt (by omega)]
  · rw [if_neg hbelow, if_neg fun hlt => hbelow ?_, hslot]
    rwa [UInt64.lt_iff_toNat_lt, hslot, hearliest] at hlt

/-- Where the sums wrap, the slot is out of the range of the clock. -/
theorem nextSlot_wraps (h : schedule.WellFormed) (hnow : now < sntpMaxUtcNs)
    (hmark : watermark ≠ u64Max) (hwraps : 2 ^ 64 ≤ earliest now watermark + 172800000000000) :
    nextSlot now watermark schedule < sntpMinUtcNs ∨
      sntpMaxUtcNs ≤ nextSlot now watermark schedule := by
  have hphase := h.phase_lt
  have hperiod := h.period_le
  have hearliest := toNat_earliest hnow hmark
  have hlt := (max (now + 2000000000) (watermark + 1)).toNat_lt
  have hle := Nat.div_mul_le_self (earliest now watermark) schedule.periodNs
  have hgt := Nat.lt_div_mul_add (a := earliest now watermark) (Nat.zero_lt_of_lt hphase)
  rw [hearliest] at hlt
  have hslot : (nextSlot now watermark schedule).toNat = (earliest now watermark /
      schedule.periodNs * schedule.periodNs + schedule.phaseNs) % 2 ^ 64 ∨
      (nextSlot now watermark schedule).toNat = (earliest now watermark / schedule.periodNs *
        schedule.periodNs + schedule.phaseNs + schedule.periodNs) % 2 ^ 64 := by
    unfold nextSlot
    dsimp only
    split
    · refine .inr ?_
      rw [UInt64.toNat_add, UInt64.toNat_add, UInt64.toNat_mul, UInt64.toNat_div, hearliest,
        h.toNat_phase, h.toNat_period, Nat.mod_eq_of_lt (Nat.lt_of_le_of_lt hle hlt),
        Nat.mod_add_mod]
    · refine .inl ?_
      rw [UInt64.toNat_add, UInt64.toNat_mul, UInt64.toNat_div, hearliest,
        h.toNat_phase, h.toNat_period, Nat.mod_eq_of_lt (Nat.lt_of_le_of_lt hle hlt)]
  rw [UInt64.lt_iff_toNat_lt, UInt64.le_iff_toNat_le, toNat_sntpMin, toNat_sntpMax]
  generalize earliest now watermark / schedule.periodNs * schedule.periodNs = low at *
  rcases hslot with hslot | hslot <;> rw [hslot] <;> omega

/-! ## The candidates -/

/-- A loop that keeps the least of the values it takes. -/
theorem foldl_least {α : Type} {step : UInt64 → α → UInt64} {p : α → Prop} {f : α → UInt64}
    (htake : ∀ c x, p x → step c x = min c (f x)) (hskip : ∀ c x, ¬ p x → step c x = c)
    (l : List α) (top : UInt64) :
    l.foldl step top ≤ top ∧ (∀ x ∈ l, p x → l.foldl step top ≤ f x) ∧
      (l.foldl step top = top ∨ ∃ x ∈ l, p x ∧ l.foldl step top = f x) := by
  induction l generalizing top with
  | nil => exact ⟨UInt64.le_refl top, by simp, .inl rfl⟩
  | cons x rest ih =>
    rw [List.foldl_cons]
    obtain ⟨htop, hall, hfrom⟩ := ih (step top x)
    by_cases hx : p x
    · rw [htake top x hx] at htop hall hfrom ⊢
      refine ⟨UInt64.le_trans htop Std.min_le_left, ?_, ?_⟩
      · rw [List.forall_mem_cons]
        exact ⟨fun _ => UInt64.le_trans htop Std.min_le_right, hall⟩
      · rcases hfrom with hfrom | ⟨y, hy, hp, hfrom⟩
        · rcases Std.MinEqOr.min_eq_or top (f x) with hmin | hmin
          · exact .inl (hfrom.trans hmin)
          · exact .inr ⟨x, List.mem_cons_self, hx, hfrom.trans hmin⟩
        · exact .inr ⟨y, List.mem_cons_of_mem x hy, hp, hfrom⟩
    · rw [hskip top x hx] at htop hall hfrom ⊢
      refine ⟨htop, List.forall_mem_cons.mpr ⟨fun h => absurd h hx, hall⟩, hfrom.imp_right ?_⟩
      rintro ⟨y, hy, hp, hfrom⟩
      exact ⟨y, List.mem_cons_of_mem x hy, hp, hfrom⟩

variable {schedules : List Schedule}

theorem pollCandidate_spec (now watermark : UInt64) (schedules : List Schedule) :
    (∀ x ∈ schedules, watermark < pollSlot now x →
      pollCandidate now watermark schedules ≤ pollSlot now x) ∧
    (pollCandidate now watermark schedules = u64Max ∨ ∃ x ∈ schedules,
      watermark < pollSlot now x ∧ pollCandidate now watermark schedules = pollSlot now x) :=
  (foldl_least (fun _ _ hx => if_pos hx) (fun _ _ hx => if_neg hx) schedules u64Max).2

theorem nextCandidate_spec (now watermark : UInt64) {schedules : List Schedule}
    (h : ∀ x ∈ schedules, x.WellFormed) :
    (∀ x ∈ schedules, nextCandidate now watermark schedules ≤ nextSlot now watermark x) ∧
    (nextCandidate now watermark schedules = u64Max ∨ ∃ x ∈ schedules,
      nextCandidate now watermark schedules = nextSlot now watermark x) := by
  have hspec : (∀ x ∈ schedules, x.periodS.toUInt64 * 1000000000 ≠ 0 →
      nextCandidate now watermark schedules ≤ nextSlot now watermark x) ∧
      (nextCandidate now watermark schedules = u64Max ∨ ∃ x ∈ schedules,
        x.periodS.toUInt64 * 1000000000 ≠ 0 ∧
        nextCandidate now watermark schedules = nextSlot now watermark x) :=
    (foldl_least (fun _ _ hx => if_neg hx) (fun _ _ hx => if_pos (not_not.mp hx)) schedules
      u64Max).2
  obtain ⟨hall, hfrom⟩ := hspec
  refine ⟨fun x hx => hall x hx fun hzero => ?_, hfrom.imp_right ?_⟩
  · have hpos := Nat.zero_lt_of_lt (h x hx).phase_lt
    rw [← (h x hx).toNat_period, hzero] at hpos
    exact absurd hpos (by decide)
  · rintro ⟨x, hx, -, heq⟩
    exact ⟨x, hx, heq⟩

/-- A start that is late enough is not before the displayed candidate. -/
theorem nextCandidate_le (h : ∀ x ∈ schedules, x.WellFormed) (hnow : now < sntpMaxUtcNs)
    {x : Schedule} (hx : x ∈ schedules) {t : Nat} (ht : x.Starts t)
    (hlead : now.toNat + 2000000000 ≤ t) (hmark : watermark.toNat < t) (hrange : t < 2 ^ 63) :
    (nextCandidate now watermark schedules).toNat ≤ t := by
  have hle : earliest now watermark ≤ t := Nat.max_le.mpr ⟨hlead, hmark⟩
  have hne : watermark ≠ u64Max := by
    rintro rfl
    exact absurd (Nat.lt_trans hmark hrange) (by decide)
  refine Nat.le_trans
    (UInt64.le_iff_toNat_le.mp ((nextCandidate_spec now watermark h).1 x hx)) ?_
  rw [nextSlot_eq (h x hx) hnow hne (by omega)]
  exact nextTerm_le ht hle

/-- A displayed candidate within the range of the clock is a start that is late enough. -/
theorem nextCandidate_starts (h : ∀ x ∈ schedules, x.WellFormed) (hnow : now < sntpMaxUtcNs)
    (hne : watermark ≠ u64Max) (hmin : sntpMinUtcNs ≤ nextCandidate now watermark schedules)
    (hmax : nextCandidate now watermark schedules < sntpMaxUtcNs) :
    ∃ x ∈ schedules, x.Starts (nextCandidate now watermark schedules).toNat ∧
      watermark < nextCandidate now watermark schedules := by
  rcases (nextCandidate_spec now watermark h).2 with htop | ⟨x, hx, heq⟩
  · rw [htop] at hmax
    exact absurd hmax (by decide)
  · have hfits : earliest now watermark + 172800000000000 < 2 ^ 64 := by
      by_contra hwraps
      rw [heq] at hmin hmax
      rcases nextSlot_wraps (h x hx) hnow hne (Nat.le_of_not_lt hwraps) with hlow | hhigh
      · exact UInt64.not_le.mpr hlow hmin
      · exact UInt64.not_lt.mpr hhigh hmax
    have hslot := nextSlot_eq (h x hx) hnow hne hfits
    have hbound : earliest now watermark ≤
        nextTerm x.phaseNs x.periodNs (earliest now watermark) :=
      bound_le_nextTerm (Nat.zero_lt_of_lt (h x hx).phase_lt)
    refine ⟨x, hx, ?_, ?_⟩
    · rw [heq, hslot]
      exact nextTerm_recurs _ _ _
    · rw [heq, UInt64.lt_iff_toNat_lt, hslot]
      exact Nat.lt_of_lt_of_le (Nat.lt_of_lt_of_le (Nat.lt_succ_self _) (Nat.le_max_right _ _))
        hbound

/-- What a poll takes is a start that is ahead of it and behind the watermark. -/
theorem pollCandidate_starts (h : ∀ x ∈ schedules, x.WellFormed) (hnow : now < sntpMaxUtcNs)
    (htop : pollCandidate now watermark schedules ≠ u64Max) :
    ∃ x ∈ schedules, x.Starts (pollCandidate now watermark schedules).toNat ∧
      now < pollCandidate now watermark schedules ∧
      watermark < pollCandidate now watermark schedules := by
  obtain ⟨x, hx, hmark, heq⟩ := (pollCandidate_spec now watermark schedules).2.resolve_left htop
  have hslot := pollSlot_eq (h x hx) hnow
  refine ⟨x, hx, ?_, ?_, heq ▸ hmark⟩
  · rw [heq, hslot]
    exact nextTerm_recurs _ _ _
  · rw [heq, UInt64.lt_iff_toNat_lt, hslot]
    exact bound_le_nextTerm (Nat.zero_lt_of_lt (h x hx).phase_lt)

/-- Within the ten seconds before a start that is behind the watermark a poll takes it. -/
theorem pollCandidate_eq (h : ∀ x ∈ schedules, x.WellFormed) (hnow : now < sntpMaxUtcNs)
    {x : Schedule} (hx : x ∈ schedules) {t : UInt64} (ht : x.Starts t.toNat)
    (hmark : watermark < t) (hahead : now < t) (hnear : t.toNat ≤ now.toNat + 10000000000) :
    pollCandidate now watermark schedules = t := by
  have hahead : now.toNat < t.toNat := UInt64.lt_iff_toNat_lt.mp hahead
  have hrange := lt_sntpMax.mp hnow
  -- the starts of all schedules are two minutes apart
  have hsame : ∀ {y : Schedule} {u : UInt64}, y ∈ schedules → y.Starts u.toNat →
      now.toNat < u.toNat → u ≤ t → u = t := by
    intro y u hy hu hlow hhigh
    have hmod := (h x hx).starts_mod ht
    have hmod' := (h y hy).starts_mod hu
    have hhigh : u.toNat ≤ t.toNat := UInt64.le_iff_toNat_le.mp hhigh
    exact UInt64.toNat_inj.mp (by omega)
  have hslot : pollSlot now x = t := by
    have heq := pollSlot_eq (h x hx) hnow
    refine hsame hx ?_ ?_ ?_
    · rw [heq]
      exact nextTerm_recurs _ _ _
    · rw [heq]
      exact bound_le_nextTerm (Nat.zero_lt_of_lt (h x hx).phase_lt)
    · rw [UInt64.le_iff_toNat_le, heq]
      exact nextTerm_le ht hahead
  have hle : pollCandidate now watermark schedules ≤ t := by
    rw [← hslot] at hmark ⊢
    exact (pollCandidate_spec now watermark schedules).1 x hx hmark
  have htop : pollCandidate now watermark schedules ≠ u64Max := by
    intro htop
    rw [htop, UInt64.le_iff_toNat_le, show u64Max.toNat = 2 ^ 64 - 1 from rfl] at hle
    omega
  obtain ⟨y, hy, hstarts, hlow, -⟩ := pollCandidate_starts h hnow htop
  exact hsame hy hstarts (UInt64.lt_iff_toNat_lt.mp hlow) hle

/-! ## The end of a plan -/

/-- The bound on a frame, at rates within their limits. -/
theorem frame_bound {clock : ClockSnapshot} {duration : UInt64}
    (h : durationUtcBound frameDuration clock = some duration) :
    110592000000 ≤ duration.toNat ∧ duration.toNat ≤ 143769600000 := by
  have hspec := durationUtcBound_spec h
  obtain ⟨hlow, hhigh⟩ := fastestTicks_bounds h
  have hframe : (frameDuration.toNat : Int) = 110592000000 := rfl
  rw [hframe] at hspec
  have hup := (ticksUp_le (n := fastestTicks clock) (by decide : (0 : Int) < 1000000000)).mp
    hspec.ge
  have hdown : ticksUp (fastestTicks clock) 1000000000 110592000000 ≤ 143769600000 :=
    (ticksUp_le (by decide)).mpr (by omega)
  omega

theorem plan_count {station : WsprConfig} {p : Encoding.WsprPlan} (h : plan station = some p) :
    p.frames.length = 1 ∨ p.frames.length = 2 := by
  unfold plan Encoding.wsprPlan at h
  split at h
  · cases h
  · split at h
    · dsimp only at h
      split_ifs at h
      cases h
      exact .inl rfl
    · split at h
      · cases h
        exact .inl rfl
      · split at h
        · cases h
          by_cases hlength : station.locator.length = 6
          · exact .inr (by simp [hlength])
          · exact .inl (by simp [hlength])
        · cases h

theorem pollFinalSlot_some {now : ClockSnapshot} {expires t finalSlot : UInt64} {count : Nat}
    (h : pollFinalSlot now expires t count = some finalSlot) :
    finalSlot = t + UInt64.ofNat (count - 1) * slotDuration := by
  unfold pollFinalSlot at h
  dsimp only at h
  cases hduration : durationUtcBound frameDuration now with
  | none =>
    rw [hduration] at h
    cases h
  | some duration =>
    rw [hduration] at h
    dsimp only at h
    split_ifs at h <;> exact (Option.some.inj h).symm

/-- What the display admits before the clock ends and the schedules expire, a poll admits. -/
theorem pollFinalSlot_of_nextAdmits {now now' : ClockSnapshot} {expires t : UInt64} {count : Nat}
    (hcount : count = 1 ∨ count = 2)
    (hbound : durationUtcBound frameDuration now' = durationUtcBound frameDuration now)
    (h : nextAdmits now expires t count = true)
    (hend : count = 2 → ∀ duration, durationUtcBound frameDuration now' = some duration →
      (inverse now' (t + slotDuration + (duration + 999999999))).isSome = true) :
    t < sntpMaxUtcNs ∧ ∃ finalSlot, pollFinalSlot now' expires t count = some finalSlot ∧
      finalSlot.toNat = t.toNat + (count - 1) * 120000000000 := by
  have hlead : (UInt64.ofNat (count - 1) * slotDuration).toNat = (count - 1) * 120000000000 := by
    rcases hcount with rfl | rfl <;> rfl
  have hspan : (count - 1) * 120000000000 ≤ 120000000000 := by omega
  have hpad : (if count = 2 then (999999999 : UInt64) else 0).toNat ≤ 999999999 := by
    rcases hcount with rfl | rfl <;> decide
  unfold nextAdmits at h
  split at h
  · cases h
  cases hduration : durationUtcBound frameDuration now with
  | none =>
    rw [hduration] at h
    cases h
  | some duration =>
    obtain ⟨hlow, hhigh⟩ := frame_bound hduration
    have hend := fun htwo => hend htwo duration (hbound.trans hduration)
    rw [hduration] at h
    have h := of_decide_eq_true h
    simp only [not_or, UInt64.not_le, UInt64.not_lt, ge_iff_le, gt_iff_lt] at h
    obtain ⟨hclock, htail, hexpiry⟩ := h
    have hrange := lt_sntpMax.mp hclock
    -- the tail behind the first slot, and the one behind the last slot
    have htail' : (duration + if count = 2 then 999999999 else 0).toNat =
        duration.toNat + (if count = 2 then (999999999 : UInt64) else 0).toNat := by
      rw [UInt64.toNat_add]
      exact Nat.mod_eq_of_lt (by omega)
    have hsum : (UInt64.ofNat (count - 1) * slotDuration + duration +
        if count = 2 then 999999999 else 0).toNat =
        (count - 1) * 120000000000 + (duration + if count = 2 then 999999999 else 0).toNat := by
      rw [UInt64.add_assoc, UInt64.toNat_add, hlead]
      exact Nat.mod_eq_of_lt (by omega)
    have hfinal : (t + UInt64.ofNat (count - 1) * slotDuration).toNat =
        t.toNat + (count - 1) * 120000000000 := by
      rw [UInt64.toNat_add, hlead]
      exact Nat.mod_eq_of_lt (by omega)
    rw [UInt64.le_iff_toNat_le, hsum, UInt64.toNat_sub_of_le _ _ (UInt64.le_of_lt hclock),
      toNat_sntpMax] at htail
    refine ⟨hclock, t + UInt64.ofNat (count - 1) * slotDuration, ?_, hfinal⟩
    unfold pollFinalSlot
    rw [hbound, hduration]
    dsimp only
    rw [if_neg, if_neg]
    · rintro ⟨rfl, hover | hnone⟩
      · rw [gt_iff_lt, UInt64.lt_iff_toNat_lt, hfinal, UInt64.toNat_sub_of_le _ _ ?_,
          toNat_sntpMax] at hover
        · omega
        · rw [UInt64.le_iff_toNat_le, toNat_sntpMax]
          omega
      · rw [show UInt64.ofNat (2 - 1) * slotDuration = slotDuration from rfl, if_pos rfl,
          Option.isNone_iff_eq_none] at hnone
        simp [hnone] at hend
    · rintro ⟨hne, hlate⟩
      have hzero : expires ≠ 0 := fun hzero => hne (by rw [hzero]; rfl)
      have hin := not_or.mp fun h => hexpiry ⟨hzero, h⟩
      rw [UInt64.not_le, UInt64.not_lt] at hin
      obtain ⟨hbefore, hroom⟩ := hin
      rw [UInt64.le_iff_toNat_le, hsum, UInt64.toNat_sub_of_le _ _ (UInt64.le_of_lt hbefore)]
        at hroom
      rw [UInt64.lt_iff_toNat_lt] at hbefore
      rcases hlate with hlate | hlate
      · rw [ge_iff_le, UInt64.le_iff_toNat_le, hfinal] at hlate
        omega
      · rw [UInt64.lt_iff_toNat_lt, UInt64.toNat_sub_of_le _ _ ?_, hfinal] at hlate
        · omega
        · rw [UInt64.le_iff_toNat_le, hfinal]
          omega

/-! ## What stays between the display and a poll -/

section Kept

variable {π : Type} (gps : Gps π)

/-- A poll may start a frame. -/
structure Ready (s : Scheduler π) : Prop where
  healthy : s.healthy = true
  maintenance : s.maintenance = false
  message : s.pollMessage = false
  pair : s.pair = false
  reboot : s.rebootRequired = false
  suspended : s.suspended = false
  idle : s.idle = true
  clock : clockReady s.clock s.service = true

/-- The configuration, the station, the watermark, the rate and the daylight at the slot stay, and
the clock goes forward. -/
structure Kept (s s' : Scheduler π) (t : UInt64) : Prop where
  config : s'.config = s.config
  station : ∀ c, s'.stationSnapshot gps c = s.stationSnapshot gps c
  watermark : s'.watermark = s.watermark
  rate : s'.clock.ratePpb = s.clock.ratePpb
  subsequentRate : s'.clock.subsequentRatePpb = s.clock.subsequentRatePpb
  rateUncertainty : s'.clock.rateUncertaintyPpb = s.clock.rateUncertaintyPpb
  daylight : s'.daylightAllowed gps t s'.clock.monotonicNowNs =
    s.daylightAllowed gps t s.clock.monotonicNowNs
  forward : s.clock.utcNowNs ≤ s'.clock.utcNowNs

/-- Where the plan has two frames, the mapping has a raw time for the end of the second one of a
pair that begins at `t`. -/
def EndProjected (s : Scheduler π) (t : UInt64) : Prop :=
  ∀ c p, s.config = some c → (s.stationSnapshot gps c).bind plan = some p →
    p.frames.length = 2 → ∀ duration, durationUtcBound frameDuration s.clock = some duration →
      (inverse s.clock (t + slotDuration + (duration + 999999999))).isSome = true

variable {gps} {s s' : Scheduler π} {t : UInt64}

theorem Kept.bound (h : Kept gps s s' t) :
    durationUtcBound frameDuration s'.clock = durationUtcBound frameDuration s.clock := by
  unfold durationUtcBound
  rw [h.rate, h.subsequentRate, h.rateUncertainty]

theorem clockReady_lt {now : ClockSnapshot} {config : ServiceConfig}
    (h : clockReady now config = true) :
    sntpMinUtcNs ≤ now.utcNowNs ∧ now.utcNowNs < sntpMaxUtcNs := by
  exact (of_decide_eq_true h).2.2.2.2

/-- What a displayed start says. -/
structure Displayed (gps : Gps π) (s : Scheduler π) (c station : WsprConfig)
    (p : Encoding.WsprPlan) (t : UInt64) : Prop where
  config : s.config = some c
  enabled : c.enabled = true
  clock : clockReady s.clock s.service = true
  dial : c.wsprDialFrequencyHz.isSome = true
  snapshot : s.stationSnapshot gps c = some station
  planned : Scheduler.plan station = some p
  candidate : nextCandidate s.clock.utcNowNs s.watermark c.schedules = t
  admits : nextAdmits s.clock c.expiresUtcS t p.frames.length = true
  daylight : s.daylightAllowed gps t s.clock.monotonicNowNs = true

theorem displayed (h : s.nextWsprStart gps = some t) :
    ∃ c station p, Displayed gps s c station p t := by
  unfold nextWsprStart at h
  split at h
  · cases h
  rename_i c hconfig
  split at h
  · cases h
  rename_i hflags
  split at h
  · cases h
  rename_i hdial
  split at h
  · cases h
  rename_i p hplan
  dsimp only at h
  split at h
  · cases h
  rename_i hadmits
  split at h
  · cases h
  rename_i hdaylight
  obtain ⟨station, hstation, hplan⟩ := Option.bind_eq_some_iff.mp hplan
  cases h
  simp only [Bool.or_eq_true, Bool.not_eq_true', not_or, Bool.not_eq_false] at hflags
  simp only [Bool.not_eq_true', Bool.not_eq_false] at hadmits hdaylight
  refine ⟨c, station, p, hconfig, ?_, ?_, ?_, hstation, hplan, rfl, hadmits, hdaylight⟩
  · exact hflags.1.1.1.1.1.1.2
  · exact hflags.1.1.1.2
  · rwa [Bool.not_eq_true, Option.isNone_eq_false_iff] at hdial

theorem select_ok {selection : Selection} (h : s.select gps = .ok selection) :
    ∃ c, s.config = some c ∧ clockReady s.clock s.service = true ∧
      pollCandidate s.clock.utcNowNs s.watermark c.schedules = selection.slot ∧
      s.clock.utcNowNs < selection.slot ∧
      2000000000 ≤ selection.slot - s.clock.utcNowNs ∧
      selection.slot - s.clock.utcNowNs ≤ 10000000000 ∧
      pollFinalSlot s.clock c.expiresUtcS selection.slot selection.plan.frames.length =
        some selection.finalSlot ∧
      (selection.plan.frames.length = 1 ∨ selection.plan.frames.length = 2) := by
  unfold select at h
  split at h
  · cases h
  rename_i c hconfig
  split at h
  · cases h
  split at h
  · cases h
  rename_i hclock
  dsimp only at h
  split at h
  · cases h
  rename_i hwindow
  simp only [not_or, UInt64.not_le, UInt64.not_lt, gt_iff_lt] at hwindow
  unfold pollStation at h
  split at h
  · cases h
  split at h
  · cases h
  split at h
  · cases h
  split at h
  · cases h
  rename_i hplan
  split at h
  · cases h
  rename_i hfinal
  cases h
  exact ⟨c, hconfig, by simpa using hclock, rfl, hwindow.1, hwindow.2.2, hwindow.2.1, hfinal,
    plan_count hplan⟩

theorem poll_some {a : Answers} {selection : Selection}
    (h : (s.poll gps a).2 = some selection) : s.select gps = .ok selection := by
  unfold poll at h
  split at h
  · cases h
  split at h
  · cases h
  · cases h
  · rename_i chosen hselect
    split at h
    · cases h
    split at h
    · cases h
    unfold reserve at h
    split at h
    · cases h
    split at h
    · cases h
    · cases h
      exact hselect

theorem next_le_select (hnext : s.nextWsprStart gps = some t) (hkept : Kept gps s s' t)
    {selection : Selection} (h : s'.select gps = .ok selection) :
    t ≤ selection.slot ∧ selection.slot ≤ selection.finalSlot := by
  obtain ⟨c, station, p, hdisplay⟩ := displayed hnext
  obtain ⟨c', hconfig, hclock, hcandidate, hahead, hlead, hnear, hfinal, hcount⟩ := select_ok h
  obtain rfl : c = c' :=
    Option.some.inj (hdisplay.config.symm.trans (hkept.config.symm.trans hconfig))
  have hnow := (clockReady_lt hclock).2
  have hrange := lt_sntpMax.mp hnow
  have hforward := UInt64.le_iff_toNat_le.mp hkept.forward
  rw [UInt64.le_iff_toNat_le, UInt64.toNat_sub_of_le _ _ (UInt64.le_of_lt hahead)] at hlead hnear
  have hlead : 2000000000 ≤ selection.slot.toNat - s'.clock.utcNowNs.toNat := hlead
  have hnear : selection.slot.toNat - s'.clock.utcNowNs.toNat ≤ 10000000000 := hnear
  have htop : pollCandidate s'.clock.utcNowNs s'.watermark c.schedules ≠ u64Max := by
    rw [hcandidate]
    rintro htop
    rw [htop, show u64Max.toNat = 2 ^ 64 - 1 from rfl] at hnear
    omega
  obtain ⟨x, hx, hstarts, hlater, hmark⟩ := pollCandidate_starts c.wellFormed hnow htop
  rw [hcandidate] at hstarts hlater hmark
  rw [hkept.watermark, UInt64.lt_iff_toNat_lt] at hmark
  refine ⟨?_, ?_⟩
  · rw [UInt64.le_iff_toNat_le, ← hdisplay.candidate]
    exact nextCandidate_le c.wellFormed (clockReady_lt hdisplay.clock).2 hx hstarts (by omega) hmark
      (by omega)
  · rw [pollFinalSlot_some hfinal, UInt64.le_iff_toNat_le, UInt64.toNat_add]
    rcases hcount with hcount | hcount <;> rw [hcount]
    · exact Nat.le_of_eq (Nat.mod_eq_of_lt selection.slot.toNat_lt).symm
    · show selection.slot.toNat ≤ (selection.slot.toNat + 120000000000) % 2 ^ 64
      omega

theorem tones_isSome {c : WsprConfig} (h : c.wsprDialFrequencyHz.isSome = true) :
    (c.wsprDialFrequencyHz.bind fun dial => wsprTones dial.toUInt64).isSome = true := by
  obtain ⟨dial, hdial⟩ := Option.isSome_iff_exists.mp h
  obtain ⟨hlow, hhigh⟩ := c.dialRange dial hdial
  have hlow : 6503 ≤ dial.toNat := UInt32.le_iff_toNat_le.mp hlow
  have hhigh : dial.toNat ≤ 159998496 := UInt32.le_iff_toNat_le.mp hhigh
  rw [hdial, Option.bind_some]
  unfold wsprTones
  rw [if_neg]
  · rfl
  · rintro (hzero | hover)
    · rw [← UInt64.toNat_inj, UInt32.toNat_toUInt64] at hzero
      have hzero : dial.toNat = 0 := hzero
      omega
    · rw [gt_iff_lt, UInt64.lt_iff_toNat_lt, UInt32.toNat_toUInt64, show
        ((u64Max - (audioOffsetNhz + centerToTone0Nhz)) / 1000000000).toNat = 18446742571 by
          decide] at hover
      omega

/-- Between ten and two seconds before the displayed start a poll selects it. -/
theorem select_next (hnext : s.nextWsprStart gps = some t) (hkept : Kept gps s s' t)
    (hready : Ready s') (hmark : s.watermark ≠ u64Max) (hend : EndProjected gps s' t)
    (hlead : s'.clock.utcNowNs.toNat + 2000000000 ≤ t.toNat)
    (hnear : t.toNat ≤ s'.clock.utcNowNs.toNat + 10000000000) :
    ∃ selection, s'.select gps = .ok selection ∧ selection.slot = t ∧
      s'.watermark < selection.finalSlot := by
  obtain ⟨c, station, p, hdisplay⟩ := displayed hnext
  obtain ⟨hmin, hnow⟩ := clockReady_lt hready.clock
  have hrange := lt_sntpMax.mp hnow
  have hcount := plan_count hdisplay.planned
  obtain ⟨htmax, finalSlot, hfinal, hlast⟩ := pollFinalSlot_of_nextAdmits hcount hkept.bound
    hdisplay.admits (hend c p (hkept.config.trans hdisplay.config) (by
      rw [hkept.station, hdisplay.snapshot, Option.bind_some, hdisplay.planned]))
  have htmin : sntpMinUtcNs ≤ t := by
    rw [UInt64.le_iff_toNat_le] at hmin ⊢
    omega
  have hcandidate := hdisplay.candidate
  obtain ⟨x, hx, hstarts, hlater⟩ := nextCandidate_starts c.wellFormed
    (clockReady_lt hdisplay.clock).2 hmark (hcandidate ▸ htmin) (hcandidate ▸ htmax)
  rw [hcandidate] at hstarts hlater
  have hahead : s'.clock.utcNowNs < t := UInt64.lt_iff_toNat_lt.mpr (by omega)
  have hpoll : pollCandidate s'.clock.utcNowNs s'.watermark c.schedules = t :=
    pollCandidate_eq c.wellFormed hnow hx hstarts (hkept.watermark ▸ hlater) hahead hnear
  obtain ⟨tones, htones⟩ := Option.isSome_iff_exists.mp (tones_isSome hdisplay.dial)
  refine ⟨⟨t, finalSlot, p, tones⟩, ?_, rfl, ?_⟩
  · unfold select
    rw [hkept.config, hdisplay.config]
    dsimp only
    rw [if_neg, if_neg, hpoll, if_neg]
    · unfold pollStation
      rw [htones, hkept.station, hdisplay.snapshot]
      dsimp only
      rw [hkept.daylight, hdisplay.daylight, hdisplay.planned]
      dsimp only
      rw [hfinal]
      rfl
    · rw [not_or, not_or, UInt64.not_le, gt_iff_lt, UInt64.not_lt, UInt64.not_lt,
        UInt64.le_iff_toNat_le, UInt64.le_iff_toNat_le,
        UInt64.toNat_sub_of_le _ _ (UInt64.le_of_lt hahead)]
      refine ⟨hahead, ?_, ?_⟩
      · show _ ≤ 10000000000
        omega
      · show 2000000000 ≤ _
        omega
    · simp [hready.clock]
    · simp [hready.healthy, hdisplay.enabled, hready.reboot, hready.suspended, hready.idle]
  · rw [hkept.watermark, UInt64.lt_iff_toNat_lt]
    rw [UInt64.lt_iff_toNat_lt] at hlater
    show _ < finalSlot.toNat
    omega

/-- As long as configuration, station, watermark, rate and daylight stay and the clock goes
forward, no poll reserves a slot before the displayed start; and a poll that may start a frame
between ten and two seconds before it selects it, and reserves it where the claim and the write
succeed. -/
theorem next_start_selected (hnext : s.nextWsprStart gps = some t) (hkept : Kept gps s s' t) :
    (∀ a selection, (s'.poll gps a).2 = some selection →
      t ≤ selection.slot ∧ selection.slot ≤ selection.finalSlot) ∧
    (Ready s' → s.watermark ≠ u64Max → EndProjected gps s' t →
      s'.clock.utcNowNs.toNat + 2000000000 ≤ t.toNat →
      t.toNat ≤ s'.clock.utcNowNs.toNat + 10000000000 →
      ∃ selection, s'.select gps = .ok selection ∧ selection.slot = t ∧
        ∀ a : Answers, a.hello = true → a.claim = none → a.durable = true →
          (s'.poll gps a).2 = some selection ∧
          (s'.poll gps a).1.watermark = selection.finalSlot) := by
  refine ⟨fun a selection h => next_le_select hnext hkept (poll_some h),
    fun hready hmark hend hlead hnear => ?_⟩
  obtain ⟨selection, hselect, hslot, hfinal⟩ :=
    select_next hnext hkept hready hmark hend hlead hnear
  refine ⟨selection, hselect, hslot, fun a hhello hclaim hdurable => ?_⟩
  have hflight : s'.messageInFlight = false := by
    have hmessage := hready.message
    simp only [pollMessage, messageRecoveryRequired, Bool.or_eq_false_iff, Bool.and_eq_false_iff,
      Bool.not_eq_false'] at hmessage
    obtain ⟨⟨⟨hjob, -⟩, -, hflight⟩, -⟩ := hmessage
    exact hflight.resolve_right fun hjob' => by simp [hjob] at hjob'
  have hpoll : s'.poll gps a = s'.reserve a selection := by
    unfold poll
    rw [hready.maintenance, hready.message, hready.pair, hselect, hhello, hclaim]
    rfl
  have hguard : (!s'.healthy || s'.messageInFlight || decide (selection.finalSlot ≤ s'.watermark)) =
      false := by
    rw [hready.healthy, hflight, decide_eq_false (UInt64.not_le.mpr hfinal)]
    rfl
  rw [hpoll]
  unfold reserve
  rw [hguard, hdurable]
  exact ⟨rfl, rfl⟩

end Kept

/-! ## A display and its poll -/

/-- A call of one frame, every ten minutes. -/
def shownConfig : WsprConfig where
  enabled := true
  wsprDialFrequencyHz := some 14095600
  callsign := [75, 49, 65, 66, 67]
  locator := [70, 78, 52, 50]
  powerDbm := 37
  schedules := [⟨600, 0⟩]
  dialRange f hf := by
    obtain rfl := Option.mem_some_iff.mp hf
    decide
  expiryRange := .inl rfl
  wellFormed := by
    rw [List.forall_mem_singleton]
    exact ⟨by decide, by decide⟩

def noGps : Gps Unit := ⟨fun _ => 0, fun _ => none, fun _ _ => none⟩

def shown (utcNowNs : UInt64) : Scheduler Unit :=
  { config := some shownConfig
    clock := { state := .synchronized, utcNowNs := utcNowNs, leap := .normal } }

theorem shown_next :
    (shown 1735689600000000000).nextWsprStart noGps = some 1735690201000000000 := by
  decide +kernel

theorem shown_kept {utcNowNs : UInt64} (activity : Activity) (h : 1735689600000000000 ≤ utcNowNs) :
    Kept noGps (shown 1735689600000000000) { shown utcNowNs with activity := activity }
      1735690201000000000 :=
  ⟨rfl, fun _ => rfl, rfl, rfl, rfl, rfl, rfl, h⟩

theorem shown_end (utcNowNs t : UInt64) : EndProjected noGps (shown utcNowNs) t := by
  rintro c p hc hp htwo
  obtain rfl : shownConfig = c := Option.some.inj hc
  have hcount : ((plan shownConfig).map fun p => p.frames.length) = some 1 := by decide +kernel
  rw [show plan shownConfig = some p from hp, Option.map_some, htwo] at hcount
  cases hcount

theorem shown_selected : ∃ selection,
    (shown 1735690196000000000).select noGps = .ok selection ∧
    selection.slot = 1735690201000000000 ∧
    ((shown 1735690196000000000).poll noGps {}).2 = some selection := by
  have hkept : Kept noGps (shown 1735689600000000000) (shown 1735690196000000000)
      1735690201000000000 := shown_kept {} (by decide)
  obtain ⟨-, hselect⟩ := next_start_selected shown_next hkept
  obtain ⟨selection, hselect, hslot, hreserve⟩ := hselect
    ⟨rfl, rfl, rfl, rfl, rfl, rfl, rfl, by decide⟩ (by decide) (shown_end _ _) (by decide)
    (by decide)
  exact ⟨selection, hselect, hslot, (hreserve {} rfl rfl rfl).1⟩

/-- A poll within the window selects nothing while the service has an owner. -/
theorem owned_skips :
    (shown 1735689600000000000).nextWsprStart noGps = some 1735690201000000000 ∧
    Kept noGps (shown 1735689600000000000)
      { shown 1735690196000000000 with activity := { owned := true } } 1735690201000000000 ∧
    ∀ a, (Scheduler.poll noGps a
      { shown 1735690196000000000 with activity := { owned := true } }).2 = none :=
  ⟨shown_next, shown_kept { owned := true } (by decide), fun _ => rfl⟩

end Scheduler

end WsprryPico.Standalone
