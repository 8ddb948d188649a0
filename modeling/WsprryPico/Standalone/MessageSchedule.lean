import WsprryPico.Encoding.Morse
import WsprryPico.Lib.Recurrence
import WsprryPico.Time.ControllerTime

/-!
# Message slots

`next_message_slot` of `standalone/message_schedule.hpp`: the first time of the
schedule that is late enough and was not used before.
-/

namespace WsprryPico.Standalone

open Lib Time Wtp

structure MessageSchedule where
  enabled : Bool := false
  firstStartUtcNs : UInt64 := 0
  expiresUtcS : UInt64 := 0
  periodS : UInt32 := 0
  message : Encoding.Morse.MorseMessage := {}

def nextMessageSlot (s : MessageSchedule) (earliest last : UInt64) : Option UInt64 :=
  let period := s.periodS.toUInt64 * 1000000000
  if period = 0 ∨ last = u64Max then none
  else
    let earliest := max earliest (last + 1)
    let next := s.firstStartUtcNs
    if earliest > next then
      let delta := earliest - next
      let steps := delta / period + if delta % period ≠ 0 then 1 else 0
      if steps > (u64Max - next) / period then none
      else
        let next := next + steps * period
        if next ≥ sntpMaxUtcNs then none else some next
    else if next ≥ sntpMaxUtcNs then none else some next

/-- The times a message may start: of the schedule, late enough, after the last start and
within the range of the clock. -/
def Eligible (s : MessageSchedule) (earliest last : UInt64) : Set Nat :=
  {t | Recurs s.firstStartUtcNs.toNat (s.periodS.toNat * 1000000000) t ∧
    earliest.toNat ≤ t ∧ last.toNat < t ∧ t < sntpMaxUtcNs.toNat}

theorem period_toNat (s : MessageSchedule) :
    (s.periodS.toUInt64 * 1000000000).toNat = s.periodS.toNat * 1000000000 := by
  have hlt := s.periodS.toNat_lt
  rw [UInt64.toNat_mul, UInt32.toNat_toUInt64]
  show s.periodS.toNat * 1000000000 % 2 ^ 64 = _
  omega

theorem max_toNat (a b : UInt64) : (max a b).toNat = max a.toNat b.toNat := by
  rw [show max a b = if a ≤ b then b else a from rfl]
  split
  · rename_i h
    rw [UInt64.le_iff_toNat_le] at h
    omega
  · rename_i h
    rw [UInt64.le_iff_toNat_le] at h
    omega

theorem steps_toNat (delta : UInt64) {period : UInt64} (hperiod : 1000000000 ≤ period.toNat) :
    (delta / period + if delta % period ≠ 0 then 1 else 0).toNat =
      delta.toNat / period.toNat + if delta.toNat % period.toNat = 0 then 0 else 1 := by
  have hzero : delta % period = 0 ↔ delta.toNat % period.toNat = 0 := by
    rw [← UInt64.toNat_inj, UInt64.toNat_mod]
    rfl
  have hsmall : delta.toNat / period.toNat < 2 ^ 64 - 1 := by
    have hle := Nat.div_le_div_left hperiod (by decide : 0 < 1000000000) (a := delta.toNat)
    have hlt := delta.toNat_lt
    omega
  rw [UInt64.toNat_add, UInt64.toNat_div]
  by_cases hrem : delta.toNat % period.toNat = 0
  · rw [if_neg (not_not.mpr (hzero.mpr hrem)), if_pos hrem]
    exact Nat.mod_eq_of_lt (by show _ + 0 < _; omega)
  · rw [if_pos (fun h0 => hrem (hzero.mp h0)), if_neg hrem]
    exact Nat.mod_eq_of_lt (by show _ + 1 < _; omega)

/-- The slot computed is the first time of the recurrence from the bound on, unless that is
past the range of the clock. -/
theorem nextMessageSlot_eq {s : MessageSchedule} (earliest : UInt64) {last : UInt64}
    (hperiod : s.periodS ≠ 0) (hlast : last ≠ u64Max) :
    (nextMessageSlot s earliest last).map UInt64.toNat =
      let t := nextTerm s.firstStartUtcNs.toNat (s.periodS.toNat * 1000000000)
        (max earliest.toNat (last.toNat + 1))
      if t < sntpMaxUtcNs.toNat then some t else none := by
  have hpos : 0 < s.periodS.toNat := Nat.pos_of_ne_zero fun h0 => hperiod (UInt32.toNat_inj.mp h0)
  have hbound : (max earliest (last + 1)).toNat = max earliest.toNat (last.toNat + 1) := by
    have hlt := last.toNat_lt
    have hne : last.toNat ≠ 2 ^ 64 - 1 := fun h => hlast (UInt64.toNat_inj.mp h)
    rw [max_toNat, UInt64.toNat_add, Nat.mod_eq_of_lt]
    · rfl
    · show last.toNat + 1 < 2 ^ 64
      omega
  have hp := period_toNat s
  unfold nextMessageSlot
  dsimp only
  rw [← hbound, ← hp]
  generalize max earliest (last + 1) = bound
  generalize s.periodS.toUInt64 * 1000000000 = period at hp ⊢
  generalize s.firstStartUtcNs = first
  have hbig : 1000000000 ≤ period.toNat := by omega
  rw [if_neg (not_or.mpr ⟨fun h0 => by rw [h0] at hbig; exact absurd hbig (by decide), hlast⟩)]
  by_cases hafter : first < bound
  · have hlt : first.toNat < bound.toNat := UInt64.lt_iff_toNat_lt.mp hafter
    rw [if_pos hafter]
    have hdelta : (bound - first).toNat = bound.toNat - first.toNat :=
      UInt64.toNat_sub_of_le _ _ (UInt64.le_of_lt hafter)
    have hsteps := steps_toNat (bound - first) hbig
    rw [hdelta] at hsteps
    obtain ⟨steps, hdef⟩ : ∃ steps : UInt64,
        (bound - first) / period + (if (bound - first) % period ≠ 0 then 1 else 0) = steps :=
      ⟨_, rfl⟩
    rw [hdef] at hsteps ⊢
    have hterm : nextTerm first.toNat period.toNat bound.toNat =
        first.toNat + steps.toNat * period.toNat := by
      unfold nextTerm
      rw [hsteps]
    rw [hterm]
    have hroom : (u64Max - first).toNat = 2 ^ 64 - 1 - first.toNat :=
      UInt64.toNat_sub_of_le _ _
        (UInt64.le_iff_toNat_le.mpr (Nat.le_of_lt_succ first.toNat_lt))
    have hfits : ¬ steps > (u64Max - first) / period ↔
        first.toNat + steps.toNat * period.toNat < 2 ^ 64 := by
      have hfirst := first.toNat_lt
      rw [gt_iff_lt, UInt64.not_lt, UInt64.le_iff_toNat_le, UInt64.toNat_div, hroom,
        Nat.le_div_iff_mul_le (by omega)]
      omega
    by_cases hover : steps > (u64Max - first) / period
    · rw [if_pos hover, if_neg]
      · rfl
      · intro hlow
        exact hfits.mpr (hlow.trans (by decide)) hover
    · have hlt64 := hfits.mp hover
      have hsum : (first + steps * period).toNat =
          first.toNat + steps.toNat * period.toNat := by
        rw [UInt64.toNat_add, UInt64.toNat_mul, Nat.mod_eq_of_lt (by omega : _ * _ < 2 ^ 64),
          Nat.mod_eq_of_lt hlt64]
      rw [if_neg hover, ← hsum]
      by_cases hrange : first + steps * period ≥ sntpMaxUtcNs
      · rw [if_pos hrange, if_neg (Nat.not_lt.mpr (UInt64.le_iff_toNat_le.mp hrange))]
        rfl
      · rw [if_neg hrange, if_pos (UInt64.lt_iff_toNat_lt.mp (UInt64.not_le.mp hrange))]
        rfl
  · have hle : bound.toNat ≤ first.toNat := UInt64.le_iff_toNat_le.mp (UInt64.not_lt.mp hafter)
    rw [if_neg hafter, nextTerm_of_le hle]
    by_cases hrange : first ≥ sntpMaxUtcNs
    · rw [if_pos hrange, if_neg (Nat.not_lt.mpr (UInt64.le_iff_toNat_le.mp hrange))]
      rfl
    · rw [if_neg hrange, if_pos (UInt64.lt_iff_toNat_lt.mp (UInt64.not_le.mp hrange))]
      rfl

section Slot

variable {s : MessageSchedule} {earliest last : UInt64}

theorem eligible_iff {t : Nat} : t ∈ Eligible s earliest last ↔
    (Recurs s.firstStartUtcNs.toNat (s.periodS.toNat * 1000000000) t ∧
      max earliest.toNat (last.toNat + 1) ≤ t) ∧ t < sntpMaxUtcNs.toNat := by
  unfold Eligible
  rw [Set.mem_ofPred_eq, Nat.max_le]
  exact ⟨fun ⟨h, he, hl, hm⟩ => ⟨⟨h, he, hl⟩, hm⟩, fun ⟨⟨h, he, hl⟩, hm⟩ => ⟨h, he, hl, hm⟩⟩

theorem eligible_last : Eligible s earliest u64Max = ∅ := by
  refine Set.eq_empty_of_forall_notMem fun t ht => ?_
  obtain ⟨-, -, hlast, hmax⟩ := ht
  exact absurd (hlast.trans hmax) (by decide)

theorem nextMessageSlot_last : nextMessageSlot s earliest u64Max = none := by
  exact if_pos (Or.inr rfl)

theorem nextMessageSlot_once (h : s.periodS = 0) : nextMessageSlot s earliest last = none := by
  refine if_pos (Or.inl ?_)
  rw [h]
  rfl

theorem nextMessageSlot_spec (hperiod : s.periodS ≠ 0) :
    (∃ slot, nextMessageSlot s earliest last = some slot ∧
      IsLeast (Eligible s earliest last) slot.toNat) ∨
    (nextMessageSlot s earliest last = none ∧ Eligible s earliest last = ∅) := by
  by_cases hlast : last = u64Max
  · rw [hlast]
    exact Or.inr ⟨nextMessageSlot_last, eligible_last⟩
  · have heq := nextMessageSlot_eq earliest hperiod hlast
    dsimp only at heq
    have hpos : 0 < s.periodS.toNat * 1000000000 :=
      Nat.mul_pos (Nat.pos_of_ne_zero fun h0 => hperiod (UInt32.toNat_inj.mp h0)) (by decide)
    have hleast := nextTerm_least s.firstStartUtcNs.toNat hpos
      (max earliest.toNat (last.toNat + 1))
    split at heq
    · rename_i hrange
      obtain ⟨slot, hslot, hterm⟩ := Option.map_eq_some_iff.mp heq
      refine Or.inl ⟨slot, hslot, ?_⟩
      rw [hterm]
      exact ⟨eligible_iff.mpr ⟨hleast.1, hrange⟩, fun t ht => hleast.2 (eligible_iff.mp ht).1⟩
    · rename_i hrange
      refine Or.inr ⟨Option.map_eq_none_iff.mp heq, Set.eq_empty_of_forall_notMem fun t ht => ?_⟩
      obtain ⟨hterm, hmax⟩ := eligible_iff.mp ht
      exact hrange ((hleast.2 hterm).trans_lt hmax)

end Slot

/-- A schedule of period zero names no slot. For any other, the slot named is the least
eligible time, and none is named when there is none. -/
theorem nextMessageSlot_least (s : MessageSchedule) (earliest last : UInt64) :
    (∀ slot, nextMessageSlot s earliest last = some slot ↔
      s.periodS ≠ 0 ∧ IsLeast (Eligible s earliest last) slot.toNat) ∧
    (nextMessageSlot s earliest last = none ↔
      s.periodS = 0 ∨ Eligible s earliest last = ∅) := by
  by_cases hperiod : s.periodS = 0
  · rw [nextMessageSlot_once hperiod]
    exact ⟨fun slot => ⟨nofun, fun h => absurd hperiod h.1⟩,
      ⟨fun _ => Or.inl hperiod, fun _ => rfl⟩⟩
  · obtain ⟨slot, hslot, hleast⟩ | ⟨hnone, hempty⟩ := nextMessageSlot_spec hperiod
    · rw [hslot]
      refine ⟨fun slot' => ⟨fun h => ?_, fun h => ?_⟩, ⟨nofun, fun h => ?_⟩⟩
      · cases h
        exact ⟨hperiod, hleast⟩
      · rw [UInt64.toNat_inj.mp (hleast.unique h.2)]
      · rcases h with h | h
        · exact absurd h hperiod
        · exact absurd hleast.1 (by rw [h]; exact Set.notMem_empty _)
    · rw [hnone]
      refine ⟨fun slot => ⟨nofun, fun h => ?_⟩,
        ⟨fun _ => Or.inr hempty, fun _ => rfl⟩⟩
      exact absurd h.2.1 (by rw [hempty]; exact Set.notMem_empty _)

/-- A schedule without a period has no slot, though its first time is eligible. -/
theorem once_unnamed :
    nextMessageSlot { firstStartUtcNs := sntpMinUtcNs } 0 0 = none ∧
    IsLeast (Eligible { firstStartUtcNs := sntpMinUtcNs } 0 0) sntpMinUtcNs.toNat := by
  refine ⟨by decide, ⟨⟨0, rfl⟩, by decide, by decide, by decide⟩, ?_⟩
  rintro t ⟨⟨k, rfl⟩, -⟩
  exact Nat.le_add_right _ _

end WsprryPico.Standalone
