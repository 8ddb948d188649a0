import WsprryPico.Wtp.Types

/-!
# Adjustment lists

`AdjustmentList` of `wtp/job_service.hpp`: the adjustments of a job, kept as they came or,
where that is smaller, as a table of at most four frequency pairs and one word an event.
Either stands behind a shared pointer, of which the address is kept.
-/

namespace WsprryPico.Wtp

def FrequencyAdjustment.pair (value : FrequencyAdjustment) : UInt64 × UInt64 :=
  (value.requestedFrequencyNhz, value.realizedFrequencyNhz)

/-- `values_` and `compact_`, of which at most one is set. The tones are those in use. -/
inductive AdjustmentList where
  | empty
  | values (address : Nat) (values : List FrequencyAdjustment)
  | compact (address : Nat) (tones : List (UInt64 × UInt64)) (events : List UInt16)

/-- The first loop of the constructor; none where it clears `compact`. -/
def collectTones (tones : List (UInt64 × UInt64)) :
    List FrequencyAdjustment → Option (List (UInt64 × UInt64))
  | [] => some tones
  | value :: rest =>
    if value.eventIndex > 0xffff >>> 2 then none
    else if value.pair ∈ tones then collectTones tones rest
    else if tones.length = 4 then none
    else collectTones (tones ++ [value.pair]) rest

def compactEvent (tones : List (UInt64 × UInt64)) (value : FrequencyAdjustment) : UInt16 :=
  .ofNat (value.eventIndex <<< 2 ||| tones.idxOf value.pair)

def compactAdjustment (tones : List (UInt64 × UInt64)) (event : UInt16) : FrequencyAdjustment :=
  let pair := tones.getD (event &&& 3).toNat (0, 0)
  ⟨(event >>> 2).toNat, pair.1, pair.2⟩

namespace AdjustmentList

/-- The sizes are those of four pairs, of a word and of a `FrequencyAdjustment`. -/
def ofValues (address : Nat) (v : List FrequencyAdjustment) : AdjustmentList :=
  if v.isEmpty then .empty
  else
    match collectTones [] v with
    | some tones =>
      if 64 + v.length * 2 < v.length * 24 then .compact address tones (v.map (compactEvent tones))
      else .values address v
    | none => .values address v

def size : AdjustmentList → Nat
  | .empty => 0
  | .values _ v => v.length
  | .compact _ _ events => events.length

/-- `operator[]`; none where the index is past the end. -/
def get? (index : Nat) : AdjustmentList → Option FrequencyAdjustment
  | .empty => none
  | .values _ v => v[index]?
  | .compact _ tones events => events[index]?.map (compactAdjustment tones)

/-- Both pointers are the same. -/
def identical : AdjustmentList → AdjustmentList → Bool
  | .empty, .empty => true
  | .values a _, .values b _ => a = b
  | .compact a _ _, .compact b _ _ => a = b
  | _, _ => false

/-- `operator==`. -/
def equal (a b : AdjustmentList) : Bool :=
  if a.identical b then true
  else if a.size ≠ b.size then false
  else (List.range a.size).all fun i => a.get? i = b.get? i

end AdjustmentList

/-! ## The compact form -/

theorem collectTones_spec {tones found : List (UInt64 × UInt64)} {v : List FrequencyAdjustment}
    (hfour : tones.length ≤ 4) (h : collectTones tones v = some found) :
    found.length ≤ 4 ∧ tones ⊆ found ∧ ∀ x ∈ v, x.eventIndex ≤ 0x3fff ∧ x.pair ∈ found := by
  induction v generalizing tones with
  | nil =>
    cases h
    exact ⟨hfour, List.Subset.refl _, by simp⟩
  | cons value rest ih =>
    unfold collectTones at h
    split_ifs at h with hindex hin hfull
    · obtain ⟨hfound, hsub, hrest⟩ := ih hfour h
      exact ⟨hfound, hsub, List.forall_mem_cons.mpr ⟨⟨Nat.le_of_not_lt hindex, hsub hin⟩, hrest⟩⟩
    · have hmore : (tones ++ [value.pair]).length ≤ 4 := by
        rw [List.length_append, List.length_singleton]
        omega
      obtain ⟨hfound, hsub, hrest⟩ := ih hmore h
      obtain ⟨hsub, hlast⟩ := List.append_subset.mp hsub
      have hpair := hlast List.mem_cons_self
      exact ⟨hfound, hsub, List.forall_mem_cons.mpr ⟨⟨Nat.le_of_not_lt hindex, hpair⟩, hrest⟩⟩

/-- A word holds the index of its event above the two bits of its tone. -/
theorem compactAdjustment_event {tones : List (UInt64 × UInt64)} {value : FrequencyAdjustment}
    (hfour : tones.length ≤ 4) (hindex : value.eventIndex ≤ 0x3fff) (hpair : value.pair ∈ tones) :
    compactAdjustment tones (compactEvent tones value) = value := by
  have hin := List.idxOf_lt_length_of_mem hpair
  have htone := Nat.lt_of_lt_of_le hin hfour
  have hevent : (compactEvent tones value).toNat =
      value.eventIndex * 4 + tones.idxOf value.pair := by
    rw [compactEvent, UInt16.toNat_ofNat', ← Nat.shiftLeft_add_eq_or_of_lt (i := 2) htone,
      Nat.shiftLeft_eq]
    exact Nat.mod_eq_of_lt (by omega)
  have hlow : (compactEvent tones value &&& 3).toNat = tones.idxOf value.pair := by
    rw [UInt16.toNat_and, hevent]
    exact (Nat.and_two_pow_sub_one_eq_mod _ 2).trans (by omega)
  have hhigh : (compactEvent tones value >>> 2).toNat = value.eventIndex := by
    rw [UInt16.toNat_shiftRight, hevent]
    exact (Nat.shiftRight_eq_div_pow _ 2).trans (by omega)
  unfold compactAdjustment
  rw [hlow, hhigh, List.getD_eq_getElem?_getD, List.getElem?_eq_getElem hin, List.getElem_idxOf]
  rfl

/-! ## The list -/

namespace AdjustmentList

variable {address other : Nat} {v w : List FrequencyAdjustment}

theorem ofValues_spec (address : Nat) (v : List FrequencyAdjustment) :
    (ofValues address v).size = v.length ∧
    ∀ i : Nat, (ofValues address v).get? i = v[i]? := by
  unfold ofValues
  split
  · rename_i hempty
    rw [List.isEmpty_iff.mp hempty]
    exact ⟨rfl, fun _ => rfl⟩
  split
  · rename_i tones htones
    split
    · refine ⟨List.length_map _, fun i => ?_⟩
      obtain ⟨hfour, -, hv⟩ := collectTones_spec (by decide) htones
      show ((v.map _)[i]?).map _ = _
      rw [List.getElem?_map, Option.map_map]
      cases hi : v[i]? with
      | none => rfl
      | some value =>
        obtain ⟨hindex, hpair⟩ := hv value (List.mem_of_getElem? hi)
        exact congrArg some (compactAdjustment_event hfour hindex hpair)
    · exact ⟨rfl, fun _ => rfl⟩
  · exact ⟨rfl, fun _ => rfl⟩

theorem ofValues_cases (address : Nat) (v : List FrequencyAdjustment) :
    v = [] ∧ ofValues address v = .empty ∨ ofValues address v = .values address v ∨
    ∃ tones events, ofValues address v = .compact address tones events := by
  unfold ofValues
  split
  · exact .inl ⟨List.isEmpty_iff.mp ‹_›, rfl⟩
  split
  · split
    · exact .inr (.inr ⟨_, _, rfl⟩)
    · exact .inr (.inl rfl)
  · exact .inr (.inl rfl)

theorem eq_of_identical (h : (ofValues address v).identical (ofValues other w) = true) :
    address = other ∨ v = w := by
  rcases ofValues_cases address v with ⟨rfl, hv⟩ | hv | ⟨_, _, hv⟩ <;>
    rcases ofValues_cases other w with ⟨rfl, hw⟩ | hw | ⟨_, _, hw⟩ <;>
    rw [hv, hw] at h <;> first | exact .inr rfl | cases h | exact .inl (of_decide_eq_true h)

/-- A list has the size and the elements of its vector, and two lists are equal when
their vectors are. Objects of one place are one object. -/
theorem faithful (hshared : address = other → v = w) :
    (ofValues address v).size = v.length ∧ (∀ i : Nat, (ofValues address v).get? i = v[i]?) ∧
      ((ofValues address v).equal (ofValues other w) = true ↔ v = w) := by
  obtain ⟨hsize, hget⟩ := ofValues_spec address v
  obtain ⟨hsize', hget'⟩ := ofValues_spec other w
  refine ⟨hsize, hget, ?_⟩
  unfold equal
  rw [hsize, hsize']
  split_ifs with hsame hlength
  · exact iff_of_true rfl ((eq_of_identical hsame).elim hshared id)
  · exact iff_of_false (by simp) fun heq => hlength (congrArg _ heq)
  · simp only [hget, hget', List.all_eq_true, List.mem_range, decide_eq_true_eq]
    refine ⟨fun h => List.ext_getElem? fun i => ?_, fun h i _ => by rw [h]⟩
    by_cases hi : i < v.length
    · exact h i hi
    · have hnone := Nat.le_of_not_lt hi
      rw [List.getElem?_eq_none hnone, List.getElem?_eq_none (not_not.mp hlength ▸ hnone)]

theorem faithful_seven :
    let v : List FrequencyAdjustment := (List.range 7).map fun i => ⟨i, .ofNat (i % 3), 9⟩
    (ofValues 1 v).size = 7 ∧ (∀ i : Nat, (ofValues 1 v).get? i = v[i]?) ∧
      ((ofValues 1 v).equal (ofValues 2 []) = true ↔ v = []) :=
  faithful (by decide)

end AdjustmentList

end WsprryPico.Wtp
