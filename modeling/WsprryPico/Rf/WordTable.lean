import WsprryPico.Lib.Words
import WsprryPico.Rf.Waveform

/-!
# Word tables

The lookup tables of `rf/waveform.cpp`: the word of thirty-two samples that an
oscillator gives from a phase on. The lookup gives the word of `oracleWord`, for
every phase and increment.
-/

namespace WsprryPico.Rf

open Lib

structure Boundary where
  phase : UInt32 := 0
  toggle : UInt32 := 0

structure Bucket where
  word : UInt32 := 0
  first : Nat := 0
  last : Nat := 0

structure WordTable where
  boundaries : List Boundary := List.replicate 64 {}
  buckets : List Bucket := List.replicate 1024 {}

/-- One sample of the oscillator in the word at its place, and the phase after it. -/
def oracleBit (increment : UInt32) (state : UInt32 × UInt32) (bit : Nat) : UInt32 × UInt32 :=
  (state.1 ||| ((state.2 >>> 31) <<< UInt32.ofNat bit), state.2 + increment)

def oracleWord (phase increment : UInt32) : UInt32 :=
  ((List.range 32).foldl (oracleBit increment) (0, phase)).1

def lookup (table : WordTable) (phase : UInt32) : UInt32 :=
  let bucket := table.buckets.getD (phase >>> 22).toNat {}
  ((table.boundaries.take bucket.last).drop bucket.first).foldl
    (fun word boundary => if phase ≥ boundary.phase then word ^^^ boundary.toggle else word)
    bucket.word

/-- The phases at which a sample of the word changes. -/
def boundariesOf (increment : UInt32) : List Boundary :=
  (List.range 32).flatMap fun bit =>
    let offset := 0 - UInt32.ofNat bit * increment
    [⟨offset, 1 <<< UInt32.ofNat bit⟩, ⟨offset + 0x80000000, 1 <<< UInt32.ofNat bit⟩]

/-- A bucket has the word of its lowest phase, and the boundaries above that one. -/
def bucketOf (boundaries : List Boundary) (increment : UInt32) (index : Nat) : Bucket :=
  let low : UInt64 := UInt64.ofNat index <<< 22
  let high : UInt64 := low + (1 : UInt64) <<< 22
  let first := (boundaries.takeWhile fun boundary => boundary.phase.toUInt64 ≤ low).length
  { word := oracleWord low.toUInt32 increment
    first := first
    last := first +
      ((boundaries.drop first).takeWhile fun boundary => boundary.phase.toUInt64 < high).length }

/-- One table of `build_tables`. -/
def buildTable (increment : UInt32) : WordTable :=
  let boundaries := (boundariesOf increment).mergeSort fun a b => a.phase ≤ b.phase
  { boundaries := boundaries, buckets := (List.range 1024).map (bucketOf boundaries increment) }

/-! ## The word of an oscillator -/

/-- The sample of a phase. -/
def high (phase : UInt32) : Bool := decide (2 ^ 31 ≤ phase.toNat)

theorem shiftRight_phase (phase : UInt32) : (phase >>> 31) = if high phase then 1 else 0 := by
  refine UInt32.toNat_inj.mp ?_
  have hphase := phase.toNat_lt
  rw [UInt32.toNat_shiftRight, Nat.shiftRight_eq_div_pow]
  show phase.toNat / 2 ^ 31 = _
  unfold high
  by_cases hhigh : 2 ^ 31 ≤ phase.toNat
  · simp only [hhigh, decide_true, if_true]
    show _ = 1
    omega
  · simp only [hhigh, decide_false, Bool.false_eq_true, if_false]
    show _ = 0
    omega

theorem oracle_fold (phase increment : UInt32) (n : Nat) :
    (List.range n).foldl (oracleBit increment) (0, phase) =
      (wordUpTo (fun i => high (phase + UInt32.ofNat i * increment)) n,
        phase + UInt32.ofNat n * increment) := by
  induction n with
  | zero => simp [wordUpTo]
  | succ n ih =>
    rw [List.range_succ, List.foldl_append, ih, List.foldl_cons, List.foldl_nil, oracleBit,
      shiftRight_phase, wordUpTo]
    congr 1
    rw [UInt32.ofNat_add, UInt32.add_mul, ← UInt32.add_assoc]
    simp

theorem oracleWord_eq (phase increment : UInt32) :
    oracleWord phase increment =
      wordUpTo (fun i => high (phase + UInt32.ofNat i * increment)) 32 := by
  rw [oracleWord, oracle_fold]

/-! ## The lookup -/

variable {increment phase : UInt32}

theorem high_crossing {x y o : Nat} (hle : x ≤ y) (hy : y < 2 ^ 32) (hnear : y < x + 2 ^ 22)
    (ho : o < 2 ^ 32) :
    2 ^ 31 ≤ (y + o) % 2 ^ 32 ↔
      (2 ^ 31 ≤ (x + o) % 2 ^ 32 ↔
        ((x < (2 ^ 32 - o) % 2 ^ 32 ∧ (2 ^ 32 - o) % 2 ^ 32 ≤ y) ↔
          (x < ((2 ^ 32 - o) % 2 ^ 32 + 2 ^ 31) % 2 ^ 32 ∧
            ((2 ^ 32 - o) % 2 ^ 32 + 2 ^ 31) % 2 ^ 32 ≤ y))) := by
  omega

/-- The boundary is above one phase and not above the other. -/
def crosses (x y : Nat) (phase : UInt32) : Bool := decide (x < phase.toNat) && decide (phase.toNat ≤ y)

theorem parity_boundaries (increment : UInt32) (x y : Nat) {t : Nat} (ht : t < 32) :
    parity ((boundariesOf increment).map fun boundary =>
        crosses x y boundary.phase && bitOf boundary.toggle t) =
      (crosses x y (0 - UInt32.ofNat t * increment) ^^
        crosses x y (0 - UInt32.ofNat t * increment + 0x80000000)) := by
  have hplace : ∀ i ∈ List.range 32,
      parity ([⟨0 - UInt32.ofNat i * increment, 1 <<< UInt32.ofNat i⟩,
        ⟨0 - UInt32.ofNat i * increment + 0x80000000, 1 <<< UInt32.ofNat i⟩].map
          fun boundary : Boundary => crosses x y boundary.phase && bitOf boundary.toggle t) =
        (decide (t = i) && (crosses x y (0 - UInt32.ofNat i * increment) ^^
          crosses x y (0 - UInt32.ofNat i * increment + 0x80000000))) := by
    intro i hi
    have hbit : bitOf (1 <<< UInt32.ofNat i) t = decide (t = i) := by
      rw [bitOf_shiftLeft (by decide) (List.mem_range.mp hi)]
      simp
    simp only [List.map_cons, List.map_nil, parity_cons, parity_nil, hbit]
    cases decide (t = i) <;> simp
  rw [boundariesOf, parity_flatMap, List.map_congr_left hplace, parity_single]
  simp [ht]

theorem toNat_offset (increment : UInt32) (t : Nat) :
    (0 - UInt32.ofNat t * increment).toNat =
      (2 ^ 32 - (UInt32.ofNat t * increment).toNat) % 2 ^ 32 := by
  rw [UInt32.toNat_sub]
  simp

/-- The lowest phase of the bucket of a phase. -/
def bucketLow (phase : UInt32) : Nat := phase.toNat / 2 ^ 22 * 2 ^ 22

theorem toNat_low (phase : UInt32) :
    (UInt64.ofNat (phase.toNat / 2 ^ 22) <<< 22).toNat = bucketLow phase := by
  have hphase := phase.toNat_lt
  rw [UInt64.toNat_shiftLeft, UInt64.toNat_ofNat_of_lt' (by show _ < 2 ^ 64; omega),
    Nat.shiftLeft_eq]
  show phase.toNat / 2 ^ 22 * 2 ^ 22 % 2 ^ 64 = _
  unfold bucketLow
  omega

/-- The boundaries that a lookup goes through are those of the bucket. -/
theorem bucket_between {boundaries : List Boundary}
    (h : boundaries.Pairwise fun a b => a.phase.toNat ≤ b.phase.toNat) (increment phase : UInt32) :
    let bucket := bucketOf boundaries increment (phase.toNat / 2 ^ 22)
    (boundaries.take bucket.last).drop bucket.first =
      boundaries.filter fun boundary => !decide (boundary.phase.toNat ≤ bucketLow phase) &&
        decide (boundary.phase.toNat < bucketLow phase + 2 ^ 22) := by
  have hlow : ∀ boundary : Boundary,
      decide (boundary.phase.toUInt64 ≤ UInt64.ofNat (phase.toNat / 2 ^ 22) <<< 22) =
        decide (boundary.phase.toNat ≤ bucketLow phase) := fun boundary => by
    rw [decide_eq_decide, UInt64.le_iff_toNat_le, toNat_low, UInt32.toNat_toUInt64]
  have hhigh : ∀ boundary : Boundary,
      decide (boundary.phase.toUInt64 <
        UInt64.ofNat (phase.toNat / 2 ^ 22) <<< 22 + (1 : UInt64) <<< 22) =
        decide (boundary.phase.toNat < bucketLow phase + 2 ^ 22) := fun boundary => by
    have hphase := phase.toNat_lt
    have hsum : (UInt64.ofNat (phase.toNat / 2 ^ 22) <<< 22 + (1 : UInt64) <<< 22).toNat =
        bucketLow phase + 2 ^ 22 := by
      have hwidth : ((1 : UInt64) <<< 22).toNat = 2 ^ 22 := by decide
      rw [UInt64.toNat_add, toNat_low, hwidth]
      unfold bucketLow
      omega
    rw [decide_eq_decide, UInt64.lt_iff_toNat_lt, hsum, UInt32.toNat_toUInt64]
  refine between_sorted h (fun n => decide (n ≤ bucketLow phase))
    (fun n => decide (n < bucketLow phase + 2 ^ 22)) ?_ ?_ ?_ ?_
  · intro m n hle hn
    simp only [decide_eq_true_eq] at hn ⊢
    omega
  · intro m n hle hn
    simp only [decide_eq_true_eq] at hn ⊢
    omega
  · simp only [bucketOf, hlow]
  · simp only [bucketOf, hlow, hhigh]

theorem decide_iff_iff (p q r : Prop) [Decidable p] [Decidable q] [Decidable r] :
    decide (p ↔ (q ↔ r)) = (decide p ^^ (decide q ^^ decide r)) := by
  by_cases hp : p <;> by_cases hq : q <;> by_cases hr : r <;> simp [hp, hq, hr]

/-- The samples at a place of the words of two phases of one bucket. -/
theorem high_bucket (increment phase : UInt32) (t : Nat) :
    high (phase + UInt32.ofNat t * increment) =
      (high (UInt32.ofNat (bucketLow phase) + UInt32.ofNat t * increment) ^^
        (crosses (bucketLow phase) phase.toNat (0 - UInt32.ofNat t * increment) ^^
          crosses (bucketLow phase) phase.toNat
            (0 - UInt32.ofNat t * increment + 0x80000000))) := by
  have hphase := phase.toNat_lt
  have hoffset := (UInt32.ofNat t * increment).toNat_lt
  have hcrossing := high_crossing (x := bucketLow phase) (y := phase.toNat)
    (by unfold bucketLow; omega) hphase (by unfold bucketLow; omega) hoffset
  have hlow : (UInt32.ofNat (bucketLow phase)).toNat = bucketLow phase :=
    UInt32.toNat_ofNat_of_lt' (by show _ < 2 ^ 32; unfold bucketLow; omega)
  have hhalf : (0x80000000 : UInt32).toNat = 2 ^ 31 := rfl
  unfold high crosses
  rw [UInt32.toNat_add, UInt32.toNat_add, UInt32.toNat_add, hlow, toNat_offset, hhalf,
    decide_eq_decide.mpr hcrossing, decide_iff_iff, Bool.decide_and, Bool.decide_and]

theorem lookup_eq (increment phase : UInt32) :
    lookup (buildTable increment) phase = oracleWord phase increment := by
  have hphase := phase.toNat_lt
  let boundaries := (boundariesOf increment).mergeSort fun a b => a.phase ≤ b.phase
  have hperm : boundaries.Perm (boundariesOf increment) := List.mergeSort_perm _ _
  have hsorted : boundaries.Pairwise fun a b => a.phase.toNat ≤ b.phase.toNat := by
    refine (List.pairwise_mergeSort ?_ ?_ (boundariesOf increment)).imp ?_
    · intro a b c hab hbc
      simp only [decide_eq_true_eq] at hab hbc ⊢
      exact UInt32.le_trans hab hbc
    · intro a b
      simp only [Bool.or_eq_true, decide_eq_true_eq]
      exact UInt32.le_total _ _
    · intro a b hab
      exact UInt32.le_iff_toNat_le.mp (of_decide_eq_true hab)
  have hindex : (phase >>> 22).toNat = phase.toNat / 2 ^ 22 := by
    rw [UInt32.toNat_shiftRight, Nat.shiftRight_eq_div_pow]
    rfl
  have hbucket : (buildTable increment).buckets.getD (phase >>> 22).toNat {} =
      bucketOf boundaries increment (phase.toNat / 2 ^ 22) := by
    rw [hindex, List.getD_eq_getElem?_getD, buildTable, List.getElem?_map,
      List.getElem?_range (by omega)]
    rfl
  have hword : (bucketOf boundaries increment (phase.toNat / 2 ^ 22)).word =
      oracleWord (UInt32.ofNat (bucketLow phase)) increment := by
    have hlow : (UInt64.ofNat (phase.toNat / 2 ^ 22) <<< 22).toUInt32 =
        UInt32.ofNat (bucketLow phase) := by
      rw [← toNat_low, UInt32.ofNat_uInt64ToNat]
    exact congrArg (fun low => oracleWord low increment) hlow
  refine word_ext fun t ht => ?_
  have htoggled := bitOf_toggled (fun boundary : Boundary => decide (phase ≥ boundary.phase))
    (fun boundary => boundary.toggle)
  simp only [decide_eq_true_eq] at htoggled
  -- the boundaries between the bucket and the phase, in any order
  have hbetween : ∀ boundary : Boundary,
      ((!decide (boundary.phase.toNat ≤ bucketLow phase) &&
        decide (boundary.phase.toNat < bucketLow phase + 2 ^ 22)) &&
        (decide (phase ≥ boundary.phase) && bitOf boundary.toggle t)) =
      (crosses (bucketLow phase) phase.toNat boundary.phase && bitOf boundary.toggle t) := by
    intro boundary
    have hle : decide (phase ≥ boundary.phase) = decide (boundary.phase.toNat ≤ phase.toNat) := by
      rw [decide_eq_decide, ge_iff_le, UInt32.le_iff_toNat_le]
    unfold crosses
    rw [hle]
    by_cases hbelow : boundary.phase.toNat ≤ phase.toNat
    · have hnear : boundary.phase.toNat < bucketLow phase + 2 ^ 22 := by
        unfold bucketLow
        omega
      rw [decide_eq_true hnear, decide_eq_true hbelow, ← decide_not, Bool.and_true, Bool.and_true,
        Bool.true_and, decide_eq_decide.mpr Nat.not_le]
    · simp [hbelow]
  have hboundaries : (buildTable increment).boundaries = boundaries := rfl
  unfold lookup
  rw [hbucket, hboundaries]
  dsimp only
  rw [bucket_between hsorted, htoggled, parity_filter, parity_perm (hperm.map _), hword,
    List.map_congr_left fun boundary _ => hbetween boundary, parity_boundaries increment _ _ ht,
    oracleWord_eq, oracleWord_eq, bitOf_wordUpTo _ (Nat.le_refl 32),
    bitOf_wordUpTo _ (Nat.le_refl 32), high_bucket increment phase t]
  simp [ht]

end WsprryPico.Rf
