import WsprryPico.Wtp.ResponseSource

/-!
# The escaped source

The count of the escaped source remembers where each window of the body begins once escaped.
A copy starts at the last such place before its offset and so gives a slice of the escaped
body. A body of more than 64 windows is refused.
-/

namespace WsprryPico.Wtp

open Lib Json

variable {bits shift offset out : Nat} {body : ResponseSource} {document done taken : Bytes}
  {s : EscapedSource}

def escapes (document : Bytes) : Bytes := document.flatMap responseEscape

@[simp] theorem escapes_nil : escapes [] = [] := rfl

@[simp] theorem escapes_append (a b : Bytes) : escapes (a ++ b) = escapes a ++ escapes b :=
  List.flatMap_append

theorem escapes_cons (c : UInt8) (a : Bytes) : escapes (c :: a) = responseEscape c ++ escapes a :=
  List.flatMap_cons

/-- Escaping for the length count, for the copy and for `quote` is the same. -/
theorem responseEscape_quote (c : UInt8) : responseEscape c = quoteByte c := by
  unfold responseEscape quoteByte
  by_cases h34 : c = 34
  · subst h34
    rfl
  · by_cases h92 : c = 92
    · subst h92
      rfl
    · simp only [h34, h92, or_self, if_false]

theorem escapes_quote (document : Bytes) : quote document = 34 :: escapes document ++ [34] := by
  have hescape : responseEscape = quoteByte := funext responseEscape_quote
  rw [quote, escapes, hescape]

theorem escapes_take_slice (document : Bytes) (input count : Nat) :
    escapes (document.take input) ++ escapes (slice document input count) =
      escapes (document.take (input + count)) := by
  rw [← escapes_append, take_slice]

namespace EscapedSource

/-! ## The count -/

/-- The source has counted the windows of the document up to `counted`. -/
structure Counting (s : EscapedSource) (document : Bytes) : Prop where
  counted : s.counted ≤ document.length
  size : s.size = (escapes (document.take s.counted)).length
  points : ∀ p ∈ s.checkpoints, p.1 ≤ document.length ∧
    p.2 = (escapes (document.take p.1)).length
  first : s.checkpoints = [] ∧ s.counted = 0 ∨ s.checkpoints.head? = some (0, 0)
  windows : s.counted =
    min document.length (ResponseSource.windowBytes * s.checkpoints.length)
  limit : s.checkpoints.length ≤ checkpointLimit

theorem foldl_size (bytes : Bytes) (size : Nat) :
    bytes.foldl (fun size c => size + (responseEscape c).length) size =
      size + (escapes bytes).length := by
  induction bytes generalizing size with
  | nil => rfl
  | cons c bytes ih =>
    rw [List.foldl_cons, ih, escapes_cons, List.length_append, Nat.add_assoc]

theorem Counting.fresh (body : ResponseSource) (valid : Bool) (document : Bytes) :
    Counting { body, valid } document :=
  ⟨Nat.zero_le _, rfl, by simp, .inl ⟨rfl, rfl⟩, by simp, by simp⟩

theorem countStep_body (s : EscapedSource) : s.countStep.body = s.body := by
  unfold countStep
  dsimp only
  split_ifs <;> rfl

theorem Counting.step (h : s.Counting document) (hbody : Lawful bits shift s.body document) :
    s.countStep.Counting document := by
  unfold countStep
  by_cases hstop : ¬ s.valid = true ∨ s.ready = true
  · rw [if_pos hstop]
    exact h
  · rw [if_neg hstop]
    simp only [not_or, not_not, ready, decide_eq_true_eq] at hstop
    obtain ⟨hvalid, hready⟩ := hstop
    rw [hbody.size] at hready
    have hcounted := h.counted
    have hwindows := h.windows
    have hlimit := h.limit
    by_cases hfull : s.checkpoints.length = checkpointLimit
    · rw [if_pos hfull]
      exact ⟨h.counted, h.size, h.points, h.first, h.windows, h.limit⟩
    · have hcopy := hbody.copy s.counted ResponseSource.windowBytes (hbody.counts _ (by omega))
      have hlength := congrArg List.length hcopy
      rw [slice_length] at hlength
      have hsome : ¬ (s.body.copy s.counted ResponseSource.windowBytes).length = 0 := by
        rw [hlength]
        simp only [ResponseSource.windowBytes]
        omega
      have hpoints : ∀ p ∈ s.checkpoints ++ [(s.counted, s.size)],
          p.1 ≤ document.length ∧ p.2 = (escapes (document.take p.1)).length := by
        intro p hp
        rcases List.mem_append.mp hp with hp | hp
        · exact h.points p hp
        · obtain rfl := List.mem_singleton.mp hp
          exact ⟨hcounted, h.size⟩
      have hfirst : (s.checkpoints ++ [(s.counted, s.size)]).head? = some (0, 0) := by
        rcases h.first with ⟨hnil, hzero⟩ | hhead
        · have hsize := h.size
          rw [hzero] at hsize
          simp [hnil, hzero, hsize]
        · rw [List.head?_append, hhead]
          rfl
      rw [if_neg hfull]
      dsimp only
      rw [if_neg hsome]
      refine ⟨?_, ?_, hpoints, .inr hfirst, ?_, ?_⟩
      · dsimp only
        omega
      · dsimp only
        rw [foldl_size, hcopy, h.size, ← List.length_append, escapes_take_slice, slice_length]
        congr 2
        rw [List.take_eq_take_iff]
        omega
      · simp only [List.length_append, List.length_singleton, ResponseSource.windowBytes] at *
        omega
      · simp only [List.length_append, List.length_singleton]
        omega

/-! ## The copy -/

theorem emit_slice (b : UInt8) :
    emit offset out (done.length, slice done offset out) b =
      ((done ++ [b]).length, slice (done ++ [b]) offset out) := by
  unfold emit
  rw [slice_append, List.length_append, List.length_singleton]
  congr 1
  dsimp only
  split_ifs with h
  · have hzero : offset - done.length = 0 := by omega
    rw [hzero, slice_zero, List.take_of_length_le (by rw [List.length_singleton]; omega)]
  · by_cases hroom : (slice done offset out).length < out
    · have hnone : slice [b] (offset - done.length) (out - (slice done offset out).length) = [] :=
        slice_beyond (by rw [List.length_singleton]; omega)
      rw [hnone, List.append_nil]
    · rw [show out - (slice done offset out).length = 0 by omega, slice_none, List.append_nil]

theorem emits_slice (bytes : Bytes) :
    bytes.foldl (emit offset out) (done.length, slice done offset out) =
      ((done ++ bytes).length, slice (done ++ bytes) offset out) := by
  induction bytes generalizing done with
  | nil => simp
  | cons b bytes ih =>
    rw [List.foldl_cons, emit_slice, ih, List.append_assoc, List.singleton_append]

/-- A window is emitted to its end, or until the room is filled. -/
theorem emitAll_slice (offset out : Nat) (done bytes : Bytes) :
    ∃ emitted rest, escapes bytes = emitted ++ rest ∧
      emitAll offset out bytes (done.length, slice done offset out) =
        ((done ++ emitted).length, slice (done ++ emitted) offset out) ∧
      (rest = [] ∨ (slice (done ++ emitted) offset out).length = out) := by
  induction bytes generalizing done with
  | nil => exact ⟨[], [], rfl, by simp [emitAll], .inl rfl⟩
  | cons c bytes ih =>
    unfold emitAll
    dsimp only
    rw [emits_slice]
    split_ifs with hfull
    · exact ⟨responseEscape c, escapes bytes, escapes_cons c bytes, rfl, .inr hfull⟩
    · obtain ⟨emitted, rest, hsplit, hemit, hend⟩ := ih (done ++ responseEscape c)
      rw [List.append_assoc] at hemit hend
      refine ⟨responseEscape c ++ emitted, rest, ?_, hemit, hend⟩
      rw [escapes_cons, hsplit, List.append_assoc]

theorem copyFrom_full {fuel input : Nat} {st : Nat × Bytes} (h : st.2.length = out) :
    copyFrom body offset out fuel input st = st.2 := by
  cases fuel with
  | zero => rfl
  | succ fuel =>
    unfold copyFrom
    rw [if_neg (by omega)]

theorem copyFrom_slice (offset out : Nat) (hbody : Lawful bits shift body document)
    (fuel input : Nat)
    (hinput : input ≤ document.length) (hfuel : document.length - input < fuel) :
    copyFrom body offset out fuel input ((escapes (document.take input)).length,
      slice (escapes (document.take input)) offset out) = slice (escapes document) offset out := by
  induction fuel generalizing input with
  | zero => omega
  | succ fuel ih =>
    have hwhole : escapes (document.take input) ++ escapes (document.drop input) =
        escapes document := by rw [← escapes_append, List.take_append_drop]
    have hroom : (slice (escapes (document.take input)) offset out).length ≤ out := by
      rw [slice_length]
      exact Nat.min_le_left _ _
    unfold copyFrom
    rw [hbody.size]
    by_cases hmore : input < document.length ∧
        (slice (escapes (document.take input)) offset out).length < out
    · rw [if_pos hmore]
      have hcopy := hbody.copy input ResponseSource.windowBytes (hbody.counts _ hmore.1)
      have hlength : (slice document input ResponseSource.windowBytes).length =
          min ResponseSource.windowBytes (document.length - input) := slice_length
      have hwindow : 0 < ResponseSource.windowBytes := by decide
      dsimp only
      rw [hcopy, if_neg (by omega)]
      obtain ⟨emitted, rest, hsplit, hemit, hend⟩ :=
        emitAll_slice offset out (escapes (document.take input))
          (slice document input ResponseSource.windowBytes)
      have hnext : escapes (document.take input) ++ (emitted ++ rest) = escapes (document.take
          (input + (slice document input ResponseSource.windowBytes).length)) := by
        rw [← hsplit, escapes_take_slice, hlength]
        congr 1
        rw [List.take_eq_take_iff]
        omega
      rw [hemit]
      rcases hend with rfl | hfull
      · rw [List.append_nil] at hnext
        rw [hnext]
        exact ih _ (by omega) (by omega)
      · rw [copyFrom_full hfull]
        have hrest : escapes document = (escapes (document.take input) ++ emitted) ++
            (rest ++ escapes (document.drop
              (input + (slice document input ResponseSource.windowBytes).length))) := by
          rw [← List.append_assoc, List.append_assoc _ emitted, hnext, ← escapes_append,
            List.take_append_drop]
        rw [hrest]
        exact (slice_full hfull).symm
    · rw [if_neg hmore]
      by_cases hend : input < document.length
      · rw [← hwhole]
        exact (slice_full (by omega)).symm
      · rw [List.take_of_length_le (by omega)]

/-- The checkpoint a copy starts from. -/
theorem Counting.point (h : s.Counting document) (hsome : s.checkpoints ≠ []) (offset : Nat) :
    (s.point offset).2 ≤ offset ∧ (s.point offset).1 ≤ document.length ∧
      (s.point offset).2 = (escapes (document.take (s.point offset).1)).length := by
  obtain ⟨p, rest, hcheckpoints⟩ := List.exists_cons_of_ne_nil hsome
  have hhead : p = (0, 0) := by
    rcases h.first with ⟨hnil, -⟩ | hfirst
    · exact absurd hnil hsome
    · simpa [hcheckpoints] using hfirst
  have htake : s.checkpoints.takeWhile (fun p => p.2 ≤ offset) ≠ [] := by
    simp [hcheckpoints, hhead]
  have hpoint : s.point offset =
      (s.checkpoints.takeWhile fun p => p.2 ≤ offset).getLast htake := by
    rw [EscapedSource.point, List.getLast?_eq_some_getLast htake, Option.getD_some]
  have hmem := List.getLast_mem htake
  rw [← hpoint] at hmem
  have hbefore := List.all_eq_true.mp List.all_takeWhile _ hmem
  exact ⟨of_decide_eq_true hbefore,
    h.points _ ((List.takeWhile_sublist _).subset hmem)⟩

theorem Counting.lawful (h : s.Counting document) (hbody : Lawful bits shift s.body document)
    (hready : s.ready = true) (hcounted : (escapes document).length < 2 ^ bits) :
    Lawful bits 0 s.source (escapes document) := by
  have hdone : s.counted = document.length := by
    rw [← hbody.size]
    simpa [ready] using hready
  have hsize : s.size = (escapes document).length := by
    rw [h.size, hdone, List.take_length]
  refine ⟨hsize, ?_, fun offset hoffset => by omega⟩
  intro offset out _
  show s.copy offset out = _
  unfold EscapedSource.copy
  split_ifs with hstop
  · rcases hstop with hstop | hstop
    · exact absurd hready hstop
    · exact (slice_beyond (by omega)).symm
  · have hsome : s.checkpoints ≠ [] := by
      intro hnil
      rcases h.first with ⟨-, hzero⟩ | hfirst
      · have hempty : document = [] := List.length_eq_zero_iff.mp (by omega)
        rw [hempty, escapes_nil, List.length_nil] at hsize
        omega
      · rw [hnil] at hfirst
        cases hfirst
    obtain ⟨hle, hinput, hpoint⟩ := h.point hsome offset
    have hnothing : slice (escapes (document.take (s.point offset).1)) offset out = [] :=
      slice_beyond (by omega)
    have hcopy := copyFrom_slice offset out hbody (s.body.size + 1)
      (s.point offset).1 hinput (by rw [hbody.size]; omega)
    rw [hnothing, ← hpoint] at hcopy
    exact hcopy

/-! ## The construction -/

theorem Counting.countAll (h : s.Counting document) (hbody : Lawful bits shift s.body document)
    (fuel : Nat) : (countAll fuel s).Counting document ∧ (countAll fuel s).body = s.body := by
  induction fuel generalizing s with
  | zero => exact ⟨h, rfl⟩
  | succ fuel ih =>
    unfold EscapedSource.countAll
    split_ifs
    · have hstep := h.step hbody
      rw [← countStep_body s] at hbody
      obtain ⟨hcounting, hsame⟩ := ih hstep hbody
      exact ⟨hcounting, hsame.trans (countStep_body s)⟩
    · exact ⟨h, rfl⟩

theorem countStep_progress (hvalid : s.valid = true) (hready : s.ready = false) :
    s.countStep.checkpoints.length = s.checkpoints.length + 1 ∨ s.countStep.valid = false := by
  unfold countStep
  dsimp only
  rw [if_neg (by simp [hvalid, hready])]
  split_ifs
  · exact .inr rfl
  · exact .inr rfl
  · exact .inl (by simp)

/-- The loop of the constructor ends before its fuel does. -/
theorem Counting.stops (h : s.Counting document) (hbody : Lawful bits shift s.body document)
    (fuel : Nat) (hfuel : checkpointLimit < s.checkpoints.length + fuel) :
    (EscapedSource.countAll fuel s).valid = false ∨ (EscapedSource.countAll fuel s).ready = true := by
  induction fuel generalizing s with
  | zero =>
    have hlimit := h.limit
    omega
  | succ fuel ih =>
    unfold EscapedSource.countAll
    split_ifs with hmore
    · have hready : s.ready = false := by simpa using hmore.2
      have hstep := h.step hbody
      have hnext := hbody
      rw [← countStep_body s] at hnext
      rcases countStep_progress hmore.1 hready with hgrown | hinvalid
      · exact ih hstep hnext (by omega)
      · have hstay : EscapedSource.countAll fuel s.countStep = s.countStep := by
          cases fuel with
          | zero => rfl
          | succ fuel =>
            unfold EscapedSource.countAll
            rw [if_neg (by simp [hinvalid])]
        rw [hstay]
        exact .inl hinvalid
    · by_cases hvalid : s.valid = true
      · exact .inr (by simpa [hvalid] using hmore)
      · exact .inl (by simpa using hvalid)

/-- A body that fits the checkpoints is never refused. -/
theorem Counting.stays_valid (h : s.Counting document) (hbody : Lawful bits shift s.body document)
    (hvalid : s.valid = true)
    (hfits : document.length ≤ ResponseSource.windowBytes * checkpointLimit) :
    s.countStep.valid = true := by
  unfold countStep
  by_cases hstop : ¬ s.valid = true ∨ s.ready = true
  · rw [if_pos hstop]
    exact hvalid
  · rw [if_neg hstop]
    simp only [not_or, not_not, ready, decide_eq_true_eq] at hstop
    have hready := hstop.2
    rw [hbody.size] at hready
    have hwindows := h.windows
    have hroom : ¬ s.checkpoints.length = checkpointLimit := by
      intro hfull
      rw [hfull] at hwindows
      omega
    have hcopy := hbody.copy s.counted ResponseSource.windowBytes (hbody.counts _ (by omega))
    have hlength := congrArg List.length hcopy
    rw [slice_length] at hlength
    have hwindow : 0 < ResponseSource.windowBytes := by decide
    rw [if_neg hroom]
    dsimp only
    rw [if_neg (by omega)]
    exact hvalid

theorem Counting.all_valid (h : s.Counting document) (hbody : Lawful bits shift s.body document)
    (hvalid : s.valid = true)
    (hfits : document.length ≤ ResponseSource.windowBytes * checkpointLimit) (fuel : Nat) :
    (EscapedSource.countAll fuel s).valid = true := by
  induction fuel generalizing s with
  | zero => exact hvalid
  | succ fuel ih =>
    unfold EscapedSource.countAll
    split_ifs
    · have hnext := hbody
      rw [← countStep_body s] at hnext
      exact ih (h.step hbody) hnext (h.stays_valid hbody hvalid hfits)
    · exact hvalid

theorem make_counting (h : Lawful bits shift body document) (incremental : Bool) :
    (make body incremental).Counting document ∧ (make body incremental).body = body := by
  unfold make
  split_ifs
  · exact ⟨Counting.fresh body true document, rfl⟩
  · exact (Counting.fresh body true document).countAll h _
  · exact ⟨Counting.fresh body false document, rfl⟩

theorem Counting.ready_fits (h : s.Counting document) (hbody : Lawful bits shift s.body document)
    (hready : s.ready = true) :
    document.length ≤ ResponseSource.windowBytes * checkpointLimit := by
  have hwindows := h.windows
  have hspan := Nat.mul_le_mul_left ResponseSource.windowBytes h.limit
  simp only [ready, decide_eq_true_eq, hbody.size] at hready
  omega

/-- An escaped source counted at once is ready, and valid, exactly when its body, which may be
read again, has no more windows than there are checkpoints. -/
theorem make_ready (h : Lawful bits shift body document) (hreplayable : body.replayable = true) :
    ((make body).ready = true ↔
        document.length ≤ ResponseSource.windowBytes * checkpointLimit) ∧
      ((make body).valid = true ↔
        document.length ≤ ResponseSource.windowBytes * checkpointLimit) := by
  have hmake : make body = EscapedSource.countAll (checkpointLimit + 1) { body } := by
    simp [make, hreplayable]
  have hfresh := Counting.fresh body true document
  have hstops := hfresh.stops h (checkpointLimit + 1) (by simp)
  obtain ⟨hcounting, hbody⟩ := make_counting h false
  have hlawful := h
  rw [← hbody] at hlawful
  rw [← hmake] at hstops
  have hvalid : document.length ≤ ResponseSource.windowBytes * checkpointLimit →
      (make body).valid = true := by
    intro hfits
    rw [hmake]
    exact hfresh.all_valid h rfl hfits _
  refine ⟨⟨hcounting.ready_fits hlawful, ?_⟩, ⟨?_, hvalid⟩⟩
  · intro hfits
    rcases hstops with hinvalid | hready
    · rw [hvalid hfits] at hinvalid
      cases hinvalid
    · exact hready
  · intro hdone
    rcases hstops with hinvalid | hready
    · rw [hdone] at hinvalid
      cases hinvalid
    · exact hcounting.ready_fits hlawful hready

end EscapedSource

end WsprryPico.Wtp
