import WsprryPico.Wtp.LoadDocument

/-!
# The browser's source of a LOAD reply

A copy finds the adjustment its offset falls in among the places counted by the constructor,
and writes the adjustments from there on until the room is filled.
-/

namespace WsprryPico.Wtp

open Lib Json

variable {r : Codec.Request} {s : Response} {b : BrowserLoadSource} {l : List FrequencyAdjustment}
  {index size offset out : Nat} {before : Bytes}

/-- The place of an event is a word of the machine. -/
def Indexed (l : List FrequencyAdjustment) : Prop := ∀ a ∈ l, a.eventIndex < 2 ^ 64

namespace BrowserLoadSource

theorem format_part {a : FrequencyAdjustment} (h : a.eventIndex < 2 ^ 64) (index : Nat) :
    format index a = adjustmentPart index a := by
  have htext : (if index = 0 then [] else ascii ",") ++ ascii "\x7b\"event_index\":" ++
      decimal a.eventIndex ++ ascii ",\"requested_frequency_nhz\":\"" ++
      decimal a.requestedFrequencyNhz.toNat ++ ascii "\",\"realized_frequency_nhz\":\"" ++
      decimal a.realizedFrequencyNhz.toNat ++ ascii "\"\x7d" = adjustmentPart index a := by
    have hrequested : ascii ",\"requested_frequency_nhz\":\"" =
        ascii ",\"requested_frequency_nhz\":" ++ [34] := by decide
    have hrealized : ascii "\",\"realized_frequency_nhz\":\"" =
        [34] ++ ascii ",\"realized_frequency_nhz\":" ++ [34] := by decide
    have hclose : ascii "\"\x7d" = [34] ++ ascii "\x7d" := by decide
    rw [hrequested, hrealized, hclose, adjustmentPart, adjustmentJson, ns_decimal, ns_decimal]
    simp only [List.append_assoc, List.cons_append, List.nil_append]
  have hwide : ∀ n < 2 ^ 64, decimalWidth n ≤ 20 := by
    intro n hn
    rw [decimalWidth_length, decimal_length_le (by decide)]
    exact Nat.lt_of_lt_of_le hn (by decide)
  have hpunctuation : punctuation.length ≤ 100 := by decide
  have hlength := adjustmentPart_length index a
  unfold adjustmentBytes at hlength
  have h₁ := hwide _ h
  have h₂ := hwide _ a.requestedFrequencyNhz.toNat_lt
  have h₃ := hwide _ a.realizedFrequencyNhz.toNat_lt
  unfold format
  dsimp only
  rw [htext, if_pos]
  split_ifs at hlength <;> omega

/-! ## Places -/

theorem place_length : (place size index l).1.length = l.length + 1 := by
  induction l generalizing size index with
  | nil => rfl
  | cons a l ih => simp [place, ih]

theorem place_total : (place size index l).2 = size + (partsFrom index l).flatten.length := by
  induction l generalizing size index with
  | nil => rfl
  | cons a l ih =>
    rw [partsFrom, List.flatten_cons, List.length_append, adjustmentPart_length, place, ih]
    omega

/-- An adjustment begins where the parts before it end. -/
theorem place_offset (size index : Nat) {k : Nat} (hk : k ≤ l.length) :
    (place size index l).1.getD k 0 = size + ((partsFrom index l).take k).flatten.length := by
  induction l generalizing size index k with
  | nil =>
    obtain rfl : k = 0 := by simpa using hk
    rfl
  | cons a l ih =>
    cases k with
    | zero => rfl
    | succ k =>
      have hrest := ih (size + adjustmentBytes index a) (index + 1) (k := k) (by simpa using hk)
      rw [place, List.getD_cons_succ, hrest, partsFrom, List.take_succ_cons, List.flatten_cons,
        List.length_append, adjustmentPart_length]
      omega

theorem partsFrom_length (index : Nat) : (partsFrom index l).length = l.length := by
  induction l generalizing index with
  | nil => rfl
  | cons a l ih => simp [partsFrom, ih (index + 1)]

theorem partsFrom_drop (index k : Nat) :
    (partsFrom index l).drop k = partsFrom (index + k) (l.drop k) := by
  induction l generalizing index k with
  | nil => simp [partsFrom]
  | cons a l ih =>
    cases k with
    | zero => rfl
    | succ k =>
      rw [partsFrom, List.drop_succ_cons, List.drop_succ_cons, ih, Nat.add_assoc, Nat.add_comm 1]

/-- The constructor's places are those of the adjustments behind the front text. -/
structure Placed (b : BrowserLoadSource) : Prop where
  offsets : b.offsets = (place b.front.length 0 b.adjustments).1
  size : b.size = (place b.front.length 0 b.adjustments).2 + 3
  indexed : Indexed b.adjustments

/-- The front text and the first adjustments. -/
def upTo (b : BrowserLoadSource) (k : Nat) : Bytes :=
  b.front ++ ((partsFrom 0 b.adjustments).take k).flatten

def document (b : BrowserLoadSource) : Bytes := b.upTo b.adjustments.length ++ loadEnd

theorem Placed.offset_eq (h : b.Placed) {k : Nat} (hk : k ≤ b.adjustments.length) :
    b.offsets.getD k 0 = (b.upTo k).length := by
  rw [h.offsets, place_offset _ _ hk, upTo, List.length_append]

theorem Placed.length (h : b.Placed) : b.offsets.length = b.adjustments.length + 1 := by
  rw [h.offsets, place_length]

theorem Placed.last (h : b.Placed) : b.last = (b.upTo b.adjustments.length).length := by
  rw [← h.offset_eq (Nat.le_refl _), BrowserLoadSource.last, List.getLastD_eq_getLast?,
    List.getLast?_eq_getElem?, h.length, Nat.add_sub_cancel, List.getD_eq_getElem?_getD]

theorem upTo_succ {k : Nat} {a : FrequencyAdjustment} {rest : List FrequencyAdjustment}
    (h : b.adjustments.drop k = a :: rest) :
    b.upTo (k + 1) = b.upTo k ++ adjustmentPart k a := by
  have hdrop := partsFrom_drop (l := b.adjustments) 0 k
  rw [h, Nat.zero_add, partsFrom] at hdrop
  have hpart : (partsFrom 0 b.adjustments)[k]? = some (adjustmentPart k a) := by
    rw [← List.head?_drop, hdrop]
    rfl
  rw [upTo, upTo, List.take_add_one, hpart, List.flatten_append, ← List.append_assoc]
  simp

theorem upTo_whole (b : BrowserLoadSource) (k : Nat) :
    ∃ rest, b.upTo b.adjustments.length = b.upTo k ++ rest := by
  refine ⟨((partsFrom 0 b.adjustments).drop k).flatten, ?_⟩
  rw [upTo, upTo, ← partsFrom_length (l := b.adjustments) 0, List.take_length, List.append_assoc,
    ← List.flatten_append, List.take_append_drop]

/-! ## The copy -/

/-- From where an adjustment begins, the loop copies what is left of the adjustments. -/
theorem copyList_slice (h : b.Placed) (offset out : Nat) (rest : List FrequencyAdjustment)
    {index : Nat} (hdrop : b.adjustments.drop index = rest)
    (hinside : rest ≠ [] → offset < (b.upTo (index + 1)).length) :
    b.copyList out index rest (offset + (slice (b.upTo index) offset out).length,
        slice (b.upTo index) offset out) =
      (offset + (slice (b.upTo b.adjustments.length) offset out).length,
        slice (b.upTo b.adjustments.length) offset out) := by
  have hfull : ∀ k, (slice (b.upTo k) offset out).length = out →
      slice (b.upTo b.adjustments.length) offset out = slice (b.upTo k) offset out := by
    intro k hk
    obtain ⟨tail, hwhole⟩ := b.upTo_whole k
    rw [hwhole]
    exact slice_full hk
  induction rest generalizing index with
  | nil =>
    have hend : b.adjustments.length ≤ index := List.drop_eq_nil_iff.mp hdrop
    have hsame : b.upTo index = b.upTo b.adjustments.length := by
      rw [upTo, upTo, List.take_of_length_le (by rw [partsFrom_length]; exact hend),
        List.take_of_length_le (Nat.le_of_eq (partsFrom_length 0))]
    rw [hsame]
    rfl
  | cons a rest ih =>
    have hindex : index < b.adjustments.length := by
      by_contra hno
      rw [List.drop_of_length_le (by omega)] at hdrop
      cases hdrop
    have hmem : a ∈ b.adjustments := List.mem_of_mem_drop (hdrop ▸ List.mem_cons_self)
    have hnext := upTo_succ hdrop
    have hgo := hinside (List.cons_ne_nil _ _)
    have hdone : (slice (b.upTo index) offset out).length =
        min out ((b.upTo index).length - offset) := slice_length
    have hlater : (slice (b.upTo (index + 1)) offset out).length =
        min out ((b.upTo (index + 1)).length - offset) := slice_length
    unfold copyList
    by_cases hroom : (slice (b.upTo index) offset out).length < out
    · rw [if_neg (by simpa using hroom), h.offset_eq (by omega), h.offset_eq (by omega),
        format_part (h.indexed a hmem), copyText_slice]
      have hcopied : slice (b.upTo index) offset out ++
          slice (adjustmentPart index a) (offset + (slice (b.upTo index) offset out).length -
            (b.upTo index).length) (out - (slice (b.upTo index) offset out).length) =
          slice (b.upTo (index + 1)) offset out := by
        rw [hnext, slice_append]
        congr 2
        omega
      have hlength := congrArg List.length hcopied
      rw [List.length_append] at hlength
      dsimp only
      rw [hcopied, Nat.add_assoc, hlength]
      split_ifs with hbreak
      · -- The loop breaks off where the room is filled.
        rw [hfull (index + 1) (by omega)]
      · refine ih ?_ ?_
        · rw [← List.drop_drop, hdrop]
          rfl
        · intro hmore
          obtain ⟨a', rest', rfl⟩ := List.exists_cons_of_ne_nil hmore
          have hdrop' : b.adjustments.drop (index + 1) = a' :: rest' := by
            rw [← List.drop_drop, hdrop]
            rfl
          rw [upTo_succ hdrop', List.length_append]
          omega
    · rw [if_pos (by simpa using hroom), hfull index (by omega)]

/-- The entries before the first one past a bound, and that one. -/
theorem takeWhile_getD (place : Nat) (l : List Nat) :
    (∀ k < (l.takeWhile (· ≤ place)).length, l.getD k 0 ≤ place) ∧
      ((l.takeWhile (· ≤ place)).length < l.length →
        place < l.getD (l.takeWhile (· ≤ place)).length 0) := by
  induction l with
  | nil => exact ⟨by simp, by simp⟩
  | cons x l ih =>
    rw [List.takeWhile_cons]
    by_cases hx : x ≤ place
    · rw [if_pos (by simpa using hx), List.length_cons]
      refine ⟨?_, ?_⟩
      · intro k hk
        cases k with
        | zero => exact hx
        | succ k => exact ih.1 k (by omega)
      · intro hmore
        exact ih.2 (by simpa using hmore)
    · rw [if_neg (by simpa using hx)]
      exact ⟨by simp, fun _ => by simpa using hx⟩

/-- The adjustment found for an offset behind the front text is the one around it. -/
theorem Placed.found (h : b.Placed) {place : Nat} (hplace : 0 < b.upperBound place)
    (hinside : place < b.last) :
    b.upperBound place - 1 < b.adjustments.length ∧
      (b.upTo (b.upperBound place - 1)).length ≤ place ∧
      place < (b.upTo (b.upperBound place - 1 + 1)).length := by
  obtain ⟨hbefore, hafter⟩ := takeWhile_getD place b.offsets
  have hlength := h.length
  have hlast := h.last
  have hend := h.offset_eq (Nat.le_refl b.adjustments.length)
  change ∀ k < b.upperBound place, b.offsets.getD k 0 ≤ place at hbefore
  change b.upperBound place < b.offsets.length →
    place < b.offsets.getD (b.upperBound place) 0 at hafter
  have hbound : b.upperBound place ≤ b.adjustments.length := by
    by_contra hall
    have hpast := hbefore b.adjustments.length (by omega)
    omega
  have hat := hbefore (b.upperBound place - 1) (by omega)
  have hpast := hafter (by omega)
  rw [h.offset_eq (by omega)] at hat
  rw [h.offset_eq hbound] at hpast
  rw [Nat.sub_add_cancel hplace]
  exact ⟨by omega, hat, hpast⟩

theorem upTo_zero (b : BrowserLoadSource) : b.upTo 0 = b.front := by
  simp [upTo]

theorem upTo_front {k : Nat} (h : (b.upTo k).length ≤ b.front.length) : b.upTo k = b.front := by
  unfold upTo at h ⊢
  rw [List.length_append] at h
  have hnone : ((partsFrom 0 b.adjustments).take k).flatten = [] :=
    List.length_eq_zero_iff.mp (by omega)
  rw [hnone, List.append_nil]

theorem Placed.copyFront (h : b.Placed) (offset out : Nat) {place : Nat} {head : Bytes}
    (hhead : head = slice b.front offset out) (hplace : place = offset + head.length) :
    (if place < b.last ∧ 0 < b.upperBound place then
        b.copyList out (b.upperBound place - 1) (b.adjustments.drop (b.upperBound place - 1))
          (place, head)
      else (place, head)) =
      (offset + (slice (b.upTo b.adjustments.length) offset out).length,
        slice (b.upTo b.adjustments.length) offset out) := by
  have hlength : head.length = min out (b.front.length - offset) := by rw [hhead, slice_length]
  obtain ⟨tail, hwhole⟩ := b.upTo_whole 0
  rw [upTo_zero] at hwhole
  have hlast := h.last
  split_ifs with hlist
  · obtain ⟨hindex, hbefore, hafter⟩ := h.found hlist.2 hlist.1
    have hsame : slice (b.upTo (b.upperBound place - 1)) offset out = head := by
      by_cases hfront : b.front.length ≤ offset
      · have hnone : head = [] := List.length_eq_zero_iff.mp (by omega)
        rw [hnone] at hplace ⊢
        exact slice_beyond (by simp only [List.length_nil] at hplace; omega)
      · rw [hhead]
        have hzero := (takeWhile_getD place b.offsets).1 0 hlist.2
        rw [h.offset_eq (Nat.zero_le _), upTo_zero] at hzero
        rw [upTo_front (by omega)]
    have hdrop : b.adjustments.drop (b.upperBound place - 1) =
        b.adjustments.drop (b.upperBound place - 1) := rfl
    have hcopy := copyList_slice h offset out _ hdrop fun _ => by omega
    rw [hsame, ← hplace] at hcopy
    exact hcopy
  · have hsame : slice (b.upTo b.adjustments.length) offset out = head := by
      by_cases hroom : head.length = out
      · rw [hwhole, slice_full (by rw [← hhead]; exact hroom), hhead]
      · have hfirst := (takeWhile_getD place b.offsets).2
        have hcount := h.length
        change b.upperBound place < b.offsets.length →
          place < b.offsets.getD (b.upperBound place) 0 at hfirst
        have hsome : 0 < b.upperBound place := by
          by_contra hzero
          have hnone : b.upperBound place = 0 := by omega
          rw [hnone, h.offset_eq (Nat.zero_le _), upTo_zero] at hfirst
          omega
        have hpast : b.last ≤ place := by
          by_contra hinside
          exact hlist ⟨by omega, hsome⟩
        by_cases hfront : b.front.length ≤ offset
        · have hnone : head = [] := List.length_eq_zero_iff.mp (by omega)
          rw [hnone] at hplace ⊢
          exact slice_beyond (by simp only [List.length_nil] at hplace; omega)
        · rw [upTo_front (by omega), hhead]
    rw [hsame, hplace]

theorem Placed.copy (h : b.Placed) (offset out : Nat) :
    b.copy offset out = slice b.document offset out := by
  have hhead : (if offset < b.front.length then copyText b.front offset out else []) =
      slice b.front offset out := by
    split_ifs with hfront
    · exact copyText_slice b.front offset out
    · exact (slice_beyond (by omega)).symm
  have hlist := h.copyFront offset out rfl rfl
  have hdone : (slice (b.upTo b.adjustments.length) offset out).length =
      min out ((b.upTo b.adjustments.length).length - offset) := slice_length
  unfold BrowserLoadSource.copy
  dsimp only
  rw [hhead, hlist, h.last, document, slice_append]
  congr 1
  split_ifs with hend
  · rw [copyText_slice]
    congr 1
    omega
  · dsimp only at hend
    by_cases hroom : out - (slice (b.upTo b.adjustments.length) offset out).length = 0
    · rw [hroom, slice_none]
    · omega

theorem make_placed (r : Codec.Request) (h : Indexed s.adjustments) : (make r s).Placed :=
  ⟨rfl, rfl, h⟩

theorem make_document (r : Codec.Request) (s : Response) :
    (make r s).document = browserFront r s ++ (loadParts s).flatten := by
  have hlength : s.adjustments.length = (partsFrom 0 s.adjustments).length :=
    (partsFrom_length 0).symm
  have hwhole : (make r s).upTo s.adjustments.length =
      browserFront r s ++ (partsFrom 0 s.adjustments).flatten := by
    rw [upTo, hlength]
    show _ ++ ((partsFrom 0 s.adjustments).take _).flatten = _
    rw [List.take_length]
    rfl
  show (make r s).upTo s.adjustments.length ++ loadEnd = _
  rw [hwhole, loadParts_eq, List.append_assoc]

theorem Placed.size_eq (h : b.Placed) : b.size = b.document.length := by
  have hend : loadEnd.length = 3 := rfl
  rw [h.size, place_total, document, List.length_append, hend, upTo, List.length_append,
    List.take_of_length_le (Nat.le_of_eq (partsFrom_length 0))]

theorem Placed.lawful {bits : Nat} (h : b.Placed) (hcounted : b.document.length < 2 ^ bits) :
    Lawful bits 0 b.source b.document :=
  ⟨h.size_eq, fun offset out _ => h.copy offset out, fun offset hoffset => by omega⟩

end BrowserLoadSource

end WsprryPico.Wtp
