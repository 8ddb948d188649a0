import WsprryPico.Encoding.Wspr
import Mathlib.Data.Nat.Bitwise
import Mathlib.Data.Set.Function
import Mathlib.Order.Interval.Set.Defs

/-!
# Channel coding

The channel symbols of `wspr_channel` carry the synchronisation vector in their
low bits and the convolutional bits above it, each at one place. The payload is
read back from the first parity of each shift: both masks are odd, so that the
newest bit of the register always counts.
-/

namespace WsprryPico.Encoding

/-! ## Parities -/

theorem foldl_xor (f : Nat → UInt8) (l : List Nat) (a : UInt8) :
    l.foldl (fun p bit => p ^^^ f bit) a = a ^^^ l.foldl (fun p bit => p ^^^ f bit) 0 := by
  induction l generalizing a with
  | nil => simp
  | cons bit l ih =>
    rw [List.foldl_cons, List.foldl_cons, ih, ih (0 ^^^ f bit), UInt8.zero_xor, UInt8.xor_assoc]

theorem foldl_congr {f g : Nat → UInt8} {l : List Nat} (h : ∀ bit ∈ l, f bit = g bit) (a : UInt8) :
    l.foldl (fun p bit => p ^^^ f bit) a = l.foldl (fun p bit => p ^^^ g bit) a := by
  induction l generalizing a with
  | nil => rfl
  | cons bit l ih =>
    rw [List.forall_mem_cons] at h
    rw [List.foldl_cons, List.foldl_cons, h.1, ih h.2]

/-- One bit of a word under a mask. -/
def bitUnder (word mask : UInt32) (bit : Nat) : UInt8 :=
  ((word &&& mask) >>> UInt32.ofNat bit).toUInt8 &&& 1

theorem parityOf_eq (word mask : UInt32) :
    parityOf word mask = (List.range 32).foldl (fun p bit => p ^^^ bitUnder word mask bit) 0 := rfl

theorem bitUnder_eq (word mask : UInt32) {bit : Nat} (h : bit < 32) :
    bitUnder word mask bit = if word.toNat.testBit bit && mask.toNat.testBit bit then 1 else 0 := by
  have hshift : (UInt32.ofNat bit).toNat % 32 = bit := by
    rw [UInt32.toNat_ofNat', Nat.mod_eq_of_lt (by omega : bit < 2 ^ 32), Nat.mod_eq_of_lt h]
  rw [← UInt8.toNat_inj, ← Nat.testBit_and, ← UInt32.toNat_and]
  unfold bitUnder
  rw [UInt8.toNat_and, UInt32.toNat_toUInt8, UInt32.toNat_shiftRight, hshift]
  generalize (word &&& mask).toNat = n
  show n >>> bit % 2 ^ 8 &&& 1 = _
  rw [Nat.and_one_is_mod, Nat.mod_mod_of_dvd _ (by decide : 2 ∣ 2 ^ 8),
    Nat.testBit_eq_decide_div_mod_eq, Nat.shiftRight_eq_div_pow]
  rcases Nat.mod_two_eq_zero_or_one (n / 2 ^ bit) with hbit | hbit <;> simp [hbit]

/-! ## The register -/

/-- The register with a bit shifted in. -/
def shiftIn (register : UInt32) (bit : Bool) : UInt32 :=
  (register <<< 1) ||| if bit then 1 else 0

theorem shiftIn_testBit (register : UInt32) (bit : Bool) (i : Nat) :
    (shiftIn register bit).toNat.testBit i =
      ((decide (i < 32) && (decide (1 ≤ i) && register.toNat.testBit (i - 1))) ||
        (bit && decide (i = 0))) := by
  have hbit : (if bit then 1 else 0 : UInt32).toNat = bit.toNat := by cases bit <;> rfl
  unfold shiftIn
  rw [UInt32.toNat_or, UInt32.toNat_shiftLeft, hbit, Nat.testBit_or]
  show (((register.toNat <<< 1) % 2 ^ 32).testBit i || bit.toNat.testBit i) = _
  rw [Nat.testBit_mod_two_pow, Nat.testBit_shiftLeft]
  congr 1
  cases bit with
  | false => simp
  | true =>
    cases i with
    | zero => rfl
    | succ i => simp [Nat.testBit_succ]

theorem shiftIn_low (register : UInt32) (bit : Bool) :
    (shiftIn register bit).toNat.testBit 0 = bit := by
  rw [shiftIn_testBit]
  simp

theorem shiftIn_high (register : UInt32) (bit bit' : Bool) (i : Nat) :
    (shiftIn register bit).toNat.testBit (i + 1) =
      (shiftIn register bit').toNat.testBit (i + 1) := by
  simp [shiftIn_testBit]

/-- Under an odd mask the parity tells the bit shifted in. -/
theorem parityOf_shiftIn {mask : UInt32} (hodd : mask.toNat.testBit 0 = true)
    {register : UInt32} {bit bit' : Bool}
    (h : parityOf (shiftIn register bit) mask = parityOf (shiftIn register bit') mask) :
    bit = bit' := by
  have hsplit : ∀ b : Bool, parityOf (shiftIn register b) mask = (if b then 1 else 0) ^^^
      ((List.range 31).map (· + 1)).foldl
        (fun p i => p ^^^ bitUnder (shiftIn register b) mask i) 0 := by
    intro b
    rw [parityOf_eq, show List.range 32 = 0 :: (List.range 31).map (· + 1) from
      List.range_succ_eq_map, List.foldl_cons, foldl_xor, UInt8.zero_xor,
      bitUnder_eq _ _ (by decide), shiftIn_low, hodd, Bool.and_true]
  have htail : ∀ i ∈ (List.range 31).map (· + 1), bitUnder (shiftIn register bit) mask i =
      bitUnder (shiftIn register bit') mask i := by
    intro i hi
    obtain ⟨j, hj, rfl⟩ := List.mem_map.mp hi
    have hj : j + 1 < 32 := by
      rw [List.mem_range] at hj
      omega
    rw [bitUnder_eq _ _ hj, bitUnder_eq _ _ hj, shiftIn_high register bit bit']
  rw [hsplit, hsplit, foldl_congr htail, UInt8.xor_left_inj] at h
  cases bit <;> cases bit' <;> first | rfl | exact absurd h (by decide)

/-! ## The code -/

/-- The bit of the payload that is shifted in at step `i`. -/
def payloadBit (payload i : Nat) : Bool := decide (i < 50) && payload.testBit (49 - i)

/-- The register after `n` steps. -/
def register (payload : Nat) : Nat → UInt32
  | 0 => 0
  | n + 1 => shiftIn (register payload n) (payloadBit payload n)

theorem convolve_fold (payload n : Nat) :
    (List.range n).foldl (fun (state : UInt32 × List UInt8) i =>
      let bit : UInt32 := if i < 50 ∧ payload.testBit (49 - i) then 1 else 0
      let shift := (state.1 <<< 1) ||| bit
      (shift, state.2 ++ [parityOf shift 0xf2d05351, parityOf shift 0xe4613c47])) (0, []) =
    (register payload n, (List.range n).flatMap fun i =>
      [parityOf (register payload (i + 1)) 0xf2d05351,
        parityOf (register payload (i + 1)) 0xe4613c47]) := by
  induction n with
  | zero => rfl
  | succ n ih =>
    rw [List.range_succ, List.foldl_append, ih, List.flatMap_append]
    have hstep : register payload (n + 1) = (register payload n <<< 1) |||
        if n < 50 ∧ payload.testBit (49 - n) then 1 else 0 := by
      show _ ||| _ = _
      simp [payloadBit]
    simp [hstep]

theorem convolve_eq (payload : Nat) :
    convolve payload = (List.range 81).flatMap fun i =>
      [parityOf (register payload (i + 1)) 0xf2d05351,
        parityOf (register payload (i + 1)) 0xe4613c47] :=
  congrArg Prod.snd (convolve_fold payload 81)

theorem convolve_length (payload : Nat) : (convolve payload).length = 162 := by
  rw [convolve_eq, List.length_flatMap]
  simp

/-- The first parity of a step stands at an even place. -/
theorem convolve_first (payload : Nat) {i : Nat} (h : i < 81) :
    (convolve payload)[2 * i]? = some (parityOf (register payload (i + 1)) 0xf2d05351) := by
  have hpairs : ∀ (f g : Nat → UInt8) (n : Nat), i < n →
      ((List.range n).flatMap fun j => [f j, g j])[2 * i]? = some (f i) := by
    intro f g n hn
    induction n with
    | zero => omega
    | succ n ih =>
      have hlen : ((List.range n).flatMap fun j => [f j, g j]).length = 2 * n := by
        rw [List.length_flatMap]
        simp [Nat.mul_comm]
      rw [List.range_succ, List.flatMap_append]
      by_cases hi : i < n
      · rw [List.getElem?_append_left (by omega), ih hi]
      · obtain rfl : i = n := by omega
        rw [List.getElem?_append_right (by omega), hlen, Nat.sub_self]
        rfl
  rw [convolve_eq, hpairs _ _ 81 h]

/-- Equal codes come of equal bits. -/
theorem register_inj {p q : Nat} (h : convolve p = convolve q) :
    ∀ n ≤ 81, register p n = register q n ∧ ∀ i < n, payloadBit p i = payloadBit q i := by
  intro n hn
  induction n with
  | zero => exact ⟨rfl, fun i hi => absurd hi (Nat.not_lt_zero i)⟩
  | succ n ih =>
    obtain ⟨hregister, hbits⟩ := ih (by omega)
    have hparity := Option.some.inj ((convolve_first p (by omega : n < 81)).symm.trans
      ((congrArg (·[2 * n]?) h).trans (convolve_first q (by omega))))
    rw [register, register, hregister] at hparity
    have hbit := parityOf_shiftIn (by decide) hparity
    refine ⟨by rw [register, register, hregister, hbit], fun i hi => ?_⟩
    rcases Nat.lt_succ_iff_lt_or_eq.mp hi with hi | rfl
    · exact hbits i hi
    · exact hbit

/-- The code of fifty bits tells them. -/
theorem convolve_inj {p q : Nat} (hp : p < 2 ^ 50) (hq : q < 2 ^ 50)
    (h : convolve p = convolve q) : p = q := by
  obtain ⟨-, hbits⟩ := register_inj h 50 (by decide)
  refine Nat.eq_of_testBit_eq fun i => ?_
  by_cases hi : i < 50
  · have hbit := hbits (49 - i) (by omega)
    unfold payloadBit at hbit
    rwa [decide_eq_true (by omega : 49 - i < 50), Bool.true_and, Bool.true_and,
      show 49 - (49 - i) = i by omega] at hbit
  · have hlarge : 2 ^ 50 ≤ 2 ^ i := Nat.pow_le_pow_right (by decide) (Nat.not_lt.mp hi)
    rw [Nat.testBit_lt_two_pow (hp.trans_le hlarge), Nat.testBit_lt_two_pow (hq.trans_le hlarge)]

/-! ## The places -/

/-- Where the bits go, in order. -/
def places : List Nat := ((List.range 256).map reversed).filter (· < 162)

theorem places_spec : places.Nodup ∧ places.length = 162 ∧ ∀ r < 162, r ∈ places := by
  decide +kernel

theorem places_nodup : places.Nodup := places_spec.1
theorem places_length : places.length = 162 := places_spec.2.1

theorem places_lt : ∀ r ∈ places, r < 162 := fun r hr => by
  simpa using (List.mem_filter.mp hr).2

/-- One bit is added to the symbol at its place. -/
def place (coded : List UInt8) (state : Nat × Symbols) (r : Nat) : Nat × Symbols :=
  (state.1 + 1, state.2.modify r (· + 2 * coded.getD state.1 0))

theorem foldl_places (coded : List UInt8) (is : List Nat) (state : Nat × Symbols) :
    is.foldl (fun (state : Nat × Symbols) i =>
      if reversed i < 162 then
        (state.1 + 1, state.2.modify (reversed i) (· + 2 * coded.getD state.1 0))
      else state) state = ((is.map reversed).filter (· < 162)).foldl (place coded) state := by
  induction is generalizing state with
  | nil => rfl
  | cons i is ih =>
    rw [List.foldl_cons, ih, List.map_cons]
    by_cases h : reversed i < 162
    · rw [if_pos h, List.filter_cons_of_pos (by simpa using h), List.foldl_cons]
      rfl
    · rw [if_neg h, List.filter_cons_of_neg (by simpa using h)]

theorem wsprChannel_places (payload : Nat) :
    wsprChannel payload = (places.foldl (place (convolve payload)) (0, sync)).2 :=
  congrArg Prod.snd (foldl_places (convolve payload) (List.range 256) (0, sync))

theorem place_rest (coded : List UInt8) {rs : List Nat} (n : Nat) (out : Symbols) {r : Nat}
    (h : r ∉ rs) : (rs.foldl (place coded) (n, out)).2[r]? = out[r]? := by
  induction rs generalizing n out with
  | nil => rfl
  | cons r' rs ih =>
    rw [List.mem_cons, not_or] at h
    rw [List.foldl_cons]
    refine (ih (n + 1) _ h.2).trans ?_
    exact List.getElem?_modify_ne _ _ (Ne.symm h.1)

/-- Each bit is added at its place, and no other there. -/
theorem place_fold (coded : List UInt8) {rs : List Nat} (hnodup : rs.Nodup) (n : Nat)
    (out : Symbols) {k r : Nat} (h : rs[k]? = some r) :
    (rs.foldl (place coded) (n, out)).2[r]? = out[r]?.map (· + 2 * coded.getD (n + k) 0) := by
  induction rs generalizing n out k with
  | nil => exact nomatch h
  | cons r' rs ih =>
    rw [List.nodup_cons] at hnodup
    rw [List.foldl_cons]
    cases k with
    | zero =>
      cases h
      refine (place_rest coded (n + 1) _ hnodup.1).trans ?_
      exact List.getElem?_modify_eq _ _ _
    | succ k =>
      have hne : r' ≠ r := by
        rintro rfl
        exact hnodup.1 (List.mem_of_getElem? h)
      refine (ih hnodup.2 (n + 1) _ h).trans ?_
      rw [Nat.add_right_comm, Nat.add_assoc]
      exact congrArg (Option.map _) (List.getElem?_modify_ne _ _ hne)

theorem places_range {r : Nat} (h : r < 162) : ∃ k < 162, places[k]? = some r := by
  obtain ⟨k, hk, hget⟩ := List.mem_iff_getElem.mp (places_spec.2.2 r h)
  exact ⟨k, places_length ▸ hk, by rw [List.getElem?_eq_getElem hk, hget]⟩

theorem wsprChannel_symbol (payload : Nat) {k r : Nat} (h : places[k]? = some r) :
    (wsprChannel payload)[r]? =
      sync[r]?.map (· + 2 * (convolve payload).getD k 0) := by
  rw [wsprChannel_places, place_fold _ places_nodup 0 sync h, Nat.zero_add]

theorem wsprChannel_length (payload : Nat) : (wsprChannel payload).length = 162 := by
  have hplace : ∀ (coded : List UInt8) (rs : List Nat) (state : Nat × Symbols),
      (rs.foldl (place coded) state).2.length = state.2.length := by
    intro coded rs
    induction rs with
    | nil => exact fun state => rfl
    | cons r rs ih => exact fun state => (ih _).trans (List.length_modify ..)
  rw [wsprChannel_places, hplace]
  rfl

theorem parityOf_bit (word mask : UInt32) : parityOf word mask = 0 ∨ parityOf word mask = 1 := by
  have hbit : ∀ bit < 32, bitUnder word mask bit = 0 ∨ bitUnder word mask bit = 1 := by
    intro bit h
    rw [bitUnder_eq _ _ h]
    split
    · exact Or.inr rfl
    · exact Or.inl rfl
  have hfold : ∀ n ≤ 32, ((List.range n).foldl (fun p i => p ^^^ bitUnder word mask i) 0) = 0 ∨
      ((List.range n).foldl (fun p i => p ^^^ bitUnder word mask i) 0) = 1 := by
    intro n hn
    induction n with
    | zero => exact Or.inl rfl
    | succ n ih =>
      rw [List.range_succ, List.foldl_append, List.foldl_cons, List.foldl_nil]
      rcases ih (by omega) with h | h <;> rcases hbit n (by omega) with h' | h' <;>
        rw [h, h'] <;> decide
  exact hfold 32 (Nat.le_refl 32)

theorem convolve_bit (payload k : Nat) :
    (convolve payload).getD k 0 = 0 ∨ (convolve payload).getD k 0 = 1 := by
  rw [List.getD_eq_getElem?_getD]
  cases hk : (convolve payload)[k]? with
  | none => exact Or.inl rfl
  | some bit =>
    have hmem := List.mem_of_getElem? hk
    rw [convolve_eq, List.mem_flatMap] at hmem
    obtain ⟨i, -, hmem⟩ := hmem
    rw [List.mem_cons, List.mem_singleton] at hmem
    rcases hmem with rfl | rfl
    · exact parityOf_bit _ _
    · exact parityOf_bit _ _

theorem sync_bit : ∀ r < 162, sync.getD r 0 = 0 ∨ sync.getD r 0 = 1 := by decide +kernel

theorem symbol_split {s c : UInt8} (hs : s = 0 ∨ s = 1) (hc : c = 0 ∨ c = 1) :
    (s + 2 * c) % 2 = s ∧ (s + 2 * c) / 2 = c := by
  rcases hs with rfl | rfl <;> rcases hc with rfl | rfl <;> decide

theorem wsprChannel_getD (payload : Nat) {k r : Nat} (hr : r < 162) (h : places[k]? = some r) :
    (wsprChannel payload).getD r 0 = sync.getD r 0 + 2 * (convolve payload).getD k 0 := by
  rw [List.getD_eq_getElem?_getD, wsprChannel_symbol payload h,
    List.getD_eq_getElem?_getD (l := sync), List.getElem?_eq_getElem (show r < sync.length from hr)]
  rfl

theorem wsprChannel_inj {p q : Nat} (hp : p < 2 ^ 50) (hq : q < 2 ^ 50)
    (h : wsprChannel p = wsprChannel q) : p = q := by
  refine convolve_inj hp hq (List.ext_getElem? fun k => ?_)
  by_cases hk : k < 162
  · have hplace : places[k]? = some places[k] := List.getElem?_eq_getElem (places_length ▸ hk)
    have hr := places_lt _ (List.mem_of_getElem? hplace)
    have hsymbols : (wsprChannel p).getD places[k] 0 = (wsprChannel q).getD places[k] 0 := by
      rw [h]
    rw [wsprChannel_getD p hr hplace, wsprChannel_getD q hr hplace] at hsymbols
    have hbits : (convolve p).getD k 0 = (convolve q).getD k 0 := by
      rw [← (symbol_split (sync_bit _ hr) (convolve_bit p k)).2, hsymbols,
        (symbol_split (sync_bit _ hr) (convolve_bit q k)).2]
    rw [List.getD_eq_getElem?_getD, List.getD_eq_getElem?_getD,
      List.getElem?_eq_getElem (convolve_length p ▸ hk),
      List.getElem?_eq_getElem (convolve_length q ▸ hk)] at hbits
    rw [List.getElem?_eq_getElem (convolve_length p ▸ hk),
      List.getElem?_eq_getElem (convolve_length q ▸ hk)]
    exact congrArg some hbits
  · rw [List.getElem?_eq_none (by rw [convolve_length]; omega),
      List.getElem?_eq_none (by rw [convolve_length]; omega)]

/-- Distinct payloads of fifty bits have distinct symbols. The low bits of the symbols are the
synchronisation vector, and each of the coded bits goes to one place. -/
theorem wsprChannel_invertible :
    (∀ p q : Nat, p < 2 ^ 50 → q < 2 ^ 50 → p ≠ q → wsprChannel p ≠ wsprChannel q) ∧
    (∀ p, (wsprChannel p).length = 162 ∧
      ∀ r < 162, (wsprChannel p).getD r 0 % 2 = sync.getD r 0) ∧
    Set.BijOn (places.getD · 0) (Set.Iio 162) (Set.Iio 162) ∧
    ∀ p, ∀ k < 162, (wsprChannel p).getD (places.getD k 0) 0 =
      sync.getD (places.getD k 0) 0 + 2 * (convolve p).getD k 0 := by
  have hget : ∀ k < 162, places[k]? = some (places.getD k 0) := by
    intro k hk
    rw [List.getD_eq_getElem?_getD, List.getElem?_eq_getElem (places_length ▸ hk)]
    rfl
  have hlt : ∀ k < 162, places.getD k 0 < 162 := fun k hk =>
    places_lt _ (List.mem_of_getElem? (hget k hk))
  refine ⟨fun p q hp hq hne h => hne (wsprChannel_inj hp hq h),
    fun p => ⟨wsprChannel_length p, fun r hr => ?_⟩, ⟨hlt, ?_, ?_⟩,
    fun p k hk => wsprChannel_getD p (hlt k hk) (hget k hk)⟩
  · obtain ⟨k, -, hk⟩ := places_range hr
    rw [wsprChannel_getD p hr hk]
    exact (symbol_split (sync_bit r hr) (convolve_bit p k)).1
  · intro k hk j hj hkj
    have hsame : places[k]? = places[j]? :=
      (hget k hk).trans ((congrArg some hkj).trans (hget j hj).symm)
    exact (List.getElem?_inj (places_length.symm ▸ hk) places_nodup).mp hsame
  · intro r hr
    obtain ⟨k, hk, hr⟩ := places_range hr
    exact ⟨k, hk, Option.some.inj ((hget k hk).symm.trans hr)⟩

end WsprryPico.Encoding
