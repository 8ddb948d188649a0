import WsprryPico.Encoding.Wspr

/-!
# What a payload says

The payload of an accepted message determines its type, its power and its
content: the call and the square of Type 1, the call of Type 2 up to the suffixes
that share an extension, the locator and the hash of Type 3.
-/

namespace WsprryPico.Encoding

/-! ## Characters -/

/-- The characters of a padded call. -/
def Known (c : UInt8) : Prop := letter c = true ∨ digit c = true ∨ c = 32

theorem digit_iff {c : UInt8} : digit c = true ↔ 48 ≤ c.toNat ∧ c.toNat ≤ 57 := by
  simp [digit, UInt8.le_iff_toNat_le]

theorem letter_iff {c : UInt8} : letter c = true ↔ 65 ≤ c.toNat ∧ c.toNat ≤ 90 := by
  simp [letter, UInt8.le_iff_toNat_le]

theorem code_digit {c : UInt8} (h : digit c = true) :
    code c = c.toNat - 48 ∧ 48 ≤ c.toNat ∧ c.toNat ≤ 57 := ⟨if_pos h, digit_iff.mp h⟩

theorem code_letter {c : UInt8} (h : letter c = true) :
    code c = c.toNat - 55 ∧ 65 ≤ c.toNat ∧ c.toNat ≤ 90 := by
  have hrange := letter_iff.mp h
  have hnot : ¬ digit c = true := fun hdigit => by
    have := digit_iff.mp hdigit
    omega
  refine ⟨?_, hrange⟩
  rw [code, if_neg hnot, if_pos h]
  omega

theorem code_known {c : UInt8} (h : Known c) :
    (code c = c.toNat - 55 ∧ 65 ≤ c.toNat ∧ c.toNat ≤ 90) ∨
      (code c = c.toNat - 48 ∧ 48 ≤ c.toNat ∧ c.toNat ≤ 57) ∨ (code c = 36 ∧ c.toNat = 32) :=
  h.imp code_letter (.imp code_digit (by rintro rfl; exact ⟨rfl, rfl⟩))

theorem code_inj {c c' : UInt8} (h : Known c) (h' : Known c') (heq : code c = code c') :
    c = c' := by
  have := code_known h
  have := code_known h'
  exact UInt8.toNat_inj.mp (by omega)

theorem code_plain {c : UInt8} (h : letter c = true ∨ digit c = true) : code c < 36 ∧ Known c := by
  refine ⟨?_, h.imp_right .inl⟩
  rcases h with h | h
  · have := code_letter h
    omega
  · have := code_digit h
    omega

/-! ## Six characters -/

/-- Six characters that fit their places of the packing. -/
structure Packable (six : List UInt8) : Prop where
  length : six.length = 6
  known : ∀ i, i < 6 → Known (charAt six i)
  first : code (charAt six 0) < 37
  second : code (charAt six 1) < 36
  third : code (charAt six 2) < 10
  rest : ∀ i, 3 ≤ i → i < 6 → 10 ≤ code (charAt six i) ∧ code (charAt six i) < 37

theorem list_ext_charAt {xs ys : List UInt8} {n : Nat} (hx : xs.length = n) (hy : ys.length = n)
    (h : ∀ i, i < n → charAt xs i = charAt ys i) : xs = ys := by
  refine List.ext_getElem (hx.trans hy.symm) fun i hi hi' => ?_
  have := h i (hx ▸ hi)
  simpa [charAt, hi, hi'] using this

theorem packedSix_inj {xs ys : List UInt8} (hx : Packable xs) (hy : Packable ys)
    (h : packedSix xs = packedSix ys) : xs = ys := by
  unfold packedSix at h
  dsimp only at h
  have hx3 := hx.rest 3 (by decide) (by decide)
  have hx4 := hx.rest 4 (by decide) (by decide)
  have hx5 := hx.rest 5 (by decide) (by decide)
  have hy3 := hy.rest 3 (by decide) (by decide)
  have hy4 := hy.rest 4 (by decide) (by decide)
  have hy5 := hy.rest 5 (by decide) (by decide)
  have hxs := And.intro hx.second hx.third
  have hys := And.intro hy.second hy.third
  -- the codes one after the other, the last one first
  have hcodes : ∀ i, i < 6 → code (charAt xs i) = code (charAt ys i) := by
    have h5 : code (charAt xs 5) = code (charAt ys 5) := by omega
    have h4 : code (charAt xs 4) = code (charAt ys 4) := by omega
    have h3 : code (charAt xs 3) = code (charAt ys 3) := by omega
    have h2 : code (charAt xs 2) = code (charAt ys 2) := by omega
    have h1 : code (charAt xs 1) = code (charAt ys 1) := by omega
    have h0 : code (charAt xs 0) = code (charAt ys 0) := by omega
    intro i hi
    match i, hi with
    | 0, _ => exact h0
    | 1, _ => exact h1
    | 2, _ => exact h2
    | 3, _ => exact h3
    | 4, _ => exact h4
    | 5, _ => exact h5
  exact list_ext_charAt hx.length hy.length fun i hi =>
    code_inj (hx.known i hi) (hy.known i hi) (hcodes i hi)

theorem code_known_lt {c : UInt8} (h : Known c) : code c < 37 := by
  have := code_known h
  omega

theorem code_letter_range {c : UInt8} (h : letter c = true) : 10 ≤ code c ∧ code c < 37 := by
  have := code_letter h
  omega

theorem code_digit_lt {c : UInt8} (h : digit c = true) : code c < 10 := by
  have := code_digit h
  omega

/-- What an ordinary call is made of. -/
structure Ordinary (call : List UInt8) : Prop where
  long : 3 ≤ call.length
  fits : (if digit (charAt call 2) then 0 else 1) + call.length ≤ 6
  grammar : paddedCall (padded call) = true
  plain : ∀ c ∈ call, letter c = true ∨ digit c = true

theorem ordinary_iff {call : List UInt8} (h : ordinaryCall call = true) : Ordinary call := by
  simp only [ordinaryCall, Bool.and_eq_true, decide_eq_true_eq, List.all_eq_true,
    Bool.or_eq_true] at h
  obtain ⟨⟨⟨⟨⟨-, hlong⟩, -⟩, hfits⟩, hgrammar⟩, hplain⟩ := h
  exact ⟨hlong, hfits, hgrammar, hplain⟩

theorem padded_packable {call : List UInt8} (h : Ordinary call) : Packable (padded call) := by
  have hgrammar := h.grammar
  simp only [paddedCall, Bool.and_eq_true, Bool.or_eq_true, decide_eq_true_eq] at hgrammar
  obtain ⟨⟨⟨⟨⟨h0, h1⟩, h2⟩, h3⟩, h4⟩, h5⟩ := hgrammar
  have htail : ∀ {c : UInt8}, letter c = true ∨ c = 32 → 10 ≤ code c ∧ code c < 37 := by
    rintro c (hc | rfl)
    · exact code_letter_range hc
    · decide
  have k0 : Known (charAt (padded call) 0) := or_assoc.mp h0
  have k4 : Known (charAt (padded call) 4) := h4.imp_right .inr
  have k5 : Known (charAt (padded call) 5) := h5.imp_right .inr
  refine
    { length := ?_
      known := ?_
      first := code_known_lt k0
      second := (code_plain h1).1
      third := code_digit_lt h2
      rest := ?_ }
  · have hfits := h.fits
    simp only [padded, List.length_append, List.length_replicate]
    omega
  · intro i hi
    match i, hi with
    | 0, _ => exact k0
    | 1, _ => exact h1.imp_right .inl
    | 2, _ => exact .inr (.inl h2)
    | 3, _ => exact .inl h3
    | 4, _ => exact k4
    | 5, _ => exact k5
  · intro i hlow hi
    match i, hlow, hi with
    | 3, _, _ => exact code_letter_range h3
    | 4, _, _ => exact htail h4
    | 5, _, _ => exact htail h5

theorem padded_filter {call : List UInt8} (h : Ordinary call) :
    (padded call).filter (· ≠ 32) = call := by
  have hplain : ∀ c ∈ call, decide (c ≠ 32) = true := by
    intro c hc
    refine decide_eq_true ?_
    rintro rfl
    exact absurd (h.plain 32 hc) (by decide)
  simp only [padded, List.filter_append, List.filter_eq_self.mpr hplain]
  simp

theorem padded_inj {call call' : List UInt8} (h : Ordinary call) (h' : Ordinary call')
    (heq : packedSix (padded call) = packedSix (padded call')) : call = call' := by
  rw [← padded_filter h, ← padded_filter h',
    packedSix_inj (padded_packable h) (padded_packable h') heq]

/-! ## Locators and powers -/

structure Located (locator : List UInt8) : Prop where
  length : locator.length = 4 ∨ locator.length = 6
  field : 65 ≤ (charAt locator 0).toNat ∧ (charAt locator 0).toNat ≤ 82 ∧
    65 ≤ (charAt locator 1).toNat ∧ (charAt locator 1).toNat ≤ 82
  square : digit (charAt locator 2) = true ∧ digit (charAt locator 3) = true
  subsquare : locator.length = 6 → 65 ≤ (charAt locator 4).toNat ∧
    (charAt locator 4).toNat ≤ 88 ∧ 65 ≤ (charAt locator 5).toNat ∧ (charAt locator 5).toNat ≤ 88

theorem inRange_iff {low high c : UInt8} :
    inRange low high c = true ↔ low.toNat ≤ c.toNat ∧ c.toNat ≤ high.toNat := by
  simp [inRange, UInt8.le_iff_toNat_le]

theorem located_iff {locator : List UInt8} (h : validStationLocator locator = true) :
    Located locator := by
  simp only [validStationLocator, locatorSquare, Bool.and_eq_true, Bool.or_eq_true,
    decide_eq_true_eq, inRange_iff] at h
  obtain ⟨⟨hlength, ⟨⟨⟨h0, h1⟩, h2⟩, h3⟩⟩, hsub⟩ := h
  refine ⟨hlength, ⟨h0.1, h0.2, h1.1, h1.2⟩, ⟨h2, h3⟩, fun hsix => ?_⟩
  rcases hsub with hfour | ⟨h4, h5⟩
  · omega
  · exact ⟨h4.1, h4.2, h5.1, h5.2⟩

theorem power_cases {dbm : Nat} (h : validStationPower dbm = true) :
    dbm ≤ 60 ∧ (dbm % 10 = 0 ∨ dbm % 10 = 3 ∨ dbm % 10 = 7) := by
  have hall : ∀ p ∈ powers, p ≤ 60 ∧ (p % 10 = 0 ∨ p % 10 = 3 ∨ p % 10 = 7) := by decide
  exact hall dbm (by simpa [validStationPower] using h)

theorem squarePower_inj {grid grid' : List UInt8} {dbm dbm' : Nat} (h : Located grid)
    (h' : Located grid') (hp : dbm ≤ 60) (hp' : dbm' ≤ 60)
    (heq : squarePower grid dbm = squarePower grid' dbm') :
    grid.take 4 = grid'.take 4 ∧ dbm = dbm' := by
  have hfield := h.field
  have hfield' := h'.field
  have h2 := digit_iff.mp h.square.1
  have h3 := digit_iff.mp h.square.2
  have h2' := digit_iff.mp h'.square.1
  have h3' := digit_iff.mp h'.square.2
  unfold squarePower at heq
  have hdbm : dbm = dbm' := by omega
  have hlow : (charAt grid 1).toNat = (charAt grid' 1).toNat ∧
      (charAt grid 3).toNat = (charAt grid' 3).toNat := by omega
  have hhigh : (charAt grid 0).toNat = (charAt grid' 0).toNat ∧
      (charAt grid 2).toNat = (charAt grid' 2).toNat := by omega
  refine ⟨list_ext_charAt (n := 4) ?_ ?_ fun i hi => ?_, hdbm⟩
  · have := h.length
    rw [List.length_take]
    omega
  · have := h'.length
    rw [List.length_take]
    omega
  · have htake : ∀ xs : List UInt8, charAt (xs.take 4) i = charAt xs i := fun xs => by
      simp [charAt, hi]
    rw [htake, htake]
    refine UInt8.toNat_inj.mp ?_
    match i, hi with
    | 0, _ => exact hhigh.1
    | 1, _ => exact hlow.1
    | 2, _ => exact hhigh.2
    | 3, _ => exact hlow.2

theorem squarePower_take (grid : List UInt8) (dbm : Nat) :
    squarePower (grid.take 4) dbm = squarePower grid dbm := by
  have htake : ∀ i, i < 4 → charAt (grid.take 4) i = charAt grid i := fun i hi => by
    simp [charAt, hi]
  unfold squarePower
  rw [htake 0 (by decide), htake 1 (by decide), htake 2 (by decide), htake 3 (by decide)]

theorem squarePower_bounds {grid : List UInt8} {dbm : Nat} (h : Located grid) (hp : dbm ≤ 60) :
    squarePower grid dbm < 2 ^ 22 ∧ squarePower grid dbm % 128 = 64 + dbm := by
  have hfield := h.field
  have h3 := digit_iff.mp h.square.2
  unfold squarePower
  omega

/-! ## Payloads -/

theorem payloadOf_eq {n m : Nat} (hm : m < 2 ^ 22) : payloadOf n m = n * 2 ^ 22 + m := by
  rw [payloadOf, ← Nat.shiftLeft_add_eq_or_of_lt hm, Nat.shiftLeft_eq]

theorem payloadOf_inj {n n' m m' : Nat} (hm : m < 2 ^ 22) (hm' : m' < 2 ^ 22) :
    payloadOf n m = payloadOf n' m' ↔ n = n' ∧ m = m' := by
  rw [payloadOf_eq hm, payloadOf_eq hm']
  omega

theorem frame_payload (type : WsprType) (n : Nat) {m : Nat} (hm : m < 2 ^ 22) :
    (frame type n m).payload = payloadOf n m := by
  have hmask : m &&& 0x3fffff = m := by
    rw [show (0x3fffff : Nat) = 2 ^ 22 - 1 from rfl, Nat.and_two_pow_sub_one_eq_mod,
      Nat.mod_eq_of_lt hm]
  unfold frame
  rw [hmask]

/-! ## Type 3 -/

def rotated (grid : List UInt8) : List UInt8 := (List.range 6).map fun i => charAt grid ((i + 1) % 6)

theorem charAt_rotated (grid : List UInt8) {i : Nat} (hi : i < 6) :
    charAt (rotated grid) i = charAt grid ((i + 1) % 6) := by
  simp [charAt, rotated, hi]

theorem rotated_packable {grid : List UInt8} (h : Located grid) (hsix : grid.length = 6) :
    Packable (rotated grid) := by
  have hfield := h.field
  have hsub := h.subsquare hsix
  have l0 : letter (charAt grid 0) = true := letter_iff.mpr (by omega)
  have l1 : letter (charAt grid 1) = true := letter_iff.mpr (by omega)
  have l4 : letter (charAt grid 4) = true := letter_iff.mpr (by omega)
  have l5 : letter (charAt grid 5) = true := letter_iff.mpr (by omega)
  obtain ⟨d2, d3⟩ := h.square
  refine
    { length := by simp [rotated]
      known := ?_
      first := ?_
      second := ?_
      third := ?_
      rest := ?_ }
  · intro i hi
    rw [charAt_rotated grid hi]
    match i, hi with
    | 0, _ => exact .inl l1
    | 1, _ => exact .inr (.inl d2)
    | 2, _ => exact .inr (.inl d3)
    | 3, _ => exact .inl l4
    | 4, _ => exact .inl l5
    | 5, _ => exact .inl l0
  · rw [charAt_rotated grid (by decide)]
    exact (code_letter_range l1).2
  · rw [charAt_rotated grid (by decide)]
    exact Nat.lt_trans (code_digit_lt d2) (by decide)
  · rw [charAt_rotated grid (by decide)]
    exact code_digit_lt d3
  · intro i hlow hi
    rw [charAt_rotated grid hi]
    match i, hlow, hi with
    | 3, _, _ => exact code_letter_range l4
    | 4, _, _ => exact code_letter_range l5
    | 5, _, _ => exact code_letter_range l0

theorem rotated_inj {grid grid' : List UInt8} (hsix : grid.length = 6) (hsix' : grid'.length = 6)
    (h : rotated grid = rotated grid') : grid = grid' := by
  refine list_ext_charAt hsix hsix' fun i hi => ?_
  have hback : ∀ g : List UInt8, charAt (rotated g) ((i + 5) % 6) = charAt g i := fun g => by
    rw [charAt_rotated g (Nat.mod_lt _ (by decide))]
    congr 1
    omega
  rw [← hback grid, ← hback grid', h]

theorem wsprHash_lt (call : List UInt8) : wsprHash call < 32768 := by
  unfold wsprHash
  rw [UInt32.toNat_and]
  exact Nat.lt_of_le_of_lt Nat.and_le_right (by decide)

/-! ## Type 2 -/

/-- A compound call: its base call, and the extension of what stands beside it. -/
inductive Affixed (call base : List UInt8) : Nat → Prop
  | suffix (right : List UInt8) (hcall : call = base ++ slash :: right)
      (hsuffix : suffixed right = true) : Affixed call base (suffixExtension right)
  | lead (left : List UInt8) (hcall : call = left ++ slash :: base) (hnonempty : left ≠ [])
      (hlong : left.length ≤ 3) (hplain : ∀ c ∈ left, letter c = true ∨ digit c = true) :
      Affixed call base (leadExtension left)

theorem suffixed_cases {right : List UInt8} (h : suffixed right = true) :
    (∃ c, right = [c] ∧ (digit c = true ∨ letter c = true)) ∨
      ∃ c d, right = [c, d] ∧ digit c = true ∧ digit d = true := by
  simp only [suffixed, Bool.or_eq_true, Bool.and_eq_true, decide_eq_true_eq] at h
  rcases h with ⟨hlength, hc⟩ | ⟨⟨hlength, hc⟩, hd⟩
  · obtain ⟨c, rfl⟩ := List.length_eq_one_iff.mp hlength
    exact .inl ⟨c, rfl, hc⟩
  · obtain ⟨c, d, rfl⟩ := List.length_eq_two.mp hlength
    exact .inr ⟨c, d, rfl, hc, hd⟩

theorem suffixExtension_range {right : List UInt8} (h : suffixed right = true) :
    60000 ≤ suffixExtension right ∧ suffixExtension right < 65536 := by
  rcases suffixed_cases h with ⟨c, rfl, hc⟩ | ⟨c, d, rfl, hc, hd⟩
  · have := (code_plain hc.symm).1
    have hext : suffixExtension [c] = 60000 + code c := rfl
    omega
  · have := digit_iff.mp hc
    have := digit_iff.mp hd
    have hext : suffixExtension [c, d] = 60026 + 10 * (c.toNat - 48) + (d.toNat - 48) := rfl
    omega

theorem leadExtension_cases {left : List UInt8} (hnonempty : left ≠ []) (hlong : left.length ≤ 3)
    (hplain : ∀ c ∈ left, letter c = true ∨ digit c = true) :
    (∃ a, left = [a] ∧ leadExtension left = 50616 + code a ∧ code a < 36 ∧ Known a) ∨
    (∃ a b, left = [a, b] ∧ leadExtension left = 49284 + code a * 37 + code b ∧ code a < 36 ∧
      code b < 36 ∧ Known a ∧ Known b) ∨
    ∃ a b c, left = [a, b, c] ∧ leadExtension left = (code a * 37 + code b) * 37 + code c ∧
      code a < 36 ∧ code b < 36 ∧ code c < 36 ∧ Known a ∧ Known b ∧ Known c := by
  have hcode : ∀ c ∈ left, code c < 36 ∧ Known c := fun c hc => code_plain (hplain c hc)
  match left, hnonempty, hlong, hcode with
  | [a], _, _, hcode =>
    obtain ⟨ha, ka⟩ := hcode a (by simp)
    refine .inl ⟨a, rfl, ?_, ha, ka⟩
    simp [leadExtension, List.range_succ]
  | [a, b], _, _, hcode =>
    obtain ⟨ha, ka⟩ := hcode a (by simp)
    obtain ⟨hb, kb⟩ := hcode b (by simp)
    refine .inr (.inl ⟨a, b, rfl, ?_, ha, hb, ka, kb⟩)
    simp only [leadExtension, List.length_cons, List.length_nil, List.foldl_cons, List.foldl_nil,
      List.range_succ, List.range_zero, List.nil_append]
    omega
  | [a, b, c], _, _, hcode =>
    obtain ⟨ha, ka⟩ := hcode a (by simp)
    obtain ⟨hb, kb⟩ := hcode b (by simp)
    obtain ⟨hc, kc⟩ := hcode c (by simp)
    refine .inr (.inr ⟨a, b, c, rfl, ?_, ha, hb, hc, ka, kb, kc⟩)
    simp [leadExtension]
  | _ :: _ :: _ :: _ :: _, _, hlong, _ =>
    simp only [List.length_cons] at hlong
    omega

theorem leadExtension_inj {left left' : List UInt8} (hnonempty : left ≠ [])
    (hlong : left.length ≤ 3) (hplain : ∀ c ∈ left, letter c = true ∨ digit c = true)
    (hnonempty' : left' ≠ []) (hlong' : left'.length ≤ 3)
    (hplain' : ∀ c ∈ left', letter c = true ∨ digit c = true)
    (h : leadExtension left = leadExtension left') : left = left' := by
  rcases leadExtension_cases hnonempty hlong hplain with ⟨a, rfl, hext, ha, ka⟩ |
      ⟨a, b, rfl, hext, ha, hb, ka, kb⟩ | ⟨a, b, c, rfl, hext, ha, hb, hc, ka, kb, kc⟩ <;>
    rcases leadExtension_cases hnonempty' hlong' hplain' with ⟨a', rfl, hext', ha', ka'⟩ |
      ⟨a', b', rfl, hext', ha', hb', ka', kb'⟩ |
      ⟨a', b', c', rfl, hext', ha', hb', hc', ka', kb', kc'⟩
  · rw [code_inj ka ka' (by omega)]
  · omega
  · omega
  · omega
  · rw [code_inj ka ka' (by omega), code_inj kb kb' (by omega)]
  · omega
  · omega
  · omega
  · rw [code_inj ka ka' (by omega), code_inj kb kb' (by omega), code_inj kc kc' (by omega)]

theorem leadExtension_lt {left : List UInt8} (hnonempty : left ≠ []) (hlong : left.length ≤ 3)
    (hplain : ∀ c ∈ left, letter c = true ∨ digit c = true) : leadExtension left < 60000 := by
  rcases leadExtension_cases hnonempty hlong hplain with ⟨a, -, hext, ha, -⟩ |
      ⟨a, b, -, hext, ha, hb, -⟩ | ⟨a, b, c, -, hext, ha, hb, hc, -⟩ <;> omega

/-- The other suffix of an extension. -/
def otherSuffix (right : List UInt8) : List UInt8 :=
  if letterOverlap right then [48, 48 + (charAt right 0 - 81)] else [81 + (charAt right 1 - 48)]

theorem alternateOf_eq (left right : List UInt8) :
    alternateOf left right = left ++ slash :: otherSuffix right := by
  unfold alternateOf otherSuffix
  split <;> rfl

theorem toNat_digitOf {c : UInt8} (h : 81 ≤ c.toNat ∧ c.toNat ≤ 90) :
    (48 + (c - 81)).toNat = c.toNat - 33 := by
  have hle : (81 : UInt8) ≤ c := UInt8.le_iff_toNat_le.mpr h.1
  rw [UInt8.toNat_add, UInt8.toNat_sub_of_le _ _ hle]
  show (48 + (c.toNat - 81)) % 256 = _
  omega

theorem toNat_letterOf {d : UInt8} (h : 48 ≤ d.toNat ∧ d.toNat ≤ 57) :
    (81 + (d - 48)).toNat = d.toNat + 33 := by
  have hle : (48 : UInt8) ≤ d := UInt8.le_iff_toNat_le.mpr h.1
  rw [UInt8.toNat_add, UInt8.toNat_sub_of_le _ _ hle]
  show (81 + (d.toNat - 48)) % 256 = _
  omega

/-- Two suffixes have one extension if they are the same, or each the other one of it. -/
theorem suffixExtension_eq_iff {right right' : List UInt8} (h : suffixed right = true)
    (h' : suffixed right' = true) :
    suffixExtension right = suffixExtension right' ↔
      right = right' ∨
        ((letterOverlap right || numericOverlap right) = true ∧ right' = otherSuffix right) := by
  have hone : ∀ c : UInt8, suffixExtension [c] = 60000 + code c := fun _ => rfl
  have htwo : ∀ d e : UInt8, suffixExtension [d, e] =
      60026 + 10 * (d.toNat - 48) + (e.toNat - 48) := fun _ _ => rfl
  have hletter : ∀ c : UInt8, letterOverlap [c] = inRange 81 90 c := fun c => by
    simp [letterOverlap, charAt]
  have hnumeric : ∀ d e : UInt8, numericOverlap [d, e] = (decide (d = 48) && digit e) :=
    fun d e => by simp [numericOverlap, charAt]
  have hnone : ∀ c : UInt8, numericOverlap [c] = false := fun c => by simp [numericOverlap]
  have hnone' : ∀ d e : UInt8, letterOverlap [d, e] = false := fun d e => by simp [letterOverlap]
  have h81 : (81 : UInt8).toNat = 81 := rfl
  have h90 : (90 : UInt8).toNat = 90 := rfl
  rcases suffixed_cases h with ⟨c, rfl, hc⟩ | ⟨d, e, rfl, hd, he⟩ <;>
    rcases suffixed_cases h' with ⟨c', rfl, hc'⟩ | ⟨d', e', rfl, hd', he'⟩
  · -- two single characters
    rw [hone, hone]
    constructor
    · intro heq
      exact .inl (by rw [code_inj (code_plain hc.symm).2 (code_plain hc'.symm).2 (by omega)])
    · rintro (heq | ⟨hoverlap, heq⟩)
      · rw [List.singleton_inj.mp heq]
      · rw [hnone, Bool.or_false] at hoverlap
        simp [otherSuffix, hoverlap] at heq
  · -- a character and two digits
    have hd' := digit_iff.mp hd'
    have he' := digit_iff.mp he'
    rw [hone, htwo]
    constructor
    · intro heq
      have hc : letter c = true := by
        rcases hc with hc | hc
        · have := code_digit hc
          omega
        · exact hc
      have hc := code_letter hc
      have hoverlap : letterOverlap [c] = true := by
        rw [hletter, inRange_iff, h81, h90]
        omega
      refine .inr ⟨by rw [hoverlap, Bool.true_or], ?_⟩
      have hrange : 81 ≤ c.toNat ∧ c.toNat ≤ 90 := by omega
      have hzero : d' = 48 := UInt8.toNat_inj.mp (show d'.toNat = 48 by omega)
      have hother : e' = 48 + (c - 81) :=
        UInt8.toNat_inj.mp (by rw [toNat_digitOf hrange]; omega)
      rw [otherSuffix, if_pos hoverlap, hzero, hother]
      rfl
    · rintro (heq | ⟨hoverlap, heq⟩)
      · simp at heq
      · rw [hnone, Bool.or_false] at hoverlap
        rw [otherSuffix, if_pos hoverlap] at heq
        rw [hletter, inRange_iff, h81, h90] at hoverlap
        obtain ⟨rfl, hrest⟩ := List.cons.inj heq
        obtain ⟨rfl, -⟩ := List.cons.inj hrest
        have hother : (48 + (charAt [c] 0 - 81)).toNat = c.toNat - 33 := toNat_digitOf hoverlap
        have hzero : (48 : UInt8).toNat = 48 := rfl
        rw [hother, hzero, (code_letter (letter_iff.mpr (by omega))).1]
        omega
  · -- two digits and a character
    have hd := digit_iff.mp hd
    have he' := digit_iff.mp he
    rw [hone, htwo]
    constructor
    · intro heq
      have hc' : letter c' = true := by
        rcases hc' with hc' | hc'
        · have := code_digit hc'
          omega
        · exact hc'
      have hc' := code_letter hc'
      have hzero : d = 48 := UInt8.toNat_inj.mp (show d.toNat = 48 by omega)
      have hoverlap : numericOverlap [d, e] = true := by
        rw [hnumeric, hzero, he]
        rfl
      refine .inr ⟨by rw [hoverlap, Bool.or_true], ?_⟩
      have hother : c' = 81 + (e - 48) :=
        UInt8.toNat_inj.mp (by rw [toNat_letterOf he']; omega)
      rw [otherSuffix, if_neg (by rw [hnone']; decide), hother]
      rfl
    · rintro (heq | ⟨hoverlap, heq⟩)
      · simp at heq
      · rw [hnone', Bool.false_or, hnumeric, Bool.and_eq_true, decide_eq_true_eq] at hoverlap
        rw [otherSuffix, if_neg (by rw [hnone']; decide)] at heq
        obtain rfl := List.singleton_inj.mp heq
        have hother : (81 + (charAt [d, e] 1 - 48)).toNat = e.toNat + 33 := toNat_letterOf he'
        have hzero : d.toNat = 48 := by
          rw [hoverlap.1]
          rfl
        rw [(code_letter (letter_iff.mpr (by rw [hother]; omega))).1, hother]
        omega
  · -- two digits, twice
    have hd := digit_iff.mp hd
    have he := digit_iff.mp he
    have hd' := digit_iff.mp hd'
    have he' := digit_iff.mp he'
    rw [htwo, htwo]
    constructor
    · intro heq
      have hfirst : d = d' := UInt8.toNat_inj.mp (by omega)
      have hsecond : e = e' := UInt8.toNat_inj.mp (by omega)
      exact .inl (by rw [hfirst, hsecond])
    · rintro (heq | ⟨-, heq⟩)
      · obtain ⟨rfl, hrest⟩ := List.cons.inj heq
        rw [List.singleton_inj.mp hrest]
      · rw [otherSuffix, if_neg (by rw [hnone']; decide)] at heq
        simp at heq

theorem ordinary_of_baseCall {call : List UInt8} {n : Nat} (h : baseCall call = some n) :
    Ordinary call ∧ n = packedSix (padded call) := by
  unfold baseCall at h
  split at h
  · rename_i hsome
    refine ⟨ordinary_iff ?_, (Option.some.inj h).symm⟩
    unfold wsprType1 at hsome
    split at hsome
    · rename_i hcall
      simp only [Bool.and_eq_true] at hcall
      exact hcall.1.1.1
    · cases hsome
  · cases h

theorem slash_not_plain {xs : List UInt8} (h : ∀ c ∈ xs, letter c = true ∨ digit c = true) :
    ∀ c ∈ xs, c ≠ slash := by
  rintro c hc rfl
  exact absurd (h slash hc) (by decide)

theorem halves_spec {call left right : List UInt8} (h : halves call = some (left, right)) :
    call = left ++ slash :: right ∧ left = call.takeWhile (· ≠ slash) ∧
      right = (call.dropWhile (· ≠ slash)).tail := by
  unfold halves at h
  split at h
  · cases h
  · rename_i c rest hdrop
    split at h
    · cases h
    · cases h
      have hc : c = slash := by
        have hhead := List.head?_dropWhile_not (p := (· ≠ slash)) (l := call)
        rw [hdrop] at hhead
        simpa using hhead
      refine ⟨?_, rfl, by rw [hdrop]; rfl⟩
      conv_lhs => rw [← List.takeWhile_append_dropWhile (p := (· ≠ slash)) (l := call), hdrop, hc]

/-- The bits of a Type 2 message beside the number of its base call. -/
def extensionPower (extension dbm : Nat) : Nat :=
  extension % 32768 * 128 + dbm + if extension ≥ 32768 then 66 else 65

theorem extensionPower_bounds (extension : Nat) {dbm : Nat} (hp : dbm ≤ 60) :
    extensionPower extension dbm < 2 ^ 22 ∧
      (extensionPower extension dbm % 128 = 65 + dbm ∨
        extensionPower extension dbm % 128 = 66 + dbm) := by
  unfold extensionPower
  split <;> omega

theorem extensionPower_inj {extension extension' dbm dbm' : Nat} (h : extension < 65536)
    (h' : extension' < 65536) (hp : validStationPower dbm = true)
    (hp' : validStationPower dbm' = true) :
    extensionPower extension dbm = extensionPower extension' dbm' ↔
      extension = extension' ∧ dbm = dbm' := by
  have hp := power_cases hp
  have hp' := power_cases hp'
  constructor
  · intro heq
    unfold extensionPower at heq
    split at heq <;> split at heq <;> omega
  · rintro ⟨rfl, rfl⟩
    rfl

/-- A Type 2 frame of a compound call. -/
structure Type2Frame (call : List UInt8) (dbm : Nat) (f : WsprFrame) (base : List UInt8)
    (extension : Nat) : Prop where
  type : f.type = .type2
  ordinary : Ordinary base
  affixed : Affixed call base extension
  bound : extension < 65536
  payload : f.payload = payloadOf (packedSix (padded base)) (extensionPower extension dbm)

theorem compound_spec {call : List UInt8} {dbm : Nat} {f : WsprFrame} (hp : dbm ≤ 60)
    (h : compound call dbm = some f) : ∃ base extension, Type2Frame call dbm f base extension := by
  unfold compound at h
  split at h
  · cases h
  · rename_i left right hhalves
    obtain ⟨hcall, -, -⟩ := halves_spec hhalves
    split at h
    · rename_i n hbase
      cases h
      obtain ⟨hbase, hsuffix⟩ := Option.filter_eq_some_iff.mp hbase
      obtain ⟨hordinary, rfl⟩ := ordinary_of_baseCall hbase
      have hrange := suffixExtension_range hsuffix
      have hbits : suffixExtension right % 32768 * 128 + dbm + 66 =
          extensionPower (suffixExtension right) dbm := by
        rw [extensionPower, if_pos (by omega)]
      refine ⟨left, _, rfl, hordinary, .suffix right hcall hsuffix, hrange.2, ?_⟩
      rw [hbits, frame_payload _ _ (extensionPower_bounds _ hp).1]
    · split at h
      · cases h
      · rename_i n hbase
        split at h
        · cases h
        · rename_i hguard
          cases h
          obtain ⟨hordinary, rfl⟩ := ordinary_of_baseCall hbase
          simp only [Bool.or_eq_true, decide_eq_true_eq, Bool.not_eq_true', not_or,
            List.isEmpty_iff, Nat.not_lt, Bool.not_eq_false, List.all_eq_true] at hguard
          obtain ⟨⟨hnonempty, hlong⟩, hplain⟩ := hguard
          have hlt := leadExtension_lt hnonempty hlong hplain
          refine ⟨right, _, rfl, hordinary, .lead left hcall hnonempty hlong hplain,
            Nat.lt_trans hlt (by decide), ?_⟩
          have hbits : leadExtension left % 32768 * 128 + dbm +
              (if leadExtension left ≥ 32768 then 66 else 65) =
                extensionPower (leadExtension left) dbm := rfl
          rw [hbits, frame_payload _ _ (extensionPower_bounds _ hp).1]

theorem split_unique {xs xs' ys ys' : List UInt8} (hx : ∀ c ∈ xs, c ≠ slash)
    (hx' : ∀ c ∈ xs', c ≠ slash) (h : xs ++ slash :: ys = xs' ++ slash :: ys') :
    xs = xs' ∧ ys = ys' := by
  have htake : ∀ {zs : List UInt8} (ws : List UInt8), (∀ c ∈ zs, c ≠ slash) →
      (zs ++ slash :: ws).takeWhile (· ≠ slash) = zs := by
    intro zs ws hz
    rw [List.takeWhile_append_of_pos fun c hc => decide_eq_true (hz c hc)]
    simp
  have hxs : xs = xs' := by rw [← htake ys hx, h, htake ys' hx']
  subst hxs
  exact ⟨rfl, List.tail_eq_of_cons_eq (List.append_cancel_left h)⟩

theorem suffixed_length {right : List UInt8} (h : suffixed right = true) : right.length ≤ 2 := by
  rcases suffixed_cases h with ⟨c, rfl, -⟩ | ⟨c, d, rfl, -⟩ <;> simp

/-- The base call and the extension of a call are its own. -/
theorem affixed_unique {call base base' : List UInt8} {extension extension' : Nat}
    (h : Affixed call base extension) (h' : Affixed call base' extension')
    (hbase : Ordinary base) (hbase' : Ordinary base') :
    base = base' ∧ extension = extension' := by
  cases h with
  | suffix right hcall hsuffix =>
    cases h' with
    | suffix right' hcall' hsuffix' =>
      obtain ⟨rfl, rfl⟩ := split_unique (slash_not_plain hbase.plain) (slash_not_plain hbase'.plain)
        (hcall.symm.trans hcall')
      exact ⟨rfl, rfl⟩
    | lead left' hcall' hnonempty' hlong' hplain' =>
      obtain ⟨-, rfl⟩ := split_unique (slash_not_plain hbase.plain) (slash_not_plain hplain')
        (hcall.symm.trans hcall')
      have := suffixed_length hsuffix
      have := hbase'.long
      omega
  | lead left hcall hnonempty hlong hplain =>
    cases h' with
    | suffix right' hcall' hsuffix' =>
      obtain ⟨-, rfl⟩ := split_unique (slash_not_plain hplain) (slash_not_plain hbase'.plain)
        (hcall.symm.trans hcall')
      have := suffixed_length hsuffix'
      have := hbase.long
      omega
    | lead left' hcall' hnonempty' hlong' hplain' =>
      obtain ⟨rfl, rfl⟩ := split_unique (slash_not_plain hplain) (slash_not_plain hplain')
        (hcall.symm.trans hcall')
      exact ⟨rfl, rfl⟩

/-- The suffix of a call, and what stands before it. -/
def callSuffix (call : List UInt8) : List UInt8 := (call.dropWhile (· ≠ slash)).tail
def callLead (call : List UInt8) : List UInt8 := call.takeWhile (· ≠ slash)

/-- The suffix of the call is one that has another one. -/
def ambiguous (call : List UInt8) : Bool :=
  letterOverlap (callSuffix call) || numericOverlap (callSuffix call)

theorem callParts {xs : List UInt8} (ys : List UInt8) (h : ∀ c ∈ xs, c ≠ slash) :
    callLead (xs ++ slash :: ys) = xs ∧ callSuffix (xs ++ slash :: ys) = ys := by
  have hpos : ∀ c ∈ xs, decide (c ≠ slash) = true := fun c hc => decide_eq_true (h c hc)
  unfold callLead callSuffix
  rw [List.takeWhile_append_of_pos hpos, List.dropWhile_append_of_pos hpos]
  simp

theorem overlap_length {right : List UInt8}
    (h : (letterOverlap right || numericOverlap right) = true) : right.length ≤ 2 := by
  simp only [letterOverlap, numericOverlap, Bool.or_eq_true, Bool.and_eq_true,
    decide_eq_true_eq] at h
  omega

theorem otherSuffix_length (right : List UInt8) : (otherSuffix right).length ≤ 2 := by
  unfold otherSuffix
  split <;> simp

/-- Two compound calls of one base call and extension are the same, or one is the
alternate call of the other. -/
theorem affixed_eq_iff {call call' base base' : List UInt8} {extension extension' : Nat}
    (h : Affixed call base extension) (h' : Affixed call' base' extension')
    (hbase : Ordinary base) (hbase' : Ordinary base') :
    (base = base' ∧ extension = extension') ↔
      call = call' ∨
        (ambiguous call = true ∧ call' = alternateOf (callLead call) (callSuffix call)) := by
  constructor
  · rintro ⟨rfl, heq⟩
    cases h with
    | suffix right hcall hsuffix =>
      cases h' with
      | suffix right' hcall' hsuffix' =>
        obtain ⟨hlead, hright⟩ := callParts right (slash_not_plain hbase.plain)
        rcases (suffixExtension_eq_iff hsuffix hsuffix').mp heq with rfl | ⟨hoverlap, rfl⟩
        · exact .inl (hcall.trans hcall'.symm)
        · refine .inr ?_
          unfold ambiguous
          rw [hcall, hlead, hright, alternateOf_eq]
          exact ⟨hoverlap, hcall'⟩
      | lead left' hcall' hnonempty' hlong' hplain' =>
        have := (suffixExtension_range hsuffix).1
        have := leadExtension_lt hnonempty' hlong' hplain'
        omega
    | lead left hcall hnonempty hlong hplain =>
      cases h' with
      | suffix right' hcall' hsuffix' =>
        have := (suffixExtension_range hsuffix').1
        have := leadExtension_lt hnonempty hlong hplain
        omega
      | lead left' hcall' hnonempty' hlong' hplain' =>
        obtain rfl := leadExtension_inj hnonempty hlong hplain hnonempty' hlong' hplain' heq
        exact .inl (hcall.trans hcall'.symm)
  · rintro (rfl | ⟨hambiguous, halternate⟩)
    · exact affixed_unique h h' hbase hbase'
    · rw [alternateOf_eq] at halternate
      unfold ambiguous at hambiguous
      cases h with
      | suffix right hcall hsuffix =>
        obtain ⟨hlead, hright⟩ := callParts right (slash_not_plain hbase.plain)
        rw [hcall, hright] at hambiguous
        rw [hcall, hlead, hright] at halternate
        cases h' with
        | suffix right' hcall' hsuffix' =>
          obtain ⟨rfl, rfl⟩ := split_unique (slash_not_plain hbase.plain)
            (slash_not_plain hbase'.plain) (halternate.symm.trans hcall')
          exact ⟨rfl, (suffixExtension_eq_iff hsuffix hsuffix').mpr (.inr ⟨hambiguous, rfl⟩)⟩
        | lead left' hcall' hnonempty' hlong' hplain' =>
          obtain ⟨-, rfl⟩ := split_unique (slash_not_plain hbase.plain) (slash_not_plain hplain')
            (halternate.symm.trans hcall')
          have := otherSuffix_length right
          have := hbase'.long
          omega
      | lead left hcall hnonempty hlong hplain =>
        obtain ⟨-, hright⟩ := callParts base (slash_not_plain hplain)
        rw [hcall, hright] at hambiguous
        have := overlap_length hambiguous
        have := hbase.long
        omega

/-! ## Plans -/

def innerCall (call : List UInt8) : List UInt8 :=
  if call.head? = some 60 then call.tail.dropLast else call

/-- The message of a frame. -/
inductive Says (call locator : List UInt8) (dbm : Nat) (plan : WsprPlan) (f : WsprFrame) : Prop
  | type1 (htype : f.type = .type1) (hcall : Ordinary call)
      (hpayload : f.payload = payloadOf (packedSix (padded call)) (squarePower locator dbm))
  | type2 (base : List UInt8) (extension : Nat) (hframe : Type2Frame call dbm f base extension)
      (hflag : plan.type2Ambiguous = ambiguous call)
      (halternate : ambiguous call = true →
        plan.alternateCall = alternateOf (callLead call) (callSuffix call))
  | type3 (htype : f.type = .type3) (hsix : locator.length = 6)
      (hpayload : f.payload = payloadOf (packedSix (rotated locator))
        (wsprHash (innerCall call) * 128 + 63 - dbm))

theorem hash_bounds (call : List UInt8) {dbm : Nat} (hp : dbm ≤ 60) :
    wsprHash call * 128 + 63 - dbm < 2 ^ 22 ∧ (wsprHash call * 128 + 63 - dbm) % 128 = 63 - dbm := by
  have := wsprHash_lt call
  omega

theorem hashed_payload (call locator : List UInt8) {dbm : Nat} (hp : dbm ≤ 60) :
    (hashed call locator dbm).payload =
      payloadOf (packedSix (rotated locator)) (wsprHash call * 128 + 63 - dbm) :=
  frame_payload .type3 _ (hash_bounds call hp).1

theorem details_of_plan {call locator : List UInt8} {dbm : Nat} {plan : WsprPlan}
    (h : wsprPlan call locator dbm = some plan) :
    validStationLocator locator = true ∧ validStationPower dbm = true := by
  unfold wsprPlan at h
  split at h
  · cases h
  · rename_i hvalid
    simp only [validStationDetails, Bool.not_eq_true', Bool.and_eq_false_iff, not_or,
      Bool.not_eq_false] at hvalid
    exact ⟨hvalid.1.2, hvalid.2⟩

theorem plan_says {call locator : List UInt8} {dbm : Nat} {plan : WsprPlan}
    (h : wsprPlan call locator dbm = some plan) {f : WsprFrame} (hf : f ∈ plan.frames) :
    Says call locator dbm plan f := by
  have hp := (power_cases (details_of_plan h).2).1
  unfold wsprPlan at h
  split at h
  · cases h
  split at h
  · -- a call in brackets
    rename_i hhead
    have hinner : innerCall call = call.tail.dropLast := if_pos hhead
    dsimp only at h
    split at h
    · cases h
    rename_i hsix
    split at h
    · cases h
    cases h
    obtain rfl := List.mem_singleton.mp hf
    refine .type3 rfl (not_not.mp hsix) ?_
    rw [hinner]
    exact hashed_payload _ _ hp
  · rename_i hhead
    have hinner : innerCall call = call := if_neg hhead
    split at h
    · -- a call with a place in Type 1
      rename_i single hsingle
      cases h
      obtain rfl := List.mem_singleton.mp hf
      have hcall : ordinaryCall call = true := by
        unfold wsprType1FromStation wsprType1 at hsingle
        split at hsingle
        · split at hsingle
          · rename_i hcall
            simp only [Bool.and_eq_true] at hcall
            exact hcall.1.1.1
          · cases hsingle
        · cases hsingle
      have hbase : baseCall call = some (packedSix (padded call)) := by
        unfold baseCall wsprType1
        rw [hcall]
        rfl
      refine .type1 rfl (ordinary_iff hcall) ?_
      rw [hbase]
      rfl
    · split at h
      · -- a compound call
        rename_i type2 hcompound
        cases h
        obtain ⟨base, extension, hframe⟩ := compound_spec hp hcompound
        have hsays : ∀ {frames}, Says call locator dbm
            { frames := frames
              type2Ambiguous := ambiguous call
              alternateCall := if ambiguous call then alternateOf (callLead call) (callSuffix call)
                else [] } type2 := fun {frames} => .type2 base extension hframe rfl fun h => if_pos h
        by_cases hsix : locator.length = 6
        · rw [if_pos hsix] at hf
          rcases List.mem_cons.mp hf with rfl | hf
          · exact hsays
          · obtain rfl := List.mem_singleton.mp hf
            refine .type3 rfl hsix ?_
            rw [hinner]
            exact hashed_payload _ _ hp
        · rw [if_neg hsix] at hf
          obtain rfl := List.mem_singleton.mp hf
          exact hsays
      · cases h

/-- What the messages of two frames of one payload have in common. -/
def SameMessage (call call' locator locator' : List UInt8) (plan : WsprPlan) : WsprType → Prop
  | .type1 => call = call' ∧ locator.take 4 = locator'.take 4
  | .type2 => call = call' ∨ (plan.type2Ambiguous = true ∧ call' = plan.alternateCall)
  | .type3 => locator = locator' ∧ wsprHash (innerCall call) = wsprHash (innerCall call')

theorem differ {f f' : WsprFrame} {n n' m m' : Nat} {p : Prop} (htype : f.type ≠ f'.type)
    (hf : f.payload = payloadOf n m) (hf' : f'.payload = payloadOf n' m') (hm : m < 2 ^ 22)
    (hm' : m' < 2 ^ 22) (hlow : m % 128 ≠ m' % 128) :
    f.payload = f'.payload ↔ f.type = f'.type ∧ p := by
  rw [hf, hf', payloadOf_inj hm hm']
  exact ⟨fun h => absurd (congrArg (· % 128) h.2) hlow, fun h => absurd h.1 htype⟩

/-- Two frames of accepted plans have one payload exactly if they are of one type and
one power and say the same: the call and the square of Type 1; the call of Type 2, or
the alternate call that the plan flags; the locator and the hash of Type 3. -/
theorem payload_determines {call call' locator locator' : List UInt8} {dbm dbm' : Nat}
    {plan plan' : WsprPlan} (h : wsprPlan call locator dbm = some plan)
    (h' : wsprPlan call' locator' dbm' = some plan') {f f' : WsprFrame} (hf : f ∈ plan.frames)
    (hf' : f' ∈ plan'.frames) :
    f.payload = f'.payload ↔
      f.type = f'.type ∧ dbm = dbm' ∧ SameMessage call call' locator locator' plan f.type := by
  obtain ⟨hlocator, hpower⟩ := details_of_plan h
  obtain ⟨hlocator', hpower'⟩ := details_of_plan h'
  have hlocated := located_iff hlocator
  have hlocated' := located_iff hlocator'
  have hp := power_cases hpower
  have hp' := power_cases hpower'
  have hsquare := squarePower_bounds hlocated hp.1
  have hsquare' := squarePower_bounds hlocated' hp'.1
  have hhash := hash_bounds (innerCall call) hp.1
  have hhash' := hash_bounds (innerCall call') hp'.1
  cases plan_says h hf with
  | type1 htype hcall hpayload =>
    cases plan_says h' hf' with
    | type1 htype' hcall' hpayload' =>
      rw [hpayload, hpayload', payloadOf_inj hsquare.1 hsquare'.1, htype, htype']
      constructor
      · rintro ⟨hnumber, hbits⟩
        obtain ⟨hgrid, hdbm⟩ := squarePower_inj hlocated hlocated' hp.1 hp'.1 hbits
        exact ⟨rfl, hdbm, padded_inj hcall hcall' hnumber, hgrid⟩
      · rintro ⟨-, rfl, rfl, hgrid⟩
        exact ⟨rfl, by rw [← squarePower_take, hgrid, squarePower_take]⟩
    | type2 base extension hframe =>
      have hbits := extensionPower_bounds extension hp'.1
      exact differ (by rw [htype, hframe.type]; decide) hpayload hframe.payload hsquare.1 hbits.1
        (by omega)
    | type3 htype' hsix hpayload' =>
      exact differ (by rw [htype, htype']; decide) hpayload hpayload' hsquare.1 hhash'.1 (by omega)
  | type2 base extension hframe hflag halternate =>
    have hbits := extensionPower_bounds extension hp.1
    cases plan_says h' hf' with
    | type1 htype' hcall' hpayload' =>
      exact differ (by rw [htype', hframe.type]; decide) hframe.payload hpayload' hbits.1
        hsquare'.1 (by omega)
    | type2 base' extension' hframe' hflag' halternate' =>
      have hbits' := extensionPower_bounds extension' hp'.1
      have hcalls := affixed_eq_iff hframe.affixed hframe'.affixed hframe.ordinary hframe'.ordinary
      rw [hframe.payload, hframe'.payload, payloadOf_inj hbits.1 hbits'.1, hframe.type,
        hframe'.type, extensionPower_inj hframe.bound hframe'.bound hpower hpower']
      constructor
      · rintro ⟨hnumber, hextension, hdbm⟩
        have hbase := padded_inj hframe.ordinary hframe'.ordinary hnumber
        refine ⟨rfl, hdbm, ?_⟩
        rcases hcalls.mp ⟨hbase, hextension⟩ with hsame | ⟨hambiguous, hother⟩
        · exact .inl hsame
        · exact .inr ⟨hflag.trans hambiguous, hother.trans (halternate hambiguous).symm⟩
      · rintro ⟨-, hdbm, hsame⟩
        have heq := hcalls.mpr (hsame.imp_right fun ⟨hflagged, hother⟩ => by
          have hambiguous := hflag.symm.trans hflagged
          exact ⟨hambiguous, hother.trans (halternate hambiguous)⟩)
        exact ⟨by rw [heq.1], heq.2, hdbm⟩
    | type3 htype' hsix hpayload' =>
      exact differ (by rw [htype', hframe.type]; decide) hframe.payload hpayload' hbits.1 hhash'.1
        (by omega)
  | type3 htype hsix hpayload =>
    cases plan_says h' hf' with
    | type1 htype' hcall' hpayload' =>
      exact differ (by rw [htype, htype']; decide) hpayload hpayload' hhash.1 hsquare'.1 (by omega)
    | type2 base extension hframe =>
      have hbits := extensionPower_bounds extension hp'.1
      exact differ (by rw [htype, hframe.type]; decide) hpayload hframe.payload hhash.1 hbits.1
        (by omega)
    | type3 htype' hsix' hpayload' =>
      rw [hpayload, hpayload', payloadOf_inj hhash.1 hhash'.1, htype, htype']
      constructor
      · rintro ⟨hnumber, hbits⟩
        have hrotated := packedSix_inj (rotated_packable hlocated hsix)
          (rotated_packable hlocated' hsix') hnumber
        exact ⟨rfl, by omega, rotated_inj hsix hsix' hrotated, by omega⟩
      · rintro ⟨-, rfl, rfl, hhashes⟩
        exact ⟨rfl, by rw [hhashes]⟩

/-- `K1ABC/Q` and `K1ABC/00`. -/
theorem payload_determines_ambiguous :
    ∃ plan plan', wsprPlan [75, 49, 65, 66, 67, 47, 81] [70, 78, 52, 50] 37 = some plan ∧
      wsprPlan [75, 49, 65, 66, 67, 47, 48, 48] [70, 78, 52, 50] 37 = some plan' ∧
      ∀ f ∈ plan.frames, ∀ f' ∈ plan'.frames, f.payload = f'.payload ↔
        f.type = f'.type ∧ 37 = 37 ∧
          SameMessage [75, 49, 65, 66, 67, 47, 81] [75, 49, 65, 66, 67, 47, 48, 48]
            [70, 78, 52, 50] [70, 78, 52, 50] plan f.type := by
  have hsome : (wsprPlan [75, 49, 65, 66, 67, 47, 81] [70, 78, 52, 50] 37).isSome = true := by
    decide +kernel
  have hsome' : (wsprPlan [75, 49, 65, 66, 67, 47, 48, 48] [70, 78, 52, 50] 37).isSome = true := by
    decide +kernel
  obtain ⟨plan, hplan⟩ := Option.isSome_iff_exists.mp hsome
  obtain ⟨plan', hplan'⟩ := Option.isSome_iff_exists.mp hsome'
  exact ⟨plan, plan', hplan, hplan', fun f hf f' hf' => payload_determines hplan hplan' hf hf'⟩

/-- `PJ4/K1ABC` in two squares: a Type 2 message does not say the locator. -/
theorem locator_unsaid :
    (wsprPlan [80, 74, 52, 47, 75, 49, 65, 66, 67] [70, 78, 52, 50] 37).map
        (fun plan => (plan.frames.map (·.payload), plan.type2Ambiguous)) =
      some ([1086526029314663], false) ∧
    (wsprPlan [80, 74, 52, 47, 75, 49, 65, 66, 67] [70, 78, 52, 51] 37).map
        (fun plan => (plan.frames.map (·.payload), plan.type2Ambiguous)) =
      some ([1086526029314663], false) := by
  decide +kernel

end WsprryPico.Encoding
