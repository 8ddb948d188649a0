import WsprryPico.Network.BootstrapCodec

/-!
# The two base64url readers

`canonical_base64url` of `network/bootstrap_wire.cpp` against the decoder of
`network/bootstrap_codec.cpp`. Both accept the texts of the encoder: the decoder because its loop
gives the bytes back four characters at a time, the other because the characters of a text with
clear trailing bits are those of such bytes.
-/

namespace WsprryPico.Network

open Lib Wtp.Json

def base64urlDigit (c : UInt8) : Option Nat :=
  if 65 ≤ c ∧ c ≤ 90 then some (c.toNat - 65)
  else if 97 ≤ c ∧ c ≤ 122 then some (c.toNat - 97 + 26)
  else if 48 ≤ c ∧ c ≤ 57 then some (c.toNat - 48 + 52)
  else if c = 45 then some 62
  else if c = 95 then some 63
  else none

def canonicalBase64url (minimum maximum : Nat) (value : Bytes) : Bool :=
  if value.isEmpty || value.length % 4 = 1 || !value.all fun c => (base64urlDigit c).isSome then false
  else
    let size := value.length * 3 / 4
    if size < minimum || size > maximum then false
    else
      let trailing := if value.length % 4 = 2 then 4 else if value.length % 4 = 3 then 2 else 0
      trailing = 0 || ((value.getLast?.bind base64urlDigit).getD 0 &&& ((1 <<< trailing) - 1)) = 0

/-! ## Digits -/

open bootstrapB64url (digit)

set_option maxRecDepth 4096

theorem b64Value_digit {value : Nat} (h : value < 64) : b64Value (digit value) = some value := by
  revert value
  decide

theorem b64Value_some {c : UInt8} {value : Nat} (h : b64Value c = some value) :
    value < 64 ∧ digit value = c := by
  obtain ⟨hv, hc, -⟩ := List.findIdx?_eq_some_iff_getElem.mp h
  refine ⟨hv, ?_⟩
  rw [digit, List.getD_eq_getElem?_getD, List.getElem?_eq_getElem hv]
  exact eq_of_beq hc

theorem base64urlDigit_eq (c : UInt8) : base64urlDigit c = b64Value c := by
  have hall : ∀ n < 256, ∀ v ∈ base64urlDigit (.ofNat n), v < 64 ∧ digit v = .ofNat n := by
    decide
  have hdigit : ∀ n < 64, base64urlDigit (digit n) = some n := by decide
  refine Option.ext fun v => ⟨fun h => ?_, fun h => ?_⟩
  · have hc := hall c.toNat c.toNat_lt
    rw [UInt8.ofNat_toNat] at hc
    obtain ⟨hv, rfl⟩ := hc v h
    exact b64Value_digit hv
  · obtain ⟨hv, rfl⟩ := b64Value_some h
    exact hdigit v hv

/-! ## The bits of a group -/

theorem toNat_first (a : UInt8) : (a >>> 2).toNat = a.toNat / 4 := by
  simp [Nat.shiftRight_eq_div_pow]

theorem toNat_end (c : UInt8) : (c &&& 63).toNat = c.toNat % 64 := by
  rw [UInt8.toNat_and]
  exact Nat.and_two_pow_sub_one_eq_mod c.toNat 6

theorem or_shifted {x y : Nat} (k : Nat) (hy : y < 2 ^ k) : x <<< k ||| y = x * 2 ^ k + y := by
  rw [← Nat.shiftLeft_add_eq_or_of_lt hy, Nat.shiftLeft_eq]

theorem toNat_second (a b : UInt8) :
    (((a &&& 3) <<< 4) ||| (b >>> 4)).toNat = a.toNat % 4 * 16 + b.toNat / 16 := by
  have hlow : a.toNat &&& 3 = a.toNat % 4 := Nat.and_two_pow_sub_one_eq_mod a.toNat 2
  have hhigh : b.toNat >>> 4 = b.toNat / 16 := Nat.shiftRight_eq_div_pow b.toNat 4
  have hfits : (a.toNat % 4) <<< 4 % 256 = (a.toNat % 4) <<< 4 := by
    rw [Nat.shiftLeft_eq]
    omega
  have hb := b.toNat_lt
  have hsum := or_shifted (x := a.toNat % 4) 4 (show b.toNat / 16 < 2 ^ 4 by omega)
  simp [hlow, hhigh, hfits, hsum]

theorem toNat_third (b c : UInt8) :
    (((b &&& 15) <<< 2) ||| (c >>> 6)).toNat = b.toNat % 16 * 4 + c.toNat / 64 := by
  have hlow : b.toNat &&& 15 = b.toNat % 16 := Nat.and_two_pow_sub_one_eq_mod b.toNat 4
  have hhigh : c.toNat >>> 6 = c.toNat / 64 := Nat.shiftRight_eq_div_pow c.toNat 6
  have hfits : (b.toNat % 16) <<< 2 % 256 = (b.toNat % 16) <<< 2 := by
    rw [Nat.shiftLeft_eq]
    omega
  have hc := c.toNat_lt
  have hsum := or_shifted (x := b.toNat % 16) 2 (show c.toNat / 64 < 2 ^ 2 by omega)
  simp [hlow, hhigh, hfits, hsum]

theorem toNat_second_alone (a : UInt8) : ((a &&& 3) <<< 4).toNat = a.toNat % 4 * 16 := by
  have h := toNat_second a 0
  simpa using h

theorem toNat_third_alone (b : UInt8) : ((b &&& 15) <<< 2).toNat = b.toNat % 16 * 4 := by
  have h := toNat_third b 0
  simpa using h

/-! ## The decoder -/

theorem unb64From_short {held value : Nat} {c : UInt8} {rest : Bytes} (hc : b64Value c = some value) :
    unb64From 0 held (c :: rest) = unb64From 6 (held <<< 6 ||| value) rest := by
  rw [unb64From, hc]
  rfl

theorem unb64From_byte {held value bits : Nat} {c : UInt8} {rest : Bytes} (hbits : 2 ≤ bits)
    (hc : b64Value c = some value) :
    unb64From bits held (c :: rest) =
      (unb64From (bits - 2) ((held * 64 + value) % 2 ^ (bits - 2)) rest).map fun left =>
        (left.1, UInt8.ofNat ((held * 64 + value) / 2 ^ (bits - 2)) :: left.2) := by
  have hvalue : held <<< 6 ||| value = held * 64 + value :=
    or_shifted (x := held) 6 (b64Value_some hc).1
  have hless : bits + 6 - 8 = bits - 2 := by omega
  rw [unb64From, hc]
  simp only [hvalue, hless, Nat.shiftRight_eq_div_pow]
  rw [if_pos (by omega)]

/-- The loop gives back three bytes for four characters. -/
theorem unb64From_group (a b c : UInt8) (rest : Bytes) :
    unb64From 0 0 (digit (a >>> 2).toNat :: digit (((a &&& 3) <<< 4) ||| (b >>> 4)).toNat ::
        digit (((b &&& 15) <<< 2) ||| (c >>> 6)).toNat :: digit (c &&& 63).toNat :: rest) =
      (unb64From 0 0 rest).map fun left => (left.1, a :: b :: c :: left.2) := by
  have ha := a.toNat_lt
  have hb := b.toNat_lt
  have hc := c.toNat_lt
  have h₁ : (a.toNat / 4 * 64 + (a.toNat % 4 * 16 + b.toNat / 16)) / 2 ^ 4 = a.toNat := by omega
  have h₂ : (a.toNat / 4 * 64 + (a.toNat % 4 * 16 + b.toNat / 16)) % 2 ^ 4 = b.toNat / 16 := by omega
  have h₃ : (b.toNat / 16 * 64 + (b.toNat % 16 * 4 + c.toNat / 64)) / 2 ^ 2 = b.toNat := by omega
  have h₄ : (b.toNat / 16 * 64 + (b.toNat % 16 * 4 + c.toNat / 64)) % 2 ^ 2 = c.toNat / 64 := by omega
  have h₅ : (c.toNat / 64 * 64 + c.toNat % 64) / 2 ^ 0 = c.toNat := by omega
  have h₆ : (c.toNat / 64 * 64 + c.toNat % 64) % 2 ^ 0 = 0 := by omega
  rw [toNat_first, toNat_second, toNat_third, toNat_end,
    unb64From_short (b64Value_digit (by omega)), Nat.zero_shiftLeft, Nat.zero_or,
    unb64From_byte (by decide) (b64Value_digit (by omega)), h₁, h₂,
    unb64From_byte (by decide) (b64Value_digit (by omega)), h₃, h₄,
    unb64From_byte (by decide) (b64Value_digit (by omega)), h₅, h₆]
  simp only [UInt8.ofNat_toNat, Option.map_map]
  rfl

theorem unb64From_b64url (bytes : Bytes) : unb64From 0 0 (bootstrapB64url bytes) = some (0, bytes) := by
  induction bytes using bootstrapB64url.induct with
  | case1 => rfl
  | case2 a =>
    have ha := a.toNat_lt
    have h₁ : (a.toNat / 4 * 64 + a.toNat % 4 * 16) / 2 ^ 4 = a.toNat := by omega
    have h₂ : (a.toNat / 4 * 64 + a.toNat % 4 * 16) % 2 ^ 4 = 0 := by omega
    rw [bootstrapB64url, toNat_first, toNat_second_alone,
      unb64From_short (b64Value_digit (by omega)), Nat.zero_shiftLeft, Nat.zero_or,
      unb64From_byte (by decide) (b64Value_digit (by omega)), h₁, h₂, UInt8.ofNat_toNat]
    rfl
  | case3 a b =>
    have ha := a.toNat_lt
    have hb := b.toNat_lt
    have h₁ : (a.toNat / 4 * 64 + (a.toNat % 4 * 16 + b.toNat / 16)) / 2 ^ 4 = a.toNat := by omega
    have h₂ : (a.toNat / 4 * 64 + (a.toNat % 4 * 16 + b.toNat / 16)) % 2 ^ 4 = b.toNat / 16 := by
      omega
    have h₃ : (b.toNat / 16 * 64 + b.toNat % 16 * 4) / 2 ^ 2 = b.toNat := by omega
    have h₄ : (b.toNat / 16 * 64 + b.toNat % 16 * 4) % 2 ^ 2 = 0 := by omega
    rw [bootstrapB64url, toNat_first, toNat_second, toNat_third_alone,
      unb64From_short (b64Value_digit (by omega)), Nat.zero_shiftLeft, Nat.zero_or,
      unb64From_byte (by decide) (b64Value_digit (by omega)), h₁, h₂,
      unb64From_byte (by decide) (b64Value_digit (by omega)), h₃, h₄, UInt8.ofNat_toNat,
      UInt8.ofNat_toNat]
    rfl
  | case4 a b c rest ih =>
    rw [bootstrapB64url, unb64From_group, ih]
    rfl

/-- The length of a text, in whole and begun groups. -/
theorem b64url_length (bytes : Bytes) : (bootstrapB64url bytes).length * 3 / 4 = bytes.length ∧
    (bootstrapB64url bytes).length % 4 ≠ 1 := by
  induction bytes using bootstrapB64url.induct with
  | case1 => decide
  | case2 a => simp [bootstrapB64url]
  | case3 a b => simp [bootstrapB64url]
  | case4 a b c rest ih =>
    simp only [bootstrapB64url, List.length_cons]
    omega

theorem b64url_ne_nil {bytes : Bytes} (h : bytes ≠ []) : bootstrapB64url bytes ≠ [] := by
  intro hnil
  have hlength := (b64url_length bytes).1
  rw [hnil] at hlength
  exact h (List.length_eq_zero_iff.mp hlength.symm)

theorem unb64url_b64url {minimum maximum : Nat} {bytes : Bytes} (hne : bytes ≠ [])
    (hminimum : minimum ≤ bytes.length) (hmaximum : bytes.length ≤ maximum) :
    bootstrapUnb64url minimum maximum (bootstrapB64url bytes) = some bytes := by
  obtain ⟨hlength, hgroups⟩ := b64url_length bytes
  have hform : ¬ ((bootstrapB64url bytes).isEmpty = true ∨ (bootstrapB64url bytes).length % 4 = 1 ∨
      (bootstrapB64url bytes).length * 3 / 4 < minimum ∨
      maximum < (bootstrapB64url bytes).length * 3 / 4) := by
    rw [List.isEmpty_iff, hlength]
    rintro (hnil | hone | hshort | hlong)
    · exact b64url_ne_nil hne hnil
    · exact hgroups hone
    · omega
    · omega
  unfold bootstrapUnb64url
  rw [if_neg hform, unb64From_b64url]
  dsimp only
  rw [if_neg]
  rintro (hheld | hshort | hlong | hother)
  · exact hheld rfl
  · omega
  · omega
  · exact hother rfl

theorem unb64url_some {minimum maximum : Nat} {text bytes : Bytes}
    (h : bootstrapUnb64url minimum maximum text = some bytes) :
    text ≠ [] ∧ minimum ≤ bytes.length ∧ bytes.length ≤ maximum ∧ bootstrapB64url bytes = text := by
  unfold bootstrapUnb64url at h
  split at h
  · cases h
  rename_i hform
  split at h
  · cases h
  · split at h
    · cases h
    · rename_i hchecks
      cases h
      rw [not_or, not_or, not_or, not_not, not_not, Nat.not_lt, Nat.not_lt] at hchecks
      rw [not_or, List.isEmpty_iff] at hform
      exact ⟨hform.1, hchecks.2.1, hchecks.2.2.1, hchecks.2.2.2⟩

/-! ## The request parser -/

/-- The last character has no bits that no byte holds. -/
def Clear (text : Bytes) : Prop := ∀ c value, text.getLast? = some c → b64Value c = some value →
  (text.length % 4 = 2 → value % 16 = 0) ∧ (text.length % 4 = 3 → value % 4 = 0)

theorem clear_group {w x y z : UInt8} {rest : Bytes} :
    Clear (w :: x :: y :: z :: rest) ↔ Clear rest := by
  have hlength : (w :: x :: y :: z :: rest).length % 4 = rest.length % 4 := by
    simp only [List.length_cons]
    omega
  unfold Clear
  rw [hlength]
  cases rest with
  | nil =>
    refine ⟨fun _ c value hlast => (nomatch hlast), fun _ c value _ _ => ⟨fun h => ?_, fun h => ?_⟩⟩
    · exact absurd h (by decide)
    · exact absurd h (by decide)
  | cons r rest => simp [List.getLast?_cons_cons]

theorem canonical_iff (minimum maximum : Nat) (text : Bytes) :
    canonicalBase64url minimum maximum text = true ↔ text ≠ [] ∧ text.length % 4 ≠ 1 ∧
      (∀ c ∈ text, ∃ value, b64Value c = some value) ∧ minimum ≤ text.length * 3 / 4 ∧
      text.length * 3 / 4 ≤ maximum ∧ Clear text := by
  have hdigits : (text.all fun c => (base64urlDigit c).isSome) = true ↔
      ∀ c ∈ text, ∃ value, b64Value c = some value := by
    simp only [List.all_eq_true, base64urlDigit_eq, Option.isSome_iff_exists]
  unfold canonicalBase64url
  split
  · rename_i hform
    refine ⟨nofun, fun ⟨hne, hgroups, hall, _⟩ => ?_⟩
    simp only [Bool.or_eq_true, List.isEmpty_iff, decide_eq_true_eq, Bool.not_eq_true'] at hform
    rw [← hdigits] at hall
    obtain (h | h) | h := hform
    · exact absurd h hne
    · exact absurd h hgroups
    · exact absurd hall (by rw [h]; exact Bool.false_ne_true)
  · rename_i hform
    simp only [Bool.or_eq_true, not_or, List.isEmpty_iff, decide_eq_true_eq, Bool.not_eq_true',
      Bool.not_eq_false] at hform
    obtain ⟨⟨hne, hgroups⟩, hall⟩ := hform
    rw [hdigits] at hall
    dsimp only
    split
    · rename_i hsize
      simp only [Bool.or_eq_true, decide_eq_true_eq] at hsize
      refine ⟨nofun, fun ⟨_, _, _, hminimum, hmaximum, _⟩ => ?_⟩
      omega
    · rename_i hsize
      simp only [Bool.or_eq_true, decide_eq_true_eq, not_or, Nat.not_lt] at hsize
      obtain ⟨c, hlast⟩ : ∃ c, text.getLast? = some c := ⟨_, List.getLast?_eq_some_getLast hne⟩
      obtain ⟨value, hvalue⟩ := hall c (List.mem_of_getLast? hlast)
      have hclear : Clear text ↔
          (text.length % 4 = 2 → value % 16 = 0) ∧ (text.length % 4 = 3 → value % 4 = 0) := by
        refine ⟨fun h => h c value hlast hvalue, fun h d other hd hother => ?_⟩
        obtain rfl : d = c := Option.some.inj (hd.symm.trans hlast)
        rwa [← Option.some.inj (hvalue.symm.trans hother)]
      have hmask₁ : value &&& 15 = value % 16 := Nat.and_two_pow_sub_one_eq_mod value 4
      have hmask₂ : value &&& 3 = value % 4 := Nat.and_two_pow_sub_one_eq_mod value 2
      rw [hclear, hlast]
      simp only [Option.bind_some, base64urlDigit_eq, hvalue, Option.getD_some, Bool.or_eq_true,
        decide_eq_true_eq]
      have hrest : ∀ p : Prop, (text ≠ [] ∧ text.length % 4 ≠ 1 ∧
          (∀ c ∈ text, ∃ value, b64Value c = some value) ∧ minimum ≤ text.length * 3 / 4 ∧
          text.length * 3 / 4 ≤ maximum ∧ p) ↔ p := fun p =>
        ⟨fun h => h.2.2.2.2.2, fun h => ⟨hne, hgroups, hall, hsize.1, hsize.2, h⟩⟩
      rw [hrest]
      by_cases htwo : text.length % 4 = 2
      · simp [htwo, hmask₁]
      · by_cases hthree : text.length % 4 = 3
        · simp [hthree, hmask₂]
        · simp [htwo, hthree]

/-- A text in the form that the request parser checks is that of some bytes. -/
theorem exists_bytes (text : Bytes) (hdigits : ∀ c ∈ text, ∃ value, b64Value c = some value)
    (hgroups : text.length % 4 ≠ 1) (hclear : Clear text) : ∃ bytes, bootstrapB64url bytes = text := by
  match text with
  | [] => exact ⟨[], rfl⟩
  | [x] => exact absurd rfl hgroups
  | [x, y] =>
    obtain ⟨v₁, h₁⟩ := hdigits x (by simp)
    obtain ⟨v₂, h₂⟩ := hdigits y (by simp)
    obtain ⟨hv₁, rfl⟩ := b64Value_some h₁
    obtain ⟨hv₂, rfl⟩ := b64Value_some h₂
    have hlow := (hclear _ v₂ rfl h₂).1 rfl
    have ha := UInt8.toNat_ofNat_of_lt' (show v₁ * 4 + v₂ / 16 < 256 by omega)
    refine ⟨[UInt8.ofNat (v₁ * 4 + v₂ / 16)], ?_⟩
    rw [bootstrapB64url, toNat_first, toNat_second_alone, ha,
      show (v₁ * 4 + v₂ / 16) / 4 = v₁ by omega, show (v₁ * 4 + v₂ / 16) % 4 * 16 = v₂ by omega]
  | [x, y, z] =>
    obtain ⟨v₁, h₁⟩ := hdigits x (by simp)
    obtain ⟨v₂, h₂⟩ := hdigits y (by simp)
    obtain ⟨v₃, h₃⟩ := hdigits z (by simp)
    obtain ⟨hv₁, rfl⟩ := b64Value_some h₁
    obtain ⟨hv₂, rfl⟩ := b64Value_some h₂
    obtain ⟨hv₃, rfl⟩ := b64Value_some h₃
    have hlow := (hclear _ v₃ rfl h₃).2 rfl
    have ha := UInt8.toNat_ofNat_of_lt' (show v₁ * 4 + v₂ / 16 < 256 by omega)
    have hb := UInt8.toNat_ofNat_of_lt' (show v₂ % 16 * 16 + v₃ / 4 < 256 by omega)
    refine ⟨[UInt8.ofNat (v₁ * 4 + v₂ / 16), UInt8.ofNat (v₂ % 16 * 16 + v₃ / 4)], ?_⟩
    rw [bootstrapB64url, toNat_first, toNat_second, toNat_third_alone, ha, hb,
      show (v₁ * 4 + v₂ / 16) / 4 = v₁ by omega,
      show (v₁ * 4 + v₂ / 16) % 4 * 16 + (v₂ % 16 * 16 + v₃ / 4) / 16 = v₂ by omega,
      show (v₂ % 16 * 16 + v₃ / 4) % 16 * 4 = v₃ by omega]
  | w :: x :: y :: z :: rest =>
    obtain ⟨bytes, hbytes⟩ := exists_bytes rest
      (fun c hc => hdigits c (by simp [hc]))
      (by simp only [List.length_cons] at hgroups; omega) (clear_group.mp hclear)
    obtain ⟨v₁, h₁⟩ := hdigits w (by simp)
    obtain ⟨v₂, h₂⟩ := hdigits x (by simp)
    obtain ⟨v₃, h₃⟩ := hdigits y (by simp)
    obtain ⟨v₄, h₄⟩ := hdigits z (by simp)
    obtain ⟨hv₁, rfl⟩ := b64Value_some h₁
    obtain ⟨hv₂, rfl⟩ := b64Value_some h₂
    obtain ⟨hv₃, rfl⟩ := b64Value_some h₃
    obtain ⟨hv₄, rfl⟩ := b64Value_some h₄
    have ha := UInt8.toNat_ofNat_of_lt' (show v₁ * 4 + v₂ / 16 < 256 by omega)
    have hb := UInt8.toNat_ofNat_of_lt' (show v₂ % 16 * 16 + v₃ / 4 < 256 by omega)
    have hc := UInt8.toNat_ofNat_of_lt' (show v₃ % 4 * 64 + v₄ < 256 by omega)
    refine ⟨UInt8.ofNat (v₁ * 4 + v₂ / 16) :: UInt8.ofNat (v₂ % 16 * 16 + v₃ / 4) ::
      UInt8.ofNat (v₃ % 4 * 64 + v₄) :: bytes, ?_⟩
    rw [bootstrapB64url, toNat_first, toNat_second, toNat_third, toNat_end, ha, hb, hc, hbytes,
      show (v₁ * 4 + v₂ / 16) / 4 = v₁ by omega,
      show (v₁ * 4 + v₂ / 16) % 4 * 16 + (v₂ % 16 * 16 + v₃ / 4) / 16 = v₂ by omega,
      show (v₂ % 16 * 16 + v₃ / 4) % 16 * 4 + (v₃ % 4 * 64 + v₄) / 64 = v₃ by omega,
      show (v₃ % 4 * 64 + v₄) % 64 = v₄ by omega]

/-- The encoder writes digits, and leaves no bits behind the last byte. -/
theorem b64url_canonical (bytes : Bytes) :
    (∀ c ∈ bootstrapB64url bytes, ∃ value, b64Value c = some value) ∧ Clear (bootstrapB64url bytes) := by
  have hdigit : ∀ {v : Nat}, v < 64 → ∃ value, b64Value (digit v) = some value :=
    fun hv => ⟨_, b64Value_digit hv⟩
  induction bytes using bootstrapB64url.induct with
  | case1 => exact ⟨fun c hc => (nomatch hc), fun c value hlast => (nomatch hlast)⟩
  | case2 a =>
    have ha := a.toNat_lt
    rw [bootstrapB64url, toNat_first, toNat_second_alone]
    refine ⟨?_, fun c value hlast hvalue => ?_⟩
    · rw [List.forall_mem_cons, List.forall_mem_singleton]
      exact ⟨hdigit (by omega), hdigit (by omega)⟩
    · obtain rfl : digit (a.toNat % 4 * 16) = c := Option.some.inj hlast
      rw [b64Value_digit (by omega)] at hvalue
      cases hvalue
      exact ⟨fun _ => Nat.mul_mod_left _ _, fun h => absurd (show 2 = 3 from h) (by decide)⟩
  | case3 a b =>
    have ha := a.toNat_lt
    have hb := b.toNat_lt
    rw [bootstrapB64url, toNat_first, toNat_second, toNat_third_alone]
    refine ⟨?_, fun c value hlast hvalue => ?_⟩
    · rw [List.forall_mem_cons, List.forall_mem_cons, List.forall_mem_singleton]
      exact ⟨hdigit (by omega), hdigit (by omega), hdigit (by omega)⟩
    · obtain rfl : digit (b.toNat % 16 * 4) = c := Option.some.inj hlast
      rw [b64Value_digit (by omega)] at hvalue
      cases hvalue
      exact ⟨fun h => absurd (show 3 = 2 from h) (by decide), fun _ => Nat.mul_mod_left _ _⟩
  | case4 a b c rest ih =>
    have ha := a.toNat_lt
    have hb := b.toNat_lt
    have hc := c.toNat_lt
    rw [bootstrapB64url, toNat_first, toNat_second, toNat_third, toNat_end, clear_group]
    refine ⟨?_, ih.2⟩
    rw [List.forall_mem_cons, List.forall_mem_cons, List.forall_mem_cons, List.forall_mem_cons]
    exact ⟨hdigit (by omega), hdigit (by omega), hdigit (by omega), hdigit (by omega), ih.1⟩

/-- The codecs agree: bytes that are not empty come back, and both readers accept the texts of
such bytes and no others. -/
theorem base64url_agree (minimum maximum : Nat) :
    (∀ bytes : Bytes, bytes ≠ [] → minimum ≤ bytes.length → bytes.length ≤ maximum →
      bootstrapUnb64url minimum maximum (bootstrapB64url bytes) = some bytes) ∧
    (∀ text, (bootstrapUnb64url minimum maximum text).isSome = true ↔ ∃ bytes : Bytes, bytes ≠ [] ∧
      minimum ≤ bytes.length ∧ bytes.length ≤ maximum ∧ bootstrapB64url bytes = text) ∧
    ∀ text, canonicalBase64url minimum maximum text =
      (bootstrapUnb64url minimum maximum text).isSome := by
  have haccepts : ∀ text, (bootstrapUnb64url minimum maximum text).isSome = true ↔
      ∃ bytes : Bytes, bytes ≠ [] ∧ minimum ≤ bytes.length ∧ bytes.length ≤ maximum ∧
        bootstrapB64url bytes = text := by
    intro text
    rw [Option.isSome_iff_exists]
    constructor
    · rintro ⟨bytes, h⟩
      obtain ⟨hne, hminimum, hmaximum, rfl⟩ := unb64url_some h
      exact ⟨bytes, fun hnil => hne (by rw [hnil]; rfl), hminimum, hmaximum, rfl⟩
    · rintro ⟨bytes, hne, hminimum, hmaximum, rfl⟩
      exact ⟨bytes, unb64url_b64url hne hminimum hmaximum⟩
  refine ⟨fun bytes hne hminimum hmaximum => unb64url_b64url hne hminimum hmaximum, haccepts,
    fun text => ?_⟩
  rw [Bool.eq_iff_iff, haccepts, canonical_iff]
  constructor
  · rintro ⟨hne, hgroups, hdigits, hminimum, hmaximum, hclear⟩
    obtain ⟨bytes, rfl⟩ := exists_bytes text hdigits hgroups hclear
    rw [(b64url_length bytes).1] at hminimum hmaximum
    exact ⟨bytes, fun hnil => hne (by rw [hnil]; rfl), hminimum, hmaximum, rfl⟩
  · rintro ⟨bytes, hne, hminimum, hmaximum, rfl⟩
    obtain ⟨hlength, hgroups⟩ := b64url_length bytes
    obtain ⟨hdigits, hclear⟩ := b64url_canonical bytes
    exact ⟨b64url_ne_nil hne, hgroups, hdigits, by rwa [hlength], by rwa [hlength], hclear⟩

/-- Where no bytes at all are within the bounds, their text is the empty one, which is refused. -/
theorem empty_text_refused : ¬ ∀ (minimum maximum : Nat) (text : Bytes),
    (bootstrapUnb64url minimum maximum text).isSome = true ↔ ∃ bytes : Bytes,
      minimum ≤ bytes.length ∧ bytes.length ≤ maximum ∧ bootstrapB64url bytes = text := by
  intro h
  have hempty := (h 0 0 []).mpr ⟨[], Nat.le_refl _, Nat.le_refl _, rfl⟩
  exact absurd hempty (by decide)

end WsprryPico.Network
