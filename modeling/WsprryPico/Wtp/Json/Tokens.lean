import WsprryPico.Lib.Json
import WsprryPico.Wtp.Json
import Mathlib.Data.List.TakeWhile

/-!
# The tokens of a text

What the scanners of `json.cpp` accept, against the grammar: UTF-8, space,
strings and numbers. Each is an equivalence, so that the token at a cursor and
the text behind it are determined.
-/

namespace WsprryPico.Wtp.Json

open Lib

theorem fuel_left {a fuel : Nat} (h : a < fuel) : ∃ n, fuel = n + 1 :=
  Nat.exists_eq_add_one.2 (Nat.zero_lt_of_lt h)

/-! ## Bytes -/

set_option maxRecDepth 4096

theorem continuation_range : ∀ x < 256, x &&& 0xc0 = 0x80 → 128 ≤ x ∧ x < 192 := by
  decide

theorem hex_spells : ∀ x < 256, (hex (UInt8.ofNat x)).all (fun d =>
    (ascii "0123456789abcdef")[d]? = some (UInt8.ofNat x) ∨
      (ascii "0123456789ABCDEF")[d]? = some (UInt8.ofNat x)) = true := by
  decide

theorem shortEscape_spells : ∀ x < 256, (shortEscape (UInt8.ofNat x)).all
    (fun c => (UInt8.ofNat x, c) ∈ shortEscapes) = true := by
  decide

/-! ## UTF-8 -/

theorem or_add {b : Nat} (a i : Nat) (h : b < 2 ^ i) : a <<< i ||| b = b + a * 2 ^ i := by
  rw [← Nat.shiftLeft_add_eq_or_of_lt h, Nat.shiftLeft_eq, Nat.add_comm]

theorem toNat_ofNat {u : Nat} (h : u.isValidChar) : (Char.ofNat u).val.toNat = u := by
  unfold Char.ofNat
  rw [dif_pos h]
  rfl

/-- The encodings by length, without the masks of their digits. -/
theorem appendUtf8_eq (u : Nat) (h : u < 0x110000) : appendUtf8 u =
    if u < 0x80 then [UInt8.ofNat u]
    else if u < 0x800 then [UInt8.ofNat (u / 64 + 192), UInt8.ofNat (u % 64 + 128)]
    else if u < 0x10000 then
      [UInt8.ofNat (u / 4096 + 224), UInt8.ofNat (u / 64 % 64 + 128), UInt8.ofNat (u % 64 + 128)]
    else
      [UInt8.ofNat (u / 262144 + 240), UInt8.ofNat (u / 4096 % 64 + 128),
        UInt8.ofNat (u / 64 % 64 + 128), UInt8.ofNat (u % 64 + 128)] := by
  have hmask : ∀ x : Nat, 0x80 ||| (x &&& 63) = x % 64 + 128 := fun x => by
    rw [Nat.and_two_pow_sub_one_eq_mod x 6]
    exact or_add 2 6 (Nat.mod_lt _ (by decide))
  have htwo : ∀ x < 32, 0xc0 ||| x = x + 192 := fun x hx => or_add 6 5 hx
  have hthree : ∀ x < 16, 0xe0 ||| x = x + 224 := fun x hx => or_add 14 4 hx
  have hfour : ∀ x < 8, 0xf0 ||| x = x + 240 := fun x hx => or_add 30 3 hx
  unfold appendUtf8
  simp only [hmask, Nat.shiftRight_eq_div_pow]
  by_cases h1 : u < 0x80
  · rw [if_pos h1, if_pos h1]
  by_cases h2 : u < 0x800
  · rw [if_neg h1, if_neg h1, if_pos h2, if_pos h2, htwo _ (by omega)]
  by_cases h3 : u < 0x10000
  · rw [if_neg h1, if_neg h1, if_neg h2, if_neg h2, if_pos h3, if_pos h3, hthree _ (by omega)]
  · rw [if_neg h1, if_neg h1, if_neg h2, if_neg h2, if_neg h3, if_neg h3, hfour _ (by omega)]

/-- The code appends the encoding of a scalar value. -/
theorem appendUtf8_ofNat {u : Nat} (h : u.isValidChar) :
    appendUtf8 u = String.utf8EncodeChar (Char.ofNat u) := by
  have hlt : u < 0x110000 := by
    rcases h with h | h <;> omega
  rw [appendUtf8_eq u hlt]
  unfold String.utf8EncodeChar
  simp only [toNat_ofNat h]
  by_cases h1 : u < 0x80
  · rw [if_pos h1, if_pos (by omega)]
  by_cases h2 : u < 0x800
  · rw [if_neg h1, if_pos h2, if_neg (by omega), if_pos (by omega),
      Nat.mod_eq_of_lt (a := u / 64) (by omega)]
  by_cases h3 : u < 0x10000
  · rw [if_neg h1, if_neg h2, if_pos h3, if_neg (by omega), if_neg (by omega), if_pos (by omega),
      Nat.mod_eq_of_lt (a := u / 4096) (by omega)]
  · rw [if_neg h1, if_neg h2, if_neg h3, if_neg (by omega), if_neg (by omega), if_neg (by omega),
      Nat.mod_eq_of_lt (a := u / 262144) (by omega)]

theorem continuation_cons {d : Nat} (hd : d < 64) (n cp : Nat) (s : Bytes) :
    continuation (n + 1) cp (UInt8.ofNat (d + 128) :: s) = continuation n (d + cp * 64) s := by
  have hbyte := UInt8.toNat_ofNat_of_lt' (show d + 128 < 256 by omega)
  have hhigh : (d + 128) &&& 0xc0 = 0x80 := by
    have : ∀ d < 64, (d + 128) &&& 0xc0 = 0x80 := by decide
    exact this d hd
  have hlow : (d + 128) &&& 63 = d := by
    rw [Nat.and_two_pow_sub_one_eq_mod _ 6]
    omega
  have hshift : cp <<< 6 ||| d = d + cp * 64 := or_add cp 6 hd
  rw [continuation, hbyte, hhigh, hlow, if_neg (by simp), hshift]

theorem continuation_some {n cp cp' : Nat} {s rest : Bytes}
    (h : continuation (n + 1) cp s = some (cp', rest)) :
    ∃ d s', d < 64 ∧ s = UInt8.ofNat (d + 128) :: s' ∧
      continuation n (d + cp * 64) s' = some (cp', rest) := by
  cases s with
  | nil => simp [continuation] at h
  | cons c s =>
    have hc : c.toNat &&& 0xc0 = 0x80 := by
      by_contra hc
      rw [continuation, if_pos hc] at h
      exact absurd h (by simp)
    have hrange : 128 ≤ c.toNat ∧ c.toNat < 192 := continuation_range _ c.toNat_lt hc
    have hbyte : c = UInt8.ofNat (c.toNat - 128 + 128) := by
      apply UInt8.toNat_inj.mp
      rw [UInt8.toNat_ofNat']
      omega
    refine ⟨c.toNat - 128, s, by omega, by rw [← hbyte], ?_⟩
    rw [hbyte, continuation_cons (by omega)] at h
    exact h

theorem leading_two : ∀ d < 32, 2 ≤ d → leading (UInt8.ofNat (d + 192)) = some (1, d, 0x80) := by
  decide

theorem leading_three : ∀ d < 16, leading (UInt8.ofNat (d + 224)) = some (2, d, 0x800) := by
  decide

theorem leading_four : ∀ d < 5, leading (UInt8.ofNat (d + 240)) = some (3, d, 0x10000) := by
  decide

theorem leading_some {c : UInt8} {n bits minimum : Nat} (h : leading c = some (n, bits, minimum)) :
    (n = 1 ∧ minimum = 0x80 ∧ 2 ≤ bits ∧ bits < 32 ∧ c = UInt8.ofNat (bits + 192)) ∨
    (n = 2 ∧ minimum = 0x800 ∧ bits < 16 ∧ c = UInt8.ofNat (bits + 224)) ∨
    (n = 3 ∧ minimum = 0x10000 ∧ bits < 5 ∧ c = UInt8.ofNat (bits + 240)) := by
  have hall : ∀ x < 256, ∀ n bits minimum, leading (UInt8.ofNat x) = some (n, bits, minimum) →
      (n = 1 ∧ minimum = 0x80 ∧ 2 ≤ bits ∧ bits < 32 ∧ x = bits + 192) ∨
      (n = 2 ∧ minimum = 0x800 ∧ bits < 16 ∧ x = bits + 224) ∨
      (n = 3 ∧ minimum = 0x10000 ∧ bits < 5 ∧ x = bits + 240) := by
    intro x hx n bits minimum
    have hnat := UInt8.toNat_ofNat_of_lt' (show x < 256 by omega)
    have h5 : x &&& 31 = x % 32 := Nat.and_two_pow_sub_one_eq_mod x 5
    have h4 : x &&& 15 = x % 16 := Nat.and_two_pow_sub_one_eq_mod x 4
    have h3 : x &&& 7 = x % 8 := Nat.and_two_pow_sub_one_eq_mod x 3
    unfold leading
    simp only [UInt8.le_iff_toNat_le, hnat, h5, h4, h3]
    have hlit : UInt8.toNat 0xc2 = 194 ∧ UInt8.toNat 0xdf = 223 ∧ UInt8.toNat 0xe0 = 224 ∧
      UInt8.toNat 0xef = 239 ∧ UInt8.toNat 0xf0 = 240 ∧ UInt8.toNat 0xf4 = 244 := by decide
    intro h
    split at h
    · simp only [Option.some.injEq, Prod.mk.injEq] at h
      obtain ⟨rfl, rfl, rfl⟩ := h
      exact .inl ⟨rfl, rfl, by omega, by omega, by omega⟩
    split at h
    · simp only [Option.some.injEq, Prod.mk.injEq] at h
      obtain ⟨rfl, rfl, rfl⟩ := h
      exact .inr (.inl ⟨rfl, rfl, by omega, by omega⟩)
    split at h
    · simp only [Option.some.injEq, Prod.mk.injEq] at h
      obtain ⟨rfl, rfl, rfl⟩ := h
      exact .inr (.inr ⟨rfl, rfl, by omega, by omega⟩)
    · simp at h
  have hc : UInt8.ofNat c.toNat = c := UInt8.ofNat_toNat
  rw [← hc] at h
  rcases hall _ c.toNat_lt _ _ _ h with h' | h' | h'
  · exact .inl ⟨h'.1, h'.2.1, h'.2.2.1, h'.2.2.2.1, by rw [← h'.2.2.2.2, hc]⟩
  · exact .inr (.inl ⟨h'.1, h'.2.1, h'.2.2.1, by rw [← h'.2.2.2, hc]⟩)
  · exact .inr (.inr ⟨h'.1, h'.2.1, h'.2.2.1, by rw [← h'.2.2.2, hc]⟩)

theorem utf8From_ascii {c : UInt8} (hc : c < 0x80) (fuel : Nat) (s : Bytes) :
    utf8From (fuel + 1) (c :: s) = utf8From fuel s := by
  rw [utf8From, if_pos hc]

theorem utf8From_sequence {c : UInt8} {n bits minimum cp fuel : Nat} {s rest : Bytes}
    (hc : ¬ c < 0x80) (hlead : leading c = some (n, bits, minimum))
    (hcont : continuation n bits s = some (cp, rest)) :
    utf8From (fuel + 1) (c :: s) =
      if cp < minimum ∨ 0x10ffff < cp ∨ (0xd800 ≤ cp ∧ cp ≤ 0xdfff) then false
      else utf8From fuel rest := by
  rw [utf8From, if_neg hc, hlead]
  simp only [hcont]

theorem not_ascii {d : Nat} (hd : 128 ≤ d) (h : d < 256) : ¬ UInt8.ofNat d < 0x80 := by
  rw [UInt8.lt_iff_toNat_lt, UInt8.toNat_ofNat']
  have : UInt8.toNat 0x80 = 128 := rfl
  omega

/-- A character is passed over whole. -/
theorem utf8From_encode (c : Char) (fuel : Nat) (s : Bytes) :
    utf8From (fuel + 1) (String.utf8EncodeChar c ++ s) = utf8From fuel s := by
  have hvalid : c.toNat.isValidChar := c.valid
  have hc : c = Char.ofNat c.toNat := (Char.ofNat_toNat c).symm
  rw [hc, ← appendUtf8_ofNat hvalid]
  generalize c.toNat = u at hvalid
  have hu : (u < 0xd800 ∨ 0xdfff < u) ∧ u < 0x110000 := by
    rcases hvalid with h | h <;> omega
  rw [appendUtf8_eq u hu.2]
  by_cases h1 : u < 0x80
  · rw [if_pos h1]
    refine utf8From_ascii ?_ fuel s
    rw [UInt8.lt_iff_toNat_lt, UInt8.toNat_ofNat']
    have : UInt8.toNat 0x80 = 128 := rfl
    omega
  by_cases h2 : u < 0x800
  · rw [if_neg h1, if_pos h2]
    have hcont : continuation 1 (u / 64) (UInt8.ofNat (u % 64 + 128) :: s) = some (u, s) := by
      rw [continuation_cons (by omega), show u % 64 + u / 64 * 64 = u by omega]
      rfl
    exact (utf8From_sequence (not_ascii (by omega) (by omega))
      (leading_two _ (by omega) (by omega)) hcont).trans (if_neg (by omega))
  by_cases h3 : u < 0x10000
  · rw [if_neg h1, if_neg h2, if_pos h3]
    have hcont : continuation 2 (u / 4096) (UInt8.ofNat (u / 64 % 64 + 128) ::
        UInt8.ofNat (u % 64 + 128) :: s) = some (u, s) := by
      rw [continuation_cons (by omega), continuation_cons (by omega),
        show u % 64 + (u / 64 % 64 + u / 4096 * 64) * 64 = u by omega]
      rfl
    exact (utf8From_sequence (not_ascii (by omega) (by omega))
      (leading_three _ (by omega)) hcont).trans (if_neg (by omega))
  · rw [if_neg h1, if_neg h2, if_neg h3]
    have hcont : continuation 3 (u / 262144) (UInt8.ofNat (u / 4096 % 64 + 128) ::
        UInt8.ofNat (u / 64 % 64 + 128) :: UInt8.ofNat (u % 64 + 128) :: s) = some (u, s) := by
      rw [continuation_cons (by omega), continuation_cons (by omega), continuation_cons (by omega),
        show u % 64 + (u / 64 % 64 + (u / 4096 % 64 + u / 262144 * 64) * 64) * 64 = u by omega]
      rfl
    exact (utf8From_sequence (not_ascii (by omega) (by omega))
      (leading_four _ (by omega)) hcont).trans (if_neg (by omega))

theorem utf8From_of_utf8 (chars : List Char) {fuel : Nat} (h : chars.length ≤ fuel) :
    utf8From fuel (chars.flatMap String.utf8EncodeChar) = true := by
  induction chars generalizing fuel with
  | nil => cases fuel <;> rfl
  | cons c chars ih =>
    obtain ⟨fuel, rfl⟩ := Nat.exists_eq_succ_of_ne_zero (by simp at h; omega : fuel ≠ 0)
    rw [List.flatMap_cons, utf8From_encode]
    exact ih (by simpa using h)

/-- An accepted text that is not empty begins with the encoding of a character. -/
theorem utf8From_cons {c : UInt8} {fuel : Nat} {s : Bytes}
    (h : utf8From (fuel + 1) (c :: s) = true) :
    ∃ u rest, u.isValidChar ∧ c :: s = appendUtf8 u ++ rest ∧ utf8From fuel rest = true := by
  by_cases hc : c < 0x80
  · rw [utf8From_ascii hc] at h
    have hlt : c.toNat < 128 := UInt8.lt_iff_toNat_lt.mp hc
    refine ⟨c.toNat, s, .inl (by omega), ?_, h⟩
    rw [appendUtf8_eq _ (by omega), if_pos (by omega), UInt8.ofNat_toNat]
    rfl
  · rcases hlead : leading c with - | ⟨n, bits, minimum⟩
    · rw [utf8From, if_neg hc, hlead] at h
      exact absurd h (by simp)
    rcases hcont : continuation n bits s with - | ⟨cp, rest⟩
    · rw [utf8From, if_neg hc, hlead] at h
      simp only [hcont] at h
      exact absurd h (by simp)
    rw [utf8From_sequence hc hlead hcont] at h
    by_cases hbad : cp < minimum ∨ 0x10ffff < cp ∨ (0xd800 ≤ cp ∧ cp ≤ 0xdfff)
    · rw [if_pos hbad] at h
      exact absurd h (by simp)
    rw [if_neg hbad] at h
    refine ⟨cp, rest, ?_, ?_, h⟩
    · simp only [Nat.isValidChar]
      omega
    rw [appendUtf8_eq _ (by omega)]
    rcases leading_some hlead with ⟨rfl, rfl, hlow, hbits, rfl⟩ | ⟨rfl, rfl, hbits, rfl⟩ |
      ⟨rfl, rfl, hbits, rfl⟩
    · obtain ⟨d, s₁, hd, rfl, hcont₁⟩ := continuation_some hcont
      obtain ⟨rfl, rfl⟩ : d + bits * 64 = cp ∧ s₁ = rest := by
        simpa [continuation] using hcont₁
      rw [if_neg (by omega), if_pos (by omega), show (d + bits * 64) / 64 = bits by omega,
        show (d + bits * 64) % 64 = d by omega]
      rfl
    · obtain ⟨d, s₁, hd, rfl, hcont₁⟩ := continuation_some hcont
      obtain ⟨e, s₂, he, rfl, hcont₂⟩ := continuation_some hcont₁
      obtain ⟨rfl, rfl⟩ : e + (d + bits * 64) * 64 = cp ∧ s₂ = rest := by
        simpa [continuation] using hcont₂
      rw [if_neg (by omega), if_neg (by omega), if_pos (by omega),
        show (e + (d + bits * 64) * 64) / 4096 = bits by omega,
        show (e + (d + bits * 64) * 64) / 64 % 64 = d by omega,
        show (e + (d + bits * 64) * 64) % 64 = e by omega]
      rfl
    · obtain ⟨d, s₁, hd, rfl, hcont₁⟩ := continuation_some hcont
      obtain ⟨e, s₂, he, rfl, hcont₂⟩ := continuation_some hcont₁
      obtain ⟨f, s₃, hf, rfl, hcont₃⟩ := continuation_some hcont₂
      obtain ⟨rfl, rfl⟩ : f + (e + (d + bits * 64) * 64) * 64 = cp ∧ s₃ = rest := by
        simpa [continuation] using hcont₃
      rw [if_neg (by omega), if_neg (by omega), if_neg (by omega),
        show (f + (e + (d + bits * 64) * 64) * 64) / 262144 = bits by omega,
        show (f + (e + (d + bits * 64) * 64) * 64) / 4096 % 64 = d by omega,
        show (f + (e + (d + bits * 64) * 64) * 64) / 64 % 64 = e by omega,
        show (f + (e + (d + bits * 64) * 64) * 64) % 64 = f by omega]
      rfl

theorem utf8From_sound {fuel : Nat} {s : Bytes} (h : utf8From fuel s = true) : Utf8 s := by
  induction fuel generalizing s with
  | zero =>
    cases s with
    | nil => exact ⟨[], rfl⟩
    | cons c s => simp [utf8From] at h
  | succ fuel ih =>
    cases s with
    | nil => exact ⟨[], rfl⟩
    | cons c s =>
      obtain ⟨u, rest, hu, hs, hrest⟩ := utf8From_cons h
      obtain ⟨chars, rfl⟩ := ih hrest
      exact ⟨Char.ofNat u :: chars, by rw [hs, appendUtf8_ofNat hu, List.flatMap_cons]⟩

theorem encode_length_pos (c : Char) : 0 < (String.utf8EncodeChar c).length := by
  rw [String.length_utf8EncodeChar]
  exact c.utf8Size_pos

theorem chars_length_le (chars : List Char) :
    chars.length ≤ (chars.flatMap String.utf8EncodeChar).length := by
  induction chars with
  | nil => simp
  | cons c chars ih =>
    have := encode_length_pos c
    rw [List.flatMap_cons, List.length_append, List.length_cons]
    omega

theorem utf8_iff {s : Bytes} : utf8 s = true ↔ Utf8 s := by
  constructor
  · exact utf8From_sound
  · rintro ⟨chars, rfl⟩
    exact utf8From_of_utf8 chars (chars_length_le chars)

/-! ## Strings -/

theorem hex_iff {c : UInt8} {d : Nat} : hex c = some d ↔ HexDigit c d := by
  constructor
  · intro h
    have hdigit := hex_spells c.toNat c.toNat_lt
    rw [UInt8.ofNat_toNat, h] at hdigit
    unfold HexDigit
    exact of_decide_eq_true hdigit
  · intro h
    have hall : ∀ d < 16, (ascii "0123456789abcdef")[d]?.all (fun c => hex c = some d) = true ∧
        (ascii "0123456789ABCDEF")[d]?.all (fun c => hex c = some d) = true := by
      decide
    have hd := HexDigit.lt h
    rcases h with h | h
    · have hlower := (hall d hd).1
      rw [h] at hlower
      exact of_decide_eq_true hlower
    · have hupper := (hall d hd).2
      rw [h] at hupper
      exact of_decide_eq_true hupper

theorem codepoint_iff {s rest : Bytes} {u : Nat} :
    codepoint s = some (u, rest) ↔ ∃ q, s = q ++ rest ∧ HexQuad q u := by
  have hround : ∀ {n cp s}, codepointFrom cp (n + 1) s = some (u, rest) ↔
      ∃ c d s', s = c :: s' ∧ HexDigit c d ∧ codepointFrom (cp * 16 + d) n s' = some (u, rest) := by
    intro n cp s
    cases s with
    | nil => simp [codepointFrom]
    | cons c s =>
      simp only [codepointFrom, ← hex_iff, List.cons.injEq]
      rcases hd : hex c with - | d
      · simp [hd]
      · simp [hd]
  constructor
  · intro h
    obtain ⟨a, i, s₁, rfl, ha, h⟩ := hround.mp h
    obtain ⟨b, j, s₂, rfl, hb, h⟩ := hround.mp h
    obtain ⟨c, k, s₃, rfl, hc, h⟩ := hround.mp h
    obtain ⟨d, l, s₄, rfl, hd, h⟩ := hround.mp h
    obtain ⟨rfl, rfl⟩ : _ = u ∧ s₄ = rest := by simpa [codepointFrom] using h
    exact ⟨[a, b, c, d], rfl, .intro ha hb hc hd⟩
  · rintro ⟨q, rfl, hq⟩
    cases hq with
    | intro ha hb hc hd =>
      refine hround.mpr ⟨_, _, _, rfl, ha, hround.mpr ⟨_, _, _, rfl, hb, hround.mpr ⟨_, _, _, rfl, hc,
        hround.mpr ⟨_, _, _, rfl, hd, ?_⟩⟩⟩⟩
      rw [Nat.zero_mul, Nat.zero_add]
      rfl

theorem shortEscape_iff {e c : UInt8} : shortEscape e = some c ↔ (e, c) ∈ shortEscapes := by
  constructor
  · intro h
    have := shortEscape_spells e.toNat e.toNat_lt
    rw [UInt8.ofNat_toNat, h] at this
    exact of_decide_eq_true this
  · intro h
    have hall : ∀ p ∈ shortEscapes, shortEscape p.1 = some p.2 :=
      List.forall_iff_forall_mem.mp (by decide)
    exact hall _ h

/-- The encoding of the scalar a surrogate pair stands for. -/
theorem pair_scalar {u v : Nat} (hu : HighSurrogate u) (hv : LowSurrogate v) :
    appendUtf8 (0x10000 + ((u - 0xd800) <<< 10) + v - 0xdc00) =
      String.utf8EncodeChar (Char.ofNat (0x10000 + (u - 0xd800) * 0x400 + (v - 0xdc00))) := by
  obtain ⟨hu₁, hu₂⟩ := hu
  obtain ⟨hv₁, hv₂⟩ := hv
  rw [Nat.shiftLeft_eq, show 0x10000 + (u - 0xd800) * 2 ^ 10 + v - 0xdc00 =
    0x10000 + (u - 0xd800) * 0x400 + (v - 0xdc00) by omega]
  refine appendUtf8_ofNat (.inr ?_)
  omega

theorem valid_unit {q : Bytes} {u : Nat} (hq : HexQuad q u) (hhigh : ¬ HighSurrogate u)
    (hlow : ¬ LowSurrogate u) : u.isValidChar := by
  have hlt := HexQuad.lt hq
  unfold HighSurrogate at hhigh
  unfold LowSurrogate at hlow
  simp only [Nat.isValidChar]
  omega

theorem unicodeEscape_sound {s out rest : Bytes} (h : unicodeEscape s = some (out, rest)) :
    ∃ t, s = t ++ rest ∧ ∀ {t' d}, Content t' d → Content (92 :: 117 :: (t ++ t')) (out ++ d) := by
  rw [unicodeEscape] at h
  rcases hq : codepoint s with - | ⟨u, s'⟩
  · simp [hq] at h
  obtain ⟨q, rfl, hquad⟩ := codepoint_iff.mp hq
  simp only [hq] at h
  by_cases hhigh : 0xd800 ≤ u ∧ u ≤ 0xdbff
  · rw [if_pos hhigh] at h
    by_cases hmark : s'.take 2 = [92, 117]
    · rw [if_pos hmark] at h
      have hs' : s' = 92 :: 117 :: s'.drop 2 := by
        conv => lhs; rw [← List.take_append_drop 2 s', hmark]
        rfl
      rcases hr : codepoint (s'.drop 2) with - | ⟨v, s''⟩
      · simp [hr] at h
      obtain ⟨r, hdrop, hlow⟩ := codepoint_iff.mp hr
      simp only [hr] at h
      by_cases hv : v < 0xdc00 ∨ 0xdfff < v
      · simp [if_pos hv] at h
      · rw [if_neg hv] at h
        have hlow' : LowSurrogate v := ⟨by omega, by omega⟩
        obtain ⟨rfl, rfl⟩ : _ = out ∧ s'' = rest := by simpa using h
        refine ⟨q ++ 92 :: 117 :: r, ?_, fun hc => ?_⟩
        · rw [hs', hdrop]
          simp
        · rw [pair_scalar hhigh hlow']
          simpa using Content.pair hquad hhigh hlow hlow' hc
    · simp [if_neg hmark] at h
  · rw [if_neg hhigh] at h
    by_cases hlow : 0xdc00 ≤ u ∧ u ≤ 0xdfff
    · rw [if_pos hlow] at h
      exact absurd h (by simp)
    · rw [if_neg hlow] at h
      obtain ⟨rfl, rfl⟩ : _ = out ∧ s' = rest := by simpa using h
      refine ⟨q, rfl, fun hc => ?_⟩
      rw [appendUtf8_ofNat (valid_unit hquad hhigh hlow)]
      exact .unit hquad hhigh hlow hc

theorem unicodeEscape_unit {q : Bytes} {u : Nat} (hq : HexQuad q u) (hhigh : ¬ HighSurrogate u)
    (hlow : ¬ LowSurrogate u) (rest : Bytes) :
    unicodeEscape (q ++ rest) = some (String.utf8EncodeChar (Char.ofNat u), rest) := by
  have hcode : codepoint (q ++ rest) = some (u, rest) := codepoint_iff.mpr ⟨q, rfl, hq⟩
  rw [unicodeEscape, hcode]
  simp only
  rw [if_neg (show ¬ (0xd800 ≤ u ∧ u ≤ 0xdbff) from hhigh),
    if_neg (show ¬ (0xdc00 ≤ u ∧ u ≤ 0xdfff) from hlow),
    appendUtf8_ofNat (valid_unit hq hhigh hlow)]

theorem unicodeEscape_pair {q r : Bytes} {u v : Nat} (hq : HexQuad q u) (hhigh : HighSurrogate u)
    (hr : HexQuad r v) (hlow : LowSurrogate v) (rest : Bytes) :
    unicodeEscape (q ++ 92 :: 117 :: (r ++ rest)) =
      some (String.utf8EncodeChar (Char.ofNat (0x10000 + (u - 0xd800) * 0x400 + (v - 0xdc00))),
        rest) := by
  have hcode : codepoint (q ++ 92 :: 117 :: (r ++ rest)) = some (u, 92 :: 117 :: (r ++ rest)) :=
    codepoint_iff.mpr ⟨q, rfl, hq⟩
  have hsecond : codepoint (r ++ rest) = some (v, rest) := codepoint_iff.mpr ⟨r, rfl, hr⟩
  have hv : ¬ (v < 0xdc00 ∨ 0xdfff < v) := by
    obtain ⟨h₁, h₂⟩ := hlow
    omega
  rw [unicodeEscape, hcode]
  simp only [List.drop_succ_cons, List.drop_zero]
  rw [if_pos (show 0xd800 ≤ u ∧ u ≤ 0xdbff from hhigh), if_pos (by simp), hsecond]
  simp only
  rw [if_neg hv, pair_scalar hhigh hlow]

theorem escape_sound {s out rest : Bytes} (h : escape s = some (out, rest)) :
    ∃ t, s = t ++ rest ∧ ∀ {t' d}, Content t' d → Content (92 :: (t ++ t')) (out ++ d) := by
  cases s with
  | nil => simp [escape] at h
  | cons e s =>
    rw [escape] at h
    by_cases he : e = 117
    · rw [if_pos he] at h
      obtain ⟨t, rfl, hext⟩ := unicodeEscape_sound h
      exact ⟨117 :: t, by rw [he]; rfl, hext⟩
    · rw [if_neg he] at h
      rcases hc : shortEscape e with - | c
      · simp [hc] at h
      · obtain ⟨rfl, rfl⟩ : [c] = out ∧ s = rest := by simpa [hc] using h
        exact ⟨[e], rfl, fun h => .short (shortEscape_iff.mp hc) h⟩

theorem stringBody_sound {fuel : Nat} {s d rest : Bytes} (h : stringBody fuel s = some (d, rest)) :
    ∃ t, s = t ++ 34 :: rest ∧ Content t d := by
  induction fuel generalizing s d with
  | zero => simp [stringBody] at h
  | succ fuel ih =>
    cases s with
    | nil => simp [stringBody] at h
    | cons c s =>
      rw [stringBody] at h
      by_cases hquote : c = 34
      · rw [if_pos hquote] at h
        obtain ⟨rfl, rfl⟩ : [] = d ∧ s = rest := by simpa using h
        exact ⟨[], by rw [hquote]; rfl, .nil⟩
      rw [if_neg hquote] at h
      by_cases hlow : c < 32
      · simp [if_pos hlow] at h
      rw [if_neg hlow] at h
      by_cases hslash : c = 92
      · rw [if_neg (by simpa using hslash)] at h
        rcases he : escape s with - | ⟨out, s'⟩
        · simp [he] at h
        simp only [he, Option.map_eq_some_iff, Prod.exists, Prod.mk.injEq] at h
        obtain ⟨d', rest', hbody, rfl, rfl⟩ := h
        obtain ⟨t, rfl, ht⟩ := ih hbody
        obtain ⟨e, rfl, hext⟩ := escape_sound he
        exact ⟨92 :: (e ++ t), by simp [hslash], hext ht⟩
      · rw [if_pos hslash] at h
        simp only [Option.map_eq_some_iff, Prod.exists, Prod.mk.injEq] at h
        obtain ⟨d', rest', hbody, rfl, rfl⟩ := h
        obtain ⟨t, rfl, ht⟩ := ih hbody
        exact ⟨c :: t, rfl, .plain (UInt8.not_lt.mp hlow) hquote hslash ht⟩

theorem stringBody_escape {s out s' : Bytes} (h : escape s = some (out, s')) (fuel : Nat) :
    stringBody (fuel + 1) (92 :: s) = (stringBody fuel s').map fun d => (out ++ d.1, d.2) := by
  rw [stringBody, if_neg (by decide), if_neg (by decide), if_neg (by decide), h]

/-- The fuel is enough: each round uses a byte. -/
theorem stringBody_complete {t d : Bytes} (h : Content t d) :
    ∀ {fuel : Nat} (rest : Bytes), t.length < fuel →
      stringBody fuel (t ++ 34 :: rest) = some (d, rest) := by
  induction h with
  | nil =>
    intro fuel rest hfuel
    obtain ⟨fuel, rfl⟩ := Nat.exists_eq_add_one.2 hfuel
    rfl
  | plain hlow hquote hslash _ ih =>
    intro fuel rest hfuel
    obtain ⟨fuel, rfl⟩ := fuel_left hfuel
    rw [List.cons_append, stringBody, if_neg hquote, if_neg (UInt8.not_lt.mpr hlow), if_pos hslash,
      ih rest (by simpa using hfuel)]
    rfl
  | @short e c t s he _ ih =>
    intro fuel rest hfuel
    obtain ⟨fuel, rfl⟩ := fuel_left hfuel
    simp only [List.length_cons] at hfuel
    have hne : e ≠ 117 := fun h => absurd (h ▸ he) (by simp [shortEscapes])
    have hesc : escape (e :: (t ++ 34 :: rest)) = some ([c], t ++ 34 :: rest) := by
      rw [escape, if_neg hne, shortEscape_iff.mpr he]
      rfl
    rw [List.cons_append, List.cons_append, stringBody_escape hesc, ih rest (by omega)]
    rfl
  | @unit q t s u hq hhigh hlow _ ih =>
    intro fuel rest hfuel
    obtain ⟨fuel, rfl⟩ := fuel_left hfuel
    simp only [List.length_cons, List.length_append] at hfuel
    have hesc : escape (117 :: (q ++ (t ++ 34 :: rest))) =
        some (String.utf8EncodeChar (Char.ofNat u), t ++ 34 :: rest) := by
      rw [escape, if_pos rfl, unicodeEscape_unit hq hhigh hlow]
    rw [List.cons_append, List.cons_append, List.append_assoc, stringBody_escape hesc,
      ih rest (by omega)]
    rfl
  | @pair q r t s u v hq hhigh hr hlow _ ih =>
    intro fuel rest hfuel
    obtain ⟨fuel, rfl⟩ := fuel_left hfuel
    simp only [List.length_cons, List.length_append] at hfuel
    have hesc : escape (117 :: (q ++ 92 :: 117 :: (r ++ (t ++ 34 :: rest)))) =
        some (String.utf8EncodeChar (Char.ofNat (0x10000 + (u - 0xd800) * 0x400 + (v - 0xdc00))),
          t ++ 34 :: rest) := by
      rw [escape, if_pos rfl, unicodeEscape_pair hq hhigh hr hlow]
    simp only [List.cons_append, List.append_assoc]
    rw [stringBody_escape hesc, ih rest (by omega)]
    rfl

theorem stringToken_iff {s d rest : Bytes} :
    stringToken s = some (d, rest) ↔ ∃ t, s = t ++ rest ∧ StringText t d := by
  constructor
  · intro h
    cases s with
    | nil => simp [stringToken] at h
    | cons c s =>
      rw [stringToken] at h
      by_cases hc : c = 34
      · rw [if_neg (by simpa using hc)] at h
        obtain ⟨t, rfl, ht⟩ := stringBody_sound h
        exact ⟨34 :: t ++ [34], by simp [hc], .intro ht⟩
      · simp [if_pos hc] at h
  · rintro ⟨_, rfl, ht⟩
    cases ht with
    | @intro t _ ht =>
      rw [List.cons_append, List.cons_append, stringToken, if_neg (by simp), List.append_assoc]
      exact stringBody_complete ht rest (by simp)

/-! ## Space -/

theorem space_iff {c : UInt8} : space c = true ↔ c = 32 ∨ c = 9 ∨ c = 10 ∨ c = 13 := by
  simp only [space, Bool.or_eq_true, decide_eq_true_eq]
  tauto

theorem whitespace_skip {w : Bytes} (h : Space w) (s : Bytes) :
    whitespace (w ++ s) = whitespace s := by
  unfold whitespace
  induction w with
  | nil => rfl
  | cons c w ih =>
    have hc : space c = true := space_iff.mpr (h c (by simp))
    rw [List.cons_append, List.dropWhile_cons_of_pos hc]
    exact ih (List.forall_mem_cons.1 h).2

theorem whitespace_split (s : Bytes) : ∃ w, Space w ∧ s = w ++ whitespace s := by
  refine ⟨s.takeWhile space, fun c hc => ?_, (List.takeWhile_append_dropWhile).symm⟩
  exact space_iff.mp (List.mem_takeWhile_imp hc)

theorem whitespace_stop {c : UInt8} (h : space c = false) (s : Bytes) :
    whitespace (c :: s) = c :: s := by
  unfold whitespace
  rw [List.dropWhile_cons_of_neg (by simp [h])]

theorem whitespace_head {s rest : Bytes} {c : UInt8} (h : whitespace s = c :: rest) :
    space c = false := by
  unfold whitespace at h
  have := List.head?_dropWhile_not space s
  rw [h] at this
  simpa using this

theorem whitespace_idem (s : Bytes) : whitespace (whitespace s) = whitespace s := by
  rcases h : whitespace s with - | ⟨c, rest⟩
  · rfl
  · exact whitespace_stop (whitespace_head h) rest

theorem whitespace_nil {s : Bytes} (h : whitespace s = []) : Space s := by
  obtain ⟨w, hw, hs⟩ := whitespace_split s
  rw [h, List.append_nil] at hs
  rwa [hs]

theorem whitespace_space {w : Bytes} (h : Space w) : whitespace w = [] := by
  have := whitespace_skip h []
  rwa [List.append_nil] at this

/-! ## Numbers -/

@[simp] theorem token_append (t rest : Bytes) : token (t ++ rest) rest = t := by
  unfold token
  rw [List.length_append, Nat.add_sub_cancel, List.take_left]

/-- No digit follows. -/
def Ends (s : Bytes) : Prop := ∀ c ∈ s.head?, isDigit c = false

theorem Ends.nil : Ends [] := by simp [Ends]

theorem Ends.cons {c : UInt8} (h : isDigit c = false) (s : Bytes) : Ends (c :: s) := by
  simpa [Ends] using h

theorem Ends.space {w s : Bytes} (hw : Space w) (hs : Ends s) : Ends (w ++ s) := by
  cases w with
  | nil => exact hs
  | cons c w =>
    refine Ends.cons ?_ _
    rcases hw c (by simp) with rfl | rfl | rfl | rfl <;> rfl

theorem digits_end {ds rest : Bytes} (hd : ∀ c ∈ ds, isDigit c = true) (h : Ends rest) :
    (ds ++ rest).dropWhile isDigit = rest := by
  rw [List.dropWhile_append_of_pos hd]
  cases rest with
  | nil => rfl
  | cons c rest => exact List.dropWhile_cons_of_neg (by simp [h c (by simp)])

def inInt32 (n : Int) : Prop := int32Min ≤ n ∧ n ≤ int32Max

instance (n : Int) : Decidable (inInt32 n) := inferInstanceAs (Decidable (_ ∧ _))

theorem head_decimal_ne (k : Nat) {c : UInt8} (hc : isDigit c = false) :
    (Lib.decimal k).head? ≠ some c := by
  intro h
  have := decimal_digits k c (List.mem_of_mem_head? h)
  rw [hc] at this
  exact absurd this (by decide)

theorem takeWhile_decimal (k : Nat) : (Lib.decimal k).takeWhile isDigit = Lib.decimal k :=
  List.takeWhile_eq_self_iff.mpr (decimal_digits k)

theorem dropWhile_decimal (k : Nat) : (Lib.decimal k).dropWhile isDigit = [] :=
  List.dropWhile_eq_nil_iff.mpr (decimal_digits k)

theorem fromChars_natural {least greatest : Int} (k : Nat) :
    fromChars least greatest (Lib.decimal k) =
      if (k : Int) < least ∨ greatest < k then none else some ((k : Int), []) := by
  have hhead : (Lib.decimal k).head? ≠ some 45 := head_decimal_ne k (by decide)
  unfold fromChars
  simp only [beq_eq_false_iff_ne.mpr hhead, Bool.and_false, Bool.false_eq_true, if_false,
    takeWhile_decimal, dropWhile_decimal, numeral_decimal, List.isEmpty_iff, decimal_ne_nil,
    Bool.or_eq_true, decide_eq_true_eq, false_or]

theorem fromChars_negated {least greatest : Int} (hleast : least < 0) (k : Nat) :
    fromChars least greatest (45 :: Lib.decimal k) =
      if -(k : Int) < least ∨ greatest < -(k : Int) then none else some (-(k : Int), []) := by
  unfold fromChars
  simp only [hleast, decide_true, List.head?_cons, beq_self_eq_true, Bool.and_self, if_true,
    List.tail_cons, takeWhile_decimal, dropWhile_decimal, numeral_decimal, List.isEmpty_iff,
    decimal_ne_nil, Bool.or_eq_true, decide_eq_true_eq, false_or]

theorem fromChars_integer {t : Bytes} {n : Int} (h : IntegerText t n) :
    fromChars int32Min int32Max t = if inInt32 n then some (n, []) else none := by
  have hswap : ∀ n : Int, (if n < int32Min ∨ int32Max < n then none else some (n, ([] : Bytes))) =
      if inInt32 n then some (n, []) else none := fun n => by
    by_cases hn : inInt32 n
    · rw [if_pos hn, if_neg (by unfold inInt32 at hn; omega)]
    · rw [if_neg hn, if_pos (by unfold inInt32 at hn; omega)]
  cases h with
  | natural k => rw [fromChars_natural, hswap]
  | negated k => rw [fromChars_negated (by decide), hswap]

/-- A number in range is not longer than the scanner allows. -/
theorem integer_length_le {t : Bytes} {n : Int} (h : IntegerText t n) (hn : inInt32 n) :
    t.length ≤ 11 := by
  unfold inInt32 int32Min int32Max at hn
  cases h with
  | natural k =>
    have := (decimal_length_le (n := k) (k := 10) (by decide)).mpr (by omega)
    omega
  | negated k =>
    have := (decimal_length_le (n := k) (k := 10) (by decide)).mpr (by omega)
    rw [List.length_cons]
    omega

theorem integerToken_iff {t : Bytes} {n m : Int} (h : IntegerText t n) :
    integerToken t = some m ↔ n = m ∧ inInt32 n := by
  unfold integerToken
  rw [fromChars_integer h]
  by_cases hn : inInt32 n
  · have := integer_length_le h hn
    have := h.ne_nil
    have hfits : ¬ (t.isEmpty || decide (t.length > 11)) = true := by
      simp only [Bool.or_eq_true, List.isEmpty_iff, decide_eq_true_eq, this, false_or]
      omega
    rw [if_neg hfits, if_pos hn]
    simp [hn]
  · rw [if_neg hn]
    simp [hn]

/-! ## Scalars -/

/-- The token of a literal or of a number. -/
inductive Scalar : Bytes → Prop where
  | literal {t : Bytes} : t ∈ [ascii "true", ascii "false", ascii "null"] → Scalar t
  | integer {t : Bytes} {n : Int} : IntegerText t n → inInt32 n → Scalar t

theorem scalar_literal {t : Bytes} (h : t ∈ [ascii "true", ascii "false", ascii "null"])
    (rest : Bytes) : scalar (t ++ rest) = some rest := by
  have hfind : [ascii "true", ascii "false", ascii "null"].find?
      (fun l => (t ++ rest).take l.length = l) = some t := by
    simp only [List.mem_cons, List.not_mem_nil, or_false] at h
    rcases h with rfl | rfl | rfl
    · rfl
    · rfl
    · rfl
  unfold scalar
  rw [hfind]
  simp

/-- The digits at the front of a text, as the scanner takes them. -/
theorem scan_digits {c : UInt8} (rest : Bytes) (hc : isDigit c = true) :
    ∃ k : Nat, c :: rest = Lib.decimal k ++
      (if c = 48 then rest else rest.dropWhile isDigit) := by
  by_cases h : c = 48
  · rw [if_pos h, h]
    exact ⟨0, by rw [decimal_small (by decide)]; rfl⟩
  · rw [if_neg h]
    have hcanonical : Canonical (c :: rest.takeWhile isDigit) := by
      refine ⟨by simp, ?_, fun h' => absurd (by simpa using h') h⟩
      intro d hd
      rcases List.mem_cons.mp hd with rfl | hd
      · exact hc
      · exact List.mem_takeWhile_imp hd
    refine ⟨numeral (c :: rest.takeWhile isDigit), ?_⟩
    rw [hcanonical.decimal_numeral, List.cons_append, List.takeWhile_append_dropWhile]

theorem scalar_sound {s behind : Bytes} (h : scalar s = some behind) :
    ∃ t, s = t ++ behind ∧ Scalar t := by
  unfold scalar at h
  split at h
  · rename_i l hl
    have hmem := List.mem_of_find?_eq_some hl
    have htake : s.take l.length = l := by simpa using List.find?_some hl
    obtain rfl : s.drop l.length = behind := by simpa using h
    exact ⟨l, by conv => lhs; rw [← List.take_append_drop l.length s, htake], .literal hmem⟩
  · split at h
    · simp at h
    · rename_i c rest hs
      by_cases hc : isDigit c = true
      · rw [if_neg (by simpa using hc)] at h
        obtain ⟨k, hk⟩ := scan_digits rest hc
        simp only [Option.map_eq_some_iff] at h
        obtain ⟨n, hn, hbehind⟩ := h
        rw [hbehind] at hn hk
        by_cases hsign : s.head? = some 45
        · rw [if_pos hsign] at hs
          have hs' : s = (45 :: Lib.decimal k) ++ behind := by
            rw [List.cons_append, ← hk, ← hs]
            cases s with
            | nil => simp at hsign
            | cons d s => simpa using hsign
          rw [hs', token_append] at hn
          exact ⟨_, hs', .integer (.negated k) ((integerToken_iff (.negated k)).mp hn).2⟩
        · rw [if_neg hsign] at hs
          have hs' : s = Lib.decimal k ++ behind := by rw [hs, hk]
          rw [hs', token_append] at hn
          exact ⟨_, hs', .integer (.natural k) ((integerToken_iff (.natural k)).mp hn).2⟩
      · rw [if_pos hc] at h
        exact absurd h (by simp)

/-- The digits of a number are taken up to its end. -/
theorem scan_decimal {k : Nat} {c : UInt8} {ds rest : Bytes} (h : Lib.decimal k = c :: ds)
    (hends : Ends rest) : isDigit c = true ∧
      (if c = 48 then ds ++ rest else (ds ++ rest).dropWhile isDigit) = rest := by
  have hdigits := decimal_digits k
  rw [h] at hdigits
  refine ⟨hdigits c (by simp), ?_⟩
  by_cases hc : c = 48
  · rw [if_pos hc]
    have := (decimal_canonical k).leading (by rw [h, hc]; rfl)
    rw [h] at this
    rw [(List.cons.inj this).2]
    rfl
  · rw [if_neg hc]
    exact digits_end (List.forall_mem_cons.1 hdigits).2 hends

theorem scalar_integer {t : Bytes} {n : Int} (h : IntegerText t n) (hn : inInt32 n) {rest : Bytes}
    (hends : Ends rest) : scalar (t ++ rest) = some rest := by
  have htoken : integerToken t = some n := (integerToken_iff h).mpr ⟨rfl, hn⟩
  have hnot : ∀ s : Bytes, (s.head? = some 45 ∨ ∃ c, s.head? = some c ∧ isDigit c = true) →
      [ascii "true", ascii "false", ascii "null"].find? (fun l => s.take l.length = l) = none := by
    intro s hs
    have hne : s.head? ≠ some 116 ∧ s.head? ≠ some 102 ∧ s.head? ≠ some 110 := by
      rcases hs with hs | ⟨c, hs, hc⟩
      · rw [hs]
        decide
      · rw [hs]
        refine ⟨?_, ?_, ?_⟩ <;>
        · intro h
          rw [Option.some.inj h] at hc
          exact absurd hc (by decide)
    have hlit : ∀ l c, l.head? = some c → s.head? ≠ some c → s.take l.length ≠ l := by
      intro l c hl hs htake
      cases s with
      | nil =>
        rw [List.take_nil] at htake
        rw [← htake] at hl
        exact absurd hl (by simp)
      | cons d s =>
        cases l with
        | nil => simp at hl
        | cons e l =>
          simp only [List.length_cons, List.take_succ_cons, List.cons.injEq] at htake
          rw [htake.1] at hs
          exact hs hl
    simp only [List.find?_eq_none, List.mem_cons, List.not_mem_nil, or_false, decide_eq_true_eq]
    rintro l (rfl | rfl | rfl)
    · exact hlit _ 116 (by decide) hne.1
    · exact hlit _ 102 (by decide) hne.2.1
    · exact hlit _ 110 (by decide) hne.2.2
  cases h with
  | natural k =>
    rcases hk : Lib.decimal k with - | ⟨c, ds⟩
    · exact absurd hk (decimal_ne_nil k)
    obtain ⟨hc, hscan⟩ := scan_decimal hk hends
    have hsign : c ≠ 45 := fun h => by
      rw [h] at hc
      exact absurd hc (by decide)
    rw [hk] at htoken
    unfold scalar
    rw [hnot _ (.inr ⟨c, rfl, hc⟩)]
    simp only [List.cons_append, List.head?_cons, Option.some.injEq, hsign, if_false, hc,
      not_true_eq_false, hscan]
    rw [← List.cons_append, token_append, htoken]
    rfl
  | negated k =>
    rcases hk : Lib.decimal k with - | ⟨c, ds⟩
    · exact absurd hk (decimal_ne_nil k)
    obtain ⟨hc, hscan⟩ := scan_decimal hk hends
    rw [hk] at htoken
    unfold scalar
    rw [hnot _ (.inl rfl)]
    simp only [List.cons_append, List.head?_cons, if_true, List.tail_cons, hc,
      not_true_eq_false, if_false, hscan]
    rw [← List.cons_append, ← List.cons_append, token_append, htoken]
    rfl

end WsprryPico.Wtp.Json
