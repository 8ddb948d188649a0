import WsprryPico.Wtp.Json

/-!
# Quoted strings read back

`quote` escapes the quotation mark, the backslash and the control characters; the scanner
gives the bytes back. Whether they are UTF-8 is asked of the whole document alone.
-/

namespace WsprryPico.Wtp.Json

open Lib

variable {s rest : Bytes} {c : UInt8}

/-- A control character is spelled by two digits. -/
theorem quoteByte_control (h : c < 32) : ∃ high low, quoteByte c = [92, 117, 48, 48, high, low] ∧
    hex high = some (c.toNat / 16) ∧ hex low = some (c.toNat % 16) := by
  have hall : ∀ n < 32, quoteByte (UInt8.ofNat n) =
      [92, 117, 48, 48, (quoteByte (UInt8.ofNat n)).getD 4 0,
        (quoteByte (UInt8.ofNat n)).getD 5 0] ∧
      hex ((quoteByte (UInt8.ofNat n)).getD 4 0) = some (n / 16) ∧
      hex ((quoteByte (UInt8.ofNat n)).getD 5 0) = some (n % 16) := by decide
  have hsmall : c.toNat < 32 := UInt8.lt_iff_toNat_lt.mp h
  have hc := hall c.toNat hsmall
  rw [UInt8.ofNat_toNat] at hc
  exact ⟨_, _, hc⟩

theorem escape_control (h : c < 32) (rest : Bytes) :
    ∃ text, quoteByte c = 92 :: text ∧ escape (text ++ rest) = some ([c], rest) := by
  obtain ⟨high, low, hquote, hhigh, hlow⟩ := quoteByte_control h
  refine ⟨[117, 48, 48, high, low], hquote, ?_⟩
  have hsmall : c.toNat < 32 := UInt8.lt_iff_toNat_lt.mp h
  have hzero : hex 48 = some 0 := by decide
  have hvalue : (c.toNat / 16) * 16 + c.toNat % 16 = c.toNat := by omega
  have hcodepoint : codepoint (48 :: 48 :: high :: low :: rest) = some (c.toNat, rest) := by
    simp only [codepoint, codepointFrom, hzero, hhigh, hlow, Nat.zero_mul, Nat.zero_add, hvalue]
  have happend : appendUtf8 c.toNat = [c] := by
    rw [appendUtf8, if_pos (by omega), UInt8.ofNat_toNat]
  show escape (117 :: 48 :: 48 :: high :: low :: rest) = _
  rw [escape, if_pos rfl, unicodeEscape, hcodepoint]
  dsimp only
  rw [if_neg (by omega), if_neg (by omega), happend]

/-- The scanner reads a quoted byte and goes on behind it. -/
theorem stringBody_quoteByte (c : UInt8) (fuel : Nat) (rest : Bytes) :
    stringBody (fuel + 1) (quoteByte c ++ rest) =
      (stringBody fuel rest).map fun d => (c :: d.1, d.2) := by
  by_cases hspecial : c = 34 ∨ c = 92
  · have hescape : escape (c :: rest) = some ([c], rest) := by
      rcases hspecial with rfl | rfl <;> rfl
    have hquote : quoteByte c = [92, c] := by
      rw [quoteByte, if_pos hspecial]
    rw [hquote]
    show stringBody (fuel + 1) (92 :: c :: rest) = _
    rw [stringBody, if_neg (by decide), if_neg (by decide), if_neg (by decide), hescape]
    rfl
  · by_cases hcontrol : c < 32
    · obtain ⟨text, hquote, hescape⟩ := escape_control hcontrol rest
      rw [hquote, List.cons_append, stringBody, if_neg (by decide), if_neg (by decide),
        if_neg (by decide), hescape]
      rfl
    · have hquote : quoteByte c = [c] := by
        rw [quoteByte, if_neg hspecial, if_neg hcontrol]
      rw [not_or] at hspecial
      rw [hquote, List.singleton_append, stringBody, if_neg hspecial.1, if_neg hcontrol,
        if_pos hspecial.2]

theorem stringBody_quote (s rest : Bytes) {fuel : Nat} (hfuel : s.length < fuel) :
    stringBody fuel (s.flatMap quoteByte ++ 34 :: rest) = some (s, rest) := by
  induction s generalizing fuel with
  | nil =>
    obtain ⟨fuel, rfl⟩ := Nat.exists_eq_add_one.2 hfuel
    show stringBody (fuel + 1) (34 :: rest) = _
    rw [stringBody, if_pos rfl]
  | cons c s ih =>
    obtain ⟨fuel, rfl⟩ := Nat.exists_eq_succ_of_ne_zero (Nat.ne_of_gt (Nat.zero_lt_of_lt hfuel))
    have hrest := ih (Nat.lt_of_succ_lt_succ hfuel)
    rw [List.flatMap_cons, List.append_assoc, Nat.succ_eq_add_one, stringBody_quoteByte, hrest]
    rfl

theorem quoteByte_length (c : UInt8) : 1 ≤ (quoteByte c).length := by
  unfold quoteByte
  dsimp only
  split_ifs <;> simp

theorem length_flatMap_quoteByte (s : Bytes) : s.length ≤ (s.flatMap quoteByte).length := by
  induction s with
  | nil => exact Nat.le_refl _
  | cons c s ih =>
    have hc := quoteByte_length c
    rw [List.flatMap_cons, List.length_append, List.length_cons]
    omega

theorem stringToken_quote (s rest : Bytes) : stringToken (quote s ++ rest) = some (s, rest) := by
  have hshape : quote s ++ rest = 34 :: (s.flatMap quoteByte ++ 34 :: rest) := by simp [quote]
  have hlength := length_flatMap_quoteByte s
  rw [hshape, stringToken, if_neg (by decide)]
  refine stringBody_quote s rest ?_
  rw [List.length_append, List.length_cons]
  omega

end WsprryPico.Wtp.Json
