import WsprryPico.Wtp.Json.Read

/-!
# Compaction in place

`wtp/json_compact.hpp` rewrites a validated payload inside its own buffer. The
loop writes behind the place it reads, so it comes to a relation between texts,
`Compacts`; what spells a value still spells it afterwards.
-/

namespace WsprryPico.Wtp.Json

open Lib

/-! ## The loop -/

def compactHex (c : UInt8) : Nat := (hex c).getD 256

/-- The one byte that an escape `\u00` stands for, when it may stand for itself in a string. -/
def plainEscape (high low : UInt8) : Option UInt8 :=
  let plain := compactHex high * 16 + compactHex low
  if compactHex high < 16 ∧ compactHex low < 16 ∧ 32 ≤ plain ∧ plain < 127 ∧ plain ≠ 34 ∧
      plain ≠ 92 then some (UInt8.ofNat plain)
  else none

/-- The buffer with the two places of the loop. -/
structure Compaction where
  bytes : Bytes
  read : Nat := 0
  write : Nat := 0
  quoted : Bool := false

namespace Compaction

def peek (s : Compaction) (i : Nat) : UInt8 := s.bytes.getD (s.read + i) 0

def append (s : Compaction) (c : UInt8) : Compaction :=
  { s with bytes := s.bytes.set s.write c, write := s.write + 1 }

/-- The round went over `n` bytes. -/
def advance (s : Compaction) (n : Nat) (quoted : Bool) : Compaction :=
  { s with read := s.read + n, quoted }

/-- The byte an escape shortens to, and the bytes it takes. -/
def shortened (s : Compaction) : Option (UInt8 × Nat) :=
  if s.peek 1 = 47 then some (47, 2)
  else if s.peek 1 = 117 ∧ s.read + 6 ≤ s.bytes.length ∧ s.peek 2 = 48 ∧ s.peek 3 = 48 then
    (plainEscape (s.peek 4) (s.peek 5)).map fun c => (c, 6)
  else none

def round (s : Compaction) : Compaction :=
  let c := s.peek 0
  if s.quoted ∧ c = 92 then
    match s.shortened with
    | some (plain, n) => (s.append plain).advance n s.quoted
    | none => ((s.append c).append (s.peek 1)).advance 2 s.quoted
  else if s.quoted = false ∧ space c then s.advance 1 s.quoted
  else (s.append c).advance 1 (if c = 34 then !s.quoted else s.quoted)

def loop : Nat → Compaction → Compaction
  | 0, s => s
  | fuel + 1, s => if s.read < s.bytes.length then loop fuel s.round else s

end Compaction

def compactValidatedJson (bytes : Bytes) : Bytes :=
  let s := Compaction.loop bytes.length { bytes }
  s.bytes.take s.write

/-! ## The relation -/

variable {quoted : Bool} {s t out rest body : Bytes} {j : JsonValue}

/-- The text on the right is the one on the left without the space outside strings and with its
plain characters unescaped; whether it starts inside a string is the first argument. -/
inductive Compacts : Bool → Bytes → Bytes → Prop where
  | nil {quoted : Bool} : Compacts quoted [] []
  | slash {s out : Bytes} : Compacts true s out → Compacts true (92 :: 47 :: s) (47 :: out)
  | plain {high low c : UInt8} {s out : Bytes} : plainEscape high low = some c →
      Compacts true s out → Compacts true (92 :: 117 :: 48 :: 48 :: high :: low :: s) (c :: out)
  | kept {n : UInt8} {s out : Bytes} : n ≠ 47 →
      (∀ high low t, n = 117 → s = 48 :: 48 :: high :: low :: t → plainEscape high low = none) →
      Compacts true s out → Compacts true (92 :: n :: s) (92 :: n :: out)
  | space {c : UInt8} {s out : Bytes} : space c = true → Compacts false s out →
      Compacts false (c :: s) out
  | quote {quoted : Bool} {s out : Bytes} : Compacts (!quoted) s out →
      Compacts quoted (34 :: s) (34 :: out)
  | copy {quoted : Bool} {c : UInt8} {s out : Bytes} : c ≠ 34 → (quoted = true → c ≠ 92) →
      (quoted = false → Json.space c = false) → Compacts quoted s out →
      Compacts quoted (c :: s) (c :: out)

theorem Compacts.length_le (h : Compacts quoted s out) : out.length ≤ s.length := by
  induction h with
  | nil => simp
  | slash _ ih => simp only [List.length_cons]; omega
  | plain _ _ ih => simp only [List.length_cons]; omega
  | kept _ _ _ ih => simp only [List.length_cons]; omega
  | space _ _ ih => simp only [List.length_cons]; omega
  | quote _ ih => simp only [List.length_cons]; omega
  | copy _ _ _ _ ih => simp only [List.length_cons]; omega

namespace Compaction

variable {st : Compaction}

theorem peek_drop (h : st.bytes.drop st.read = s) (i : Nat) : st.peek i = s.getD i 0 := by
  rw [peek, List.getD_eq_getElem?_getD, List.getD_eq_getElem?_getD, ← h, List.getElem?_drop]

theorem read_lt {c : UInt8} (h : st.bytes.drop st.read = c :: s) : st.read < st.bytes.length := by
  by_contra hlt
  rw [List.drop_eq_nil_of_le (by omega)] at h
  exact absurd h (by simp)

theorem take_append {c : UInt8} (h : st.write < st.bytes.length) :
    (st.append c).bytes.take (st.append c).write = st.bytes.take st.write ++ [c] := by
  simp only [append]
  rw [List.take_add_one, List.getElem?_set_self h, List.take_set_of_le (Nat.le_refl _)]
  rfl

theorem drop_append (c : UInt8) {n : Nat} (h : st.write < n) :
    (st.append c).bytes.drop n = st.bytes.drop n := by
  simp only [append]
  rw [List.drop_set_of_lt h]

@[simp] theorem length_append (c : UInt8) : (st.append c).bytes.length = st.bytes.length := by
  simp [append]

@[simp] theorem read_append (c : UInt8) : (st.append c).read = st.read := rfl
@[simp] theorem write_append (c : UInt8) : (st.append c).write = st.write + 1 := rfl

theorem drop_used {n : Nat} (h : st.bytes.drop st.read = t) (hrest : t.drop n = s) :
    st.bytes.drop (st.read + n) = s := by
  rw [← List.drop_drop, h, hrest]

/-- A round reads up to `s`, which begins inside a string or not, and writes `out`. -/
structure Rounds (st : Compaction) (quoted : Bool) (s out : Bytes) : Prop where
  quoted : st.round.quoted = quoted
  drop : st.round.bytes.drop st.round.read = s
  le : st.round.write ≤ st.round.read
  take : st.round.bytes.take st.round.write = st.bytes.take st.write ++ out

theorem Rounds.one {n : Nat} {c : UInt8} (hround : st.round = (st.append c).advance n quoted)
    (h : st.bytes.drop st.read = t) (hrest : t.drop n = s) (hpos : 0 < n) (hlen : n ≤ t.length)
    (hwrite : st.write ≤ st.read) : Rounds st quoted s [c] := by
  have hlt : st.read < st.bytes.length := by
    have := congrArg List.length h
    rw [List.length_drop] at this
    omega
  refine ⟨by rw [hround]; rfl, ?_, ?_, ?_⟩
  · rw [hround]
    exact (drop_append c (show st.write < st.read + n by omega)).trans (drop_used h hrest)
  · rw [hround]
    simp only [advance, write_append, read_append]
    omega
  · rw [hround]
    exact take_append (by omega)

/-- A round that keeps an escape. -/
theorem Rounds.two {c n : UInt8} (hround : st.round = ((st.append c).append n).advance 2 quoted)
    (h : st.bytes.drop st.read = c :: n :: s) (hwrite : st.write ≤ st.read) :
    Rounds st quoted s [c, n] := by
  have hlt : st.read + 1 < st.bytes.length := by
    have := congrArg List.length h
    rw [List.length_drop] at this
    simp only [List.length_cons] at this
    omega
  refine ⟨by rw [hround]; rfl, ?_, ?_, ?_⟩
  · have hfirst : (st.append c).bytes.drop (st.read + 2) = s :=
      (drop_append c (by omega)).trans (drop_used h rfl)
    rw [hround]
    exact (drop_append n (show st.write + 1 < st.read + 2 by omega)).trans hfirst
  · rw [hround]
    simp only [advance, write_append, read_append]
    omega
  · have hsecond : (st.append c).write < (st.append c).bytes.length := by
      rw [write_append, length_append]
      omega
    have hfirst := take_append (c := c) (show st.write < st.bytes.length by omega)
    rw [hround]
    refine (take_append hsecond).trans ?_
    rw [hfirst]
    simp

/-- The loop writes `out` for the rest of the text, behind what it wrote before. -/
def Writes (quoted : Bool) (s out : Bytes) : Prop :=
  ∀ {st : Compaction} {fuel : Nat}, st.quoted = quoted → st.bytes.drop st.read = s →
    st.write ≤ st.read → s.length ≤ fuel →
      (loop fuel st).bytes.take (loop fuel st).write = st.bytes.take st.write ++ out

theorem Rounds.loop {c : UInt8} {w : Bytes} {fuel : Nat} (h : Rounds st quoted rest w)
    (ih : Writes quoted rest out) (hs : st.bytes.drop st.read = c :: s)
    (hlen : rest.length ≤ s.length) (hfuel : (c :: s).length ≤ fuel) :
    (loop fuel st).bytes.take (loop fuel st).write = st.bytes.take st.write ++ (w ++ out) := by
  obtain ⟨fuel, rfl⟩ := fuel_left hfuel
  rw [List.length_cons] at hfuel
  rw [Compaction.loop, if_pos (read_lt hs), ih h.quoted h.drop h.le (by omega), h.take,
    List.append_assoc]

end Compaction

open Compaction in
/-- The loop in place writes what the relation says. -/
theorem Compacts.loop (h : Compacts quoted s out) : Writes quoted s out := by
  induction h with
  | nil =>
    intro st fuel _ hs hwrite _
    have hend : ¬ st.read < st.bytes.length := by
      have := List.drop_eq_nil_iff.mp hs
      omega
    have hstop : Compaction.loop fuel st = st := by
      cases fuel with
      | zero => rfl
      | succ fuel => rw [Compaction.loop, if_neg hend]
    rw [hstop, List.append_nil]
  | @slash s out _ ih =>
    intro st fuel hq hs hwrite hfuel
    have hround : st.round = (st.append 47).advance 2 true := by
      simp [Compaction.round, shortened, peek_drop hs, hq]
    exact (Rounds.one hround hs rfl (by decide) (by simp) hwrite).loop ih hs (by simp) hfuel
  | @plain high low c s out hplain _ ih =>
    intro st fuel hq hs hwrite hfuel
    have hfits : st.read + 6 ≤ st.bytes.length := by
      have := congrArg List.length hs
      rw [List.length_drop] at this
      simp only [List.length_cons] at this
      omega
    have hround : st.round = (st.append c).advance 6 true := by
      simp [Compaction.round, shortened, peek_drop hs, hq, hfits, hplain]
    refine (Rounds.one (s := s) hround hs rfl (by decide) (by simp) hwrite).loop ih hs ?_ hfuel
    simp only [List.length_cons]
    omega
  | @kept n s out hslash hplain _ ih =>
    intro st fuel hq hs hwrite hfuel
    have hshort : st.shortened = none := by
      rw [shortened]
      simp only [peek_drop hs]
      rw [if_neg (by simpa using hslash)]
      split
      · rename_i hunit
        obtain ⟨hn, hfits, hzero, hzero'⟩ := hunit
        have hlen := congrArg List.length hs
        rw [List.length_drop] at hlen
        simp only [List.length_cons] at hlen
        match s, hzero, hzero', hlen with
        | [], _, _, hlen => simp at hlen; omega
        | [_], _, _, hlen => simp at hlen; omega
        | [_, _], _, _, hlen => simp at hlen; omega
        | [_, _, _], _, _, hlen => simp at hlen; omega
        | a :: b :: high :: low :: t, hzero, hzero', _ =>
          obtain rfl : a = 48 := hzero
          obtain rfl : b = 48 := hzero'
          have := hplain high low t hn rfl
          simp [this]
      · rfl
    have hround : st.round = ((st.append 92).append n).advance 2 true := by
      rw [Compaction.round]
      simp [hshort, peek_drop hs, hq]
    exact (Rounds.two hround hs hwrite).loop ih hs (by simp) hfuel
  | @space c s out hc _ ih =>
    intro st fuel hq hs hwrite hfuel
    have hround : st.round = st.advance 1 false := by simp [Compaction.round, peek_drop hs, hq, hc]
    have hspace : Rounds st false s [] := by
      refine ⟨by rw [hround]; rfl, ?_, ?_, ?_⟩ <;> rw [hround]
      · exact drop_used hs rfl
      · exact Nat.le_succ_of_le hwrite
      · exact (List.append_nil _).symm
    exact hspace.loop ih hs (Nat.le_refl _) hfuel
  | @quote quoted s out _ ih =>
    intro st fuel hq hs hwrite hfuel
    have hround : st.round = (st.append 34).advance 1 !quoted := by
      have hspace : Json.space 34 = false := by decide
      simp [Compaction.round, peek_drop hs, hq, hspace]
    exact (Rounds.one hround hs rfl (by decide) (by simp) hwrite).loop ih hs (Nat.le_refl _) hfuel
  | @copy quoted c s out hquote hslash hspace _ ih =>
    intro st fuel hq hs hwrite hfuel
    have hround : st.round = (st.append c).advance 1 quoted := by
      cases quoted with
      | true => simp [Compaction.round, peek_drop hs, hq, hslash rfl, hquote]
      | false => simp [Compaction.round, peek_drop hs, hq, hspace rfl, hquote]
    exact (Rounds.one hround hs rfl (by decide) (by simp) hwrite).loop ih hs (Nat.le_refl _) hfuel

theorem Compacts.result (h : Compacts false s out) : compactValidatedJson s = out := by
  have hloop : (Compaction.loop s.length { bytes := s }).bytes.take
      (Compaction.loop s.length { bytes := s }).write = ([] : Bytes) ++ out :=
    h.loop rfl rfl (Nat.le_refl _) (Nat.le_refl _)
  exact hloop

/-! ## The grammar -/

/-- The loop takes one text to another, whatever stands behind it. -/
def Turns (quoted : Bool) (t t' : Bytes) : Prop :=
  ∀ rest out, Compacts quoted rest out → Compacts quoted (t ++ rest) (t' ++ out)

theorem Turns.append {t₁ t₁' t₂ t₂' : Bytes} (h₁ : Turns quoted t₁ t₁') (h₂ : Turns quoted t₂ t₂') :
    Turns quoted (t₁ ++ t₂) (t₁' ++ t₂') := by
  intro rest out h
  rw [List.append_assoc, List.append_assoc]
  exact h₁ _ _ (h₂ _ _ h)

theorem Turns.cons {c : UInt8} {t' : Bytes} (hquote : c ≠ 34) (hspace : Json.space c = false)
    (h : Turns false t t') : Turns false (c :: t) (c :: t') :=
  fun _ _ hrest => .copy hquote (by simp) (fun _ => hspace) (h _ _ hrest)

theorem turns_space {w : Bytes} (hw : Space w) : Turns false w [] := by
  intro rest out h
  induction w with
  | nil => exact h
  | cons c w ih =>
    exact .space (space_iff.mpr (hw c (by simp))) (ih (List.forall_mem_cons.1 hw).2)

theorem turns_scalar (h : ∀ c ∈ t, c ≠ 34 ∧ Json.space c = false) : Turns false t t := by
  induction t with
  | nil => exact fun _ _ hrest => hrest
  | cons c t ih =>
    exact Turns.cons (h c (by simp)).1 (h c (by simp)).2 (ih (List.forall_mem_cons.1 h).2)

theorem hexDigit_plain {c : UInt8} {d : Nat} (h : HexDigit c d) : c ≠ 34 ∧ c ≠ 92 := by
  have h := hex_iff.mpr h
  constructor
  · rintro rfl
    exact absurd h (by simp [show hex 34 = none by decide])
  · rintro rfl
    exact absurd h (by simp [show hex 92 = none by decide])

/-- An escape of a code unit that does not stand for itself is kept. -/
theorem turns_unit {q : Bytes} {u : Nat} (h : HexQuad q u)
    (hplain : ∀ high low, q = [48, 48, high, low] → plainEscape high low = none) :
    Turns true (92 :: 117 :: q) (92 :: 117 :: q) := by
  cases h with
  | @intro a b c d i j k l ha hb hc hd =>
    intro rest out hrest
    have hcopy : Compacts true (a :: b :: c :: d :: rest) (a :: b :: c :: d :: out) := by
      refine .copy (hexDigit_plain ha).1 (fun _ => (hexDigit_plain ha).2) (by simp) ?_
      refine .copy (hexDigit_plain hb).1 (fun _ => (hexDigit_plain hb).2) (by simp) ?_
      refine .copy (hexDigit_plain hc).1 (fun _ => (hexDigit_plain hc).2) (by simp) ?_
      exact .copy (hexDigit_plain hd).1 (fun _ => (hexDigit_plain hd).2) (by simp) hrest
    refine .kept (by decide) (fun high low t _ heq => ?_) hcopy
    cases heq
    exact hplain c d rfl

theorem hexDigit_zero {d : Nat} (h : HexDigit 48 d) : d = 0 := by
  have h := hex_iff.mpr h
  rw [show hex 48 = some 0 by decide] at h
  exact (Option.some.inj h).symm

theorem plain_unit {high low c : UInt8} {u : Nat} (h : HexQuad [48, 48, high, low] u)
    (hplain : plainEscape high low = some c) :
    String.utf8EncodeChar (Char.ofNat u) = [c] ∧ 32 ≤ c ∧ c ≠ 34 ∧ c ≠ 92 := by
  cases h with
  | @intro _ _ _ _ i j k l ha hb hc hd =>
    have hi := hexDigit_zero ha
    have hj := hexDigit_zero hb
    have hhigh : compactHex high = k := by simp [compactHex, hex_iff.mpr hc]
    have hlow : compactHex low = l := by simp [compactHex, hex_iff.mpr hd]
    unfold plainEscape at hplain
    simp only [hhigh, hlow] at hplain
    by_cases hcond : k < 16 ∧ l < 16 ∧ 32 ≤ k * 16 + l ∧ k * 16 + l < 127 ∧ k * 16 + l ≠ 34 ∧
        k * 16 + l ≠ 92
    · rw [if_pos hcond] at hplain
      cases hplain
      subst hi hj
      have hunit : ((0 * 16 + 0) * 16 + k) * 16 + l = k * 16 + l := by omega
      rw [hunit]
      generalize k * 16 + l = u at hcond
      have hbyte := UInt8.toNat_ofNat_of_lt' (show u < 256 by omega)
      refine ⟨?_, ?_, ?_, ?_⟩
      · rw [← appendUtf8_ofNat (.inl (by omega)), appendUtf8, if_pos (by omega)]
      · rw [UInt8.le_iff_toNat_le, hbyte]
        exact hcond.2.2.1
      · intro h
        rw [h] at hbyte
        exact hcond.2.2.2.2.1 hbyte.symm
      · intro h
        rw [h] at hbyte
        exact hcond.2.2.2.2.2 hbyte.symm
    · rw [if_neg hcond] at hplain
      exact absurd hplain (by simp)

theorem HexQuad.zero_lt {high low : UInt8} {u : Nat} (h : HexQuad [48, 48, high, low] u) :
    u < 0x1000 := by
  cases h with
  | @intro _ _ _ _ i j k l ha hb hc hd =>
    have hi := hexDigit_zero ha
    have := HexDigit.lt hb
    have := HexDigit.lt hc
    have := HexDigit.lt hd
    omega

theorem turns_content {d : Bytes} (h : Content t d) : ∃ t', Content t' d ∧ Turns true t t' := by
  induction h with
  | nil => exact ⟨[], .nil, fun _ _ h => h⟩
  | @plain c t s hlow hquote hslash _ ih =>
    obtain ⟨t', ht', hturns⟩ := ih
    exact ⟨c :: t', .plain hlow hquote hslash ht',
      fun _ _ hrest => .copy hquote (fun _ => hslash) (by simp) (hturns _ _ hrest)⟩
  | @short e c t s he _ ih =>
    obtain ⟨t', ht', hturns⟩ := ih
    by_cases hslash : e = 47
    · subst hslash
      have hc : c = 47 := by
        have := shortEscape_iff.mpr he
        rw [show shortEscape 47 = some 47 by decide] at this
        exact (Option.some.inj this).symm
      subst hc
      exact ⟨47 :: t', .plain (by decide) (by decide) (by decide) ht',
        fun _ _ hrest => .slash (hturns _ _ hrest)⟩
    · have hne : e ≠ 117 := fun h => absurd (h ▸ he) (by simp [shortEscapes])
      exact ⟨92 :: e :: t', .short he ht',
        fun _ _ hrest => .kept hslash (fun _ _ _ h => absurd h hne) (hturns _ _ hrest)⟩
  | @unit q t s u hq hhigh hlow _ ih =>
    obtain ⟨t', ht', hturns⟩ := ih
    by_cases hplain : ∃ high low c, q = [48, 48, high, low] ∧ plainEscape high low = some c
    · obtain ⟨high, low, c, rfl, hc⟩ := hplain
      obtain ⟨hencode, hc₁, hc₂, hc₃⟩ := plain_unit hq hc
      rw [hencode]
      exact ⟨c :: t', .plain hc₁ hc₂ hc₃ ht', fun _ _ hrest => .plain hc (hturns _ _ hrest)⟩
    · refine ⟨92 :: 117 :: (q ++ t'), .unit hq hhigh hlow ht', ?_⟩
      refine Turns.append (turns_unit hq fun high low heq => ?_) hturns
      rcases hc : plainEscape high low with - | c
      · rfl
      · exact absurd ⟨high, low, c, heq, hc⟩ hplain
  | @pair q r t s u v hq hhigh hr hlow _ ih =>
    obtain ⟨t', ht', hturns⟩ := ih
    have hkeep : ∀ {q u}, HexQuad q u → 0x1000 ≤ u →
        Turns true (92 :: 117 :: q) (92 :: 117 :: q) := fun hq hu =>
      turns_unit hq fun high low heq => by
        subst heq
        have := HexQuad.zero_lt hq
        omega
    have hu : 0x1000 ≤ u := Nat.le_trans (by decide) hhigh.1
    have hv : 0x1000 ≤ v := Nat.le_trans (by decide) hlow.1
    exact ⟨92 :: 117 :: (q ++ 92 :: 117 :: (r ++ t')), .pair hq hhigh hr hlow ht',
      (hkeep hq hu).append ((hkeep hr hv).append hturns)⟩

theorem turns_string {d : Bytes} (h : StringText t d) :
    ∃ t', StringText t' d ∧ Turns false t t' := by
  cases h with
  | @intro body _ h =>
    obtain ⟨body', hbody', hturns⟩ := turns_content h
    refine ⟨_, .intro hbody', fun rest out hrest => ?_⟩
    have hclose : Compacts true (34 :: rest) (34 :: out) := .quote hrest
    have := hturns _ _ hclose
    simp only [List.cons_append, List.append_assoc, List.nil_append]
    exact .quote this

/-- Texts with commas between them lose the space. -/
theorem turns_separated {l : List (Bytes × Bytes)} (hl : ∀ p ∈ l, Turns false p.1 p.2)
    (h : Separated (l.map Prod.fst) body) :
    ∃ body', Separated (l.map Prod.snd) body' ∧ Turns false body body' := by
  induction l generalizing body with
  | nil =>
    cases h with
    | none hw => exact ⟨[], .none .nil, turns_space hw⟩
  | cons p l ih =>
    have hp := hl p (by simp)
    rw [List.map_cons] at h
    generalize hts : l.map Prod.fst = ts at h
    cases h with
    | @one w _ w' hw hw' =>
      obtain rfl : l = [] := by simpa using hts
      have hturns := ((turns_space hw).append hp).append (turns_space hw')
      exact ⟨[] ++ p.2 ++ [], .one .nil .nil, hturns⟩
    | @more w _ w' rest _ hw hw' hne hsep =>
      subst hts
      obtain ⟨rest', hrest', hturns⟩ := ih (List.forall_mem_cons.1 hl).2 hsep
      refine ⟨[] ++ p.2 ++ [] ++ 44 :: rest', .more .nil .nil (by simpa using hne) hrest', ?_⟩
      exact (((turns_space hw).append hp).append (turns_space hw')).append
        (Turns.cons (by decide) (by decide) hturns)

/-- What spells a value still does when the space is gone. -/
theorem turns_spells (h : Spells inInt32 j t) : ∃ t', Spells inInt32 j t' ∧ Turns false t t' := by
  have hdigit : ∀ c : UInt8, isDigit c = true → c ≠ 34 ∧ Json.space c = false := by
    intro c hc
    constructor
    · rintro rfl
      exact absurd hc (by decide)
    · rw [Bool.eq_false_iff]
      intro hspace
      rcases space_iff.mp hspace with rfl | rfl | rfl | rfl <;> exact absurd hc (by decide)
  induction h with
  | null => exact ⟨_, .null, turns_scalar (forall_mem_of_all (by decide))⟩
  | yes => exact ⟨_, .yes, turns_scalar (forall_mem_of_all (by decide))⟩
  | no => exact ⟨_, .no, turns_scalar (forall_mem_of_all (by decide))⟩
  | @integer t n hn hrange =>
    refine ⟨t, .integer hn hrange, turns_scalar fun c hc => ?_⟩
    cases hn with
    | natural k => exact hdigit c (decimal_digits k c hc)
    | negated k =>
      rcases List.mem_cons.mp hc with rfl | hc
      · decide
      · exact hdigit c (decimal_digits k c hc)
  | string hs =>
    obtain ⟨t', ht', hturns⟩ := turns_string hs
    exact ⟨t', .string ht', hturns⟩
  | @array parts body hparts hsep ih =>
    obtain ⟨pairs, rfl, hpairs⟩ := exists_parts ih
    obtain ⟨body', hsep', hturns⟩ := turns_separated
      (l := pairs.map fun x => (x.1.2, x.2)) (fun q hq => by
        obtain ⟨x, hx, rfl⟩ := List.mem_map.mp hq
        exact (hpairs x hx).2) (by simpa [Function.comp_def] using hsep)
    have hspells := Spells.array (r := inInt32) (l := pairs.map fun x => (x.1.1, x.2))
      (fun q hq => by
        obtain ⟨x, hx, rfl⟩ := List.mem_map.mp hq
        exact (hpairs x hx).1) (by simpa [Function.comp_def] using hsep')
    refine ⟨91 :: body' ++ [93], by simpa [Function.comp_def] using hspells, ?_⟩
    exact (Turns.cons (by decide) (by decide) hturns).append
      (turns_scalar (forall_mem_of_all (by decide)))
  | @object parts body hpieces hparts hsep ih =>
    have hmember : ∀ m ∈ parts, ∃ m' : Member, m'.Piece ∧ m'.name = m.name ∧ m'.value = m.value ∧
        Spells inInt32 m'.value m'.text ∧ Turns false m.piece m'.piece := by
      intro m hm
      obtain ⟨text', htext', hturns⟩ := ih m hm
      cases hpieces m hm with
      | @intro name key w w' text value hname hw hw' =>
        obtain ⟨key', hkey', hturns'⟩ := turns_string hname
        refine ⟨⟨name, value, text', _⟩, .intro hkey' .nil .nil, rfl, rfl, htext', ?_⟩
        exact (hturns'.append (turns_space hw)).append
          (Turns.cons (by decide) (by decide) ((turns_space hw').append hturns))
    obtain ⟨pairs, rfl, hpairs⟩ := exists_parts hmember
    obtain ⟨body', hsep', hturns⟩ := turns_separated
      (l := pairs.map fun x => (x.1.piece, x.2.piece)) (fun q hq => by
        obtain ⟨x, hx, rfl⟩ := List.mem_map.mp hq
        exact (hpairs x hx).2.2.2.2) (by simpa [Function.comp_def] using hsep)
    have hspells := Spells.object (r := inInt32) (l := pairs.map Prod.snd) (b := body')
      (fun q hq => by
        obtain ⟨x, hx, rfl⟩ := List.mem_map.mp hq
        exact (hpairs x hx).1)
      (fun q hq => by
        obtain ⟨x, hx, rfl⟩ := List.mem_map.mp hq
        exact (hpairs x hx).2.2.2.1) (by simpa [Function.comp_def] using hsep')
    have hsame : (pairs.map Prod.snd).map (fun m => (m.name, m.value)) =
        (pairs.map Prod.fst).map fun m => (m.name, m.value) := by
      simp only [List.map_map]
      refine List.map_congr_left fun x hx => ?_
      simp only [Function.comp_apply, (hpairs x hx).2.1, (hpairs x hx).2.2.1]
    rw [hsame] at hspells
    refine ⟨123 :: body' ++ [125], hspells, ?_⟩
    exact (Turns.cons (by decide) (by decide) hturns).append
      (turns_scalar (forall_mem_of_all (by decide)))

/-! ## UTF-8 -/

theorem utf8_cons {c : UInt8} (hc : c < 0x80) : Utf8 (c :: s) ↔ Utf8 s := by
  rw [← utf8_iff, ← utf8_iff, utf8, utf8, List.length_cons, utf8From_ascii hc]

/-- A longer encoding holds no one-byte character. -/
theorem encode_high (ch : Char) : (String.utf8EncodeChar ch).length = 1 ∨
    ∀ b ∈ String.utf8EncodeChar ch, ¬ b < 0x80 := by
  have hvalid : ch.toNat.isValidChar := ch.valid
  have hlt : ch.toNat < 0x110000 := by
    rcases hvalid with h | h <;> omega
  rw [← Char.ofNat_toNat ch, ← appendUtf8_ofNat hvalid, appendUtf8_eq _ hlt]
  by_cases h₁ : ch.toNat < 0x80
  · rw [if_pos h₁]
    exact .inl rfl
  by_cases h₂ : ch.toNat < 0x800
  · rw [if_neg h₁, if_pos h₂]
    refine .inr fun b hb => ?_
    simp only [List.mem_cons, List.not_mem_nil, or_false] at hb
    rcases hb with rfl | rfl <;> exact not_ascii (by omega) (by omega)
  by_cases h₃ : ch.toNat < 0x10000
  · rw [if_neg h₁, if_neg h₂, if_pos h₃]
    refine .inr fun b hb => ?_
    simp only [List.mem_cons, List.not_mem_nil, or_false] at hb
    rcases hb with rfl | rfl | rfl <;> exact not_ascii (by omega) (by omega)
  · rw [if_neg h₁, if_neg h₂, if_neg h₃]
    refine .inr fun b hb => ?_
    simp only [List.mem_cons, List.not_mem_nil, or_false] at hb
    rcases hb with rfl | rfl | rfl | rfl <;> exact not_ascii (by omega) (by omega)

/-- A one-byte character ends the characters in front of it. -/
theorem utf8_split {c : UInt8} (hc : c < 0x80) (h : Utf8 (s ++ c :: t)) : Utf8 s ∧ Utf8 t := by
  obtain ⟨chars, hchars⟩ := h
  induction chars generalizing s with
  | nil => exact absurd hchars (by simp)
  | cons ch chars ih =>
    rw [List.flatMap_cons] at hchars
    cases s with
    | nil =>
      exact ⟨⟨[], rfl⟩, (utf8_cons hc).mp ⟨ch :: chars, by rw [List.flatMap_cons]; exact hchars⟩⟩
    | cons a s =>
      rcases List.append_eq_append_iff.mp hchars with ⟨mid, hmid, -⟩ | ⟨mid, hmid, hrest⟩
      · -- the encoding would reach past the character `c`
        cases mid with
        | nil =>
          rw [List.append_nil] at hmid
          refine ⟨⟨[ch], by simp [hmid]⟩, ?_⟩
          have : c :: t = chars.flatMap String.utf8EncodeChar := by
            rw [hmid] at hchars
            exact List.append_cancel_left hchars
          exact (utf8_cons hc).mp ⟨chars, this⟩
        | cons b mid =>
          have hb : b = c := by
            rw [hmid, List.append_assoc] at hchars
            have := List.append_cancel_left hchars
            exact (List.cons.inj this).1.symm
          rcases encode_high ch with hone | hhigh
          · rw [hmid] at hone
            simp at hone
          · exact absurd hc (hhigh c (by rw [hmid, hb]; simp))
      · obtain ⟨hs, ht⟩ := ih hrest.symm
        refine ⟨?_, ht⟩
        rw [hmid]
        exact (show Utf8 (String.utf8EncodeChar ch) from ⟨[ch], by simp⟩).append hs

/-- One byte in place of some that are characters of their own. -/
theorem utf8_replace {p u : Bytes} {c : UInt8} (hu : ∀ b ∈ u, b < 0x80) (hne : u ≠ [])
    (hc : c < 0x80) (ih : Utf8 s → Utf8 out) (h : Utf8 (p ++ (u ++ s))) :
    Utf8 (p ++ c :: out) := by
  obtain ⟨b, u, rfl⟩ := List.exists_cons_of_ne_nil hne
  obtain ⟨hpre, hrest⟩ := utf8_split (hu b (by simp)) h
  have hs : Utf8 s := by
    clear h hne
    replace hu : ∀ b ∈ u, b < 0x80 := (List.forall_mem_cons.1 hu).2
    induction u with
    | nil => exact hrest
    | cons d u ih =>
      exact ih ((utf8_cons (hu d (by simp))).mp hrest)
        (List.forall_mem_cons.1 hu).2
  exact hpre.append ((utf8_cons hc).mpr (ih hs))

theorem plainEscape_ascii {high low c : UInt8} (h : plainEscape high low = some c) :
    high < 0x80 ∧ low < 0x80 ∧ c < 0x80 := by
  have hdigit : ∀ b : UInt8, compactHex b < 16 → b < 0x80 := by
    have hall : ∀ x < 256, compactHex (UInt8.ofNat x) < 16 → UInt8.ofNat x < 0x80 := by
      decide +kernel
    intro b hb
    have := hall b.toNat b.toNat_lt
    rw [UInt8.ofNat_toNat] at this
    exact this hb
  unfold plainEscape at h
  by_cases hcond : compactHex high < 16 ∧ compactHex low < 16 ∧
      32 ≤ compactHex high * 16 + compactHex low ∧ compactHex high * 16 + compactHex low < 127 ∧
      compactHex high * 16 + compactHex low ≠ 34 ∧ compactHex high * 16 + compactHex low ≠ 92
  · simp only [if_pos hcond, Option.some.injEq] at h
    subst h
    refine ⟨hdigit _ hcond.1, hdigit _ hcond.2.1, ?_⟩
    rw [UInt8.lt_iff_toNat_lt, UInt8.toNat_ofNat']
    have : UInt8.toNat 0x80 = 128 := rfl
    omega
  · simp only [if_neg hcond] at h
    exact absurd h (by simp)

/-- The text stays UTF-8. The bytes of a character that the loop is inside of are in front. -/
theorem Compacts.utf8 (h : Compacts quoted s out) : ∀ {p : Bytes}, Utf8 (p ++ s) →
    Utf8 (p ++ out) := by
  induction h with
  | nil => exact fun h => h
  | slash _ ih =>
    intro p h
    exact utf8_replace (u := [92, 47]) (forall_mem_of_all (by decide)) (by simp) (by decide)
      (ih (p := [])) h
  | @plain high low c s out hplain _ ih =>
    intro p h
    obtain ⟨hhigh, hlow, hc⟩ := plainEscape_ascii hplain
    refine utf8_replace (u := [92, 117, 48, 48, high, low]) ?_ (by simp) hc (ih (p := [])) h
    intro b hb
    simp only [List.mem_cons, List.not_mem_nil, or_false] at hb
    rcases hb with rfl | rfl | rfl | rfl | rfl | rfl
    · decide
    · decide
    · decide
    · decide
    · exact hhigh
    · exact hlow
  | @kept n s out _ _ _ ih =>
    intro p h
    exact utf8_replace (u := [92]) (s := n :: s) (forall_mem_of_all (by decide)) (by simp)
      (by decide) (ih (p := [n])) h
  | @space c s out hc _ ih =>
    intro p h
    have hascii : c < 0x80 := by
      rcases space_iff.mp hc with rfl | rfl | rfl | rfl <;> decide
    obtain ⟨hpre, hs⟩ := utf8_split hascii h
    exact hpre.append (ih (p := []) hs)
  | quote _ ih =>
    intro p h
    exact utf8_replace (u := [34]) (forall_mem_of_all (by decide)) (by simp) (by decide)
      (ih (p := [])) h
  | @copy quoted c s out _ _ _ _ ih =>
    intro p h
    by_cases hc : c < 0x80
    · exact utf8_replace (u := [c]) (by simpa using hc) (by simp) hc (ih (p := [])) h
    · have := ih (p := p ++ [c]) (by simpa using h)
      simpa using this

/-- A payload that the parser accepts is accepted when it is compacted, and spells the same value. -/
theorem parse_compact {payload : Bytes} {maximumDepth : Nat} {v : Value}
    (h : parse payload maximumDepth = some v) :
    ∃ v' j, parse (compactValidatedJson payload) maximumDepth = some v' ∧
      (compactValidatedJson payload).length ≤ payload.length ∧ Profile maximumDepth payload j ∧
      Profile maximumDepth (compactValidatedJson payload) j ∧ Spells inInt32 j v.raw ∧
      Spells inInt32 j v'.raw := by
  obtain ⟨hmax, j, hprofile, hspells⟩ := parse_sound h
  obtain ⟨before, t, after, hbefore, hafter, hpayload, ht⟩ := hprofile.text
  obtain ⟨t', ht', hturns⟩ := turns_spells ht
  have hcompacts : Compacts false payload t' := by
    have hblank := turns_space hafter [] [] .nil
    rw [List.append_nil, List.append_nil] at hblank
    have := turns_space hbefore _ _ (hturns _ _ hblank)
    rw [List.append_nil, List.nil_append] at this
    rwa [hpayload, List.append_assoc]
  have hshorter := hcompacts.length_le
  rw [hcompacts.result]
  have hopen : t' ≠ [] := by
    obtain ⟨c, s, rfl, -⟩ := spells_head ht'
    simp
  have hcompact : Profile maximumDepth t' j :=
    ⟨⟨List.length_pos_iff.mpr hopen, Nat.le_trans hshorter hprofile.size.2⟩,
      hcompacts.utf8 (p := []) hprofile.utf8, ⟨[], t', [], .nil, .nil, by simp, ht'⟩,
      hprofile.object, hprofile.depth, hprofile.distinct⟩
  obtain ⟨v', hv', hspells'⟩ := parse_complete hmax hcompact
  exact ⟨v', j, hv', hshorter, hprofile, hcompact, hspells, hspells'⟩

end WsprryPico.Wtp.Json
