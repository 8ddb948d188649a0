import WsprryPico.Wtp.Json.Tokens

/-!
# What the parser accepts

The parser against the grammar of JSON texts. `value_sound` and `value_complete`
go through the levels of nesting and through the rules of the grammar; the loop
over the members of an object and the elements of an array is one lemma for each
direction.
-/

namespace WsprryPico.Wtp.Json

open Lib

variable {s t w body rest behind : Bytes} {validate object : Bool} {j : JsonValue}

/-! ## Names -/

/-- In a sorted list equal neighbours are the only repetitions. -/
theorem neighbours_iff {sorted : List Value}
    (h : sorted.Pairwise fun a b => ¬ b.string < a.string) :
    ((sorted.zip sorted.tail).any fun pair => decide (pair.1.string = pair.2.string)) = false ↔
      (sorted.map Value.string).Nodup := by
  induction sorted with
  | nil => simp
  | cons a sorted ih =>
    obtain ⟨ha, hsorted⟩ := List.pairwise_cons.mp h
    cases sorted with
    | nil => simp
    | cons b sorted =>
      have ih := ih hsorted
      simp only [List.tail_cons] at ih
      rw [List.tail_cons, List.zip_cons_cons, List.any_cons, Bool.or_eq_false_iff, ih,
        List.map_cons (a := a), List.nodup_cons, decide_eq_false_iff_not]
      refine and_congr_left fun _ => ⟨fun hne hmem => ?_, fun hmem heq => ?_⟩
      · obtain ⟨x, hx, hxa⟩ := List.mem_map.mp hmem
        rcases List.mem_cons.mp hx with rfl | hx
        · exact hne hxa.symm
        · have hab : a.string ≤ b.string := List.not_lt.mp (ha b (by simp))
          have hbx : b.string ≤ x.string :=
            List.not_lt.mp ((List.pairwise_cons.mp hsorted).1 x hx)
          rw [hxa] at hbx
          exact hne (List.le_antisymm hab hbx)
      · rw [heq] at hmem
        exact hmem (by simp)

theorem repeatedName_iff {keys : List Value} :
    repeatedName keys = false ↔ (keys.map Value.string).Nodup := by
  have : Std.Total fun a b : Value => ¬ b.string < a.string :=
    ⟨fun a b => by simpa only [List.not_lt] using List.le_total a.string b.string⟩
  have : IsTrans Value fun a b => ¬ b.string < a.string :=
    ⟨fun a b c hab hbc => by
      simp only [List.not_lt] at *
      exact List.le_trans hab hbc⟩
  have hsorted := List.pairwise_insertionSort (fun a b : Value => ¬ b.string < a.string) keys
  have hperm := List.perm_insertionSort (fun a b : Value => ¬ b.string < a.string) keys
  rw [← (hperm.map Value.string).nodup_iff]
  exact neighbours_iff hsorted

/-! ## The loop over members and elements -/

def closing (object : Bool) : UInt8 := if object then 125 else 93

theorem closing_facts (object : Bool) : space (closing object) = false ∧
    isDigit (closing object) = false ∧ closing object ≠ 44 := by
  cases object <;> decide

theorem Separated.space {ts : List Bytes} (hw : Space w) (h : Separated ts body) :
    Separated ts (w ++ body) := by
  cases h with
  | none hw' => exact .none (hw.append hw')
  | @one v t v' hv hv' =>
    rw [List.append_assoc v, ← List.append_assoc]
    rw [← List.append_assoc]
    exact .one (hw.append hv) hv'
  | @more v t v' rest ts hv hv' hne h =>
    have := Separated.more (hw.append hv) hv' hne h (t := t)
    simpa using this

/-- One round of the loop, once its entry is read. -/
theorem container_round {inner : Bytes → Option Bytes} {fuel : Nat} {keys keys' : List Value}
    (h : entry object inner keys s = some (keys', behind)) :
    container object validate inner (fuel + 1) keys s =
      match whitespace behind with
      | [] => none
      | c :: s =>
        if c = closing object then
          if validate && object && repeatedName keys' then none else some s
        else if c ≠ 44 then none
        else container object validate inner fuel keys' (whitespace s) := by
  rw [container, h]
  rfl

/-- What a loop accepts: entries with commas between them. -/
theorem container_sound {inner : Bytes → Option Bytes} {P : List Value → Bytes → Prop}
    (hentry : ∀ {keys s keys' behind}, entry object inner keys s = some (keys', behind) →
      ∃ w ks piece, Space w ∧ s = w ++ piece ++ behind ∧ keys' = keys ++ ks ∧ P ks piece)
    {fuel : Nat} {keys : List Value}
    (h : container object validate inner fuel keys s = some rest) :
    ∃ (parts : List (List Value × Bytes)) (body : Bytes), parts ≠ [] ∧
      (∀ p ∈ parts, P p.1 p.2) ∧ Separated (parts.map Prod.snd) body ∧
      s = body ++ closing object :: rest ∧
      (validate && object && repeatedName (keys ++ parts.flatMap Prod.fst)) = false := by
  induction fuel generalizing keys s with
  | zero => simp [container] at h
  | succ fuel ih =>
    rcases he : entry object inner keys s with - | ⟨keys', behind⟩
    · rw [container, he] at h
      exact absurd h (by simp)
    obtain ⟨w, ks, piece, hw, rfl, rfl, hP⟩ := hentry he
    rw [container_round he] at h
    obtain ⟨w', hw', hbehind⟩ := whitespace_split behind
    rcases hs : whitespace behind with - | ⟨c, tail⟩
    · simp [hs] at h
    rw [hs] at hbehind
    simp only [hs] at h
    by_cases hc : c = closing object
    · rw [if_pos hc] at h
      by_cases hdup : (validate && object && repeatedName (keys ++ ks)) = true
      · rw [if_pos hdup] at h
        exact absurd h (by simp)
      · rw [if_neg hdup] at h
        cases h
        refine ⟨[(ks, piece)], w ++ piece ++ w', by simp, by simpa using hP, .one hw hw', ?_, ?_⟩
        · rw [hbehind, hc]
          simp
        · simpa using hdup
    · rw [if_neg hc] at h
      by_cases hcomma : c = 44
      · rw [if_neg (by simpa using hcomma)] at h
        obtain ⟨parts, body, hne, hparts, hsep, htail, hdup⟩ := ih h
        obtain ⟨w'', hw'', htail'⟩ := whitespace_split tail
        rw [htail] at htail'
        refine ⟨(ks, piece) :: parts, w ++ piece ++ w' ++ 44 :: (w'' ++ body), by simp, ?_, ?_, ?_, ?_⟩
        · intro p hp
          rcases List.mem_cons.mp hp with rfl | hp
          · exact hP
          · exact hparts p hp
        · exact .more hw hw' (by simpa using hne) (Separated.space hw'' hsep)
        · rw [hbehind, hcomma, htail']
          simp
        · simpa using hdup
      · rw [if_pos hcomma] at h
        exact absurd h (by simp)

/-- The first entry of a separated text, and what follows it. -/
theorem separated_cons {p : Bytes} {ts : List Bytes} {c : UInt8} (h : Separated (p :: ts) body)
    (hp : ∀ s, whitespace (p ++ s) = p ++ s) (hspace : space c = false)
    (hdigit : isDigit c = false) (rest : Bytes) :
    ∃ behind, whitespace (body ++ c :: rest) = p ++ behind ∧ Ends behind ∧
      ((ts = [] ∧ whitespace behind = c :: rest) ∨
        ∃ body', ts ≠ [] ∧ Separated ts body' ∧ whitespace behind = 44 :: (body' ++ c :: rest)) := by
  cases h with
  | @one w _ w' hw hw' =>
    refine ⟨w' ++ c :: rest, ?_, .space hw' (.cons hdigit _), .inl ⟨rfl, ?_⟩⟩
    · rw [List.append_assoc, List.append_assoc, whitespace_skip hw, hp]
    · rw [whitespace_skip hw', whitespace_stop hspace]
  | @more w _ w' body' _ hw hw' hne hsep =>
    refine ⟨w' ++ 44 :: (body' ++ c :: rest), ?_, .space hw' (.cons (by decide) _),
      .inr ⟨body', hne, hsep, ?_⟩⟩
    · rw [List.append_assoc, List.append_assoc, List.append_assoc, whitespace_skip hw, hp]
      rfl
    · rw [whitespace_skip hw', whitespace_stop (by decide)]

/-- A loop reads entries with commas between them, each of which `entry` reads. -/
theorem container_complete {inner : Bytes → Option Bytes} {parts : List (List Value × Bytes)}
    (hentry : ∀ p ∈ parts, ∀ keys behind, Ends behind →
      entry object inner keys (p.2 ++ behind) = some (keys ++ p.1, behind))
    (hstart : ∀ p ∈ parts, ∀ s, whitespace (p.2 ++ s) = p.2 ++ s)
    (hsep : Separated (parts.map Prod.snd) body) (hne : parts ≠ []) {fuel : Nat}
    (hfuel : parts.length ≤ fuel) {keys : List Value}
    (hdup : (validate && object && repeatedName (keys ++ parts.flatMap Prod.fst)) = false) :
    container object validate inner fuel keys (whitespace (body ++ closing object :: rest)) =
      some rest := by
  obtain ⟨hspace, hdigit, hcomma⟩ := closing_facts object
  induction parts generalizing body fuel keys with
  | nil => exact absurd rfl hne
  | cons p parts ih =>
    obtain ⟨fuel, rfl⟩ := fuel_left hfuel
    obtain ⟨behind, hcursor, hends, hnext⟩ :=
      separated_cons hsep (hstart p (by simp)) hspace hdigit rest
    rw [hcursor, container_round (hentry p (by simp) keys behind hends)]
    rcases hnext with ⟨hlast, hbehind⟩ | ⟨body', hmore, hsep', hbehind⟩
    · have hparts : parts = [] := by simpa using hlast
      rw [hparts] at hdup
      rw [hbehind]
      simp only [if_true]
      rw [if_neg (by simpa using hdup)]
    · have htail : container object validate inner fuel (keys ++ p.1)
          (whitespace (body' ++ closing object :: rest)) = some rest :=
        ih (List.forall_mem_cons.1 hentry).2
          (List.forall_mem_cons.1 hstart).2 hsep' (by simpa using hmore)
          (Nat.le_of_succ_le_succ hfuel) (by simpa using hdup)
      rw [hbehind]
      simp only [if_neg hcomma.symm]
      rw [if_neg (by simp), htail]

/-! ## Soundness -/

theorem exists_parts {α β : Type} {R : α → β → Prop} {l : List α} (h : ∀ a ∈ l, ∃ b, R a b) :
    ∃ m : List (α × β), m.map Prod.fst = l ∧ ∀ x ∈ m, R x.1 x.2 := by
  induction l with
  | nil => exact ⟨[], rfl, by simp⟩
  | cons a l ih =>
    obtain ⟨b, hb⟩ := h a (by simp)
    obtain ⟨m, rfl, hm⟩ := ih (List.forall_mem_cons.1 h).2
    refine ⟨(a, b) :: m, rfl, fun x hx => ?_⟩
    rcases List.mem_cons.mp hx with rfl | hx
    · exact hb
    · exact hm x hx

/-- The text at a cursor spells a value that the levels and the checks allow. -/
def Accepted (validate : Bool) (levels : Nat) (j : JsonValue) (t : Bytes) : Prop :=
  Spells inInt32 j t ∧ j.Within levels ∧ (validate = true → j.Distinct)

theorem key_string {key name : Bytes} (h : StringText key name) : (Value.mk key).string = name := by
  have : stringToken key = some (name, []) := stringToken_iff.mpr ⟨key, by simp, h⟩
  unfold Value.string
  rw [this]
  rfl

/-- What a round of an array or an object comes to, when `inner` is sound. -/
theorem element_sound {inner : Bytes → Option Bytes} {levels : Nat}
    (hinner : ∀ {s rest}, inner s = some rest →
      ∃ w j t, Space w ∧ s = w ++ t ++ rest ∧ Accepted validate levels j t)
    {keys keys' : List Value} (h : entry false inner keys s = some (keys', behind)) :
    ∃ w ks piece, Space w ∧ s = w ++ piece ++ behind ∧ keys' = keys ++ ks ∧
      (ks = [] ∧ ∃ j, Accepted validate levels j piece) := by
  simp only [entry, Bool.false_eq_true, if_false, Option.map_eq_some_iff, Prod.mk.injEq] at h
  obtain ⟨s', hs', rfl, rfl⟩ := h
  obtain ⟨w, j, t, hw, rfl, hacc⟩ := hinner hs'
  exact ⟨w, [], t, hw, rfl, by simp, rfl, j, hacc⟩

theorem member_sound {inner : Bytes → Option Bytes} {levels : Nat}
    (hinner : ∀ {s rest}, inner s = some rest →
      ∃ w j t, Space w ∧ s = w ++ t ++ rest ∧ Accepted validate levels j t)
    {keys keys' : List Value} (h : entry true inner keys s = some (keys', behind)) :
    ∃ w ks piece, Space w ∧ s = w ++ piece ++ behind ∧ keys' = keys ++ ks ∧
      ∃ m : Member, m.Piece ∧ m.piece = piece ∧ Accepted validate levels m.value m.text ∧
        ks.map Value.string = [m.name] := by
  simp only [entry, if_true] at h
  rcases hkey : stringToken s with - | ⟨name, after⟩
  · simp [hkey] at h
  obtain ⟨key, rfl, hname⟩ := stringToken_iff.mp hkey
  simp only [hkey] at h
  obtain ⟨w, hw, hafter⟩ := whitespace_split after
  rcases hs : whitespace after with - | ⟨c, tail⟩
  · simp [hs] at h
  simp only [hs] at h
  rw [hs] at hafter
  by_cases hcolon : c = 58
  · simp only [hcolon, ne_eq, not_true_eq_false, if_false, Option.map_eq_some_iff,
      Prod.mk.injEq] at h
    obtain ⟨s', hs', rfl, rfl⟩ := h
    obtain ⟨w', j, t, hw', rfl, hacc⟩ := hinner hs'
    refine ⟨[], _, key ++ w ++ 58 :: (w' ++ t), .nil, ?_, rfl, ⟨name, j, t, _⟩,
      .intro hname hw hw', rfl, hacc, ?_⟩
    · rw [hafter, hcolon]
      simp
    · simp [key_string hname]
  · rw [if_pos hcolon] at h
    exact absurd h (by simp)

theorem array_sound {inner : Bytes → Option Bytes} {levels fuel : Nat}
    (hinner : ∀ {s rest}, inner s = some rest →
      ∃ w j t, Space w ∧ s = w ++ t ++ rest ∧ Accepted validate levels j t)
    (hw : Space w) (h : container false validate inner fuel [] s = some rest) :
    ∃ j t, 91 :: (w ++ s) = t ++ rest ∧ Accepted validate (levels + 1) j t := by
  obtain ⟨parts, body, -, hparts, hsep, rfl, -⟩ := container_sound (element_sound hinner) h
  obtain ⟨items, rfl, hitems⟩ := exists_parts (R := fun p j => Accepted validate levels j p.2)
    fun p hp => (hparts p hp).2
  have hspells : ∀ p ∈ items.map fun x => (x.2, x.1.2), Spells inInt32 p.1 p.2 := by
    intro p hp
    obtain ⟨x, hx, rfl⟩ := List.mem_map.mp hp
    exact (hitems x hx).1
  have hbody : Separated ((items.map fun x => (x.2, x.1.2)).map Prod.snd) (w ++ body) := by
    simpa [Function.comp_def] using Separated.space hw hsep
  refine ⟨_, _, ?_, .array hspells hbody, ?_, fun hv => .array ?_⟩
  · simp [closing]
  · intro j hj
    simp only [List.map_map, List.mem_map] at hj
    obtain ⟨x, hx, rfl⟩ := hj
    exact (hitems x hx).2.1
  · intro j hj
    simp only [List.map_map, List.mem_map] at hj
    obtain ⟨x, hx, rfl⟩ := hj
    exact (hitems x hx).2.2 hv

theorem object_sound {inner : Bytes → Option Bytes} {levels fuel : Nat}
    (hinner : ∀ {s rest}, inner s = some rest →
      ∃ w j t, Space w ∧ s = w ++ t ++ rest ∧ Accepted validate levels j t)
    (hw : Space w) (h : container true validate inner fuel [] s = some rest) :
    ∃ j t, 123 :: (w ++ s) = t ++ rest ∧ Accepted validate (levels + 1) j t := by
  obtain ⟨parts, body, -, hparts, hsep, rfl, hdup⟩ := container_sound (member_sound hinner) h
  obtain ⟨pairs, rfl, hpairs⟩ := exists_parts hparts
  have hnames : ((pairs.map Prod.fst).flatMap Prod.fst).map Value.string =
      (pairs.map Prod.snd).map Member.name := by
    clear h hparts hsep hdup
    induction pairs with
    | nil => rfl
    | cons x pairs ih =>
      have hx := (hpairs x (by simp)).2.2.2
      simp only [List.map_cons, List.flatMap_cons, List.map_append, hx,
        ih (List.forall_mem_cons.1 hpairs).2]
      rfl
  have hpieces : (pairs.map Prod.fst).map Prod.snd = (pairs.map Prod.snd).map Member.piece := by
    simp only [List.map_map]
    exact List.map_congr_left fun x hx => (hpairs x hx).2.1.symm
  rw [hpieces] at hsep
  have hmembers : ∀ m ∈ pairs.map Prod.snd, m.Piece ∧ Accepted validate levels m.value m.text := by
    intro m hm
    obtain ⟨x, hx, rfl⟩ := List.mem_map.mp hm
    exact ⟨(hpairs x hx).1, (hpairs x hx).2.2.1⟩
  refine ⟨_, _, ?_, .object (fun m hm => (hmembers m hm).1) (fun m hm => (hmembers m hm).2.1)
    (Separated.space hw hsep), ?_, fun hv => .object ?_ ?_⟩
  · simp [closing]
  · intro m hm
    obtain ⟨x, hx, rfl⟩ := List.mem_map.mp hm
    exact (hmembers x hx).2.2.1
  · rw [hv, Bool.true_and, Bool.true_and, List.nil_append, repeatedName_iff, hnames] at hdup
    simpa [Function.comp_def] using hdup
  · intro m hm
    obtain ⟨x, hx, rfl⟩ := List.mem_map.mp hm
    exact (hmembers x hx).2.2.2 hv

theorem scalar_accepted {levels : Nat} (h : Scalar t) : ∃ j, Accepted validate levels j t := by
  cases h with
  | literal h =>
    simp only [List.mem_cons, List.not_mem_nil, or_false] at h
    rcases h with rfl | rfl | rfl
    · exact ⟨_, .yes, by cases levels <;> trivial, fun _ => .boolean⟩
    · exact ⟨_, .no, by cases levels <;> trivial, fun _ => .boolean⟩
    · exact ⟨_, .null, by cases levels <;> trivial, fun _ => .null⟩
  | integer h hn => exact ⟨_, .integer h hn, by cases levels <;> trivial, fun _ => .integer⟩

theorem value_sound {levels : Nat} (h : value validate levels s = some rest) :
    ∃ w j t, Space w ∧ s = w ++ t ++ rest ∧ Accepted validate levels j t := by
  induction levels using Nat.strongRecOn generalizing s rest with
  | ind levels ih =>
    obtain ⟨w, hw, hs⟩ := whitespace_split s
    -- it is enough to find the token behind the space
    suffices htoken : ∃ j t, whitespace s = t ++ rest ∧ Accepted validate levels j t by
      obtain ⟨j, t, ht, hacc⟩ := htoken
      exact ⟨w, j, t, hw, by rw [hs, ht, List.append_assoc], hacc⟩
    unfold value at h
    rcases hcursor : whitespace s with - | ⟨c, tail⟩
    · simp [hcursor] at h
    simp only [hcursor] at h
    by_cases hquote : c = 34
    · rw [if_pos hquote, Option.map_eq_some_iff] at h
      obtain ⟨⟨d, rest'⟩, htoken, rfl⟩ := h
      obtain ⟨t, ht, hstring⟩ := stringToken_iff.mp htoken
      exact ⟨.string d, t, ht, .string hstring, by cases levels <;> trivial, fun _ => .string⟩
    rw [if_neg hquote] at h
    by_cases hopen : c = 123 ∨ c = 91
    · rw [if_pos hopen] at h
      cases levels with
      | zero => exact absurd h (by simp)
      | succ levels =>
        have hinner := fun {s rest} (h : value validate levels s = some rest) =>
          ih levels (Nat.lt_succ_self _) h
        obtain ⟨w', hw', htail⟩ := whitespace_split tail
        simp only at h
        generalize whitespace tail = text at h htail
        by_cases hempty : text.head? = some (if c = 123 then 125 else 93)
        · rw [if_pos hempty] at h
          cases h
          cases text with
          | nil => simp at hempty
          | cons d rest =>
            cases hempty
            rcases hopen with rfl | rfl
            · refine ⟨_, _, ?_, .object (l := []) (by simp) (by simp) (.none hw'),
                by simp [JsonValue.Within], fun _ => .object (by simp) (by simp)⟩
              rw [htail]
              simp
            · refine ⟨_, _, ?_, .array (l := []) (by simp) (.none hw'),
                by simp [JsonValue.Within], fun _ => .array (by simp)⟩
              rw [htail]
              simp
        · rw [if_neg hempty] at h
          rcases hopen with rfl | rfl
          · rw [htail]
            exact object_sound hinner hw' (by simpa using h)
          · rw [htail]
            exact array_sound hinner hw' (by simpa using h)
    · rw [if_neg hopen] at h
      obtain ⟨t, ht, hscalar⟩ := scalar_sound h
      obtain ⟨j, hacc⟩ : ∃ j, Accepted validate levels j t := scalar_accepted hscalar
      exact ⟨j, t, ht, hacc⟩

/-! ## Completeness -/

/-- The first byte of a value: neither space nor punctuation. -/
theorem spells_head {range : Int → Prop} (h : Spells range j t) :
    ∃ c s, t = c :: s ∧ space c = false ∧ c ≠ 93 ∧ c ≠ 125 := by
  cases h with
  | null => exact ⟨_, _, rfl, by decide⟩
  | yes => exact ⟨_, _, rfl, by decide⟩
  | no => exact ⟨_, _, rfl, by decide⟩
  | integer h _ =>
    cases h with
    | natural k =>
      rcases hk : Lib.decimal k with - | ⟨c, ds⟩
      · exact absurd hk (decimal_ne_nil k)
      · have hc := decimal_digits k c (by simp [hk])
        refine ⟨c, ds, rfl, ?_, ?_, ?_⟩
        · rw [Bool.eq_false_iff]
          intro h
          rcases space_iff.mp h with rfl | rfl | rfl | rfl <;> exact absurd hc (by decide)
        · rintro rfl
          exact absurd hc (by decide)
        · rintro rfl
          exact absurd hc (by decide)
    | negated k => exact ⟨_, _, rfl, by decide⟩
  | string h =>
    cases h with
    | intro h => exact ⟨_, _, rfl, by decide⟩
  | array => exact ⟨_, _, rfl, by decide⟩
  | object => exact ⟨_, _, rfl, by decide⟩

theorem piece_head {m : Member} (h : m.Piece) : ∃ s, m.piece = 34 :: s := by
  cases h with
  | intro hname =>
    cases hname with
    | intro => exact ⟨_, rfl⟩

theorem value_skip {levels : Nat} (hw : Space w) (s : Bytes) :
    value validate levels (w ++ s) = value validate levels s := by
  unfold value
  rw [whitespace_skip hw]

theorem value_string {levels : Nat} {name : Bytes} (h : StringText t name) (rest : Bytes) :
    value validate levels (t ++ rest) = some rest := by
  have htoken : stringToken (t ++ rest) = some (name, rest) := stringToken_iff.mpr ⟨t, rfl, h⟩
  cases h with
  | @intro body _ h =>
    rw [List.cons_append, List.cons_append] at htoken ⊢
    unfold value
    rw [whitespace_stop (by decide)]
    simp only [if_true, htoken, Option.map_some]

theorem value_scalar {levels : Nat} {c : UInt8} (hc : space c = false) (hquote : c ≠ 34)
    (hobject : c ≠ 123) (harray : c ≠ 91) (s : Bytes) :
    value validate levels (c :: s) = scalar (c :: s) := by
  unfold value
  rw [whitespace_stop hc]
  simp only [hquote, hobject, harray, or_self, if_false]

theorem member_complete {inner : Bytes → Option Bytes} {m : Member} (h : m.Piece)
    (hinner : ∀ {w}, Space w → ∀ behind, Ends behind →
      inner (w ++ m.text ++ behind) = some behind) :
    ∃ key : Value, key.string = m.name ∧ ∀ keys behind, Ends behind →
      entry true inner keys (m.piece ++ behind) = some (keys ++ [key], behind) := by
  cases h with
  | @intro name key w w' text value hname hw hw' =>
    refine ⟨⟨key⟩, key_string hname, fun keys behind hends => ?_⟩
    have htoken : stringToken (key ++ (w ++ 58 :: (w' ++ text ++ behind))) =
        some (name, w ++ 58 :: (w' ++ text ++ behind)) := stringToken_iff.mpr ⟨key, rfl, hname⟩
    have hshape : key ++ w ++ 58 :: (w' ++ text) ++ behind =
        key ++ (w ++ 58 :: (w' ++ text ++ behind)) := by simp
    simp only [entry, if_true, hshape, htoken, whitespace_skip hw]
    rw [whitespace_stop (by decide)]
    simp only [ne_eq, not_true_eq_false, if_false, token_append, hinner hw' behind hends,
      Option.map_some]

/-- The rounds a loop needs fit the text behind the opening bracket. -/
theorem separated_length {ts : List Bytes} {c : UInt8} (hc : space c = false)
    (h : Separated ts body) (s : Bytes) :
    ts.length ≤ (whitespace (body ++ c :: s)).length := by
  have hkeep : ∀ {c : UInt8}, space c = false → ∀ u s : Bytes,
      (c :: s).length ≤ (whitespace (u ++ c :: s)).length := by
    intro c hc u s
    induction u with
    | nil => rw [List.nil_append, whitespace_stop hc]
    | cons d u ih =>
      by_cases hd : space d = true
      · have : whitespace (d :: u ++ c :: s) = whitespace (u ++ c :: s) := by
          unfold whitespace
          rw [List.cons_append, List.dropWhile_cons_of_pos hd]
        rw [this]
        exact ih
      · rw [List.cons_append, whitespace_stop (by simpa using hd)]
        simp
        omega
  induction h generalizing s with
  | none hw => simp
  | @one w t w' hw hw' =>
    have := hkeep hc (w ++ t ++ w') s
    simp only [List.length_cons] at this
    simp only [List.length_singleton]
    omega
  | @more w t w' rest ts hw hw' hne hsep ih =>
    have hcomma := hkeep (show space 44 = false by decide) (w ++ t ++ w') (rest ++ c :: s)
    have hshorter : (whitespace (rest ++ c :: s)).length ≤ (rest ++ c :: s).length :=
      (List.dropWhile_suffix _).length_le
    have := ih s
    rw [List.append_assoc, List.cons_append]
    simp only [List.length_cons] at hcomma ⊢
    omega

theorem value_open (object : Bool) (levels : Nat) (s : Bytes) :
    value validate (levels + 1) ((if object then 123 else 91) :: s) =
      if (whitespace s).head? = some (closing object) then some (whitespace s).tail
      else container object validate (value validate levels) (whitespace s).length []
        (whitespace s) := by
  conv => lhs; unfold value
  cases object with
  | true =>
    rw [whitespace_stop (by decide)]
    simp [closing]
  | false =>
    rw [whitespace_stop (by decide)]
    simp [closing]

/-- The loop with the brackets around it. -/
theorem value_container (object : Bool) {levels : Nat} {l : List (List Value × Bytes)}
    (hentry : ∀ p ∈ l, ∀ keys behind, Ends behind →
      entry object (value validate levels) keys (p.2 ++ behind) = some (keys ++ p.1, behind))
    (hstart : ∀ p ∈ l, ∃ c s, p.2 = c :: s ∧ space c = false ∧ c ≠ closing object)
    (hsep : Separated (l.map Prod.snd) body)
    (hdup : (validate && object && repeatedName (l.flatMap Prod.fst)) = false) :
    value validate (levels + 1) ((if object then 123 else 91) :: body ++ [closing object] ++ rest) =
      some rest := by
  rw [List.append_assoc, List.cons_append, value_open, List.singleton_append]
  cases l with
  | nil =>
    cases hsep with
    | none hw =>
      rw [whitespace_skip hw, whitespace_stop (closing_facts object).1]
      simp
  | cons p l =>
    have hskip : ∀ q ∈ p :: l, ∀ s, whitespace (q.2 ++ s) = q.2 ++ s := by
      intro q hq s
      obtain ⟨c, s', hc, hspace, -⟩ := hstart q hq
      rw [hc, List.cons_append, whitespace_stop hspace]
    have hfuel := separated_length (closing_facts object).1 hsep rest
    rw [List.length_map] at hfuel
    obtain ⟨behind, hcursor, -⟩ := separated_cons hsep (hskip p (by simp))
      (closing_facts object).1 (closing_facts object).2.1 rest
    have hopen : (whitespace (body ++ closing object :: rest)).head? ≠ some (closing object) := by
      obtain ⟨c, s, hc, -, hne⟩ := hstart p (by simp)
      rw [hcursor, hc]
      simpa using hne
    rw [if_neg hopen]
    exact container_complete hentry hskip hsep (by simp) hfuel (by simpa using hdup)

/-- What spells a value is read as one, up to a byte that ends it. -/
theorem value_complete (h : Spells inInt32 j t) : ∀ {levels : Nat}, j.Within levels →
    (validate = true → j.Distinct) → ∀ {rest : Bytes}, Ends rest →
      value validate levels (t ++ rest) = some rest := by
  have hliteral : ∀ {t : Bytes}, t ∈ [ascii "true", ascii "false", ascii "null"] →
      ∀ (levels : Nat) (rest : Bytes), value validate levels (t ++ rest) = some rest := by
    intro t ht levels rest
    rw [← scalar_literal ht rest]
    simp only [List.mem_cons, List.not_mem_nil, or_false] at ht
    rcases ht with rfl | rfl | rfl
    · exact value_scalar (by decide) (by decide) (by decide) (by decide) _
    · exact value_scalar (by decide) (by decide) (by decide) (by decide) _
    · exact value_scalar (by decide) (by decide) (by decide) (by decide) _
  induction h with
  | null => exact fun _ _ _ _ => hliteral (by simp) _ _
  | yes => exact fun _ _ _ _ => hliteral (by simp) _ _
  | no => exact fun _ _ _ _ => hliteral (by simp) _ _
  | integer hn hrange =>
    intro levels _ _ rest hends
    rw [← scalar_integer hn hrange hends]
    cases hn with
    | natural k =>
      rcases hk : Lib.decimal k with - | ⟨c, ds⟩
      · exact absurd hk (decimal_ne_nil k)
      · have hc := isDigit_iff.mp (decimal_digits k c (by simp [hk]))
        have hne : ∀ d : UInt8, isDigit d = false → c ≠ d := by
          rintro d hd rfl
          rw [isDigit_iff.mpr hc] at hd
          exact absurd hd (by decide)
        refine value_scalar ?_ (hne _ (by decide)) (hne _ (by decide)) (hne _ (by decide)) _
        rw [Bool.eq_false_iff]
        intro hspace
        rcases space_iff.mp hspace with h | h | h | h <;> exact hne _ (by decide) h
    | negated k => exact value_scalar (by decide) (by decide) (by decide) (by decide) _
  | string hs => exact fun _ _ _ _ => value_string hs _
  | @array parts body hparts hsep ih =>
    intro levels hwithin hdistinct rest hends
    cases levels with
    | zero => exact absurd hwithin (by simp [JsonValue.Within])
    | succ levels =>
      have hitem : ∀ p ∈ parts, p.1.Within levels ∧ (validate = true → p.1.Distinct) := by
        intro p hp
        refine ⟨hwithin p.1 (List.mem_map_of_mem hp), fun hv => ?_⟩
        cases hdistinct hv with
        | array hall => exact hall p.1 (List.mem_map_of_mem hp)
      refine value_container false (l := parts.map fun p => ([], p.2)) ?_ ?_ ?_ ?_
      · intro q hq keys behind hends
        obtain ⟨p, hp, rfl⟩ := List.mem_map.mp hq
        have := ih p hp (hitem p hp).1 (hitem p hp).2 hends
        simp [entry, this]
      · intro q hq
        obtain ⟨p, hp, rfl⟩ := List.mem_map.mp hq
        obtain ⟨c, s, hc, hspace, hne, -⟩ := spells_head (hparts p hp)
        exact ⟨c, s, hc, hspace, hne⟩
      · simpa [Function.comp_def] using hsep
      · simp
  | @object parts body hpieces hparts hsep ih =>
    intro levels hwithin hdistinct rest hends
    cases levels with
    | zero => exact absurd hwithin (by simp [JsonValue.Within])
    | succ levels =>
      have hvalue : ∀ m ∈ parts, m.value.Within levels ∧ (validate = true → m.value.Distinct) := by
        intro m hm
        have hmem : (m.name, m.value) ∈ parts.map fun m => (m.name, m.value) :=
          List.mem_map_of_mem hm
        refine ⟨hwithin _ hmem, fun hv => ?_⟩
        cases hdistinct hv with
        | object _ hall => exact hall _ hmem
      have hread : ∀ m ∈ parts, ∃ key : Value, key.string = m.name ∧ ∀ keys behind, Ends behind →
          entry true (value validate levels) keys (m.piece ++ behind) =
            some (keys ++ [key], behind) := by
        intro m hm
        refine member_complete (hpieces m hm) fun {w} hw behind hends => ?_
        rw [List.append_assoc, value_skip hw]
        exact ih m hm (hvalue m hm).1 (hvalue m hm).2 hends
      obtain ⟨pairs, rfl, hpairs⟩ := exists_parts hread
      refine value_container true (l := pairs.map fun x => ([x.2], x.1.piece))
        ?_ ?_ ?_ ?_
      · intro q hq keys behind hends
        obtain ⟨x, hx, rfl⟩ := List.mem_map.mp hq
        exact (hpairs x hx).2 keys behind hends
      · intro q hq
        obtain ⟨x, hx, rfl⟩ := List.mem_map.mp hq
        obtain ⟨s, hs⟩ := piece_head (hpieces x.1 (List.mem_map_of_mem hx))
        exact ⟨34, s, hs, by decide⟩
      · simpa [Function.comp_def] using hsep
      · cases hv : validate with
        | false => rfl
        | true =>
          have hnames : ((pairs.map fun x => ([x.2], x.1.piece)).flatMap Prod.fst).map Value.string =
              (pairs.map Prod.fst).map Member.name := by
            have hkeys : (pairs.map fun x => ([x.2], x.1.piece)).flatMap Prod.fst =
                pairs.map Prod.snd := by
              rw [List.flatMap_map]
              exact List.map_eq_flatMap.symm
            rw [hkeys, List.map_map, List.map_map]
            exact List.map_congr_left fun x hx => (hpairs x hx).1
          rw [Bool.true_and, Bool.true_and, repeatedName_iff, hnames]
          cases hdistinct hv with
          | object hnodup _ => simpa [Function.comp_def] using hnodup

/-! ## The profile -/

/-- The payloads of the profile, and the value each spells. -/
structure Profile (maximumDepth : Nat) (payload : Bytes) (j : JsonValue) : Prop where
  size : 0 < payload.length ∧ payload.length ≤ 65536
  utf8 : Utf8 payload
  text : ∃ before t after, Space before ∧ Space after ∧ payload = before ++ t ++ after ∧
    Spells inInt32 j t
  object : ∃ members, j = .object members
  depth : j.Within maximumDepth
  distinct : j.Distinct

theorem spells_open (h : Spells inInt32 j t) (ht : t.head? = some 123) :
    ∃ members, j = .object members := by
  cases h with
  | object => exact ⟨_, rfl⟩
  | integer hn _ =>
    cases hn with
    | natural k => exact absurd ht (head_decimal_ne k (by decide))
    | negated k => exact absurd ht (by simp)
  | string hs =>
    cases hs with
    | intro => exact absurd ht (by simp)
  | null => exact absurd ht (by decide)
  | yes => exact absurd ht (by decide)
  | no => exact absurd ht (by decide)
  | array => exact absurd ht (by simp)

theorem parse_sound {payload : Bytes} {maximumDepth : Nat} {v : Value}
    (h : parse payload maximumDepth = some v) :
    maximumDepth ≤ 16 ∧ ∃ j, Profile maximumDepth payload j ∧ Spells inInt32 j v.raw := by
  unfold parse at h
  by_cases hrefused : maximumDepth = 0 ∨ 16 < maximumDepth ∨ payload.isEmpty = true ∨
      65536 < payload.length ∨ ¬ utf8 payload = true
  · rw [if_pos hrefused] at h
    exact absurd h (by simp)
  rw [if_neg hrefused] at h
  simp only [not_or, Nat.not_lt, Decidable.not_not] at hrefused
  obtain ⟨-, hdepth, hempty, hsize, hutf8⟩ := hrefused
  simp only at h
  obtain ⟨before, hbefore, hpayload⟩ := whitespace_split payload
  by_cases hopen : (whitespace payload).head? = some 123
  · rw [if_neg (by simpa using hopen)] at h
    rcases hvalue : value true maximumDepth (whitespace payload) with - | behind
    · simp [hvalue] at h
    simp only [hvalue] at h
    by_cases hend : whitespace behind = []
    · rw [if_neg (by simpa using hend)] at h
      cases h
      obtain ⟨w, j, t, hw, htext, hspells, hwithin, hdistinct⟩ := value_sound hvalue
      -- no space is left in front of the token
      obtain rfl : w = [] := by
        cases w with
        | nil => rfl
        | cons c w =>
          rw [htext] at hopen
          obtain rfl : c = 123 := by simpa using hopen
          exact absurd (hw 123 (by simp)) (by decide)
      rw [List.nil_append] at htext
      have hhead : t.head? = some 123 := by
        obtain ⟨c, s, rfl, -⟩ := spells_head hspells
        rw [htext] at hopen
        simpa using hopen
      refine ⟨hdepth, j, ⟨⟨?_, hsize⟩, utf8_iff.mp hutf8, ⟨before, t, behind, hbefore,
        whitespace_nil hend, ?_, hspells⟩, spells_open hspells hhead, hwithin, hdistinct rfl⟩, ?_⟩
      · exact List.length_pos_iff.mpr (by simpa using hempty)
      · rw [List.append_assoc, ← htext]
        exact hpayload
      · rw [htext, token_append]
        exact hspells
    · rw [if_pos hend] at h
      exact absurd h (by simp)
  · rw [if_pos hopen] at h
    exact absurd h (by simp)

theorem parse_complete {payload : Bytes} {maximumDepth : Nat} (hmax : maximumDepth ≤ 16)
    (h : Profile maximumDepth payload j) :
    ∃ v, parse payload maximumDepth = some v ∧ Spells inInt32 j v.raw := by
  obtain ⟨hsize, hutf8, ⟨before, t, after, hbefore, hafter, hpayload, hspells⟩, ⟨members, rfl⟩,
    hdepth, hdistinct⟩ := h
  have hpositive : maximumDepth ≠ 0 := by
    rintro rfl
    exact hdepth
  have hopen : ∃ s, t = 123 :: s := by
    cases hspells with
    | object => exact ⟨_, rfl⟩
  obtain ⟨s, rfl⟩ := hopen
  have hstart : whitespace payload = 123 :: s ++ after := by
    rw [hpayload, List.append_assoc, whitespace_skip hbefore, List.cons_append,
      whitespace_stop (by decide)]
  have hends : Ends after := by
    have := Ends.space hafter Ends.nil
    rwa [List.append_nil] at this
  have hvalue : value true maximumDepth (123 :: s ++ after) = some after :=
    value_complete hspells hdepth (fun _ => hdistinct) hends
  refine ⟨⟨123 :: s⟩, ?_, hspells⟩
  have hempty : payload.isEmpty = false := by
    rw [Bool.eq_false_iff, ne_eq, List.isEmpty_iff, ← List.length_eq_zero_iff]
    omega
  have haccepted : ¬ (maximumDepth = 0 ∨ 16 < maximumDepth ∨ payload.isEmpty = true ∨
      65536 < payload.length ∨ ¬ utf8 payload = true) := by
    rw [hempty, utf8_iff.mpr hutf8]
    simp
    omega
  unfold parse
  rw [if_neg haccepted, hstart]
  simp only [List.cons_append, List.head?_cons, ne_eq, not_true_eq_false, if_false]
  rw [← List.cons_append, hvalue]
  simp only [whitespace_space hafter, token_append, not_true_eq_false, if_false]

end WsprryPico.Wtp.Json
