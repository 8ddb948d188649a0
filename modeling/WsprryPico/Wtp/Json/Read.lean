import WsprryPico.Wtp.Json.Accept

/-!
# What a value reads as

The traversals of a validated value against the parts of its text: the value at
a name, the elements of an array in order, the check of a closed object. From
them, a value that the parser returns reads as the JSON value its text spells.
-/

namespace WsprryPico.Wtp.Json

open Lib

variable {s t body rest behind : Bytes} {j : JsonValue}

/-! ## Parts -/

/-- A text that the traversals pass over as one value. -/
def Readable (t : Bytes) : Prop := ∃ j, Spells inInt32 j t ∧ j.Within defaultDepth

/-- The members of an object, as they stand in its text. -/
structure ObjectText (raw : Bytes) (parts : List Member) : Prop where
  pieces : ∀ m ∈ parts, m.Piece
  values : ∀ m ∈ parts, Readable m.text
  body : ∃ body, Separated (parts.map Member.piece) body ∧ raw = 123 :: body ++ [125]

/-- The elements of an array, as they stand in its text. -/
structure ArrayText (raw : Bytes) (parts : List Bytes) : Prop where
  values : ∀ t ∈ parts, Readable t
  body : ∃ body, Separated parts body ∧ raw = 91 :: body ++ [93]

theorem Readable.value (h : Readable t) (hends : Ends rest) :
    value false defaultDepth (t ++ rest) = some rest := by
  obtain ⟨j, hspells, hwithin⟩ := h
  exact value_complete hspells hwithin (by simp) hends

theorem Readable.head (h : Readable t) :
    ∃ c s, t = c :: s ∧ space c = false ∧ c ≠ 93 ∧ c ≠ 125 := by
  obtain ⟨j, hspells, -⟩ := h
  exact spells_head hspells

theorem Readable.skip (h : Readable t) (s : Bytes) : whitespace (t ++ s) = t ++ s := by
  obtain ⟨c, s', rfl, hc, -⟩ := h.head
  rw [List.cons_append, whitespace_stop hc]

theorem piece_skip {m : Member} (h : m.Piece) (s : Bytes) :
    whitespace (m.piece ++ s) = m.piece ++ s := by
  obtain ⟨s', hs'⟩ := piece_head h
  rw [hs', List.cons_append, whitespace_stop (by decide)]

theorem member_step {m : Member} (h : m.Piece) (hm : Readable m.text) (behind : Bytes) :
    ∃ after, stringToken (m.piece ++ behind) = some (m.name, after) ∧
      whitespace (whitespace after).tail = m.text ++ behind := by
  cases h with
  | @intro name key w w' text value hname hw hw' =>
    refine ⟨w ++ 58 :: (w' ++ (text ++ behind)), stringToken_iff.mpr ⟨key, by simp, hname⟩, ?_⟩
    rw [whitespace_skip hw, whitespace_stop (by decide), List.tail_cons, whitespace_skip hw',
      hm.skip]

theorem value_whitespace {validate : Bool} {levels : Nat} (s : Bytes) :
    value validate levels (whitespace s) = value validate levels s := by
  unfold value
  rw [whitespace_idem]

/-! ## Objects -/

/-- At a member the cursor is on its key; its value is behind the colon, and the end or the next
member behind the value. -/
theorem member_cursor {m : Member} {parts : List Member} (hpieces : ∀ n ∈ m :: parts, n.Piece)
    (hvalues : ∀ n ∈ m :: parts, Readable n.text)
    (hsep : Separated ((m :: parts).map Member.piece) body) :
    ∃ cursor after behind, whitespace (body ++ [125]) = cursor ∧
      ¬ (cursor.head? = none ∨ cursor.head? = some 125) ∧
      stringToken cursor = some (m.name, after) ∧
      whitespace (whitespace after).tail = m.text ++ behind ∧
      value false defaultDepth (m.text ++ behind) = some behind ∧
      (parts = [] ∧ whitespace behind = [125] ∨ ∃ body', Separated (parts.map Member.piece) body' ∧
        whitespace behind = 44 :: (body' ++ [125])) := by
  have hm := hvalues m (by simp)
  have hpiece := hpieces m (by simp)
  obtain ⟨behind, hcursor, hends, hnext⟩ :=
    separated_cons hsep (piece_skip hpiece) (c := 125) (by decide) (by decide) []
  obtain ⟨after, htoken, hstart⟩ := member_step hpiece hm behind
  refine ⟨_, after, behind, hcursor, ?_, htoken, hstart, hm.value hends, ?_⟩
  · obtain ⟨s, hs⟩ := piece_head hpiece
    rw [hs, List.cons_append, List.head?_cons]
    decide
  · rcases hnext with ⟨hlast, hbehind⟩ | ⟨body', -, hsep', hbehind⟩
    · exact .inl ⟨by simpa using hlast, hbehind⟩
    · exact .inr ⟨body', hsep', hbehind⟩

theorem getFrom_eq {parts : List Member} {key : Bytes} (hpieces : ∀ m ∈ parts, m.Piece)
    (hvalues : ∀ m ∈ parts, Readable m.text) (hsep : Separated (parts.map Member.piece) body)
    {fuel : Nat} (hfuel : parts.length < fuel) :
    Value.getFrom key fuel (whitespace (body ++ [125])) =
      (parts.find? fun m => m.name = key).map fun m => ⟨m.text⟩ := by
  induction parts generalizing body fuel with
  | nil =>
    obtain ⟨fuel, rfl⟩ := Nat.exists_eq_add_one.2 hfuel
    cases hsep with
    | none hw =>
      rw [whitespace_skip hw, whitespace_stop (by decide), Value.getFrom, if_pos (.inr rfl)]
      rfl
  | cons m parts ih =>
    obtain ⟨fuel, rfl⟩ := fuel_left hfuel
    obtain ⟨cursor, after, behind, hcursor, hopen, htoken, hstart, hvalue, hnext⟩ :=
      member_cursor hpieces hvalues hsep
    rw [hcursor, Value.getFrom, if_neg hopen, htoken]
    simp only [hstart, hvalue, token_append]
    by_cases hname : m.name = key
    · rw [if_pos hname, List.find?_cons_of_pos (by simpa using hname)]
      rfl
    · rw [if_neg hname, List.find?_cons_of_neg (by simpa using hname)]
      rcases hnext with ⟨rfl, hbehind⟩ | ⟨body', hsep', hbehind⟩
      · rw [hbehind, List.head?_cons, if_pos rfl]
        rfl
      · rw [hbehind, List.head?_cons, if_neg (by decide), List.tail_cons]
        exact ih (List.forall_mem_cons.1 hpieces).2
          (List.forall_mem_cons.1 hvalues).2 hsep' (by simpa using hfuel)

theorem Value.get_eq {v : Value} {parts : List Member} (h : ObjectText v.raw parts) (key : Bytes) :
    v.get key = (parts.find? fun m => m.name = key).map fun m => ⟨m.text⟩ := by
  obtain ⟨body, hsep, hraw⟩ := h.body
  have htype : ¬ v.type ≠ 123 := by simp [Value.type, hraw]
  have hfuel := separated_length (c := 125) (by decide) hsep []
  rw [List.length_map] at hfuel
  rw [Value.get, if_neg htype, hraw, List.cons_append, List.tail_cons]
  exact getFrom_eq h.pieces h.values hsep (Nat.lt_succ_of_le hfuel)

theorem fieldsFrom_eq {parts : List Member} (required optional : List Bytes)
    (hpieces : ∀ m ∈ parts, m.Piece) (hvalues : ∀ m ∈ parts, Readable m.text)
    (hsep : Separated (parts.map Member.piece) body) {fuel : Nat} (hfuel : parts.length < fuel) :
    fieldsFrom required optional fuel (whitespace (body ++ [125])) =
      parts.all fun m => m.name ∈ required ∨ m.name ∈ optional := by
  induction parts generalizing body fuel with
  | nil =>
    obtain ⟨fuel, rfl⟩ := Nat.exists_eq_add_one.2 hfuel
    cases hsep with
    | none hw =>
      rw [whitespace_skip hw, whitespace_stop (by decide), fieldsFrom, if_pos (.inr rfl)]
      rfl
  | cons m parts ih =>
    obtain ⟨fuel, rfl⟩ := fuel_left hfuel
    obtain ⟨cursor, after, behind, hcursor, hopen, htoken, hstart, hvalue, hnext⟩ :=
      member_cursor hpieces hvalues hsep
    rw [← hstart, value_whitespace] at hvalue
    rw [hcursor, fieldsFrom, if_neg hopen, htoken, List.all_cons]
    simp only [hvalue]
    by_cases hname : m.name ∈ required ∨ m.name ∈ optional
    · rw [if_neg (by tauto), decide_eq_true hname, Bool.true_and]
      rcases hnext with ⟨rfl, hbehind⟩ | ⟨body', hsep', hbehind⟩
      · rw [hbehind, List.head?_cons, if_pos rfl]
        rfl
      · rw [hbehind, List.head?_cons, if_neg (by decide), List.tail_cons]
        exact ih (List.forall_mem_cons.1 hpieces).2
          (List.forall_mem_cons.1 hvalues).2 hsep' (by simpa using hfuel)
    · rw [if_pos (by tauto), decide_eq_false hname, Bool.false_and]

theorem fields_eq {v : Value} {parts : List Member} (h : ObjectText v.raw parts)
    (required optional : List Bytes) :
    fields v required optional = (required.all (fun key => parts.any fun m => m.name = key) &&
      parts.all fun m => m.name ∈ required ∨ m.name ∈ optional) := by
  obtain ⟨body, hsep, hraw⟩ := h.body
  have htype : ¬ v.type ≠ 123 := by simp [Value.type, hraw]
  have hfuel := separated_length (c := 125) (by decide) hsep []
  rw [List.length_map] at hfuel
  have hmissing : (required.any fun key => (v.get key).isNone) =
      !(required.all fun key => parts.any fun m => m.name = key) := by
    rw [List.all_eq_not_any_not, Bool.not_not]
    congr 1
    funext key
    rw [Value.get_eq h key, Option.isNone_map, Bool.eq_iff_iff, Option.isNone_iff_eq_none,
      List.find?_eq_none]
    simp
  have hwalk := fieldsFrom_eq required optional h.pieces h.values hsep
    (Nat.lt_succ_of_le hfuel)
  rw [fields, if_neg htype, hmissing, hraw, List.cons_append, List.tail_cons, hwalk]
  cases required.all fun key => parts.any fun m => decide (m.name = key) <;> rfl

/-! ## Arrays -/

theorem Readable.not_closed (h : Readable t) (s : Bytes) :
    ¬ ((t ++ s).head? = none ∨ (t ++ s).head? = some 93) := by
  obtain ⟨c, s', rfl, -, hc, -⟩ := h.head
  simpa using hc

theorem elementsFrom_eq {parts : List Bytes} {limit : Nat} (hvalues : ∀ t ∈ parts, Readable t)
    (hsep : Separated parts body) {fuel : Nat} (hfuel : parts.length < fuel) {out : List Value}
    (hout : out.length ≤ limit) :
    Value.elementsFrom limit fuel out (whitespace (body ++ [93])) =
      (out ++ parts.map Value.mk).take (limit + 1) := by
  induction parts generalizing body fuel out with
  | nil =>
    obtain ⟨fuel, rfl⟩ := Nat.exists_eq_add_one.2 hfuel
    cases hsep with
    | none hw =>
      rw [whitespace_skip hw, whitespace_stop (by decide), Value.elementsFrom, if_pos (.inr rfl),
        List.map_nil, List.append_nil, List.take_of_length_le (by omega)]
  | cons t parts ih =>
    obtain ⟨fuel, rfl⟩ := fuel_left hfuel
    have ht := hvalues t (by simp)
    obtain ⟨behind, hcursor, hends, hnext⟩ :=
      separated_cons hsep ht.skip (c := 93) (by decide) (by decide) []
    rw [hcursor, Value.elementsFrom, if_neg (ht.not_closed behind)]
    simp only [ht.value hends, token_append]
    rw [show out ++ List.map Value.mk (t :: parts) = (out ++ [⟨t⟩]) ++ parts.map Value.mk by simp]
    by_cases hlimit : (out ++ [Value.mk t]).length > limit
    · -- the first element past the limit ends the loop
      have hlength : (out ++ [Value.mk t]).length = limit + 1 := by
        rw [List.length_append, List.length_singleton] at hlimit ⊢
        omega
      rw [if_pos (.inl hlimit), List.take_left' hlength]
    · rcases hnext with ⟨rfl, hbehind⟩ | ⟨body', hmore, hsep', hbehind⟩
      · rw [hbehind, if_pos (.inr rfl), List.map_nil, List.append_nil,
          List.take_of_length_le (by omega)]
      · rw [hbehind, if_neg (not_or.mpr ⟨hlimit, by simp⟩), List.tail_cons]
        exact ih (List.forall_mem_cons.1 hvalues).2 hsep' (by simpa using hfuel)
          (by omega)

theorem Value.elements_eq {v : Value} {parts : List Bytes} (h : ArrayText v.raw parts)
    (limit : Nat) : v.elements limit = (parts.map Value.mk).take (limit + 1) := by
  obtain ⟨body, hsep, hraw⟩ := h.body
  have htype : ¬ v.type ≠ 91 := by simp [Value.type, hraw]
  have hfuel := separated_length (c := 93) (by decide) hsep []
  rw [Value.elements, if_neg htype, hraw, List.cons_append, List.tail_cons]
  exact elementsFrom_eq h.values hsep (Nat.lt_succ_of_le hfuel) (Nat.zero_le _)

/-- A cursor with the elements still to come. -/
def Value.At (v : Value) (cursor : Nat) (parts : List Bytes) : Prop :=
  v.type = 91 ∧ ∃ body, Separated parts body ∧
    v.raw.drop (if cursor = 0 then 1 else cursor) = body ++ [93]

theorem Value.At.start {v : Value} {parts : List Bytes} (h : ArrayText v.raw parts) :
    v.At 0 parts := by
  obtain ⟨body, hsep, hraw⟩ := h.body
  exact ⟨by simp [Value.type, hraw], body, hsep, by rw [hraw]; rfl⟩

theorem drop_cursor {raw left : Bytes} {n : Nat} (hn : 0 < n) (hne : raw.drop n ≠ [])
    (h : left <:+ raw.drop n) :
    raw.length - left.length ≠ 0 ∧ raw.drop (raw.length - left.length) = left := by
  have hsuffix : left <:+ raw := h.trans (List.drop_suffix _ _)
  have hlong := h.length_le
  have hpos := List.length_pos_iff.mpr hne
  rw [List.length_drop] at hlong hpos
  exact ⟨by omega, (List.suffix_iff_eq_drop.mp hsuffix).symm⟩

theorem Value.At.next {v : Value} {cursor : Nat} {parts : List Bytes} (h : v.At cursor (t :: parts))
    (ht : Readable t) :
    ∃ cursor', v.nextElement cursor = some (⟨t⟩, cursor') ∧ v.At cursor' parts := by
  obtain ⟨htype, body, hsep, hdrop⟩ := h
  obtain ⟨behind, hcursor, hends, hnext⟩ :=
    separated_cons hsep ht.skip (c := 93) (by decide) (by decide) []
  generalize hn : (if cursor = 0 then 1 else cursor) = n at hdrop
  have hpos : 0 < n := by
    by_cases hc : cursor = 0
    · rw [if_pos hc] at hn
      omega
    · rw [if_neg hc] at hn
      omega
  have hbehind : whitespace behind <:+ v.raw.drop n := by
    have hsuffix : behind <:+ whitespace (body ++ [93]) := by
      rw [hcursor]
      exact List.suffix_append _ _
    rw [hdrop]
    exact ((List.dropWhile_suffix _).trans hsuffix).trans (List.dropWhile_suffix _)
  have hne : v.raw.drop n ≠ [] := by
    rw [hdrop]
    simp
  have hopen : ¬ ((t ++ behind).head? = none ∨ (t ++ behind).head? = some 93) := ht.not_closed _
  have hread : ∀ c left kept, whitespace behind = c :: left →
      (c = 44 ∧ kept = left ∨ c = 93 ∧ kept = c :: left) →
      v.nextElement cursor = some (⟨t⟩, v.raw.length - kept.length) := by
    intro c left kept hleft hc
    rw [Value.nextElement, if_neg (by simpa using htype), hn, hdrop, hcursor]
    rw [if_neg hopen]
    simp only [ht.value hends, hleft, token_append]
    rcases hc with ⟨rfl, rfl⟩ | ⟨rfl, rfl⟩
    · rfl
    · rfl
  rcases hnext with ⟨rfl, hlast⟩ | ⟨body', hmore, hsep', hcomma⟩
  · rw [hlast] at hbehind
    obtain ⟨hzero, hleft⟩ := drop_cursor hpos hne hbehind
    refine ⟨_, hread _ _ _ hlast (.inr ⟨rfl, rfl⟩), htype, [], .none .nil, ?_⟩
    rw [if_neg hzero, hleft]
    rfl
  · rw [hcomma] at hbehind
    obtain ⟨hzero, hleft⟩ := drop_cursor hpos hne ((List.suffix_cons _ _).trans hbehind)
    refine ⟨_, hread _ _ _ hcomma (.inl ⟨rfl, rfl⟩), htype, body', hsep', ?_⟩
    rw [if_neg hzero, hleft]

theorem Value.At.last {v : Value} {cursor : Nat} (h : v.At cursor []) :
    v.nextElement cursor = none := by
  obtain ⟨htype, body, hsep, hdrop⟩ := h
  cases hsep with
  | none hw =>
    rw [Value.nextElement, if_neg (by simpa using htype), hdrop, whitespace_skip hw,
      whitespace_stop (by decide)]
    rfl

/-- `next_element` from a cursor on, until it has no more. -/
inductive Value.Walks (v : Value) : Nat → List Value → Prop where
  | last {cursor : Nat} : v.nextElement cursor = none → Walks v cursor []
  | next {cursor cursor' : Nat} {e : Value} {es : List Value} :
      v.nextElement cursor = some (e, cursor') → Walks v cursor' es → Walks v cursor (e :: es)

theorem Value.At.walks {v : Value} {cursor : Nat} {parts : List Bytes} (h : v.At cursor parts)
    (hvalues : ∀ t ∈ parts, Readable t) : v.Walks cursor (parts.map Value.mk) := by
  induction parts generalizing cursor with
  | nil => exact .last h.last
  | cons t parts ih =>
    obtain ⟨cursor', hnext, hrest⟩ := h.next (hvalues t (by simp))
    exact .next hnext (ih hrest (List.forall_mem_cons.1 hvalues).2)

/-! ## Denotation -/

/-- Every reader of a value sees the JSON value. -/
inductive Reads : Value → JsonValue → Prop where
  | null {v : Value} : v.raw = ascii "null" → Reads v .null
  | boolean {v : Value} {b : Bool} : v.raw = ascii (if b then "true" else "false") →
      v.boolean = b → Reads v (.boolean b)
  | integer {v : Value} {n : Int} : IntegerText v.raw n → v.integer = n → Reads v (.integer n)
  | string {v : Value} {text : Bytes} : v.type = 34 → v.string = text → Reads v (.string text)
  | array {v : Value} {l : List (Value × JsonValue)} : v.type = 91 →
      v.Walks 0 (l.map Prod.fst) →
      (∀ limit, v.elements limit = (l.map Prod.fst).take (limit + 1)) →
      (∀ p ∈ l, Reads p.1 p.2) → Reads v (.array (l.map Prod.snd))
  | object {v : Value} {l : List (Bytes × Value × JsonValue)} : v.type = 123 →
      (∀ m ∈ l, v.get m.1 = some m.2.1) →
      (∀ key ∉ l.map Prod.fst, v.get key = none) →
      (∀ m ∈ l, Reads m.2.1 m.2.2) →
      Reads v (.object (l.map fun m => (m.1, m.2.2)))

theorem ObjectText.of_spells {parts : List Member} (hpieces : ∀ m ∈ parts, m.Piece)
    (hvalues : ∀ m ∈ parts, Spells inInt32 m.value m.text)
    (hsep : Separated (parts.map Member.piece) body)
    (hwithin : ∀ m ∈ parts, m.value.Within defaultDepth) :
    ObjectText (123 :: body ++ [125]) parts :=
  ⟨hpieces, fun m hm => ⟨m.value, hvalues m hm, hwithin m hm⟩, body, hsep, rfl⟩

theorem find_name {parts : List Member} (h : (parts.map Member.name).Nodup) {m : Member}
    (hm : m ∈ parts) : (parts.find? fun n => n.name = m.name) = some m := by
  induction parts with
  | nil => exact absurd hm (by simp)
  | cons n parts ih =>
    rw [List.map_cons, List.nodup_cons] at h
    rcases List.mem_cons.mp hm with rfl | hm
    · rw [List.find?_cons_of_pos (by simp)]
    · have hne : n.name ≠ m.name := fun heq => h.1 (heq ▸ List.mem_map_of_mem hm)
      rw [List.find?_cons_of_neg (by simpa using hne), ih h.2 hm]

theorem reads_spells (h : Spells inInt32 j t) (hwithin : j.Within defaultDepth)
    (hdistinct : j.Distinct) : Reads ⟨t⟩ j := by
  induction h with
  | null => exact .null rfl
  | yes => exact .boolean rfl (by decide)
  | no => exact .boolean rfl (by decide)
  | @integer t n hn hrange =>
    refine .integer hn ?_
    rw [Value.integer, (integerToken_iff hn).mpr ⟨rfl, hrange⟩]
    rfl
  | @string t s hs =>
    refine .string ?_ (key_string hs)
    cases hs with
    | intro => rfl
  | @array parts body hparts hsep ih =>
    have hitem : ∀ p ∈ parts, p.1.Within defaultDepth ∧ p.1.Distinct := by
      intro p hp
      refine ⟨(hwithin p.1 (List.mem_map_of_mem hp)).mono (by decide), ?_⟩
      cases hdistinct with
      | array hall => exact hall p.1 (List.mem_map_of_mem hp)
    have htext : ArrayText (91 :: body ++ [93]) (parts.map Prod.snd) := by
      refine ⟨fun t ht => ?_, body, hsep, rfl⟩
      obtain ⟨p, hp, rfl⟩ := List.mem_map.mp ht
      exact ⟨p.1, hparts p hp, (hitem p hp).1⟩
    have := Reads.array (v := ⟨91 :: body ++ [93]⟩) (l := parts.map fun p => (⟨p.2⟩, p.1)) rfl
      (by simpa [Function.comp_def] using (Value.At.start (v := ⟨_⟩) htext).walks htext.values)
      (fun limit => by simpa [Function.comp_def] using Value.elements_eq (v := ⟨_⟩) htext limit)
      (fun q hq => by
        obtain ⟨p, hp, rfl⟩ := List.mem_map.mp hq
        exact ih p hp (hitem p hp).1 (hitem p hp).2)
    simpa [Function.comp_def] using this
  | @object parts body hpieces hparts hsep ih =>
    have hvalue : ∀ m ∈ parts, m.value.Within defaultDepth ∧ m.value.Distinct := by
      intro m hm
      have hmem : (m.name, m.value) ∈ parts.map fun m => (m.name, m.value) :=
        List.mem_map_of_mem hm
      refine ⟨JsonValue.Within.mono (by decide) (hwithin _ hmem), ?_⟩
      cases hdistinct with
      | object _ hall => exact hall _ hmem
    have hnodup : (parts.map Member.name).Nodup := by
      cases hdistinct with
      | object hnodup _ => simpa [Function.comp_def] using hnodup
    have htext := ObjectText.of_spells hpieces hparts hsep fun m hm => (hvalue m hm).1
    have hget := Value.get_eq (v := ⟨123 :: body ++ [125]⟩) htext
    have := Reads.object (v := ⟨123 :: body ++ [125]⟩)
      (l := parts.map fun m => (m.name, ⟨m.text⟩, m.value)) rfl
      (fun q hq => by
        obtain ⟨m, hm, rfl⟩ := List.mem_map.mp hq
        rw [hget, find_name hnodup hm]
        rfl)
      (fun key hkey => by
        rw [hget, Option.map_eq_none_iff, List.find?_eq_none]
        intro m hm hname
        refine hkey ?_
        simp only [List.map_map, List.mem_map]
        exact ⟨m, hm, by simpa using hname⟩)
      (fun q hq => by
        obtain ⟨m, hm, rfl⟩ := List.mem_map.mp hq
        exact ih m hm (hvalue m hm).1 (hvalue m hm).2)
    simpa [Function.comp_def] using this

/-- `parse` accepts its profile, and the value it returns reads as the one the payload spells. -/
theorem parse_profile (payload : Bytes) (maximumDepth : Nat) :
    ((parse payload maximumDepth).isSome = true ↔
      maximumDepth ≤ 16 ∧ ∃ j, Profile maximumDepth payload j) ∧
    ∀ v j, parse payload maximumDepth = some v → Profile maximumDepth payload j → Reads v j := by
  refine ⟨⟨fun h => ?_, fun h => ?_⟩, fun v j hparse hprofile => ?_⟩
  · obtain ⟨v, hv⟩ := Option.isSome_iff_exists.mp h
    obtain ⟨hmax, j, hprofile, -⟩ := parse_sound hv
    exact ⟨hmax, j, hprofile⟩
  · obtain ⟨hmax, j, hprofile⟩ := h
    obtain ⟨v, hv, -⟩ := parse_complete hmax hprofile
    rw [hv]
    rfl
  · have hmax := (parse_sound hparse).1
    obtain ⟨v', hv', hspells⟩ := parse_complete hmax hprofile
    obtain rfl : v' = v := Option.some.inj (hv'.symm.trans hparse)
    exact reads_spells hspells (hprofile.depth.mono hmax) hprofile.distinct

end WsprryPico.Wtp.Json
