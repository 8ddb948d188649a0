import WsprryPico.Wtp.Json.Read

/-!
# Values that spell the same

Two values are alike when their texts spell one JSON value. Nothing a reader can
ask of a value tells two such values apart, except how a number in a text is
spelled.
-/

namespace WsprryPico.Wtp.Json

open Lib

variable {t : Bytes} {v v' : Value} {j : JsonValue}

/-! ## The parts of a value -/

theorem spells_object {members : List (Bytes × JsonValue)}
    (h : Spells inInt32 (.object members) t) (hwithin : (JsonValue.object members).Within defaultDepth) :
    ∃ parts, ObjectText t parts ∧ parts.map (fun m => (m.name, m.value)) = members ∧
      ∀ m ∈ parts, m.value.Within defaultDepth ∧ Spells inInt32 m.value m.text := by
  cases h with
  | @object parts body hpieces hparts hsep =>
    have hvalue : ∀ m ∈ parts, m.value.Within defaultDepth := fun m hm =>
      JsonValue.Within.mono (by decide) (hwithin (m.name, m.value) (List.mem_map_of_mem hm))
    exact ⟨parts, .of_spells hpieces hparts hsep hvalue, rfl,
      fun m hm => ⟨hvalue m hm, hparts m hm⟩⟩

theorem spells_array {items : List JsonValue} (h : Spells inInt32 (.array items) t)
    (hwithin : (JsonValue.array items).Within defaultDepth) :
    ∃ parts : List (JsonValue × Bytes), ArrayText t (parts.map Prod.snd) ∧
      parts.map Prod.fst = items ∧
      ∀ p ∈ parts, p.1.Within defaultDepth ∧ Spells inInt32 p.1 p.2 := by
  cases h with
  | @array parts body hparts hsep =>
    have hitem : ∀ p ∈ parts, p.1.Within defaultDepth := fun p hp =>
      JsonValue.Within.mono (by decide) (hwithin p.1 (List.mem_map_of_mem hp))
    refine ⟨parts, ⟨fun t ht => ?_, body, hsep, rfl⟩, rfl, fun p hp => ⟨hitem p hp, hparts p hp⟩⟩
    obtain ⟨p, hp, rfl⟩ := List.mem_map.mp ht
    exact ⟨p.1, hparts p hp, hitem p hp⟩

/-- The first byte of a number is a digit or a sign. -/
theorem integer_type {n : Int} (h : IntegerText t n) :
    (isDigit (Value.mk t).type = true ∧ ∃ k : Nat, t = Lib.decimal k ∧ n = k) ∨
      (Value.mk t).type = 45 := by
  cases h with
  | natural k =>
    refine .inl ⟨?_, k, rfl, rfl⟩
    rcases hk : Lib.decimal k with - | ⟨d, ds⟩
    · exact absurd hk (decimal_ne_nil k)
    · exact decimal_digits k d (by simp [hk])
  | negated k => exact .inr rfl

/-- The first byte tells strings, arrays and objects. -/
theorem spells_type (h : Spells inInt32 j t) : ((Value.mk t).type = 34 ↔ ∃ s, j = .string s) ∧
    ((Value.mk t).type = 91 ↔ ∃ items, j = .array items) ∧
    ((Value.mk t).type = 123 ↔ ∃ members, j = .object members) := by
  cases h with
  | null =>
    rw [show (Value.mk (ascii "null")).type = 110 by decide]
    simp
  | yes =>
    rw [show (Value.mk (ascii "true")).type = 116 by decide]
    simp
  | no =>
    rw [show (Value.mk (ascii "false")).type = 102 by decide]
    simp
  | integer hn =>
    have hne : ∀ c : UInt8, isDigit c = false → c ≠ 45 → (Value.mk t).type ≠ c := by
      rintro c hc hsign rfl
      rcases integer_type hn with ⟨hd, -⟩ | hd
      · rw [hd] at hc
        exact absurd hc (by decide)
      · exact hsign hd
    simp [hne 34 (by decide) (by decide), hne 91 (by decide) (by decide),
      hne 123 (by decide) (by decide)]
  | string hs =>
    cases hs with
    | intro => simp [Value.type]
  | array => simp [Value.type]
  | object => simp [Value.type]

theorem spells_digit (h : Spells inInt32 j t) (hd : isDigit (Value.mk t).type = true) :
    ∃ k : Nat, j = .integer k ∧ t = Lib.decimal k := by
  cases h with
  | null => exact absurd hd (by decide)
  | yes => exact absurd hd (by decide)
  | no => exact absurd hd (by decide)
  | integer hn =>
    rcases integer_type hn with ⟨-, k, ht, rfl⟩ | hsign
    · exact ⟨k, rfl, ht⟩
    · rw [hsign] at hd
      exact absurd hd (by decide)
  | string hs =>
    cases hs with
    | intro => exact absurd hd (by simp [Value.type, isDigit])
  | array => exact absurd hd (by simp [Value.type, isDigit])
  | object => exact absurd hd (by simp [Value.type, isDigit])

theorem integer_of_spells {n : Int} (h : Spells inInt32 (.integer n) t) :
    (Value.mk t).integer = n := by
  cases h with
  | integer hn hrange =>
    rw [Value.integer, (integerToken_iff hn).mpr ⟨rfl, hrange⟩]
    rfl

/-! ## Alike -/

def Alike (v v' : Value) : Prop :=
  v = v' ∨ ∃ j : JsonValue, j.Within defaultDepth ∧ Spells inInt32 j v.raw ∧ Spells inInt32 j v'.raw

theorem Alike.refl (v : Value) : Alike v v := .inl rfl

theorem Alike.symm (h : Alike v v') : Alike v' v := by
  obtain rfl | ⟨j, hw, h, h'⟩ := h
  · exact .refl _
  · exact .inr ⟨j, hw, h', h⟩

theorem Alike.string_type (h : Alike v v') : v.type = 34 ↔ v'.type = 34 := by
  obtain rfl | ⟨j, -, h, h'⟩ := h
  · rfl
  · exact (spells_type h).1.trans (spells_type h').1.symm

theorem Alike.array_type (h : Alike v v') : v.type = 91 ↔ v'.type = 91 := by
  obtain rfl | ⟨j, -, h, h'⟩ := h
  · rfl
  · exact (spells_type h).2.1.trans (spells_type h').2.1.symm

theorem Alike.object_type (h : Alike v v') : v.type = 123 ↔ v'.type = 123 := by
  obtain rfl | ⟨j, -, h, h'⟩ := h
  · rfl
  · exact (spells_type h).2.2.trans (spells_type h').2.2.symm

theorem string_of_type (h : v.type ≠ 34) : v.string = [] := by
  rw [Value.string]
  rcases hraw : v.raw with - | ⟨c, s⟩
  · rfl
  · have hc : c ≠ 34 := by
      intro hc
      exact h (by rw [Value.type, hraw, hc]; rfl)
    rw [stringToken, if_pos hc]
    rfl

theorem Alike.string (h : Alike v v') : v.string = v'.string := by
  by_cases htype : v.type = 34
  · obtain rfl | ⟨j, -, h, h'⟩ := h
    · rfl
    · obtain ⟨s, rfl⟩ := (spells_type h).1.mp htype
      cases h with
      | string hs =>
        cases h' with
        | string hs' => exact (key_string hs).trans (key_string hs').symm
  · rw [string_of_type htype, string_of_type (mt h.string_type.mpr htype)]

theorem positive_text {k : Nat} {n : Int} (h : IntegerText t n) (hn : n = k) (hk : 0 < k) :
    t = Lib.decimal k := by
  cases h with
  | natural m =>
    obtain rfl : m = k := by omega
    rfl
  | negated m => omega

theorem decimal_type (k : Nat) : isDigit (Value.mk (Lib.decimal k)).type = true := by
  rcases integer_type (.natural k) with ⟨hd, -⟩ | hsign
  · exact hd
  · have := head_decimal_ne k (show isDigit 45 = false by decide)
    rw [Value.type] at hsign
    rcases hm : Lib.decimal k with - | ⟨d, ds⟩
    · exact absurd hm (decimal_ne_nil k)
    · simp only [hm] at this hsign
      exact absurd (congrArg some hsign) this

/-- A positive number has one spelling. -/
theorem Alike.positive (h : Alike v v') (hd : isDigit v.type = true) (hpos : 0 < v.integer) :
    isDigit v'.type = true ∧ v'.integer = v.integer := by
  obtain rfl | ⟨j, -, h, h'⟩ := h
  · exact ⟨hd, rfl⟩
  · obtain ⟨k, rfl, -⟩ := spells_digit h hd
    rw [integer_of_spells h] at hpos ⊢
    refine ⟨?_, integer_of_spells h'⟩
    obtain ⟨raw⟩ := v'
    cases h' with
    | integer hn =>
      obtain rfl : raw = Lib.decimal k := positive_text hn rfl (by omega)
      exact decimal_type k

theorem spells_literal {t' : Bytes} (h : Spells inInt32 j t)
    (ht : t ∈ [ascii "true", ascii "false", ascii "null"]) (h' : Spells inInt32 j t') : t' = t := by
  have hletter : isDigit (Value.mk t).type = false ∧ (Value.mk t).type ≠ 45 ∧
      (Value.mk t).type ≠ 34 ∧ (Value.mk t).type ≠ 91 ∧ (Value.mk t).type ≠ 123 := by
    simp only [List.mem_cons, List.not_mem_nil, or_false] at ht
    rcases ht with rfl | rfl | rfl <;> decide
  obtain ⟨hdigit, hsign, hstring, harray, hobject⟩ := hletter
  cases h with
  | null =>
    cases h' with
    | null => rfl
  | yes =>
    cases h' with
    | yes => rfl
  | no =>
    cases h' with
    | no => rfl
  | integer hn =>
    rcases integer_type hn with ⟨hd, -⟩ | hd
    · rw [hd] at hdigit
      exact absurd hdigit (by decide)
    · exact absurd hd hsign
  | string hs => exact absurd ((spells_type (.string hs)).1.mpr ⟨_, rfl⟩) hstring
  | array hparts hsep => exact absurd ((spells_type (.array hparts hsep)).2.1.mpr ⟨_, rfl⟩) harray
  | object hpieces hparts hsep =>
    exact absurd ((spells_type (.object hpieces hparts hsep)).2.2.mpr ⟨_, rfl⟩) hobject

theorem Alike.literal (h : Alike v v') {l : Bytes}
    (hl : l ∈ [ascii "true", ascii "false", ascii "null"]) : v.raw = l ↔ v'.raw = l := by
  have hone : ∀ {v v' : Value}, Alike v v' → v.raw = l → v'.raw = l := by
    intro v v' h hraw
    obtain rfl | ⟨j, -, h, h'⟩ := h
    · exact hraw
    · rw [hraw] at h
      exact spells_literal h hl h'
  exact ⟨hone h, hone h.symm⟩

theorem Alike.boolean (h : Alike v v') : v.boolean = v'.boolean := by
  rw [Value.boolean, Value.boolean, decide_eq_decide]
  exact h.literal (by simp)

/-! ## Objects -/

/-- Lists of members with the same names and values find the same. -/
theorem find_alike {parts parts' : List Member} (key : Bytes)
    (h : parts.map (fun m => (m.name, m.value)) = parts'.map fun m => (m.name, m.value))
    (hparts : ∀ m ∈ parts, m.value.Within defaultDepth ∧ Spells inInt32 m.value m.text)
    (hparts' : ∀ m ∈ parts', m.value.Within defaultDepth ∧ Spells inInt32 m.value m.text) :
    Option.Rel Alike ((parts.find? fun m => m.name = key).map fun m => ⟨m.text⟩)
      ((parts'.find? fun m => m.name = key).map fun m => ⟨m.text⟩) := by
  induction parts generalizing parts' with
  | nil =>
    obtain rfl : parts' = [] := by simpa using h.symm
    exact .none
  | cons m parts ih =>
    rcases parts' with - | ⟨m', parts'⟩
    · simp at h
    obtain ⟨hm, htail⟩ := List.cons.inj h
    obtain ⟨hname, hvalue⟩ := Prod.mk.inj hm
    by_cases hkey : m.name = key
    · rw [List.find?_cons_of_pos (by simpa using hkey),
        List.find?_cons_of_pos (by simpa [← hname] using hkey)]
      obtain ⟨hwithin, hspells⟩ := hparts m (by simp)
      have hspells' := (hparts' m' (by simp)).2
      exact .some (.inr ⟨m.value, hwithin, hspells, by rw [hvalue]; exact hspells'⟩)
    · rw [List.find?_cons_of_neg (by simpa using hkey),
        List.find?_cons_of_neg (by simpa [← hname] using hkey)]
      exact ih htail (List.forall_mem_cons.1 hparts).2
        fun m hm => hparts' m (List.mem_cons_of_mem _ hm)

theorem get_of_type (h : v.type ≠ 123) (key : Bytes) : v.get key = none := by
  rw [Value.get, if_pos h]

theorem Alike.get (h : Alike v v') (key : Bytes) : Option.Rel Alike (v.get key) (v'.get key) := by
  by_cases htype : v.type = 123
  · obtain rfl | ⟨j, hwithin, h, h'⟩ := h
    · cases v.get key with
      | none => exact .none
      | some w => exact .some (.refl w)
    · obtain ⟨members, rfl⟩ := (spells_type h).2.2.mp htype
      obtain ⟨parts, htext, rfl, hparts⟩ := spells_object h hwithin
      obtain ⟨parts', htext', hsame, hparts'⟩ := spells_object h' hwithin
      rw [Value.get_eq htext, Value.get_eq htext']
      exact find_alike key hsame.symm hparts hparts'
  · rw [get_of_type htype, get_of_type (mt h.object_type.mpr htype)]
    exact .none

theorem Alike.getD (h : Alike v v') (key : Bytes) :
    Alike ((v.get key).getD {}) ((v'.get key).getD {}) := by
  have := h.get key
  generalize v.get key = o at this
  generalize v'.get key = o' at this
  cases this with
  | none => exact .refl _
  | some h => exact h

/-- Equal names are seen by the check of a closed object. -/
theorem Alike.fields (h : Alike v v') (required optional : List Bytes) :
    fields v required optional = fields v' required optional := by
  by_cases htype : v.type = 123
  · obtain rfl | ⟨j, hwithin, h, h'⟩ := h
    · rfl
    · obtain ⟨members, rfl⟩ := (spells_type h).2.2.mp htype
      obtain ⟨parts, htext, rfl, hparts⟩ := spells_object h hwithin
      obtain ⟨parts', htext', hsame, hparts'⟩ := spells_object h' hwithin
      have hnames : parts'.map Member.name = parts.map Member.name := by
        have := congrArg (List.map Prod.fst) hsame
        simpa [Function.comp_def] using this
      have hany : ∀ (l : List Member) (key : Bytes), (l.any fun m => m.name = key) =
          (l.map Member.name).any fun name => name = key := fun l key => by
        rw [List.any_map]
        rfl
      have hall : ∀ l : List Member, (l.all fun m => m.name ∈ required ∨ m.name ∈ optional) =
          (l.map Member.name).all fun name => name ∈ required ∨ name ∈ optional := fun l => by
        rw [List.all_map]
        rfl
      rw [fields_eq htext, fields_eq htext']
      simp only [hany, hall, hnames]
  · have htype' := mt h.object_type.mpr htype
    rw [Json.fields, Json.fields, if_pos htype, if_pos htype']

/-! ## Arrays -/

theorem Alike.parts (h : Alike v v') (htype : v.type = 91) (hne : v ≠ v') :
    ∃ parts parts' : List Bytes, ArrayText v.raw parts ∧ ArrayText v'.raw parts' ∧
      List.Forall₂ Alike (parts.map Value.mk) (parts'.map Value.mk) := by
  obtain rfl | ⟨j, hwithin, h, h'⟩ := h
  · exact absurd rfl hne
  · obtain ⟨items, rfl⟩ := (spells_type h).2.1.mp htype
    obtain ⟨parts, htext, rfl, hparts⟩ := spells_array h hwithin
    obtain ⟨parts', htext', hsame, hparts'⟩ := spells_array h' hwithin
    refine ⟨_, _, htext, htext', ?_⟩
    clear htext htext' h h' hwithin htype hne
    induction parts generalizing parts' with
    | nil =>
      obtain rfl : parts' = [] := by simpa using hsame
      exact .nil
    | cons p parts ih =>
      rcases parts' with - | ⟨p', parts'⟩
      · simp at hsame
      obtain ⟨hp, htail⟩ := List.cons.inj hsame
      obtain ⟨hwithin, hspells⟩ := hparts p (by simp)
      have hspells' := (hparts' p' (by simp)).2
      rw [hp] at hspells'
      exact .cons (.inr ⟨p.1, hwithin, hspells, hspells'⟩)
        (ih (List.forall_mem_cons.1 hparts).2 _ htail
          fun p hp => hparts' p (List.mem_cons_of_mem _ hp))

theorem Alike.elements (h : Alike v v') (limit : Nat) :
    List.Forall₂ Alike (v.elements limit) (v'.elements limit) := by
  by_cases htype : v.type = 91
  · by_cases heq : v = v'
    · rw [heq]
      exact List.forall₂_same.mpr fun w _ => .refl w
    · obtain ⟨parts, parts', htext, htext', hall⟩ := h.parts htype heq
      rw [Value.elements_eq htext, Value.elements_eq htext']
      exact List.forall₂_take _ hall
  · rw [Value.elements, Value.elements, if_pos htype, if_pos (mt h.array_type.mpr htype)]
    exact .nil

/-- The traversals of alike arrays go through alike elements. -/
theorem Alike.walks (h : Alike v v') (htype : v.type = 91) (hne : v ≠ v') :
    ∃ es es', v.Walks 0 es ∧ v'.Walks 0 es' ∧ List.Forall₂ Alike es es' ∧
      es.length ≤ v.raw.length ∧ es'.length ≤ v'.raw.length := by
  obtain ⟨parts, parts', htext, htext', hall⟩ := h.parts htype hne
  have hlength : ∀ {raw : Bytes} {parts : List Bytes}, ArrayText raw parts →
      (parts.map Value.mk).length ≤ raw.length := by
    intro raw parts htext
    obtain ⟨body, hsep, rfl⟩ := htext.body
    have hrounds := separated_length (c := 93) (by decide) hsep []
    have hshorter : (whitespace (body ++ [93])).length ≤ (body ++ [93]).length :=
      (List.dropWhile_suffix _).length_le
    rw [List.length_map, List.cons_append, List.length_cons]
    omega
  exact ⟨_, _, (Value.At.start htext).walks htext.values, (Value.At.start htext').walks htext'.values,
    hall, hlength htext, hlength htext'⟩

/-! ## The checks of strings -/

/-- No character of a string takes more than six bytes. -/
theorem content_length {body text : Bytes} (h : Content body text) :
    body.length ≤ 6 * text.length := by
  induction h with
  | nil => simp
  | plain _ _ _ _ ih =>
    simp only [List.length_cons]
    omega
  | short _ _ ih =>
    simp only [List.length_cons]
    omega
  | @unit q t s u hq _ _ _ ih =>
    have hlen : q.length = 4 := by
      cases hq
      rfl
    have := encode_length_pos (Char.ofNat u)
    simp only [List.length_cons, List.length_append]
    omega
  | @pair q r t s u v hq hhigh hr hlow _ ih =>
    have hlen : q.length = 4 := by
      cases hq
      rfl
    have hlen' : r.length = 4 := by
      cases hr
      rfl
    have hfour : 2 ≤ (String.utf8EncodeChar
        (Char.ofNat (0x10000 + (u - 0xd800) * 0x400 + (v - 0xdc00)))).length := by
      have hvalid : (0x10000 + (u - 0xd800) * 0x400 + (v - 0xdc00)).isValidChar := by
        obtain ⟨h₁, h₂⟩ := hhigh
        obtain ⟨h₃, h₄⟩ := hlow
        exact .inr (by omega)
      rw [← appendUtf8_ofNat hvalid, appendUtf8, if_neg (by omega), if_neg (by omega),
        if_neg (by omega)]
      simp
    simp only [List.length_cons, List.length_append]
    omega

/-- The bound on the bytes of a string is one on its characters. -/
theorem Alike.bounded (h : Alike v v') (htype : v.type = 34) {n : Nat} (hn : v.string.length ≤ n) :
    v = v' ∨ v.raw.length ≤ n * 6 + 2 ∧ v'.raw.length ≤ n * 6 + 2 := by
  have hraw : ∀ {raw s : Bytes}, StringText raw s → s.length ≤ n → raw.length ≤ n * 6 + 2 := by
    intro raw s h hs
    cases h with
    | intro h =>
      have := content_length h
      simp only [List.length_cons, List.length_append, List.length_nil]
      omega
  rcases h with rfl | ⟨j, -, h, h'⟩
  · exact .inl rfl
  · obtain ⟨s, rfl⟩ := (spells_type h).1.mp htype
    cases h with
    | string hs =>
      cases h' with
      | string hs' =>
        have hstring : v.string = s := key_string hs
        rw [hstring] at hn
        exact .inr ⟨hraw hs hn, hraw hs' hn⟩

theorem Alike.identifier (h : Alike v v') : identifier v = identifier v' := by
  by_cases htype : v.type = 34
  · have htype' := h.string_type.mp htype
    by_cases hlength : v.string.length = 32
    · rcases h.bounded htype (Nat.le_of_eq hlength) with rfl | ⟨hraw, hraw'⟩
      · rfl
      · rw [Json.identifier, Json.identifier, if_neg (not_or.mpr ⟨not_not.mpr htype, by omega⟩),
          if_neg (not_or.mpr ⟨not_not.mpr htype', by omega⟩), h.string]
    · have hlength' : v'.string.length ≠ 32 := by
        rwa [← h.string]
      simp [Json.identifier, hlength, hlength']
  · have htype' := mt h.string_type.mpr htype
    rw [Json.identifier, Json.identifier, if_pos (.inl htype), if_pos (.inl htype')]

/-- A decimal of more than twenty digits is out of range whatever its spelling. -/
theorem decimal_long {nonzero : Bool} (h : 20 < v.string.length) : decimal v nonzero = none := by
  unfold Json.decimal
  by_cases htype : v.type ≠ 34 ∨ 20 * 6 + 2 < v.raw.length
  · rw [if_pos htype]
  rw [if_neg htype]
  by_cases hshape : v.string.isEmpty = true ∨ (1 < v.string.length ∧ v.string.head? = some 48) ∨
      (nonzero = true ∧ v.string = ascii "0")
  · rw [if_pos hshape]
  rw [if_neg hshape]
  by_cases hdigits : v.string.all isDigit = true
  · have hcanonical : Canonical v.string := by
      refine ⟨fun hnil => ?_, List.all_eq_true.mp hdigits, fun hzero => ?_⟩
      · rw [hnil] at h
        simp at h
      · exact absurd (.inr (.inl ⟨by omega, hzero⟩)) hshape
    have hlarge : ¬ numeral v.string < 10 ^ 20 := by
      intro hsmall
      have := (decimal_length_le (k := 20) (by decide)).mpr hsmall
      rw [hcanonical.decimal_numeral] at this
      omega
    have hrange : fromChars 0 u64Max v.string = none := by
      rw [← hcanonical.decimal_numeral, fromChars_natural, if_pos]
      refine .inr ?_
      unfold u64Max
      omega
    rw [if_neg (by simpa using hdigits), hrange]
  · rw [if_pos (by simpa using hdigits)]

theorem Alike.decimal (h : Alike v v') (nonzero : Bool) : decimal v nonzero = decimal v' nonzero := by
  by_cases hlong : 20 < v.string.length
  · rw [decimal_long hlong, decimal_long (by rwa [← h.string])]
  by_cases htype : v.type = 34
  · have htype' := h.string_type.mp htype
    rcases h.bounded htype (Nat.le_of_not_lt hlong) with rfl | ⟨hraw, hraw'⟩
    · rfl
    · unfold Json.decimal
      rw [if_neg (not_or.mpr ⟨not_not.mpr htype, by omega⟩),
        if_neg (not_or.mpr ⟨not_not.mpr htype', by omega⟩), h.string]
  · have htype' := mt h.string_type.mpr htype
    unfold Json.decimal
    rw [if_pos (.inl htype), if_pos (.inl htype')]

end WsprryPico.Wtp.Json
