import WsprryPico.Lib.Text

/-!
# JSON texts

JSON values with integer numbers and the texts that spell them: a text spells a
value when a rule of the grammar says so, and which integers it may hold is a
parameter. Strings are their UTF-8 bytes. Nesting and the names of an object are
properties of the value.
-/

namespace Lib

/-- UTF-8: the encodings of a list of characters. -/
def Utf8 (text : List UInt8) : Prop :=
  ∃ chars : List Char, text = chars.flatMap String.utf8EncodeChar

theorem Utf8.append {s t : List UInt8} (hs : Utf8 s) (ht : Utf8 t) : Utf8 (s ++ t) := by
  obtain ⟨cs, rfl⟩ := hs
  obtain ⟨ds, rfl⟩ := ht
  exact ⟨cs ++ ds, List.flatMap_append.symm⟩

inductive JsonValue where
  | null
  | boolean (b : Bool)
  | integer (n : Int)
  | string (text : List UInt8)
  | array (items : List JsonValue)
  | object (members : List (List UInt8 × JsonValue))

namespace JsonValue

/-- Objects and arrays nest at most this deep. -/
def Within : Nat → JsonValue → Prop
  | 0, .array _ => False
  | 0, .object _ => False
  | levels + 1, .array items => ∀ item ∈ items, Within levels item
  | levels + 1, .object members => ∀ m ∈ members, Within levels m.2
  | _, _ => True

/-- Every object has pairwise distinct names. -/
inductive Distinct : JsonValue → Prop where
  | null : Distinct .null
  | boolean {b : Bool} : Distinct (.boolean b)
  | integer {n : Int} : Distinct (.integer n)
  | string {text : List UInt8} : Distinct (.string text)
  | array {items : List JsonValue} : (∀ item ∈ items, Distinct item) → Distinct (.array items)
  | object {members : List (List UInt8 × JsonValue)} : (members.map Prod.fst).Nodup →
      (∀ m ∈ members, Distinct m.2) → Distinct (.object members)

theorem Within.mono {levels more : Nat} {j : JsonValue} (h : levels ≤ more)
    (hj : j.Within levels) : j.Within more := by
  induction levels generalizing more j with
  | zero => cases j <;> cases more <;> simp_all [Within]
  | succ levels ih =>
    cases more with
    | zero => omega
    | succ more =>
      cases j with
      | array items => exact fun item hi => ih (by omega) (hj item hi)
      | object members => exact fun m hm => ih (by omega) (hj m hm)
      | null => trivial
      | boolean => trivial
      | integer => trivial
      | string => trivial

end JsonValue

/-! ## Tokens -/

def Space (w : List UInt8) : Prop := ∀ c ∈ w, c = 32 ∨ c = 9 ∨ c = 10 ∨ c = 13

theorem Space.nil : Space [] := by simp [Space]

theorem Space.append {v w : List UInt8} (hv : Space v) (hw : Space w) : Space (v ++ w) := by
  intro c hc
  rcases List.mem_append.mp hc with hc | hc
  · exact hv c hc
  · exact hw c hc

def HexDigit (c : UInt8) (d : Nat) : Prop :=
  (ascii "0123456789abcdef")[d]? = some c ∨ (ascii "0123456789ABCDEF")[d]? = some c

/-- Four hexadecimal digits spell a code unit. -/
inductive HexQuad : List UInt8 → Nat → Prop where
  | intro {a b c d : UInt8} {i j k l : Nat} : HexDigit a i → HexDigit b j → HexDigit c k →
      HexDigit d l → HexQuad [a, b, c, d] (((i * 16 + j) * 16 + k) * 16 + l)

theorem HexDigit.lt {c : UInt8} {d : Nat} (h : HexDigit c d) : d < 16 := by
  have hlong : (ascii "0123456789abcdef").length = 16 ∧
    (ascii "0123456789ABCDEF").length = 16 := by decide
  rcases h with h | h
  · have := (List.getElem?_eq_some_iff.mp h).1
    omega
  · have := (List.getElem?_eq_some_iff.mp h).1
    omega

theorem HexQuad.lt {q : List UInt8} {u : Nat} (h : HexQuad q u) : u < 0x10000 := by
  cases h with
  | intro ha hb hc hd =>
    have := HexDigit.lt ha
    have := HexDigit.lt hb
    have := HexDigit.lt hc
    have := HexDigit.lt hd
    omega

def HighSurrogate (u : Nat) : Prop := 0xd800 ≤ u ∧ u ≤ 0xdbff
def LowSurrogate (u : Nat) : Prop := 0xdc00 ≤ u ∧ u ≤ 0xdfff

/-- The letters of the short escapes and what they stand for. -/
def shortEscapes : List (UInt8 × UInt8) :=
  [(34, 34), (92, 92), (47, 47), (98, 8), (102, 12), (110, 10), (114, 13), (116, 9)]

/-- What stands between the quotes of a string, and the string. -/
inductive Content : List UInt8 → List UInt8 → Prop where
  | nil : Content [] []
  | plain {c : UInt8} {t s : List UInt8} : 32 ≤ c → c ≠ 34 → c ≠ 92 → Content t s →
      Content (c :: t) (c :: s)
  | short {e c : UInt8} {t s : List UInt8} : (e, c) ∈ shortEscapes → Content t s →
      Content (92 :: e :: t) (c :: s)
  | unit {q t s : List UInt8} {u : Nat} : HexQuad q u → ¬ HighSurrogate u → ¬ LowSurrogate u →
      Content t s →
      Content (92 :: 117 :: (q ++ t)) (String.utf8EncodeChar (Char.ofNat u) ++ s)
  | pair {q r t s : List UInt8} {u v : Nat} : HexQuad q u → HighSurrogate u → HexQuad r v →
      LowSurrogate v → Content t s →
      Content (92 :: 117 :: (q ++ 92 :: 117 :: (r ++ t)))
        (String.utf8EncodeChar (Char.ofNat (0x10000 + (u - 0xd800) * 0x400 + (v - 0xdc00))) ++ s)

inductive StringText : List UInt8 → List UInt8 → Prop where
  | intro {body text : List UInt8} : Content body text → StringText (34 :: body ++ [34]) text

/-- A number in base ten without leading zeros, behind a sign when it is negative or zero. -/
inductive IntegerText : List UInt8 → Int → Prop where
  | natural (n : Nat) : IntegerText (decimal n) n
  | negated (n : Nat) : IntegerText (45 :: decimal n) (-n)

theorem IntegerText.ne_nil {t : List UInt8} {n : Int} (h : IntegerText t n) : t ≠ [] := by
  cases h with
  | natural k => exact decimal_ne_nil k
  | negated k => simp

/-! ## Values -/

/-- Texts with commas between them, and space around each. -/
inductive Separated : List (List UInt8) → List UInt8 → Prop where
  | none {w : List UInt8} : Space w → Separated [] w
  | one {w t w' : List UInt8} : Space w → Space w' → Separated [t] (w ++ t ++ w')
  | more {w t w' rest : List UInt8} {ts : List (List UInt8)} : Space w → Space w' → ts ≠ [] →
      Separated ts rest → Separated (t :: ts) (w ++ t ++ w' ++ 44 :: rest)

/-- A member of an object: its name, its value, the text of the value and of the whole. -/
structure Member where
  name : List UInt8
  value : JsonValue
  text : List UInt8
  piece : List UInt8

inductive Member.Piece : Member → Prop where
  | intro {name key w w' text : List UInt8} {value : JsonValue} : StringText key name → Space w →
      Space w' → Piece ⟨name, value, text, key ++ w ++ 58 :: (w' ++ text)⟩

/-- A text spells a value, whose integers are in a range. -/
inductive Spells (r : Int → Prop) : JsonValue → List UInt8 → Prop where
  | null : Spells r .null (ascii "null")
  | yes : Spells r (.boolean true) (ascii "true")
  | no : Spells r (.boolean false) (ascii "false")
  | integer {t : List UInt8} {n : Int} : IntegerText t n → r n → Spells r (.integer n) t
  | string {t s : List UInt8} : StringText t s → Spells r (.string s) t
  | array {l : List (JsonValue × List UInt8)} {b : List UInt8} :
      (∀ p ∈ l, Spells r p.1 p.2) → Separated (l.map Prod.snd) b →
      Spells r (.array (l.map Prod.fst)) (91 :: b ++ [93])
  | object {l : List Member} {b : List UInt8} : (∀ m ∈ l, m.Piece) →
      (∀ m ∈ l, Spells r m.value m.text) → Separated (l.map Member.piece) b →
      Spells r (.object (l.map fun m => (m.name, m.value))) (123 :: b ++ [125])

end Lib
