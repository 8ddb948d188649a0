import WsprryPico.Wtp.Json.Alike

/-!
# Views into a payload

The values a reader can hold: a parsed payload, the members of its objects and
the elements of its arrays. Each of them spells a value.
-/

namespace WsprryPico.Wtp.Json

open Lib

inductive View : Value → Prop where
  | payload {bytes : Bytes} {depth : Nat} {v : Value} : parse bytes depth = some v → View v
  | member {v w : Value} {key : Bytes} : View v → v.get key = some w → View w
  | element {v w : Value} {limit : Nat} : View v → w ∈ v.elements limit → View w

theorem View.readable {v : Value} (h : View v) : Readable v.raw := by
  induction h with
  | payload hparse =>
    obtain ⟨hmax, j, hprofile, hspells⟩ := parse_sound hparse
    exact ⟨j, hspells, hprofile.depth.mono hmax⟩
  | @member v w key _ hget ih =>
    obtain ⟨j, hspells, hwithin⟩ := ih
    by_cases htype : v.type = 123
    · obtain ⟨members, rfl⟩ := (spells_type hspells).2.2.mp htype
      obtain ⟨parts, htext, -, hparts⟩ := spells_object hspells hwithin
      rw [Value.get_eq htext] at hget
      obtain ⟨m, hm, rfl⟩ := Option.map_eq_some_iff.mp hget
      obtain ⟨hwithin, hspells⟩ := hparts m (List.mem_of_find?_eq_some hm)
      exact ⟨m.value, hspells, hwithin⟩
    · rw [get_of_type htype] at hget
      cases hget
  | @element v w limit _ hmem ih =>
    obtain ⟨j, hspells, hwithin⟩ := ih
    by_cases htype : v.type = 91
    · obtain ⟨items, rfl⟩ := (spells_type hspells).2.1.mp htype
      obtain ⟨parts, htext, -, hparts⟩ := spells_array hspells hwithin
      rw [Value.elements_eq htext] at hmem
      obtain ⟨t, ht, rfl⟩ := List.mem_map.mp (List.mem_of_mem_take hmem)
      obtain ⟨p, hp, rfl⟩ := List.mem_map.mp ht
      exact ⟨p.1, (hparts p hp).2, (hparts p hp).1⟩
    · rw [Value.elements, if_pos htype] at hmem
      cases hmem

end WsprryPico.Wtp.Json
