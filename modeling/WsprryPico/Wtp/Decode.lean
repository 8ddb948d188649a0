import WsprryPico.Wtp.Codec
import WsprryPico.Wtp.Json.Compact
import WsprryPico.Wtp.Json.Alike

/-!
# Decoding a compacted payload

Each reader of a request gives alike values the same answer, so a request is
decoded from what its payload spells. A payload compacted in place spells the
same, and with the digest of the original its request is the same.
-/

namespace WsprryPico.Wtp.Codec

open Lib Json

variable {v v' : Value}

theorem get_alike (h : Alike v v') (key : String) : Alike (get v key) (get v' key) :=
  h.getD (ascii key)

/-- The bound on the bytes of a text follows from the one on its characters. -/
theorem text_alike (h : Alike v v') (min max : Nat) : text v min max = text v' min max := by
  by_cases htype : v.type = 34
  · have htype' := h.string_type.mp htype
    by_cases hlength : v.string.length ≤ max
    · rcases h.bounded htype hlength with rfl | ⟨hraw, hraw'⟩
      · rfl
      · simp only [text, htype, htype', hraw, hraw', h.string]
    · have hlength' : ¬ v'.string.length ≤ max := by rwa [← h.string]
      simp [text, hlength, hlength']
  · have htype' := mt h.string_type.mpr htype
    simp [text, htype, htype']

theorem truth_alike (h : Alike v v') : truth v = truth v' := by
  have htrue := h.literal (l := ascii "true") (by simp)
  have hfalse := h.literal (l := ascii "false") (by simp)
  simp only [truth, htrue, hfalse]

/-! ## Bodies -/

theorem all_alike {es es' : List Value} (h : List.Forall₂ Alike es es') :
    es.all (fun v => v.type = 34 && version v.string) =
      es'.all (fun v => v.type = 34 && version v.string) ∧
    es.map Value.string = es'.map Value.string := by
  induction h with
  | nil => exact ⟨rfl, rfl⟩
  | cons h _ ih =>
    have htype := h.string_type
    simp only [List.all_cons, List.map_cons, ih.1, ih.2, h.string, htype, and_self]

theorem helloBody_alike (h : Alike v v') : helloBody v = helloBody v' := by
  have hversions := get_alike h "versions"
  obtain ⟨hall, hstrings⟩ := all_alike (hversions.elements 16)
  simp only [helloBody, hall, hstrings, hversions.array_type, h.fields,
    text_alike (get_alike h "client_name"), text_alike (get_alike h "client_version")]

/-- The lease is read the same: one that is accepted is positive. -/
theorem lease_alike (h : Alike v v') :
    ((¬ Lib.isDigit v.type = true ∨ v.integer < 5000 ∨ 60000 < v.integer) ↔
      (¬ Lib.isDigit v'.type = true ∨ v'.integer < 5000 ∨ 60000 < v'.integer)) ∧
    (¬ (¬ Lib.isDigit v.type = true ∨ v.integer < 5000 ∨ 60000 < v.integer) →
      v.integer = v'.integer) := by
  have hone : ∀ {v v' : Value}, Alike v v' →
      ¬ (¬ Lib.isDigit v.type = true ∨ v.integer < 5000 ∨ 60000 < v.integer) →
      ¬ (¬ Lib.isDigit v'.type = true ∨ v'.integer < 5000 ∨ 60000 < v'.integer) ∧
        v.integer = v'.integer := by
    intro v v' h hgood
    simp only [not_or, not_not] at hgood
    obtain ⟨hdigit, heq⟩ := h.positive hgood.1 (by omega)
    refine ⟨?_, heq.symm⟩
    simp only [not_or, not_not]
    rw [heq]
    exact ⟨hdigit, hgood.2⟩
  refine ⟨⟨fun hbad => ?_, fun hbad => ?_⟩, fun hgood => (hone h hgood).2⟩
  · by_contra hgood
    exact (hone h.symm hgood).1 hbad
  · by_contra hgood
    exact (hone h hgood).1 hbad

theorem leaseBody_alike (h : Alike v v') (claim : Bool) :
    leaseBody v claim = leaseBody v' claim := by
  have howner := get_alike h "owner_id"
  obtain ⟨hiff, hinteger⟩ := lease_alike (get_alike h "lease_ms")
  unfold leaseBody
  simp only [h.fields, howner.identifier, howner.string, hiff]
  by_cases hbad : ¬ Lib.isDigit (get v' "lease_ms").type = true ∨
      (get v' "lease_ms").integer < 5000 ∨ 60000 < (get v' "lease_ms").integer
  · rw [if_pos (.inr (.inr hbad)), if_pos (.inr (.inr hbad))]
  · rw [hinteger (mt hiff.mp hbad)]

theorem armBody_alike (h : Alike v v') : armBody v = armBody v' := by
  have hjob := get_alike h "job_id"
  simp only [armBody, h.fields, hjob.identifier, hjob.string, (get_alike h "start_utc_ns").decimal,
    (get_alike h "max_start_uncertainty_ns").decimal]

theorem abortBody_alike (h : Alike v v') : abortBody v = abortBody v' := by
  have hjob := get_alike h "job_id"
  simp only [abortBody, h.fields, hjob.identifier, hjob.string]

theorem pingBody_alike (h : Alike v v') : pingBody v = pingBody v' := by
  have htoken := h.get (ascii "token")
  unfold pingBody
  rw [h.fields]
  generalize v.get (ascii "token") = o at htoken
  generalize v'.get (ascii "token") = o' at htoken
  cases htoken with
  | none => rfl
  | some htoken => simp only [text_alike htoken, htoken.string]

/-! ## Events -/

theorem decodeEvent_alike (h : Alike v v') : decodeEvent v = decodeEvent v' := by
  have hon := get_alike h "rf_on"
  have hfrequency := h.get (ascii "frequency_nhz")
  unfold decodeEvent
  simp only [h.fields, (get_alike h "offset_ns").decimal, (get_alike h "duration_ns").decimal,
    truth_alike hon, hon.boolean]
  generalize v.get (ascii "frequency_nhz") = o at hfrequency
  generalize v'.get (ascii "frequency_nhz") = o' at hfrequency
  cases hfrequency with
  | none => rfl
  | some hfrequency => simp only [hfrequency.decimal, Option.isSome_some]

/-- The first pass goes through the elements, whichever text they stand in. -/
theorem countEvents_alike {es es' : List Value} (h : List.Forall₂ Alike es es') :
    ∀ {cursor cursor' fuel fuel' : Nat} (count : Nat), v.Walks cursor es →
      v'.Walks cursor' es' → es.length < fuel → es'.length < fuel' →
      countEvents v fuel cursor count = countEvents v' fuel' cursor' count := by
  induction h with
  | nil =>
    intro cursor cursor' fuel fuel' count hw hw' hfuel hfuel'
    obtain ⟨fuel, rfl⟩ := Nat.exists_eq_add_one.2 hfuel
    obtain ⟨fuel', rfl⟩ := Nat.exists_eq_succ_of_ne_zero (Nat.ne_of_gt hfuel')
    cases hw with
    | last hlast =>
      cases hw' with
      | last hlast' => simp only [countEvents, hlast, hlast']
  | cons _ _ ih =>
    intro cursor cursor' fuel fuel' count hw hw' hfuel hfuel'
    obtain ⟨fuel, rfl⟩ := fuel_left hfuel
    obtain ⟨fuel', rfl⟩ := fuel_left hfuel'
    cases hw with
    | next hnext hw =>
      cases hw' with
      | next hnext' hw' =>
        simp only [countEvents, hnext, hnext']
        rw [ih (count + 1) hw hw' (by simpa using hfuel) (by simpa using hfuel')]

theorem decodeEvents_alike (allocate : Nat → Bool) (replay : Bool) {es es' : List Value}
    (h : List.Forall₂ Alike es es') :
    ∀ {cursor cursor' fuel fuel' : Nat} (digest : JobDigestBuilder) (l : EventList),
      v.Walks cursor es → v'.Walks cursor' es' → es.length < fuel → es'.length < fuel' →
      decodeEvents allocate replay v fuel cursor digest l =
        decodeEvents allocate replay v' fuel' cursor' digest l := by
  induction h with
  | nil =>
    intro cursor cursor' fuel fuel' digest l hw hw' hfuel hfuel'
    obtain ⟨fuel, rfl⟩ := Nat.exists_eq_add_one.2 hfuel
    obtain ⟨fuel', rfl⟩ := Nat.exists_eq_succ_of_ne_zero (Nat.ne_of_gt hfuel')
    cases hw with
    | last hlast =>
      cases hw' with
      | last hlast' => simp only [decodeEvents, hlast, hlast']
  | cons he _ ih =>
    intro cursor cursor' fuel fuel' digest l hw hw' hfuel hfuel'
    obtain ⟨fuel, rfl⟩ := fuel_left hfuel
    obtain ⟨fuel', rfl⟩ := fuel_left hfuel'
    cases hw with
    | next hnext hw =>
      cases hw' with
      | next hnext' hw' =>
        have hrest := fun (digest : JobDigestBuilder) (l : EventList) =>
          ih digest l hw hw' (by simpa using hfuel) (by simpa using hfuel')
        simp only [decodeEvents, hnext, hnext', decodeEvent_alike he, hrest]

theorem loadHeader_alike (h : Alike v v') : loadHeader v = loadHeader v' := by
  have hjob := get_alike h "job_id"
  have hprofile := get_alike h "profile"
  have hmode := get_alike h "mode"
  have hevents := (get_alike h "events").array_type
  have hallow := h.get (ascii "allow_frequency_adjustment")
  unfold loadHeader
  simp only [h.fields, hjob.identifier, hjob.string, text_alike hprofile, hprofile.string,
    text_alike hmode, hmode.string, (get_alike h "total_duration_ns").decimal, ne_eq, hevents]
  generalize v.get (ascii "allow_frequency_adjustment") = o at hallow
  generalize v'.get (ascii "allow_frequency_adjustment") = o' at hallow
  cases hallow with
  | none => rfl
  | some hallow => simp only [truth_alike hallow, hallow.boolean]

theorem loadHeader_events {job : Job} (h : loadHeader v = some job) :
    (get v "events").type = 91 := by
  unfold loadHeader at h
  split at h
  · exact absurd h (by simp)
  split at h
  · exact absurd h (by simp)
  dsimp only at h
  split at h
  · exact absurd h (by simp)
  · rename_i hevents
    exact Decidable.not_not.mp (not_or.mp hevents).1

theorem loadBody_alike (allocate : Nat → Bool) (activeReplayId : Bytes) (h : Alike v v') :
    loadBody allocate activeReplayId v = loadBody allocate activeReplayId v' := by
  unfold loadBody
  rw [← loadHeader_alike h]
  rcases hheader : loadHeader v with - | job
  · rfl
  have hevents := get_alike h "events"
  have htype := loadHeader_events hheader
  by_cases heq : get v "events" = get v' "events"
  · rw [heq]
  · obtain ⟨es, es', hw, hw', hall, hlength, hlength'⟩ := hevents.walks htype heq
    have hcount := countEvents_alike hall 0 hw hw' (Nat.lt_succ_of_le hlength)
      (Nat.lt_succ_of_le hlength')
    have hdecode := fun (replay : Bool) (digest : JobDigestBuilder) (l : EventList) =>
      decodeEvents_alike allocate replay hall digest l hw hw' (Nat.lt_succ_of_le hlength)
        (Nat.lt_succ_of_le hlength')
    simp only [hcount, hdecode]

/-! ## Requests -/

theorem body_alike (allocate : Nat → Bool) (activeReplayId op : Bytes) (h : Alike v v') :
    body allocate activeReplayId op v = body allocate activeReplayId op v' := by
  simp only [body, helloBody_alike h, leaseBody_alike h, armBody_alike h, abortBody_alike h,
    pingBody_alike h, loadBody_alike allocate activeReplayId h, h.fields]

theorem decodeRequest_alike (allocate : Nat → Bool) (h : Alike v v')
    (principal payload payload' activeReplayId : Bytes) {digest digest' : Option PayloadDigest}
    (hdigest : digest.getD (sha256 payload) = digest'.getD (sha256 payload')) :
    decodeRequest allocate v principal payload activeReplayId digest =
      decodeRequest allocate v' principal payload' activeReplayId digest' := by
  have htype := get_alike h "type"
  have hsession := get_alike h "session_id"
  have hrequest := get_alike h "request_id"
  have hprotocol := get_alike h "protocol"
  have hop := get_alike h "op"
  have hbody := get_alike h "body"
  have hprotocolType := hprotocol.string_type
  have hopType := hop.string_type
  have hbodyType := hbody.object_type
  simp only [decodeRequest, h.fields, htype.string, hsession.identifier, hsession.string,
    hrequest.identifier, hrequest.string, hprotocol.string, hop.string, ne_eq, hprotocolType,
    hopType, hbodyType, hdigest, body_alike allocate activeReplayId _ hbody]

/-- Compaction in place keeps the value and the request of every payload the parser accepts. -/
theorem compaction_preserves {payload : Bytes} {maximumDepth : Nat} {v : Value}
    (h : parse payload maximumDepth = some v) :
    (compactValidatedJson payload).length ≤ payload.length ∧
      ∃ v', parse (compactValidatedJson payload) maximumDepth = some v' ∧
        (∃ j, Profile maximumDepth payload j ∧
          Profile maximumDepth (compactValidatedJson payload) j ∧ Reads v j ∧ Reads v' j) ∧
        ∀ allocate principal activeReplayId,
          decodeRequest allocate v' principal (compactValidatedJson payload) activeReplayId
              (some (sha256 payload)) =
            decodeRequest allocate v principal payload activeReplayId := by
  obtain ⟨v', j, hv', hshorter, hprofile, hprofile', hspells, hspells'⟩ := parse_compact h
  have hwithin : j.Within defaultDepth := hprofile.depth.mono (parse_sound h).1
  refine ⟨hshorter, v', hv', ⟨j, hprofile, hprofile',
    reads_spells hspells hwithin hprofile.distinct,
    reads_spells hspells' hwithin hprofile.distinct⟩,
    fun allocate principal activeReplayId => ?_⟩
  refine decodeRequest_alike allocate (.inr ⟨j, hwithin, hspells', hspells⟩) _ _ _ _ ?_
  rw [Option.getD_some, Option.getD_none]

theorem spaced_object_compacts :
    parse (ascii " \x7b \"a\" : 1 \x7d") 16 = some ⟨ascii "\x7b \"a\" : 1 \x7d"⟩ ∧
      (compactValidatedJson (ascii " \x7b \"a\" : 1 \x7d")).length ≤
        (ascii " \x7b \"a\" : 1 \x7d").length :=
  have h : parse (ascii " \x7b \"a\" : 1 \x7d") 16 = some ⟨ascii "\x7b \"a\" : 1 \x7d"⟩ := by
    decide +kernel
  ⟨h, (compaction_preserves h).1⟩

end WsprryPico.Wtp.Codec
