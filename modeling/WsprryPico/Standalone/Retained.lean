import WsprryPico.Standalone.Reload
import WsprryPico.Standalone.Retention

/-!
# What the learning cache retains

A record written by `flush` read back by `load`. Version 2 carries an RF prior and
version 3 a GPS prior, so a record that holds both comes back without the first.
-/

namespace WsprryPico.Standalone

open Lib

namespace NtpRetention

/-! ## The fields of a record -/

section Cursor

variable {α β : Type} {x : Cursor α} {k : α → Cursor β} {a : α} {data rest : List UInt8}

theorem Cursor.bind_some (h : x data = some (a, rest)) : (x >>= k) data = k a rest := by
  show (x data).bind (fun s => k s.1 s.2) = k a rest
  rw [h]
  rfl

theorem Cursor.bind_inv {b : β} (h : (x >>= k) data = some (b, rest)) :
    ∃ a middle, x data = some (a, middle) ∧ k a middle = some (b, rest) := by
  change (x data).bind (fun s => k s.1 s.2) = some (b, rest) at h
  obtain ⟨⟨a, middle⟩, hx, hk⟩ := Option.bind_eq_some_iff.mp h
  exact ⟨a, middle, hx, hk⟩

theorem Cursor.require_inv {condition : Bool} {u : Unit}
    (h : Cursor.require condition data = some (u, rest)) : condition = true := by
  unfold Cursor.require at h
  split at h
  · assumption
  · cases h

theorem Cursor.get_put {width value : Nat} (h : value < 256 ^ width) :
    Cursor.get width (put width value ++ rest) = some (value, rest) := by
  unfold Cursor.get
  rw [List.take_left' (length_put ..), List.drop_left' (length_put ..), Standalone.get_put h]

theorem Cursor.bytes_append {xs : List UInt8} {count : Nat} (h : xs.length = count) :
    Cursor.bytes count (xs ++ rest) = some (xs, rest) := by
  unfold Cursor.bytes
  rw [List.take_left' h, List.drop_left' h]

theorem Cursor.require_bind {condition : Bool} {m : Unit → Cursor β} (h : condition = true) :
    (Cursor.require condition >>= m) data = m () data :=
  Cursor.bind_some (if_pos h)

theorem signedRate_toUInt32 (rate : Int32) : signedRate rate.toUInt32.toNat = rate := by
  have hbits : rate.toInt = if 2 * rate.toUInt32.toNat < 2 ^ 32 then (rate.toUInt32.toNat : Int)
      else (rate.toUInt32.toNat : Int) - (2 ^ 32 : Nat) :=
    BitVec.toInt_eq_toNat_cond rate.toBitVec
  have hlt := rate.toUInt32.toNat_lt
  unfold signedRate
  refine Int32.toInt_inj.mp ?_
  split
  · rw [Int32.toInt_ofNat_of_lt (by omega), hbits, if_pos (by omega)]
  · rw [Int32.toInt_ofInt_of_le (by omega) (by omega), hbits, if_neg (by omega)]
    rfl

theorem Cursor.provenance_bytes {p : Provenance} (h : p.boot.length = 32) :
    Cursor.provenance (p.bytes ++ rest) = some (p, rest) := by
  unfold Cursor.provenance Provenance.bytes
  simp only [List.append_assoc]
  rw [Cursor.bind_some (Cursor.bytes_append h),
    Cursor.bind_some (Cursor.get_put p.endpoint.toNat_lt),
    Cursor.bind_some (Cursor.get_put p.epoch.toNat_lt),
    Cursor.bind_some (Cursor.get_put p.generation.toNat_lt),
    Cursor.bind_some (Cursor.get_put p.referenceUtcNs.toNat_lt)]
  simp only [UInt32.ofNat_toNat, UInt64.ofNat_toNat]
  rfl

theorem Cursor.rate_bytes {r : Rate} (h : r.spanS.toNat < 256) :
    Cursor.rate (r.bytes ++ rest) = some (r, rest) := by
  unfold Cursor.rate Rate.bytes
  simp only [List.append_assoc]
  rw [Cursor.bind_some (Cursor.get_put r.errorPpb.toUInt32.toNat_lt),
    Cursor.bind_some (Cursor.get_put r.uncertaintyPpb.toNat_lt),
    Cursor.bind_some (Cursor.get_put h), signedRate_toUInt32]
  simp only [UInt32.ofNat_toNat]
  rfl

end Cursor

/-! ## Records that can be written -/

theorem hex_length {s : List UInt8} (h : hex s = true) : s.length = 32 := by
  exact of_decide_eq_true (Bool.and_eq_true_iff.mp h).1

theorem Provenance.valid_boot {p : Provenance} (h : p.valid = true) : p.boot.length = 32 := by
  simp only [Provenance.valid, Bool.and_eq_true] at h
  exact hex_length h.1.1.1.1.1

theorem Rate.valid_span {r : Rate} (h : r.valid = true) : r.spanS.toNat < 256 := by
  simp only [Rate.valid, Bool.and_eq_true, decide_eq_true_eq] at h
  have hspan : r.spanS.toNat ≤ 60 := UInt32.le_iff_toNat_le.mp h.2
  omega

theorem GpsPrior.valid_boot {g : GpsPrior} (h : g.valid = true) : g.boot.length = 32 := by
  simp only [GpsPrior.valid, Bool.and_eq_true] at h
  exact Provenance.valid_boot (p := ⟨g.boot, 0x475053, 1, g.generation, g.referenceUtcNs⟩) h.1.1.2

theorem GpsPrior.valid_rates {g : GpsPrior} (h : g.valid = true) :
    g.timer.valid = true ∧ g.synthesizer.all Rate.valid = true := by
  simp only [GpsPrior.valid, Bool.and_eq_true] at h
  exact ⟨h.1.2, h.2⟩

theorem RfPrior.valid_parts {r : RfPrior} (h : r.valid = true) :
    r.samples.toNat < 256 ∧ within 100000 r.utcRatePpb = true ∧ r.uncertaintyPpb.toNat ≤ 5000 ∧
      r.source.valid = true := by
  simp only [RfPrior.valid, Bool.and_eq_true, decide_eq_true_eq] at h
  obtain ⟨⟨⟨⟨⟨⟨⟨-, hrate⟩, hunc⟩, -⟩, hsamples⟩, -⟩, -⟩, hsource⟩ := h
  have hmost : r.samples.toNat ≤ 64 := UInt32.le_iff_toNat_le.mp hsamples
  exact ⟨by omega, hrate, UInt32.le_iff_toNat_le.mp hunc, hsource⟩

/-- Every part of a record that the calls stage. -/
structure Record.Sound (r : Record) : Prop where
  utc : Cursor.utcValid r = true
  rf : r.rf.all RfPrior.valid = true
  gps : r.gps.all GpsPrior.valid = true

/-- The record that comes back: version 3 has no room for an RF prior. -/
def Record.retained (r : Record) : Record := { r with rf := if r.gps.isSome then none else r.rf }

theorem Record.retained_eq_iff (r : Record) :
    r.retained = r ↔ ¬ (r.gps.isSome = true ∧ r.rf.isSome = true) := by
  cases r with
  | mk utcRate source rf skew gps => cases gps <;> cases rf <;> simp [Record.retained]

section RoundTrip

variable {device : List UInt8} {topology : UInt64} {r : Record} {g : GpsPrior} {rest : List UInt8}

theorem Cursor.header_encoded {version : Nat} (hversion : version = 2 ∨ version = 3)
    (hdevice : device.length = 32) :
    Cursor.header device topology
      (put 4 magic ++ (put 2 version ++ (device ++ (put 8 topology.toNat ++ rest)))) =
      some (version, rest) := by
  unfold Cursor.header
  rw [Cursor.bind_some (Cursor.get_put (by decide)), Cursor.require_bind (decide_eq_true rfl),
    Cursor.bind_some (Cursor.get_put (by omega)), Cursor.bind_some (Cursor.bytes_append hdevice),
    Cursor.require_bind (by rcases hversion with rfl | rfl <;> simp),
    Cursor.bind_some (Cursor.get_put topology.toNat_lt), Cursor.require_bind (decide_eq_true rfl)]
  rw [if_neg (by omega)]
  rfl

theorem Cursor.utc_encoded {version : Nat} (hversion : 2 ≤ version)
    (hboot : r.utcSource.boot.length = 32) :
    Cursor.utc version (put 4 r.utcRatePpb.toUInt32.toNat ++
      (put 4 r.utcSkewPpb.toNat ++ (r.utcSource.bytes ++ rest))) =
      some ({ r with rf := none, gps := none }, rest) := by
  unfold Cursor.utc
  rw [Cursor.bind_some (Cursor.get_put r.utcRatePpb.toUInt32.toNat_lt), if_pos hversion,
    Cursor.bind_some (Cursor.get_put r.utcSkewPpb.toNat_lt)]
  dsimp only
  rw [Cursor.bind_some (Cursor.provenance_bytes hboot), signedRate_toUInt32, UInt32.ofNat_toNat]
  rfl

theorem Cursor.gps_encoded (h : g.valid = true) (hutc : Cursor.utcValid r = true) :
    Cursor.gps r (g.bytes ++ rest) = some ({ r with gps := some g }, rest) := by
  obtain ⟨htimer, hsynthesizer⟩ := g.valid_rates h
  have hspan : (g.synthesizer.getD ⟨0, 0, 0⟩).spanS.toNat < 256 := by
    cases hs : g.synthesizer with
    | none => decide
    | some rate =>
      rw [hs] at hsynthesizer
      exact Rate.valid_span hsynthesizer
  unfold Cursor.gps GpsPrior.bytes
  simp only [List.append_assoc]
  rw [Cursor.bind_some (Cursor.get_put (by split <;> decide)),
    Cursor.bind_some (Cursor.get_put g.settingsFingerprint.toNat_lt),
    Cursor.bind_some (Cursor.bytes_append (g.valid_boot h)),
    Cursor.bind_some (Cursor.get_put g.referenceUtcNs.toNat_lt),
    Cursor.bind_some (Cursor.get_put g.generation.toNat_lt),
    Cursor.bind_some (Cursor.rate_bytes (Rate.valid_span htimer)),
    Cursor.bind_some (Cursor.rate_bytes hspan), Cursor.bind_some (Cursor.get_put (by decide))]
  have hprior : (⟨UInt64.ofNat g.settingsFingerprint.toNat, UInt64.ofNat g.referenceUtcNs.toNat,
      UInt64.ofNat g.generation.toNat, g.boot, g.timer,
      if (if g.synthesizer.isSome then 3 else 1) = 3 then some (g.synthesizer.getD ⟨0, 0, 0⟩)
      else none⟩ : GpsPrior) = g := by
    simp only [UInt64.ofNat_toNat]
    rcases g with ⟨_, _, _, _, _, _ | _⟩ <;> rfl
  rw [hprior, Cursor.require_bind]
  · rfl
  · rw [h, hutc]
    cases g.synthesizer <;> rfl

theorem Cursor.rf_encoded (hrf : r.rf.all RfPrior.valid = true) (hutc : Cursor.utcValid r = true) :
    Cursor.rf 2 { r with rf := none } (rfBytes r.rf ++ rest) = some (r, rest) := by
  obtain ⟨prior, hprior, hsamples, hboot⟩ : ∃ prior, r.rf.getD noPrior = prior ∧
      prior.samples.toNat < 256 ∧ prior.source.boot.length = 32 := by
    refine ⟨_, rfl, ?_⟩
    cases hpart : r.rf with
    | none => decide
    | some rf =>
      rw [hpart] at hrf
      have hparts := RfPrior.valid_parts hrf
      exact ⟨hparts.1, Provenance.valid_boot hparts.2.2.2⟩
  unfold Cursor.rf rfBytes
  simp only [List.append_assoc, hprior]
  have hflag : r.rf.isSome.toNat < 256 ^ 1 := by
    have := r.rf.isSome.toNat_le
    omega
  rw [Cursor.bind_some (Cursor.get_put hflag),
    Cursor.bind_some (Cursor.get_put prior.utcRatePpb.toUInt32.toNat_lt),
    Cursor.bind_some (Cursor.get_put prior.uncertaintyPpb.toNat_lt), if_neg (by decide),
    Cursor.bind_some (Cursor.get_put hsamples),
    Cursor.bind_some (Cursor.get_put prior.spanNs.toNat_lt),
    Cursor.bind_some (Cursor.provenance_bytes hboot)]
  rw [signedRate_toUInt32]
  simp only [UInt32.ofNat_toNat, UInt64.ofNat_toNat]
  rw [Cursor.require_bind]
  · cases hpart : r.rf with
    | none =>
      rcases r with ⟨_, _, _, _, _⟩
      obtain rfl := hpart
      rfl
    | some rf =>
      rcases r with ⟨_, _, _, _, _⟩
      obtain rfl := hpart
      obtain rfl := hprior
      rfl
  · cases hpart : r.rf with
    | none =>
      show (true && Cursor.utcValid r && true) = true
      rw [hutc]
      rfl
    | some rf =>
      rw [hpart] at hrf hprior
      obtain rfl := hprior
      show (true && Cursor.utcValid r && (false || rf.valid)) = true
      rw [hutc]
      exact hrf

theorem length_encode (hdevice : device.length = 32) (h : r.Sound) :
    (encode device topology r).length = 192 := by
  have hutc := h.utc
  simp only [Cursor.utcValid, Bool.and_eq_true] at hutc
  have hboot := Provenance.valid_boot hutc.1.1
  have hrest : r.priorBytes.length = 78 := by
    unfold Record.priorBytes
    cases hgps : r.gps with
    | some gps =>
      have hvalid := h.gps
      rw [hgps] at hvalid
      simp [GpsPrior.bytes, Rate.bytes, gps.valid_boot hvalid]
    | none =>
      have hprior : (r.rf.getD noPrior).source.boot.length = 32 := by
        cases hrf : r.rf with
        | none => decide
        | some rf =>
          have hvalid := h.rf
          rw [hrf] at hvalid
          exact Provenance.valid_boot (RfPrior.valid_parts hvalid).2.2.2
      simp [rfBytes, Provenance.bytes, hprior]
  unfold encode
  rw [List.length_append, hrest]
  simp [Provenance.bytes, hdevice, hboot]

/-- What `load` makes of the data that `flush` appends. -/
theorem decode_encode (hdevice : device.length = 32) (h : r.Sound) :
    decode device topology (encode device topology r) = some r.retained := by
  have hutc := h.utc
  simp only [Cursor.utcValid, Bool.and_eq_true] at hutc
  have hboot := Provenance.valid_boot hutc.1.1
  unfold decode
  rw [if_neg (by rw [length_encode hdevice h]; decide)]
  unfold encode Cursor.record
  simp only [List.append_assoc]
  rw [← List.append_nil r.priorBytes]
  unfold Record.priorBytes
  cases hgps : r.gps with
  | some gps =>
    have hvalid := h.gps
    rw [hgps] at hvalid
    rw [if_pos Option.isSome_some, Cursor.bind_some (Cursor.header_encoded (.inr rfl) hdevice),
      Cursor.bind_some (Cursor.utc_encoded (by decide) hboot), if_pos rfl]
    dsimp only
    rw [Cursor.gps_encoded (r := { r with rf := none, gps := none }) hvalid h.utc]
    simp [Record.retained, hgps]
  | none =>
    have hrecord : ({ r with rf := none, gps := none } : Record) = { r with rf := none } := by
      rw [hgps]
    rw [if_neg (by simp), Cursor.bind_some (Cursor.header_encoded (.inl rfl) hdevice),
      Cursor.bind_some (Cursor.utc_encoded (by decide) hboot), if_neg (by decide), hrecord,
      Cursor.rf_encoded h.rf h.utc]
    have hsame : r.retained = r := (Record.retained_eq_iff r).mpr (by simp [hgps])
    rw [hsame]
    rfl

theorem Cursor.utc_parts {version : Nat} {data : List UInt8}
    (h : Cursor.utc version data = some (r, rest)) : r.rf = none ∧ r.gps = none := by
  obtain ⟨_, _, -, h⟩ := Cursor.bind_inv h
  dsimp only at h
  split at h
  · obtain ⟨_, _, -, h⟩ := Cursor.bind_inv h
    cases h
    exact ⟨rfl, rfl⟩
  · obtain ⟨_, _, -, h⟩ := Cursor.bind_inv h
    cases h
    exact ⟨rfl, rfl⟩

theorem Cursor.gps_sound {next : Record} {data : List UInt8} (hnext : next.rf = none)
    (h : Cursor.gps next data = some (r, rest)) : r.Sound := by
  obtain ⟨flags, _, -, h⟩ := Cursor.bind_inv h
  obtain ⟨_, _, -, h⟩ := Cursor.bind_inv h
  obtain ⟨_, _, -, h⟩ := Cursor.bind_inv h
  obtain ⟨_, _, -, h⟩ := Cursor.bind_inv h
  obtain ⟨_, _, -, h⟩ := Cursor.bind_inv h
  obtain ⟨_, _, -, h⟩ := Cursor.bind_inv h
  obtain ⟨synthesizer, _, -, h⟩ := Cursor.bind_inv h
  obtain ⟨padding, _, -, h⟩ := Cursor.bind_inv h
  obtain ⟨_, _, hvalid, h⟩ := Cursor.bind_inv h
  have hvalid := Cursor.require_inv hvalid
  rw [Bool.and_eq_true, Bool.and_eq_true, Bool.and_eq_true] at hvalid
  obtain ⟨rfl, -⟩ := Prod.mk.inj (Option.some.inj h)
  refine ⟨hvalid.2, ?_, hvalid.1.1.2⟩
  simp only [hnext]
  rfl

theorem Cursor.rf_sound {version : Nat} {next : Record} {data : List UInt8}
    (hrf : next.rf = none) (hgps : next.gps = none)
    (h : Cursor.rf version next data = some (r, rest)) : r.Sound := by
  obtain ⟨hasRf, _, -, h⟩ := Cursor.bind_inv h
  obtain ⟨_, _, -, h⟩ := Cursor.bind_inv h
  obtain ⟨_, _, -, h⟩ := Cursor.bind_inv h
  obtain ⟨_, _, -, h⟩ := Cursor.bind_inv h
  obtain ⟨_, _, -, h⟩ := Cursor.bind_inv h
  obtain ⟨_, _, -, h⟩ := Cursor.bind_inv h
  obtain ⟨_, _, hvalid, h⟩ := Cursor.bind_inv h
  have hvalid := Cursor.require_inv hvalid
  rw [Bool.and_eq_true, Bool.and_eq_true, Bool.or_eq_true] at hvalid
  obtain ⟨rfl, -⟩ := Prod.mk.inj (Option.some.inj h)
  split
  · rename_i hne
    refine ⟨hvalid.1.2, hvalid.2.resolve_left fun hzero => hne (of_decide_eq_true hzero), ?_⟩
    simp only [hgps]
    rfl
  · refine ⟨hvalid.1.2, ?_, ?_⟩
    · rw [hrf]
      rfl
    · rw [hgps]
      rfl

/-- A record that `load` accepts, whatever the flash held. -/
theorem decode_sound {data : List UInt8} (h : decode device topology data = some r) : r.Sound := by
  unfold decode at h
  split at h
  · cases h
  · obtain ⟨⟨_, rest⟩, hrun, rfl⟩ := Option.map_eq_some_iff.mp h
    obtain ⟨version, _, -, h⟩ := Cursor.bind_inv hrun
    obtain ⟨next, _, hutc, h⟩ := Cursor.bind_inv h
    obtain ⟨hrf, hgps⟩ := Cursor.utc_parts hutc
    split at h
    · exact Cursor.gps_sound hrf h
    · exact Cursor.rf_sound hrf hgps h

end RoundTrip

/-! ## Runs -/

section Runs

variable {device : List UInt8} {topology : UInt64} {n n' : NtpRetention} {f f' : Nor} {ok : Bool}

/-- What every call keeps: a healthy cache has the journal of its flash. -/
structure Kept (device : List UInt8) (topology : UInt64) (n : NtpRetention) (f : Nor) : Prop where
  same : n.device = device ∧ n.topology = topology
  layout : n.journal.base = 0 ∧ n.journal.size = 256
  ready : n.healthy = true →
    (hex device = true ∧ topology ≠ 0) ∧ n.journal.healthy = true ∧ Current n.journal f.bytes
  record : ∀ r, n.record = some r → r.Sound
  pending : ∀ r, n.pending = some r → r.Sound

theorem new_kept (device : List UInt8) (topology : UInt64) (f : Nor) :
    Kept device topology (new device topology) f :=
  ⟨⟨rfl, rfl⟩, ⟨rfl, rfl⟩, nofun, nofun, nofun⟩

theorem load_kept (h : Kept device topology n f) : Kept device topology (n.load f).2 f := by
  have hsame := (load_same n.journal f true).1
  unfold load
  dsimp only
  split
  · exact ⟨h.same, h.layout, nofun, nofun, nofun⟩
  · rename_i hnamed
    rw [Bool.or_eq_true, not_or, Bool.not_eq_true', Bool.not_eq_false, decide_eq_true_eq, h.same.1,
      h.same.2] at hnamed
    cases hload : n.journal.load true f with
    | mk loaded journal =>
      rw [hload] at hsame
      have hlayout : journal.base = 0 ∧ journal.size = 256 :=
        ⟨hsame.1.trans h.layout.1, hsame.2.trans h.layout.2⟩
      cases loaded with
      | false =>
        exact ⟨h.same, hlayout, nofun, nofun,
          nofun⟩
      | true =>
        have hready := (load_sound hload).healthy
        have hcurrent := load_current hload
        dsimp only
        split
        · exact ⟨h.same, hlayout, fun _ => ⟨hnamed, hready, hcurrent⟩, nofun,
            nofun⟩
        · split
          · exact ⟨h.same, hlayout, nofun, nofun,
              nofun⟩
          · rename_i next hdecode
            refine ⟨h.same, hlayout, fun _ => ⟨hnamed, hready, hcurrent⟩, fun r hr => ?_,
              nofun⟩
            cases hr
            exact decode_sound hdecode

theorem staged_sound (h : Kept device topology n f) :
    n.staged.Sound ∨ (n.pending.isNone = true ∧ n.record.isNone = true ∧ n.staged = {}) := by
  unfold staged
  cases hpending : n.pending with
  | some r => exact .inl (h.pending r hpending)
  | none =>
    cases hrecord : n.record with
    | some r => exact .inl (h.record r hrecord)
    | none => exact .inr ⟨rfl, rfl, rfl⟩

theorem utcValid_of {rate : Int32} {source : Provenance} {skew : UInt32} (next : Record)
    (hrate : within 100000 rate = true) (hsource : source.valid = true)
    (hskew : skew ≤ utcMaxRateUncertaintyPpb) :
    Cursor.utcValid { next with utcRatePpb := rate, utcSkewPpb := skew, utcSource := source } =
      true := by
  unfold Cursor.utcValid
  dsimp only
  rw [hsource, hrate, decide_eq_true hskew]
  rfl

theorem Kept.stagedAs {r : Record} (h : Kept device topology n f) (hr : r.Sound) :
    Kept device topology { n with pending := some r } f :=
  ⟨h.same, h.layout, h.ready, h.record, fun _ h' => Option.some.inj h' ▸ hr⟩

theorem withUtc_parts (n : NtpRetention) (source : Provenance) (rf : Option RfPrior)
    (utcSkewPpb : UInt32) (utcRate : Option Int32) :
    (n.withUtc source rf utcSkewPpb utcRate).rf = n.staged.rf ∧
      (n.withUtc source rf utcSkewPpb utcRate).gps = n.staged.gps := by
  unfold withUtc
  cases utcRate with
  | some rate => exact ⟨rfl, rfl⟩
  | none =>
    cases rf with
    | none => exact ⟨rfl, rfl⟩
    | some prior =>
      dsimp only
      split
      · exact ⟨rfl, rfl⟩
      · exact ⟨rfl, rfl⟩

theorem withUtc_valid {utcRate : Option Int32} {source : Provenance} {rf : Option RfPrior}
    {utcSkewPpb : UInt32} (h : Kept device topology n f)
    (hsome : (utcRate.isNone && rf.isNone) = false)
    (hutc : utcRefused source utcSkewPpb utcRate = false) (hrf : rf.all RfPrior.valid = true) :
    Cursor.utcValid (n.withUtc source rf utcSkewPpb utcRate) = true := by
  unfold withUtc
  cases utcRate with
  | some rate =>
    simp only [utcRefused, Bool.or_eq_false_iff, Bool.not_eq_false', decide_eq_false_iff_not,
      gt_iff_lt, UInt32.not_lt] at hutc
    exact utcValid_of n.staged hutc.1.1 hutc.1.2 hutc.2
  | none =>
    cases rf with
    | none => exact nomatch hsome
    | some prior =>
      have hprior := RfPrior.valid_parts hrf
      have hskew : prior.uncertaintyPpb ≤ utcMaxRateUncertaintyPpb :=
        UInt32.le_iff_toNat_le.mpr (Nat.le_trans hprior.2.2.1 (by decide))
      dsimp only
      split
      · exact utcValid_of n.staged hprior.2.1 hprior.2.2.2 hskew
      · rename_i hold
        rcases staged_sound h with hsound | ⟨hpending, hrecord, -⟩
        · exact hsound.utc
        · exact absurd (by rw [hpending, hrecord]; rfl) hold

theorem stage_kept (utcRate : Option Int32) (source : Provenance) (rf : Option RfPrior)
    (utcSkewPpb : UInt32) (h : Kept device topology n f) :
    Kept device topology (n.stage utcRate source rf utcSkewPpb).2 f := by
  unfold stage
  split
  · exact h
  · rename_i hadmitted
    simp only [Bool.or_eq_true, not_or, Bool.not_eq_true, Bool.not_eq_false'] at hadmitted
    obtain ⟨⟨⟨-, hsome⟩, hutc⟩, hrf⟩ := hadmitted
    refine h.stagedAs ?_
    have hvalid := withUtc_valid h hsome hutc hrf
    obtain ⟨hnextRf, hnextGps⟩ := withUtc_parts n source rf utcSkewPpb utcRate
    -- the optional parts of what is staged are those of the record before it, both valid
    have hparts : n.staged.rf.all RfPrior.valid = true ∧
        n.staged.gps.all GpsPrior.valid = true := by
      rcases staged_sound h with hsound | ⟨-, -, hdefault⟩
      · exact ⟨hsound.rf, hsound.gps⟩
      · rw [hdefault]
        exact ⟨rfl, rfl⟩
    split
    · exact ⟨hvalid, hrf, hnextGps ▸ hparts.2⟩
    · exact ⟨hvalid, hnextRf ▸ hparts.1, hnextGps ▸ hparts.2⟩

theorem seed_valid {g : GpsPrior} (h : g.valid = true) :
    (⟨g.boot, 0x475053, g.settingsFingerprint, g.generation, g.referenceUtcNs⟩ : Provenance).valid =
      true := by
  simp only [GpsPrior.valid, Provenance.valid, Bool.and_eq_true] at h ⊢
  obtain ⟨⟨⟨⟨hfingerprint, -⟩, hsource⟩, -⟩, -⟩ := h
  exact ⟨⟨⟨⟨hsource.1.1.1.1, hfingerprint⟩, hsource.1.1.2⟩, hsource.1.2⟩, hsource.2⟩

theorem stageGps_kept {gps : GpsPrior} (h : Kept device topology n f) :
    Kept device topology (n.stageGps gps).2 f := by
  unfold stageGps
  split
  · exact h
  · rename_i hadmitted
    simp only [Bool.or_eq_true, not_or, Bool.not_eq_true, Bool.not_eq_false'] at hadmitted
    dsimp only
    split
    · split
      · exact h
      · rename_i hrate
        rw [Bool.not_eq_true', Bool.not_eq_false] at hrate
        exact h.stagedAs
          ⟨utcValid_of n.staged hrate (seed_valid hadmitted.2) (by decide), rfl, hadmitted.2⟩
    · rename_i hold
      refine h.stagedAs ⟨?_, rfl, hadmitted.2⟩
      rcases staged_sound h with hsound | ⟨hpending, hrecord, -⟩
      · exact hsound.utc
      · exact absurd (by rw [hpending, hrecord]; rfl) hold

/-- A flush that succeeds: what was staged is the record, and a fresh load finds it as
far as its version carries it. -/
structure Flushed (device : List UInt8) (topology : UInt64) (n n' : NtpRetention) (f' : Nor)
    (staged : Record) : Prop where
  pending : n.pending = some staged
  record : n'.record = some staged ∧ n'.pending = none
  readable : f'.power ≠ some 0
  restored : ∀ power, power ≠ some 0 →
    ((new device topology).load { f' with power := power }).1 = true ∧
    ((new device topology).load { f' with power := power }).2.record = some staged.retained

theorem flush_spec {now : UInt64} (h : Kept device topology n f)
    (hrun : n.flush now f = (ok, n', f')) :
    Kept device topology n' f' ∧
      (ok = true → ∃ staged, Flushed device topology n n' f' staged) := by
  unfold flush at hrun
  split at hrun
  · rename_i next hhealthy hpending
    have hnext := h.pending next hpending
    obtain ⟨hnamed, hready, hcurrent⟩ := h.ready hhealthy
    have hunready : ∀ journal : Journal, journal.base = 0 ∧ journal.size = 256 → ∀ g : Nor,
        Kept device topology { n with journal := journal, healthy := false } g := fun _ hl _ =>
      ⟨h.same, hl, nofun, h.record, h.pending⟩
    split at hrun
    · obtain ⟨rfl, rfl, rfl⟩ := hrun
      exact ⟨⟨h.same, h.layout, h.ready, h.record, nofun⟩, nofun⟩
    split at hrun
    · obtain ⟨rfl, rfl, rfl⟩ := hrun
      exact ⟨h, nofun⟩
    dsimp only at hrun
    split at hrun
    · obtain ⟨rfl, rfl, rfl⟩ := hrun
      exact ⟨hunready n.journal h.layout f, nofun⟩
    rcases happend : n.journal.append (encode n.device n.topology next) f with ⟨_ | _, journal, g⟩
    · rw [happend] at hrun
      obtain ⟨rfl, rfl, rfl⟩ := hrun
      refine ⟨hunready journal ?_ _, nofun⟩
      rcases append_spec hcurrent.synced hready happend with ⟨-, -, rfl | ⟨rfl, -⟩⟩ |
        ⟨_, -, -, -, -, rfl⟩
      · exact h.layout
      · exact h.layout
      · exact h.layout
    · rw [happend] at hrun
      obtain ⟨rfl, rfl, rfl⟩ := hrun
      obtain ⟨hcurrent', ⟨hbase, hsize, hdata⟩, hreload⟩ := hcurrent.append hready happend
      obtain ⟨hpower, -⟩ := append_prefix hcurrent.synced happend
      have hagain : journal.healthy = true :=
        (load_sound (hreload n.journal f' rfl rfl rfl hpower)).healthy
      refine ⟨⟨h.same, ⟨hbase.trans h.layout.1, hsize.trans h.layout.2⟩,
        fun _ => ⟨hnamed, hagain, hcurrent'⟩,
        fun r hr => Option.some.inj hr ▸ hnext, nofun⟩, fun _ => ⟨next, hpending,
        ⟨rfl, rfl⟩, hpower, fun power hreadable => ?_⟩⟩
      have hload : (new device topology).journal.load true { f' with power := power } =
          (true, journal) := hreload _ _ h.layout.1.symm h.layout.2.symm rfl hreadable
      have hdevice := hex_length hnamed.1
      rw [h.same.1, h.same.2] at hdata
      have hfull : journal.data ≠ [] := by
        intro hempty
        have hlength : (encode device topology next).length = 192 := length_encode hdevice hnext
        rw [← hdata, hempty] at hlength
        exact absurd hlength (by decide)
      have hrestored : (new device topology).load { f' with power := power } =
          (true, { (new device topology) with
            journal := journal, record := some next.retained, healthy := true }) := by
        unfold load
        dsimp only
        rw [if_neg (by simp [new, hnamed]), hload]
        dsimp only
        rw [if_neg hfull, hdata]
        simp only [new]
        rw [decode_encode hdevice hnext]
      rw [hrestored]
      exact ⟨rfl, rfl⟩
  · obtain ⟨rfl, rfl, rfl⟩ := hrun
    exact ⟨h, nofun⟩

theorem save_kept {utcRate : Int32} {source : Provenance} {rf : Option RfPrior} {now : UInt64}
    {utcSkewPpb : UInt32} (h : Kept device topology n f) :
    Kept device topology (n.save utcRate source rf now utcSkewPpb f).2.1
      (n.save utcRate source rf now utcSkewPpb f).2.2 := by
  have hstage := stage_kept (some utcRate) source rf utcSkewPpb h
  unfold save
  rcases hrun : n.stage (some utcRate) source rf utcSkewPpb with ⟨_ | _, staged⟩
  · rw [hrun] at hstage
    exact hstage
  · rw [hrun] at hstage
    exact (flush_spec hstage rfl).1

theorem erase_kept (h : Kept device topology n f) :
    Kept device topology (n.erase f).2.1 (n.erase f).2.2 := by
  have hreset : ∀ g : Nor, Kept device topology
      { n with record := none, pending := none, savedAt := none, healthy := false } g := fun _ =>
    ⟨h.same, h.layout, nofun, nofun, nofun⟩
  unfold erase
  dsimp only
  split
  · exact hreset _
  · split
    · exact hreset _
    · split
      · exact load_kept (hreset _)
      · exact hreset _

theorem call_kept (h : Kept device topology n f) (c : Call) :
    Kept device topology (n.call f c).1 (n.call f c).2 := by
  cases c with
  | load => exact load_kept h
  | stage utcRate source rf utcSkewPpb => exact stage_kept utcRate source rf utcSkewPpb h
  | save utcRate source rf now utcSkewPpb => exact save_kept h
  | stageGps gps => exact stageGps_kept h
  | flush now => exact (flush_spec h rfl).1
  | erase => exact erase_kept h
  | restart power =>
    unfold call
    rw [h.same.1, h.same.2]
    exact new_kept device topology _

theorem run_kept (h : Kept device topology n f) (calls : List Call) :
    Kept device topology (n.run f calls).1 (n.run f calls).2 := by
  induction calls generalizing n f with
  | nil => exact h
  | cons c rest ih => exact ih (call_kept h c)

end Runs

/-! ## The round trip -/

/-- A fresh load of the flash returns the record. -/
def Restored (device : List UInt8) (topology : UInt64) (f : Nor) (r : Record) : Prop :=
  ((new device topology).load f).1 = true ∧ ((new device topology).load f).2.record = some r

/-- After a flush that succeeds, in a run of any calls on any flash, a load after the
next restart returns what was staged exactly if that is not a GPS and an RF prior both. -/
theorem flush_retained (device : List UInt8) (topology : UInt64) (f : Nor) (calls : List Call)
    (now : UInt64)
    (hok : (((new device topology).run f calls).1.flush now
      ((new device topology).run f calls).2).1 = true) :
    let before := ((new device topology).run f calls).1
    let after := (before.flush now ((new device topology).run f calls).2).2
    ∃ staged, before.pending = some staged ∧ after.1.record = some staged ∧
      after.2.power ≠ some 0 ∧ ∀ power, power ≠ some 0 →
        (Restored device topology { after.2 with power := power } staged ↔
          ¬ (staged.gps.isSome = true ∧ staged.rf.isSome = true)) := by
  intro before after
  have hkept := run_kept (new_kept device topology f) calls
  obtain ⟨staged, hflushed⟩ := (flush_spec hkept rfl).2 hok
  refine ⟨staged, hflushed.pending, hflushed.record.1, hflushed.readable, fun power hpower => ?_⟩
  obtain ⟨hloaded, hrecord⟩ := hflushed.restored power hpower
  rw [← Record.retained_eq_iff]
  constructor
  · intro hrestored
    exact Option.some.inj (hrecord.symm.trans hrestored.2)
  · intro hsame
    rw [hsame] at hrecord
    exact ⟨hloaded, hrecord⟩

/-! A device on erased flash that learns a UTC rate, and one that is given both priors. -/

def erasedFlash : Nor := ⟨fun _ => 255, none⟩

def sampleDevice : List UInt8 := List.replicate 32 97

def sampleSource : Provenance := ⟨List.replicate 32 98, 0x5a, 1, 1, 1800000000000000000⟩

def sampleGps : GpsPrior := ⟨7, 1800000000000000000, 1, List.replicate 32 98, ⟨2000, 500, 30⟩, none⟩

def sampleRf : RfPrior := ⟨-10000, 1000, 32, 2000000000000, sampleSource⟩

def utcCalls : List Call := [.load, .stage (some 1000) sampleSource none 2000000]

def bothCalls : List Call :=
  [.load, .stageGps sampleGps, .stage none sampleSource (some sampleRf) 0]

theorem utc_retained :
    ∃ staged, ((new sampleDevice 1).run erasedFlash utcCalls).1.pending = some staged ∧
      Restored sampleDevice 1
        { (((new sampleDevice 1).run erasedFlash utcCalls).1.flush 0
          ((new sampleDevice 1).run erasedFlash utcCalls).2).2.2 with power := none } staged := by
  obtain ⟨staged, hpending, -, -, hrestored⟩ :=
    flush_retained sampleDevice 1 erasedFlash utcCalls 0 (by decide +kernel)
  refine ⟨staged, hpending, (hrestored none (by decide)).mpr fun hboth => ?_⟩
  have hgps : (((new sampleDevice 1).run erasedFlash utcCalls).1.pending.bind (·.gps)) = none := by
    decide +kernel
  rw [hpending] at hgps
  have hnone : staged.gps = none := hgps
  rw [hnone] at hboth
  cases hboth.1

theorem both_lost :
    ¬ ∀ (device : List UInt8) (topology : UInt64) (f : Nor) (calls : List Call) (now : UInt64),
      (((new device topology).run f calls).1.flush now ((new device topology).run f calls).2).1 =
        true → ∃ staged, ((new device topology).run f calls).1.pending = some staged ∧
          Restored device topology
            (((new device topology).run f calls).1.flush now
              ((new device topology).run f calls).2).2.2 staged := by
  intro hall
  obtain ⟨staged, hpending, hloaded, hrecord⟩ :=
    hall sampleDevice 1 erasedFlash bothCalls 0 (by decide +kernel)
  have hrf : ((new sampleDevice 1).run erasedFlash bothCalls).1.pending.bind (·.rf) ≠
      ((new sampleDevice 1).load (((new sampleDevice 1).run erasedFlash bothCalls).1.flush 0
        ((new sampleDevice 1).run erasedFlash bothCalls).2).2.2).2.record.bind (·.rf) := by
    decide +kernel
  rw [hpending, hrecord] at hrf
  exact hrf rfl

end NtpRetention

end WsprryPico.Standalone
