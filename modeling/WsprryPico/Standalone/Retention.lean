import WsprryPico.Standalone.Journal

/-!
# The learning cache

`NtpRetention` of `standalone/ntp_retention.hpp`: what was learned of the UTC rate
and of the GPS calibration, kept in a journal of its own that a torn write never
makes unreadable. A record has 192 bytes in one of three versions; `Cursor` reads
them one field after the other as `load` does.
-/

namespace WsprryPico.Standalone

open Lib

namespace NtpRetention

/-! ## Records -/

structure Provenance where
  boot : List UInt8
  endpoint : UInt32 := 0
  epoch : UInt64 := 0
  generation : UInt64 := 0
  referenceUtcNs : UInt64 := 0
  deriving DecidableEq

structure RfPrior where
  utcRatePpb : Int32 := 0
  uncertaintyPpb : UInt32 := 0
  samples : UInt32 := 0
  spanNs : UInt64 := 0
  source : Provenance
  deriving DecidableEq

structure Rate where
  errorPpb : Int32 := 0
  uncertaintyPpb : UInt32 := 0
  spanS : UInt32 := 0
  deriving DecidableEq

structure GpsPrior where
  settingsFingerprint : UInt64
  referenceUtcNs : UInt64
  generation : UInt64
  boot : List UInt8
  timer : Rate
  synthesizer : Option Rate

structure Record where
  utcRatePpb : Int32 := 0
  utcSource : Provenance := ⟨[], 0, 0, 0, 0⟩
  rf : Option RfPrior := none
  utcSkewPpb : UInt32 := 2000000
  gps : Option GpsPrior := none

/-! ## What is valid -/

def hex (s : List UInt8) : Bool :=
  s.length = 32 && s.all fun c => (48 ≤ c && c ≤ 57) || (97 ≤ c && c ≤ 102)

/-- The absolute value of a rate is at most `bound`. -/
def within (bound : Nat) (rate : Int32) : Bool := rate.toInt.natAbs ≤ bound

def Provenance.valid (p : Provenance) : Bool :=
  hex p.boot && p.endpoint ≠ 0 && p.epoch ≠ 0 && p.generation ≠ 0 &&
  p.referenceUtcNs ≥ 1735689600000000000 && p.referenceUtcNs < 4102444800000000000

/-- `time::oscillator_correction`. -/
def oscillatorCorrection (qualified : Bool) (utcRatePpb : Int32) : Option Int32 :=
  if !qualified || !within 100000 utcRatePpb then none
  else
    let denominator := 1000000000 + utcRatePpb.toInt
    let numerator := -utcRatePpb.toInt * 1000000000
    let rounded := (numerator +
      (if numerator < 0 then (-denominator).tdiv 2 else denominator.tdiv 2)).tdiv denominator
    if rounded < -100000 ∨ rounded > 100000 then none else some (Int32.ofInt rounded)

/-- Half of the divisor, added towards the sign, rounds a division to the nearest. -/
theorem tdiv_half {d : Int} (hd : 0 < d) (n : Int) :
    let q := (n + if n < 0 then (-d).tdiv 2 else d.tdiv 2).tdiv d
    2 * (q * d - n) ≤ d ∧ -d ≤ 2 * (q * d - n) := by
  have hhalf : d.tdiv 2 = d / 2 := Int.tdiv_eq_ediv_of_nonneg (by omega)
  dsimp only
  generalize hm : n + (if n < 0 then (-d).tdiv 2 else d.tdiv 2) = m
  rw [Int.neg_tdiv, hhalf] at hm
  have hsum := Int.tdiv_mul_add_tmod m d
  have hpos := Int.tmod_nonneg (a := m) d
  have hneg := Int.tmod_nonneg (a := -m) d
  have hlow := Int.lt_tmod_of_pos m hd
  have hhigh := Int.tmod_lt_of_pos m hd
  rw [Int.neg_tmod] at hneg
  split at hm <;> omega

/-- The rates from -99990 to 100000 ppb have a correction, the nearest to the nominal rate. -/
theorem oscillatorCorrection_nearest (qualified : Bool) (rate : Int32) :
    (oscillatorCorrection qualified rate = none ↔
      qualified = false ∨ rate.toInt < -99990 ∨ 100000 < rate.toInt) ∧
    ∀ c, oscillatorCorrection qualified rate = some c →
      (2 * ((1000000000 + c.toInt) * (1000000000 + rate.toInt) - 1000000000000000000)).natAbs ≤
        1000000000 + rate.toInt := by
  unfold oscillatorCorrection within
  generalize rate.toInt = r
  split
  · rename_i hout
    simp only [Bool.or_eq_true, Bool.not_eq_true', decide_eq_false_iff_not, Nat.not_le] at hout
    exact ⟨⟨fun _ => hout.imp_right (by omega), fun _ => rfl⟩, nofun⟩
  · rename_i hin
    simp only [Bool.or_eq_true, Bool.not_eq_true', decide_eq_false_iff_not, not_or] at hin
    have hnear := tdiv_half (d := 1000000000 + r) (by omega) (-r * 1000000000)
    have hle (x y : Int) (h : x ≤ y) :=
      Int.mul_le_mul_of_nonneg_right h (by omega : 0 ≤ 1000000000 + r)
    dsimp only at hnear ⊢
    generalize Int.tdiv _ (1000000000 + r) = q at hnear ⊢
    have hlow := hle q (-100001)
    have hhigh := hle 100001 q
    have hedge := hle q 100000
    split
    · exact ⟨by simp [hin]; omega, nofun⟩
    · refine ⟨by simp [hin]; omega, fun c hc => ?_⟩
      rw [← Option.some.inj hc, Int32.toInt_ofInt_of_le (by omega) (by omega), Int.add_mul]
      omega

/-- `microchrony::sample_capacity`. -/
def sampleCapacity : UInt32 := 64

def RfPrior.valid (r : RfPrior) : Bool :=
  (oscillatorCorrection true r.utcRatePpb).isSome && within 100000 r.utcRatePpb &&
  r.uncertaintyPpb ≤ 5000 && r.samples ≥ 3 && r.samples ≤ sampleCapacity && r.spanNs > 0 &&
  r.spanNs ≤ 604800000000000 && r.source.valid

def Rate.valid (r : Rate) : Bool :=
  within 100000 r.errorPpb && r.uncertaintyPpb ≠ 0 && r.uncertaintyPpb ≤ 100001 &&
  r.spanS ≥ 10 && r.spanS ≤ 60

def GpsPrior.valid (g : GpsPrior) : Bool :=
  g.settingsFingerprint ≠ 0 && g.generation ≠ 0 &&
  (Provenance.mk g.boot 0x475053 1 g.generation g.referenceUtcNs).valid &&
  g.timer.valid && g.synthesizer.all Rate.valid

/-- `time::utc_max_rate_uncertainty_ppb`. -/
def utcMaxRateUncertaintyPpb : UInt32 := 200000000

/-! ## Bytes of a record -/

def magic : Nat := 0x50544e57

def signedRate (value : Nat) : Int32 :=
  if value ≤ 2147483647 then Int32.ofNat value else Int32.ofInt ((value : Int) - 0x100000000)

/-- The rest of a record; a refusal of `load` is `none`. -/
abbrev Cursor := StateT (List UInt8) Option

namespace Cursor

def get (width : Nat) : Cursor Nat := fun data =>
  some (Standalone.get (data.take width), data.drop width)

def bytes (count : Nat) : Cursor (List UInt8) := fun data => some (data.take count, data.drop count)

def require (condition : Bool) : Cursor Unit := fun data =>
  if condition then some ((), data) else none

def provenance : Cursor Provenance := do
  let boot ← bytes 32
  let endpoint ← get 4
  let epoch ← get 8
  let generation ← get 8
  let referenceUtcNs ← get 8
  return ⟨boot, .ofNat endpoint, .ofNat epoch, .ofNat generation, .ofNat referenceUtcNs⟩

def rate : Cursor Rate := do
  let errorPpb ← get 4
  let uncertaintyPpb ← get 4
  let spanS ← get 1
  return ⟨signedRate errorPpb, .ofNat uncertaintyPpb, .ofNat spanS⟩

/-- The version, of a record that names this device and topology. -/
def header (device : List UInt8) (topology : UInt64) : Cursor Nat := do
  let first ← get 4
  require (first = magic)
  let version ← get 2
  let named ← bytes 32
  require ((version = 1 || version = 2 || version = 3) && named = device)
  let wired ← get 8
  require (wired = topology.toNat)
  if version = 1 then
    let utc ← get 1
    require (utc = 1)
  return version

def utc (version : Nat) : Cursor Record := do
  let utcRate ← get 4
  let skew ← if version ≥ 2 then get 4 else pure 2000000
  let source ← provenance
  return { utcRatePpb := signedRate utcRate, utcSkewPpb := .ofNat skew, utcSource := source }

/-- The UTC part of a record that `load` accepts. -/
def utcValid (next : Record) : Bool :=
  next.utcSource.valid && within 100000 next.utcRatePpb &&
  next.utcSkewPpb ≤ utcMaxRateUncertaintyPpb

def gps (next : Record) : Cursor Record := do
  let flags ← get 1
  let settingsFingerprint ← get 8
  let boot ← bytes 32
  let referenceUtcNs ← get 8
  let generation ← get 8
  let timer ← rate
  let synthesizer ← rate
  let prior : GpsPrior :=
    ⟨.ofNat settingsFingerprint, .ofNat referenceUtcNs, .ofNat generation, boot, timer,
      if flags = 3 then some synthesizer else none⟩
  let padding ← get 3
  require ((flags = 1 || flags = 3) && padding = 0 && prior.valid &&
    !(flags = 1 && synthesizer ≠ ⟨0, 0, 0⟩) && utcValid next)
  return { next with gps := some prior }

def rf (version : Nat) (next : Record) : Cursor Record := do
  let hasRf ← get 1
  let utcRate ← get 4
  let uncertaintyPpb ← get 4
  let samples ← get (if version = 1 then 4 else 1)
  let spanNs ← get 8
  let source ← provenance
  let prior : RfPrior :=
    ⟨signedRate utcRate, .ofNat uncertaintyPpb, .ofNat samples, .ofNat spanNs, source⟩
  require (!(hasRf > 1) && utcValid next && (hasRf = 0 || prior.valid))
  return if hasRf ≠ 0 then { next with rf := some prior } else next

def record (device : List UInt8) (topology : UInt64) : Cursor Record := do
  let version ← header device topology
  let next ← utc version
  if version = 3 then gps next else rf version next

end Cursor

/-- What `load` makes of the data of the journal. -/
def decode (device : List UInt8) (topology : UInt64) (data : List UInt8) : Option Record :=
  if data.length ≠ 192 then none else (Cursor.record device topology data).map (·.1)

def Provenance.bytes (p : Provenance) : List UInt8 :=
  p.boot ++ put 4 p.endpoint.toNat ++ put 8 p.epoch.toNat ++ put 8 p.generation.toNat ++
  put 8 p.referenceUtcNs.toNat

def Rate.bytes (r : Rate) : List UInt8 :=
  put 4 r.errorPpb.toUInt32.toNat ++ put 4 r.uncertaintyPpb.toNat ++ put 1 r.spanS.toNat

def GpsPrior.bytes (g : GpsPrior) : List UInt8 :=
  put 1 (if g.synthesizer.isSome then 3 else 1) ++ put 8 g.settingsFingerprint.toNat ++ g.boot ++
  put 8 g.referenceUtcNs.toNat ++ put 8 g.generation.toNat ++ g.timer.bytes ++
  (g.synthesizer.getD ⟨0, 0, 0⟩).bytes ++ put 3 0

/-- What is written where a record has no RF prior. -/
def noPrior : RfPrior := ⟨0, 0, 0, 0, ⟨List.replicate 32 48, 0, 0, 0, 0⟩⟩

def rfBytes (rf : Option RfPrior) : List UInt8 :=
  let prior := rf.getD noPrior
  put 1 rf.isSome.toNat ++ put 4 prior.utcRatePpb.toUInt32.toNat ++
  put 4 prior.uncertaintyPpb.toNat ++ put 1 prior.samples.toNat ++ put 8 prior.spanNs.toNat ++
  prior.source.bytes

/-- The part of a record that is the GPS prior or the RF prior. -/
def Record.priorBytes (r : Record) : List UInt8 :=
  match r.gps with
  | some gps => gps.bytes
  | none => rfBytes r.rf

/-- The data that `flush` appends. -/
def encode (device : List UInt8) (topology : UInt64) (r : Record) : List UInt8 :=
  put 4 magic ++ put 2 (if r.gps.isSome then 3 else 2) ++ device ++ put 8 topology.toNat ++
  put 4 r.utcRatePpb.toUInt32.toNat ++ put 4 r.utcSkewPpb.toNat ++ r.utcSource.bytes ++ r.priorBytes

end NtpRetention

/-! ## Operations -/

open NtpRetention in
structure NtpRetention where
  journal : Journal
  device : List UInt8
  topology : UInt64
  record : Option Record := none
  pending : Option Record := none
  savedAt : Option UInt64 := none
  healthy : Bool := false

namespace NtpRetention

/-- The constructor. -/
def new (device : List UInt8) (topology : UInt64) : NtpRetention :=
  { journal := { base := 0, size := 256 }, device := device, topology := topology }

def load (n : NtpRetention) (f : Nor) : Bool × NtpRetention :=
  let n := { n with record := none, pending := none, healthy := false }
  if !hex n.device || n.topology = 0 then (false, n)
  else
    match n.journal.load true f with
    | (false, journal) => (false, { n with journal := journal })
    | (true, journal) =>
      let n := { n with journal := journal }
      if journal.data = [] then (true, { n with healthy := true })
      else
        match decode n.device n.topology journal.data with
        | none => (false, n)
        | some next => (true, { n with record := some next, healthy := true })

/-- The record that the next stage starts from. -/
def staged (n : NtpRetention) : Record := n.pending.getD (n.record.getD {})

/-- A UTC rate given to `stage` that it does not take. -/
def utcRefused (source : Provenance) (utcSkewPpb : UInt32) : Option Int32 → Bool
  | some rate => !within 100000 rate || !source.valid || utcSkewPpb > utcMaxRateUncertaintyPpb
  | none => false

/-- The UTC part of the next record: the rate given, or one seeded by the first RF prior. -/
def withUtc (n : NtpRetention) (source : Provenance) (rf : Option RfPrior) (utcSkewPpb : UInt32) :
    Option Int32 → Record
  | some rate =>
    { n.staged with utcRatePpb := rate, utcSkewPpb := utcSkewPpb, utcSource := source }
  | none =>
    match rf with
    | some rf =>
      if n.pending.isNone && n.record.isNone then
        { n.staged with
          utcRatePpb := rf.utcRatePpb, utcSkewPpb := rf.uncertaintyPpb, utcSource := rf.source }
      else n.staged
    | none => n.staged

def stage (n : NtpRetention) (utcRate : Option Int32) (source : Provenance) (rf : Option RfPrior)
    (utcSkewPpb : UInt32) : Bool × NtpRetention :=
  if !n.healthy || (utcRate.isNone && rf.isNone) || utcRefused source utcSkewPpb utcRate ||
      !rf.all RfPrior.valid then (false, n)
  else
    let next := n.withUtc source rf utcSkewPpb utcRate
    (true, { n with pending := some (if rf.isSome then { next with rf := rf } else next) })

/-- The UTC rate seeded from that of a GPS timer. -/
def reciprocalRate (errorPpb : Int32) : Int32 :=
  Int32.ofInt ((-errorPpb.toInt * 1000000000).tdiv (1000000000 + errorPpb.toInt))

def stageGps (n : NtpRetention) (gps : GpsPrior) : Bool × NtpRetention :=
  if !n.healthy || !gps.valid then (false, n)
  else
    let next := n.staged
    if n.pending.isNone && n.record.isNone then
      let utcRate := reciprocalRate gps.timer.errorPpb
      if !within 100000 utcRate then (false, n)
      else
        let next := { next with
          utcRatePpb := utcRate
          utcSource :=
            ⟨gps.boot, 0x475053, gps.settingsFingerprint, gps.generation, gps.referenceUtcNs⟩
          utcSkewPpb := 2000000 }
        (true, { n with pending := some { next with gps := some gps, rf := none } })
    else (true, { n with pending := some { next with gps := some gps, rf := none } })

/-- Two rates differ by 0.1 ppm at least. -/
def moved (a b : Int32) : Bool := (a.toInt - b.toInt).natAbs ≥ 100

def gpsChanged (gps saved : GpsPrior) : Bool :=
  gps.settingsFingerprint ≠ saved.settingsFingerprint ||
  moved gps.timer.errorPpb saved.timer.errorPpb ||
  gps.timer.uncertaintyPpb < saved.timer.uncertaintyPpb / 2 ||
  gps.synthesizer.isSome ≠ saved.synthesizer.isSome ||
  match gps.synthesizer, saved.synthesizer with
  | some a, some b => moved a.errorPpb b.errorPpb || a.uncertaintyPpb < b.uncertaintyPpb / 2
  | _, _ => false

/-- Whether `flush` writes the record. -/
def changed (next : Record) : Option Record → Bool
  | none => true
  | some saved =>
    (match next.gps, saved.gps with
      | some gps, some old => gpsChanged gps old
      | some _, none => true
      | none, _ => false) ||
    moved next.utcRatePpb saved.utcRatePpb || next.utcSkewPpb < saved.utcSkewPpb / 2 ||
    match next.rf, saved.rf with
    | some rf, some old => moved rf.utcRatePpb old.utcRatePpb
    | some _, none => true
    | none, _ => false

/-- Less than five minutes since the last write, or the clock went back. -/
def cooling (now : UInt64) : Option UInt64 → Bool
  | some savedAt => now < savedAt || now - savedAt < 300000000000
  | none => false

def flush (n : NtpRetention) (now : UInt64) (f : Nor) : Bool × NtpRetention × Nor :=
  match n.healthy, n.pending with
  | true, some next =>
    if !changed next n.record then (false, { n with pending := none }, f)
    else if cooling now n.savedAt then (false, n, f)
    else
      let data := encode n.device n.topology next
      if data.length ≠ 192 then (false, { n with healthy := false }, f)
      else
        match n.journal.append data f with
        | (false, journal, f) => (false, { n with journal := journal, healthy := false }, f)
        | (true, journal, f) =>
          (true, { n with
            journal := journal, record := some next, pending := none, savedAt := some now }, f)
  | _, _ => (false, n, f)

def save (n : NtpRetention) (utcRate : Int32) (source : Provenance) (rf : Option RfPrior)
    (now : UInt64) (utcSkewPpb : UInt32) (f : Nor) : Bool × NtpRetention × Nor :=
  match n.stage (some utcRate) source rf utcSkewPpb with
  | (false, n) => (false, n, f)
  | (true, n) => n.flush now f

def erased (f : Nor) : Bool := Journal.blankPages f 0 && Journal.blankPages f sectorSize

def erase (n : NtpRetention) (f : Nor) : Bool × NtpRetention × Nor :=
  let n := { n with record := none, pending := none, savedAt := none, healthy := false }
  match f.erase 0 sectorSize with
  | (false, f) => (false, n, f)
  | (true, f) =>
    match f.erase sectorSize sectorSize with
    | (false, f) => (false, n, f)
    | (true, f) => if erased f then ((n.load f).1, (n.load f).2, f) else (false, n, f)

/-! ## Runs -/

/-- A call, or a restart of the device with power for so many more bytes. -/
inductive Call where
  | load
  | stage (utcRate : Option Int32) (source : Provenance) (rf : Option RfPrior) (utcSkewPpb : UInt32)
  | save (utcRate : Int32) (source : Provenance) (rf : Option RfPrior) (now : UInt64)
    (utcSkewPpb : UInt32)
  | stageGps (gps : GpsPrior)
  | flush (now : UInt64)
  | erase
  | restart (power : Option Nat)

def call (n : NtpRetention) (f : Nor) : Call → NtpRetention × Nor
  | .load => ((n.load f).2, f)
  | .stage utcRate source rf utcSkewPpb => ((n.stage utcRate source rf utcSkewPpb).2, f)
  | .save utcRate source rf now utcSkewPpb => (n.save utcRate source rf now utcSkewPpb f).2
  | .stageGps gps => ((n.stageGps gps).2, f)
  | .flush now => (n.flush now f).2
  | .erase => (n.erase f).2
  | .restart power => (new n.device n.topology, { f with power := power })

def run (n : NtpRetention) (f : Nor) : List Call → NtpRetention × Nor
  | [] => (n, f)
  | c :: rest => run (n.call f c).1 (n.call f c).2 rest

end NtpRetention

end WsprryPico.Standalone
