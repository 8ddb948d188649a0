import WsprryPico.Microchrony.Engine

/-!
# The calls of the NTP engine

The public operations of `Engine`, one definition each, and the runs they make. The reads
`status`, `history` and `last_measurement` return what the state holds and change nothing.
-/

namespace WsprryPico.Microchrony

variable {K : Type} [Scalar K]

namespace Engine

/-- `Engine(config)`. -/
def construct (config : Config K) : Engine K :=
  { config := config, sources := fun _ => { status := { poll := config.minPoll } } }

/-! ## Frequency -/

def seed (e : Engine K) (frequencyPpb : Int) (skewPpb : Nat := 2000000) : Engine K :=
  if e.frequencyReferenceState ≠ .none then e
  else if |(frequencyPpb : K)| ≤ e.config.maxDriftPpm * 1000 ∧ skewPpb ≤ 1000000000 then
    let skew := max (2 / 1000) ((skewPpb : K) / billion)
    { e with frequency := (frequencyPpb : K) / billion, skew := skew, frequencySkew := skew }
  else e

/-- The clock was settled behind `now`. -/
def early (e : Engine K) (now : Nat) : Bool := e.clockValid && now < e.clockRawNs

def expireReference (e : Engine K) (now : Nat) : Engine K :=
  { e with frequencyReference :=
      { e.frequencyReference with
        validUntilRawNs := min e.frequencyReference.validUntilRawNs now } }

def clearFrequencyReference (e : Engine K) (now : Nat) : Engine K :=
  if e.frequencyReferenceState = .none ∨ e.early now then e
  else
    let e := (e.advance now).expireReference now
    let skew := if e.lastUpdateNs ≠ 0 then (e.networkFrequencyUncertaintyPpb : K) / billion else 0
    let e := clampSlew
      { e with
        frequencyReferenceState := .none
        frequency := if e.lastUpdateNs ≠ 0 then (e.networkFrequencyPpb : K) / billion else 0
        skew := skew
        frequencySkew := skew }
    { e with generation := e.generation + 1 }

def retireFrequencyReference (e : Engine K) (now : Nat) : Engine K :=
  if e.frequencyReferenceState = .none ∨ now < e.frequencyReference.sampledRawNs ∨ e.early now ∨
      e.frequencyReference.validUntilRawNs ≤ now then e
  else
    let e := (e.advance now).expireReference now
    { e with
      frequencySkew := max e.frequencySkew e.config.clockError
      generation := e.generation + 1 }

/-- An observation that is well formed, live and newer than the last one. -/
def admits (e : Engine K) (r : FrequencyReference) (now : Nat) : Bool :=
  e.config.valid && r.generation ≠ 0 && r.uncertaintyPpb ≠ 0 && r.uncertaintyPpb ≤ 1000000000 &&
    |(r.ratePpb : K)| ≤ e.config.maxDriftPpm * 1000 && r.sampledRawNs ≤ now &&
    now < r.validUntilRawNs && r.sampledRawNs < r.validUntilRawNs &&
    r.validUntilRawNs - r.sampledRawNs ≤ 300 * second &&
    (e.frequencyReference.generation = 0 || (e.frequencyReference.generation ≤ r.generation &&
      e.frequencyReference.sampledRawNs < r.sampledRawNs)) && !e.early now

def observeFrequencyReference (e : Engine K) (r : FrequencyReference) (now : Nat) :
    Bool × Engine K :=
  if !e.admits r now then (false, e)
  else
    let e := { e.advance now with frequencyReference := r, generation := e.generation + 1 }
    if e.lastUpdateNs ≠ 0 ∧ e.ratesApart r then
      (false, { e with frequencyReferenceState := .disagreement })
    else if e.lastUpdateNs ≠ 0 ∧ e.networkFrequencyUncertaintyPpb ≤ r.uncertaintyPpb then
      (true, { e with frequencyReferenceState := .quality })
    else (true, (e.takeReference r).clampSlew)

/-! ## The reference clock -/

/-- The endpoint of the reference clock, "GPS". -/
def referenceEndpoint : Nat := 0x475053

def clear (e : Engine K) (slot : Slot) : Engine K := e.modify slot fun _ => {}

def withUsed (e : Engine K) (slot : Slot) (generation : Nat) : Engine K :=
  { e with usedGeneration := Function.update e.usedGeneration slot generation }

def referenceClock (e : Engine K) (enabled : Bool) (now : Nat) : Bool × Engine K :=
  if !e.config.valid || e.early now then (false, e)
  else if e.referenceEnabled = enabled then (true, e)
  else
    let e := ({ e with referenceEnabled := enabled, referenceDisagreement := false }.clear
      referenceSlot).withUsed referenceSlot 0
    let e := e.modify referenceSlot fun s =>
      { s with status := { s.status with
        endpoint := if enabled then referenceEndpoint else 0
        online := enabled
        reason := .insufficientSamples } }
    (true, e.select now)

def poll (e : Engine K) (now : Nat) : Engine K :=
  if e.config.valid && !e.early now then e.select now else e

/-- An observation that is well formed, live and newer than the last one. -/
def admitsEpoch (e : Engine K) (o : ReferenceObservation) (now : Nat) : Bool :=
  e.config.valid && e.referenceEnabled && o.rawNs ≠ 0 && o.rawNs ≤ now &&
    now - o.rawNs ≤ 3 * second && e.referenceSequence < o.sequence &&
    e.config.eraStartUtcNs ≤ o.utcNs && o.utcNs < 4102444800 * second && o.uncertaintyNs ≠ 0 &&
    o.uncertaintyNs ≤ 200000000 && o.leap ≠ .unsynchronized && !e.early now &&
    !(e.sources referenceSlot).last.any fun last => o.rawNs ≤ last.rawNs || o.utcNs ≤ last.utcNs

def ReferenceObservation.measurement (o : ReferenceObservation) (config : Config K) :
    Measurement K where
  id := o.sequence
  sendRawNs := o.rawNs
  receiveRawNs := o.rawNs
  rawNs := o.rawNs
  utcNs := o.utcNs
  precision := config.precision
  rootDispersion := (o.uncertaintyNs : K) / billion
  leap := o.leap
  stratum := 0

/-- A network source a reference observation is compared with. -/
def comparable (e : Engine K) (now : Nat) (slot : Slot) : Bool :=
  let peer := e.sources slot
  slot ≠ referenceSlot && peer.status.online && peer.synchronized && peer.status.estimate.valid &&
    !(((e.config.maxDistance : K) : WithTop K) < peer.distance e.config now)

/-- The agreement of the reference with the network, when there is one to compare with. -/
def compareEpoch (e : Engine K) (now : Nat) : Engine K :=
  let reference := e.sources referenceSlot
  let peers := (List.finRange 5).filter (e.comparable now)
  if reference.status.estimate.valid ∧ peers ≠ [] then
    { e with referenceDisagreement :=
        peers.any fun i => (e.sources i).apart e.config now reference }
  else e

/-- The sample of a reference observation enters its history, a new one after a gap. -/
def appendEpoch (e : Engine K) (o : ReferenceObservation) : Engine K :=
  let gap := (e.sources referenceSlot).last.any fun last => 5 * second < o.rawNs - last.rawNs
  let e := { e with referenceSequence := o.sequence }
  let e :=
    if gap then
      (e.clear referenceSlot).modify referenceSlot fun s =>
        { s with status := { s.status with endpoint := referenceEndpoint, online := true } }
    else e
  let m := ReferenceObservation.measurement o e.config
  let e := e.modify referenceSlot fun s =>
    { s with
      last := some m
      status := { s.status with
        replies := (s.status.replies + 1) % 2 ^ 32
        lastReceiveNs := o.rawNs
        reach := (s.status.reach * 2 + 1) % 256 } }
  e.modify referenceSlot (Source.append e.config referenceSampleCapacity m o.rawNs)

def observeReference (e : Engine K) (o : ReferenceObservation) (now : Nat) : Bool × Engine K :=
  if !e.admitsEpoch o now then (false, e)
  else (true, ((e.appendEpoch o).compareEpoch now).select now true)

/-! ## The network sources -/

def burst (config : Config K) (s : Source K) : Source K :=
  { s with
    burstLeft := if config.initialBurst then 4 else 0
    burstAttempts := if config.initialBurst then 8 else 0 }

def removeSlot (e : Engine K) (slot : Slot) (now : Nat) : Engine K :=
  let e := (e.clear slot).withUsed slot 0
  let e := e.modify slot fun s => { s with status := { s.status with poll := e.config.minPoll } }
  { e with generation := e.generation + 1 }.select now

def remove (e : Engine K) (slot : Nat) (now : Nat) : Engine K :=
  match networkSlot slot with
  | none => e
  | some slot => e.removeSlot slot now

def configure (e : Engine K) (slot endpoint now : Nat) : Bool × Engine K :=
  match networkSlot slot with
  | none => (false, e)
  | some slot =>
    if !e.config.valid || endpoint = 0 then (false, e)
    else if (List.finRange 5).any fun i =>
        i ≠ referenceSlot && i ≠ slot && (e.sources i).status.endpoint = endpoint then (false, e)
    else if (e.sources slot).status.endpoint = endpoint then (true, e)
    else
      let e := e.removeSlot slot now
      (true, e.modify slot fun s => burst e.config
        { s with status := { s.status with
          endpoint := endpoint
          online := e.online
          reason := .insufficientSamples
          nextPollNs := now
          poll := e.config.minPoll } })

def cancel (e : Engine K) (slot : Nat) : Engine K :=
  match networkSlot slot with
  | none => e
  | some slot => e.modify slot fun s => { s with pending := false }

def reset (e : Engine K) (now : Nat) : Engine K :=
  { e with
    sources := fun i =>
      if i = referenceSlot then e.sources i
      else
        let endpoint := (e.sources i).status.endpoint
        burst e.config
          { status :=
              { endpoint := endpoint
                online := e.online && endpoint ≠ 0
                poll := e.config.minPoll
                nextPollNs := now } }
    selected := none
    combinedCount := 0
    leap := .unsynchronized
    usedGeneration := fun _ => 0
    generation := e.generation + 1 }.select now

def setOnline (e : Engine K) (enabled : Bool) (now : Nat) : Engine K :=
  if e.online = enabled then e
  else
    { e with
      online := enabled
      sources := fun i =>
        if i = referenceSlot then e.sources i
        else
          let s := e.sources i
          let s := { s with
            pending := false
            status := { s.status with
              online := enabled && s.status.endpoint ≠ 0 && !s.denied } }
          if enabled then burst e.config { s with status := { s.status with nextPollNs := now } }
          else s }.select now

/-! ## An exchange -/

def setPoll (now random : Nat) (s : Source K) : Source K :=
  let interval : K := if s.burstLeft ≠ 0 then 2 else 2 ^ s.status.poll
  let delay := roundedNs (interval + (random % 1000000 : Nat) / 1000000)
  { s with status := { s.status with
    nextPollNs := if now ≤ uint64Max - delay then now + delay else uint64Max } }

/-- The shift of the reach register at a request. -/
def shiftReach (s : Source K) : Source K :=
  let s := if s.pending ∧ s.status.reach = 0 then
    { s with status := { s.status with replace := 8 ≤ s.status.queries } } else s
  { s with status := { s.status with reach := s.status.reach * 2 % 256 } }

/-- The shift, and a selection without the source when it is no longer reached. -/
def shifted (e : Engine K) (slot : Slot) (now : Nat) : Engine K :=
  let e := e.modify slot shiftReach
  if (e.sources slot).status.reach = 0 then (e.modify slot (·.withReason .offline)).select now
  else e

/-- The source as a request leaves it. -/
def ask (now random : Nat) (s : Source K) : Source K :=
  let attempts := s.burstAttempts - 1
  let s := { s with
    sendNs := now
    token := if random ≠ 0 then random else 1
    pending := true
    burstLeft := if s.burstAttempts ≠ 0 ∧ attempts = 0 then 0 else s.burstLeft
    burstAttempts := attempts
    status := { s.status with queries := (s.status.queries + 1) % 2 ^ 32 } }
  setPoll now random s

def byte (n : Nat) : UInt8 := UInt8.ofNat (n % 256)

def requestPacket (config : Config K) (s : Source K) : List UInt8 :=
  [0x23, 0, byte s.status.poll, UInt8.ofNat ((Int.log 2 config.precision % 256).toNat)] ++
    List.replicate 36 (0 : UInt8) ++
    ([56, 48, 40, 32, 24, 16, 8, 0].map fun shift => byte (s.token >>> shift))

def request (e : Engine K) (slot now random : Nat) (force : Bool := false) :
    Option (List UInt8) × Engine K :=
  match networkSlot slot with
  | none => (none, e)
  | some slot =>
    let s := e.sources slot
    if !e.config.valid || !s.status.online || s.denied || (!force && now < s.status.nextPollNs) ||
        (s.status.queries ≠ 0 && now < s.sendNs) then (none, e)
    else
      let e := (e.shifted slot now).modify slot (ask now random)
      (some (requestPacket e.config (e.sources slot)), e)

/-- `n` bytes from `offset` on. -/
def field (packet : List UInt8) (offset n : Nat) : List UInt8 := (packet.drop offset).take n

def packetByte (packet : List UInt8) (i : Nat) : Nat := (packet.getD i 0).toNat

def answers (s : Source K) (packet : List UInt8) (now : Nat) : Bool :=
  packet.length = 48 && s.pending && s.sendNs ≤ now && packetByte packet 0 % 8 = 4 &&
    3 ≤ packetByte packet 0 / 8 % 8 && packetByte packet 0 / 8 % 8 ≤ 4 &&
    read (field packet 24 8) = s.token

def packetLeap (packet : List UInt8) : Leap :=
  match packetByte packet 0 / 64 with
  | 0 => .normal
  | 1 => .insert
  | 2 => .delete
  | _ => .unsynchronized

/-- A byte or a word in two's complement. -/
def signed (bits n : Nat) : Int := if n < 2 ^ (bits - 1) then n else (n : Int) - 2 ^ bits

/-- `reject`: the reason is noted, also of a measurement that had become a candidate. -/
def reject (e : Engine K) (slot : Slot) (reason : Rejection) (candidate : Bool := false) :
    Bool × Engine K :=
  (false, e.modify slot fun s =>
    { s with
      last := if candidate then s.last.map fun last => { last with rejection := reason } else s.last
      status := { s.status with
        rejected := (s.status.rejected + 1) % 2 ^ 32
        reason := reason } })

/-- The answer of a server that refuses. -/
def kiss (e : Engine K) (slot : Slot) (packet : List UInt8) (now : Nat) : Bool × Engine K :=
  if read (field packet 12 4) = 0x52415445 then
    (e.modify slot fun s => setPoll now s.token
      { s with
        burstLeft := 0
        status := { s.status with poll := min e.config.maxPoll (s.status.poll + 1) } }).reject
      slot .kissRate
  else
    ((e.modify slot fun s =>
      { s with
        denied := true
        synchronized := false
        status := { s.status with online := false, replace := true } }).select now).reject
      slot .kissDenied

/-- The times of a reply, from the origin of the era. -/
structure Times where
  receiveUtc : Nat
  sendUtc : Nat
  referenceUtc : Nat

def times (config : Config K) (packet : List UInt8) : Times where
  receiveUtc := timestamp (field packet 32 8) config.eraStartUtcNs
  sendUtc := timestamp (field packet 40 8) config.eraStartUtcNs
  referenceUtc := timestamp (field packet 16 8) config.eraStartUtcNs

/-- A reply no server sends. -/
def malformed (s : Source K) (packet : List UInt8) (t : Times) (now : Nat) : Bool :=
  let precision := signed 8 (packetByte packet 3)
  read (field packet 32 8) = 0 || read (field packet 40 8) = 0 || t.sendUtc < t.receiveUtc ||
    t.sendUtc < t.referenceUtc || precision < -40 || 0 < precision ||
    difference now s.sendNs * (11 / 10) < (difference t.sendUtc t.receiveUtc : K)

def measurement (e : Engine K) (s : Source K) (packet : List UInt8) (t : Times) (now : Nat) :
    Measurement K :=
  let elapsed : K := difference now s.sendNs
  let wireDelay := read (field packet 4 4)
  let wireDispersion := read (field packet 8 4)
  let upstreamDelay : K := (signed 32 wireDelay : K) / 65536
  let precisionLog := signed 8 (packetByte packet 3)
  let delay := max e.config.precision
    (elapsed * (1 + e.frequency) - difference t.sendUtc t.receiveUtc)
  let samplePrecision := max e.config.precision ((2 : K) ^ precisionLog)
  { id := s.sequence + 1
    sendRawNs := s.sendNs
    receiveRawNs := now
    rawNs := s.sendNs + (now - s.sendNs) / 2
    utcNs := t.receiveUtc + (t.sendUtc - t.receiveUtc) / 2
    serverReferenceNs := t.referenceUtc
    serverReceiveNs := t.receiveUtc
    serverSendNs := t.sendUtc
    delay := delay
    rootDelay := max 0 upstreamDelay + delay
    precision := samplePrecision
    rootDispersion := (wireDispersion : K) / 65536 + samplePrecision + elapsed * e.config.clockError
    rootDelayWire := wireDelay
    rootDispersionWire := wireDispersion
    stratum := packetByte packet 1
    leap := packetLeap packet
    precisionLog := precisionLog }

/-- A delay beyond the model of the source, which explains the phase. -/
def deviates (config : Config K) (s : Source K) (m : Measurement K) : Bool :=
  let estimate := s.status.estimate
  let queuePhase := (m.delay - s.minDelay) / 2
  let noise := max (1 / 1000000000) estimate.admissionJitter
  let expected : K := difference (s.utc m.rawNs) m.utcNs
  let age := max 0 (difference m.rawNs estimate.rawNs)
  let allowance := config.maxDelayDeviationRatio * noise +
    age * (estimate.admissionSkew + config.clockError)
  6 ≤ estimate.samples && 0 < config.maxDelayDeviationRatio && allowance < queuePhase &&
    |expected| ≤ queuePhase + allowance

/-- Why a candidate is refused. -/
def objection (config : Config K) (s : Source K) (m : Measurement K) : Option Rejection :=
  if config.maxDelay < m.delay then some .delay
  else if s.samples.getLast?.any fun last => m.rawNs ≤ last.rawNs then some .packet
  else if config.maxDistance < m.rootDelay / 2 + m.rootDispersion then some .distance
  else if deviates config s m then some .delayDeviation
  else none

/-- The polling interval after an accepted measurement. -/
def adaptPoll (config : Config K) (s : Source K) : Source K :=
  let s := { s with burstLeft := s.burstLeft - 1 }
  if s.burstLeft ≠ 0 then s
  else if config.pollTarget < s.status.estimate.samples then
    if config.pollTarget ≤ s.pollScore + 1 then
      { s with
        pollScore := 0
        status := { s.status with poll := min config.maxPoll (s.status.poll + 1) } }
    else { s with pollScore := s.pollScore + 1 }
  else if s.status.estimate.samples < config.pollTarget ∧ config.minPoll < s.status.poll then
    { s with pollScore := 0, status := { s.status with poll := s.status.poll - 1 } }
  else s

/-- The measurement becomes the candidate of its source. -/
def nominate (m : Measurement K) (now : Nat) (s : Source K) : Source K :=
  { s with
    sequence := s.sequence + 1
    last := some m
    status := { s.status with
      replies := (s.status.replies + 1) % 2 ^ 32
      lastReceiveNs := now
      reach := s.status.reach / 2 * 2 + 1 } }

/-- The candidate enters the history of its source. -/
def accept (e : Engine K) (slot : Slot) (m : Measurement K) (now : Nat) : Engine K :=
  let e := e.modify slot (Source.append e.config (capacity slot) m now)
  let e := e.modify slot fun s => setPoll now s.token (adaptPoll e.config s)
  e.select now true

/-- A reply of a server that gives the time. -/
def measure (e : Engine K) (slot : Slot) (packet : List UInt8) (now : Nat) : Bool × Engine K :=
  let s := e.sources slot
  let t := times e.config packet
  if s.last.any fun last => t.sendUtc = last.serverSendNs then e.reject slot .correlation
  else if malformed s packet t now then e.reject slot .packet
  else
    let m := measurement e s packet t now
    let e := e.modify slot (nominate m now)
    match objection e.config (e.sources slot) m with
    | some reason => e.reject slot reason true
    | none => (true, e.accept slot m now)

/-- The answer of a server without a time of its own. -/
def unsynchronized (e : Engine K) (slot : Slot) (now : Nat) : Bool × Engine K :=
  ((e.modify slot fun s =>
    { s with
      synchronized := false
      status := { s.status with selectable := false, replace := true } }).select now).reject
    slot .serverUnsynchronized

def answered (e : Engine K) (slot : Slot) (packet : List UInt8) (now : Nat) : Bool × Engine K :=
  let e := e.modify slot fun s => { s with pending := false }
  if packetByte packet 1 = 0 then e.kiss slot packet now
  else if packetLeap packet = .unsynchronized ∨ 15 < packetByte packet 1 then
    e.unsynchronized slot now
  else e.measure slot packet now

def receive (e : Engine K) (slot : Nat) (packet : List UInt8) (now : Nat) : Bool × Engine K :=
  match networkSlot slot with
  | none => (false, e)
  | some slot =>
    if !e.config.valid then (false, e)
    else if !answers (e.sources slot) packet now then e.reject slot .correlation
    else e.answered slot packet now

/-! ## Tracking -/

/-- The skew shown, which a lost frequency reference does not shrink. -/
def shownSkew (e : Engine K) (now : Nat) : K :=
  if e.frequencyReferenceStateAt now = .expired then max e.skew e.config.clockError else e.skew

def ppb (x : K) : Int := ⌈min 1 x * billion⌉

/-- The clock at `now`, once it is valid. -/
def track (e : Engine K) (now : Nat) (result : Tracking K) : Tracking K :=
  let elapsed := difference now e.clockRawNs
  let phase := e.slewed elapsed
  let remaining := e.pendingPhase - phase
  let rate := e.frequency + if 1 / 1000000000 ≤ |remaining| then e.slew else 0
  let rootDispersion := e.rootDispersion + difference now e.dispersionRawNs * e.errorRate
  let rootDistance := e.rootDelay / 2 + rootDispersion
  { result with
    utcNs := addTime e.clockUtcNs (elapsed * (1 + e.frequency) + phase)
    remainingCorrectionNs := llround (remaining * billion)
    ratePpb := llround (max (-1 / 10) (min rate (1 / 10)) * billion)
    utcFrequencyPpb := llround (e.frequency * billion)
    skewPpb := ppb (e.shownSkew now)
    rateErrorBoundPpb := ppb e.errorRate
    rootDelay := e.rootDelay
    rootDispersion := rootDispersion
    synchronized := e.selected.isSome && !e.referenceDisagreement &&
      (e.selected ≠ some referenceSlot ||
        (e.lastSourceRawNs ≤ now && now - e.lastSourceRawNs ≤ 5 * second)) &&
      e.leap ≠ .unsynchronized && rootDistance ≤ e.config.maxDistance
    uncertaintyNs := roundedNs (|remaining| + rootDistance) }

def tracking (e : Engine K) (now : Nat) : Tracking K :=
  let result : Tracking K :=
    { rawNs := now
      generation := e.generation
      selected := match e.selected with
        | some slot => if slot = referenceSlot then sourceCapacity else slot
        | none => sourceCapacity
      referenceClock := e.selected = some referenceSlot
      referenceDisagreement := e.referenceDisagreement
      combinedSources := e.combinedCount
      sourceRawNs := e.lastSourceRawNs
      leap := e.leap }
  if ¬ e.clockValid ∨ now < e.clockRawNs then result else e.track now result

end Engine

/-! ## Runs -/

inductive Call where
  | configure (slot endpoint now : Nat)
  | remove (slot now : Nat)
  | cancel (slot : Nat)
  | reset (now : Nat)
  | online (enabled : Bool) (now : Nat)
  | seed (frequencyPpb : Int) (skewPpb : Nat)
  | observeFrequencyReference (reference : FrequencyReference) (now : Nat)
  | clearFrequencyReference (now : Nat)
  | retireFrequencyReference (now : Nat)
  | referenceClock (enabled : Bool) (now : Nat)
  | observeReference (observation : ReferenceObservation) (now : Nat)
  | poll (now : Nat)
  | request (slot now random : Nat) (force : Bool)
  | receive (slot : Nat) (packet : List UInt8) (now : Nat)

namespace Call

/-- The answer of a call, true when it has none, and the engine after it. -/
def perform (call : Call) (e : Engine K) : Bool × Engine K :=
  match call with
  | .configure slot endpoint now => e.configure slot endpoint now
  | .remove slot now => (true, e.remove slot now)
  | .cancel slot => (true, e.cancel slot)
  | .reset now => (true, e.reset now)
  | .online enabled now => (true, e.setOnline enabled now)
  | .seed frequencyPpb skewPpb => (true, e.seed frequencyPpb skewPpb)
  | .observeFrequencyReference reference now => e.observeFrequencyReference reference now
  | .clearFrequencyReference now => (true, e.clearFrequencyReference now)
  | .retireFrequencyReference now => (true, e.retireFrequencyReference now)
  | .referenceClock enabled now => e.referenceClock enabled now
  | .observeReference observation now => e.observeReference observation now
  | .poll now => (true, e.poll now)
  | .request slot now random force =>
    let (packet, e) := e.request slot now random force
    (packet.isSome, e)
  | .receive slot packet now => e.receive slot packet now

def exec (call : Call) (e : Engine K) : Engine K := (call.perform e).2

end Call

def run (calls : List Call) (e : Engine K) : Engine K := calls.foldl (fun e call => call.exec e) e

end WsprryPico.Microchrony
