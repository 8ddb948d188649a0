import WsprryPico.Microchrony.Frames

/-!
# The passes of a call

A call makes one pass over the sources or none. Its result is that of the pass, up to what the
exchange with a server notes of it, and only a pass moves the selection.
-/

namespace WsprryPico.Microchrony

open Engine

variable {K : Type} [Scalar K]
  {e e' : Engine K} {now : Nat} {slot i : Slot} {config : Config K} {s : Source K}
  {m : Measurement K}

/-! ## Where a call selects -/

namespace Engine

def withdrawn (e : Engine K) (slot : Slot) : Engine K :=
  let e := (e.clear slot).withUsed slot 0
  let e := e.modify slot fun s => { s with status := { s.status with poll := e.config.minPoll } }
  { e with generation := e.generation + 1 }

def restarted (e : Engine K) (now : Nat) : Engine K :=
  { e with
    sources := fun i =>
      if i = referenceSlot then e.sources i
      else
        let endpoint := (e.sources i).status.endpoint
        burst e.config
          { status :=
              { endpoint := endpoint
                online := e.online && endpoint ≠ 0
                poll := e.config.minPoll
                nextPollNs := now } }
    selected := none
    combinedCount := 0
    leap := .unsynchronized
    usedGeneration := fun _ => 0
    generation := e.generation + 1 }

/-- The engine a change of the network selects at. -/
def switched (e : Engine K) (enabled : Bool) (now : Nat) : Engine K :=
  { e with
    online := enabled
    sources := fun i =>
      if i = referenceSlot then e.sources i
      else
        let s := e.sources i
        let s := { s with
          pending := false
          status := { s.status with
            online := enabled && s.status.endpoint ≠ 0 && !s.denied } }
        if enabled then burst e.config { s with status := { s.status with nextPollNs := now } }
        else s }

/-- The engine a toggle of the reference clock selects at. -/
def toggled (e : Engine K) (enabled : Bool) : Engine K :=
  let e := ({ e with referenceEnabled := enabled, referenceDisagreement := false }.clear
    referenceSlot).withUsed referenceSlot 0
  e.modify referenceSlot fun s =>
    { s with status := { s.status with
      endpoint := if enabled then referenceEndpoint else 0
      online := enabled
      reason := .insufficientSamples } }

/-- The engine the answer of a refusing server selects at. -/
def refused (e : Engine K) (slot : Slot) : Engine K :=
  e.modify slot fun s =>
    { s with
      denied := true
      synchronized := false
      status := { s.status with online := false, replace := true } }

/-- The engine the answer of an unsynchronized server selects at. -/
def unserved (e : Engine K) (slot : Slot) : Engine K :=
  e.modify slot fun s =>
    { s with
      synchronized := false
      status := { s.status with selectable := false, replace := true } }

/-- The engine an accepted measurement selects at. -/
def accepted (e : Engine K) (slot : Slot) (m : Measurement K) (now : Nat) : Engine K :=
  let e := e.modify slot (Source.append e.config (capacity slot) m now)
  e.modify slot fun s => setPoll now s.token (adaptPoll e.config s)

/-- The pass of a reply of a server that gives the time. -/
def measurePass (e : Engine K) (slot : Slot) (packet : List UInt8) (now : Nat) :
    Option (Engine K × Nat × Bool) :=
  let s := e.sources slot
  let t := times e.config packet
  if s.last.any fun last => t.sendUtc = last.serverSendNs then none
  else if malformed s packet t now then none
  else
    let m := measurement e s packet t now
    let e := e.modify slot (nominate m now)
    match objection e.config (e.sources slot) m with
    | some _ => none
    | none => some (e.accepted slot m now, now, true)

def answeredPass (e : Engine K) (slot : Slot) (packet : List UInt8) (now : Nat) :
    Option (Engine K × Nat × Bool) :=
  let e := e.modify slot fun s => { s with pending := false }
  if packetByte packet 1 = 0 then
    if read (field packet 12 4) = 0x52415445 then none else some (e.refused slot, now, false)
  else if packetLeap packet = .unsynchronized ∨ 15 < packetByte packet 1 then
    some (e.unserved slot, now, false)
  else e.measurePass slot packet now

def shiftedPass (e : Engine K) (slot : Slot) (now : Nat) : Option (Engine K × Nat × Bool) :=
  let e := e.modify slot shiftReach
  if (e.sources slot).status.reach = 0 then
    some (e.modify slot (·.withReason .offline), now, false)
  else none

end Engine

/-- The engine a call makes its pass on, the time of the pass and whether it scores. -/
def Call.passes (call : Call) (e : Engine K) : Option (Engine K × Nat × Bool) :=
  match call with
  | .configure n endpoint now =>
    (networkSlot n).bind fun slot =>
      if (e.configure n endpoint now).1 ∧ (e.sources slot).status.endpoint ≠ endpoint then
        some (e.withdrawn slot, now, false)
      else none
  | .remove n now => (networkSlot n).map fun slot => (e.withdrawn slot, now, false)
  | .reset now => some (e.restarted now, now, false)
  | .online enabled now =>
    if e.online = enabled then none else some (e.switched enabled now, now, false)
  | .referenceClock enabled now =>
    if (e.referenceClock enabled now).1 ∧ e.referenceEnabled ≠ enabled then
      some (e.toggled enabled, now, false)
    else none
  | .observeReference o now =>
    if e.admitsEpoch o now then some ((e.appendEpoch o).compareEpoch now, now, true) else none
  | .poll now => if e.config.valid && !e.early now then some (e, now, false) else none
  | .request n now random force =>
    (networkSlot n).bind fun slot =>
      if (e.request n now random force).1.isSome then e.shiftedPass slot now else none
  | .receive n packet now =>
    (networkSlot n).bind fun slot =>
      if e.config.valid && answers (e.sources slot) packet now then
        e.answeredPass slot packet now
      else none
  | _ => none

/-- What a call makes its pass on. -/
inductive Call.Passing (e : Engine K) : Call → Engine K → Nat → Bool → Prop where
  | configure {n endpoint now : Nat} {slot : Slot} (hslot : networkSlot n = some slot) :
    Passing e (.configure n endpoint now) (e.withdrawn slot) now false
  | remove {n now : Nat} {slot : Slot} (hslot : networkSlot n = some slot) :
    Passing e (.remove n now) (e.withdrawn slot) now false
  | reset (now : Nat) : Passing e (.reset now) (e.restarted now) now false
  | online (enabled : Bool) (now : Nat) :
    Passing e (.online enabled now) (e.switched enabled now) now false
  | referenceClock (enabled : Bool) (now : Nat) :
    Passing e (.referenceClock enabled now) (e.toggled enabled) now false
  | observeReference {o : ReferenceObservation} {now : Nat} (hadmits : e.admitsEpoch o now = true) :
    Passing e (.observeReference o now) ((e.appendEpoch o).compareEpoch now) now true
  | poll (now : Nat) : Passing e (.poll now) e now false
  | request {n now random : Nat} {force : Bool} {slot : Slot} (hslot : networkSlot n = some slot) :
    Passing e (.request n now random force)
      ((e.modify slot shiftReach).modify slot (·.withReason .offline)) now false
  | receive {n now t : Nat} {packet : List UInt8} {slot : Slot} {e₀ : Engine K} {b : Bool}
    (hslot : networkSlot n = some slot) (h : e.answeredPass slot packet now = some (e₀, t, b)) :
    Passing e (.receive n packet now) e₀ t b

theorem Call.passing {call : Call} {e e₀ : Engine K} {t : Nat} {b : Bool}
    (h : call.passes e = some (e₀, t, b)) : call.Passing e e₀ t b := by
  cases call with
  | configure n endpoint now =>
    obtain ⟨slot, hslot, h⟩ := Option.bind_eq_some_iff.mp h
    split_ifs at h
    cases h
    exact .configure hslot
  | remove n now =>
    obtain ⟨slot, hslot, h⟩ := Option.map_eq_some_iff.mp h
    cases h
    exact .remove hslot
  | reset now =>
    cases h
    exact .reset _
  | online enabled now =>
    simp only [Call.passes] at h
    split_ifs at h
    cases h
    exact .online _ _
  | referenceClock enabled now =>
    simp only [Call.passes] at h
    split_ifs at h
    cases h
    exact .referenceClock _ _
  | observeReference o now =>
    simp only [Call.passes] at h
    split_ifs at h with hadmits
    cases h
    exact .observeReference hadmits
  | poll now =>
    simp only [Call.passes] at h
    split_ifs at h
    cases h
    exact .poll _
  | request n now random force =>
    obtain ⟨slot, hslot, h⟩ := Option.bind_eq_some_iff.mp h
    unfold shiftedPass at h
    dsimp only at h
    split_ifs at h
    cases h
    exact .request hslot
  | receive n packet now =>
    obtain ⟨slot, hslot, h⟩ := Option.bind_eq_some_iff.mp h
    split_ifs at h
    exact .receive hslot h
  | _ => cases h

/-! ## What a call keeps of its pass -/

namespace Source

def record (s : Source K) : Source K where
  samples := s.samples
  predecessors := s.predecessors
  fitStart := s.fitStart
  runsCount := s.runsCount
  asymmetryEvidence := s.asymmetryEvidence
  predecessorRawNs := s.predecessorRawNs
  predecessorUtcNs := s.predecessorUtcNs
  minDelay := s.minDelay
  asymmetry := s.asymmetry
  status := { estimate := s.status.estimate, generation := s.status.generation }

/-- The place of a source in the selection. -/
def standing (s : Source K) : Bool × Bool × Bool × K :=
  (s.status.selectable, s.status.selected, s.status.combined, s.status.selectionScore)

/-- Both. -/
def shown (s : Source K) : Source K × Bool × Bool × Bool × K := (s.record, s.standing)

theorem record_core (s : Source K) : s.core.record = s.record := rfl

end Source

def Engine.shell (e : Engine K) : Engine K := { e with sources := fun _ => {} }

/-- Two engines agree but for the notes of an exchange with a source. -/
structure Alike (e e' : Engine K) : Prop where
  shell : e'.shell = e.shell
  shown : Same Source.shown e e'
  reference : e'.sources referenceSlot = e.sources referenceSlot

/-- What the last discipline leaves of the selection. -/
def Engine.outcome (e : Engine K) :
    Config K × Option Slot × Leap × Bool × Nat × List (Update K) × (Slot → Nat) × Nat :=
  (e.config, e.selected, e.leap, e.referenceDisagreement, e.lastSourceRawNs, e.updates,
    e.usedGeneration, e.referenceSequence)

/-- The selection stands, with the histories it was made from. -/
structure Stays (e e' : Engine K) : Prop where
  outcome : e'.outcome = e.outcome
  shown : Same Source.shown e e'
  reference : e'.sources referenceSlot = e.sources referenceSlot

theorem Stays.refl : Stays e e := ⟨rfl, Same.refl, rfl⟩

namespace Alike

variable {e'' : Engine K}

theorem stays (h : Alike e e') : Stays e e' := by
  have houtcome : e'.shell.outcome = e.shell.outcome := congrArg Engine.outcome h.shell
  exact ⟨houtcome, h.shown, h.reference⟩

theorem refl : Alike e e := ⟨rfl, Same.refl, rfl⟩

theorem trans (h : Alike e e') (h' : Alike e' e'') : Alike e e'' :=
  ⟨h'.shell.trans h.shell, h.shown.trans h'.shown, h'.reference.trans h.reference⟩

theorem modify {f : Source K → Source K} (hslot : slot ≠ referenceSlot)
    (h : (f (e.sources slot)).shown = (e.sources slot).shown) : Alike e (e.modify slot f) :=
  ⟨rfl, Same.modify h, modify_other _ _ hslot.symm⟩

end Alike

theorem reject_alike (hslot : slot ≠ referenceSlot) (reason : Rejection) (candidate : Bool) :
    Alike e (e.reject slot reason candidate).2 :=
  Alike.modify hslot (f := fun s =>
    { s with
      last := if candidate then s.last.map fun last => { last with rejection := reason } else s.last
      status := { s.status with
        rejected := (s.status.rejected + 1) % 2 ^ 32
        reason := reason } }) rfl

theorem shiftReach_shown : (shiftReach s).shown = s.shown := by
  unfold shiftReach
  split_ifs <;> rfl

theorem adaptPoll_shown : (adaptPoll config s).shown = s.shown := by
  unfold adaptPoll
  dsimp only
  split_ifs <;> rfl

/-- A measurement that makes a pass is accepted, and one that makes none is refused. -/
theorem measure_pass (e : Engine K) (hslot : slot ≠ referenceSlot) (packet : List UInt8)
    (now : Nat) :
    match e.measurePass slot packet now with
    | none => (e.measure slot packet now).1 = false ∧ Alike e (e.measure slot packet now).2
    | some (e₀, t, b) => (e.measure slot packet now).1 = true ∧ t = now ∧ b = true ∧
        (e.measure slot packet now).2 = e₀.select t b := by
  unfold measurePass Engine.measure
  dsimp only
  split_ifs
  · exact ⟨rfl, reject_alike hslot _ _⟩
  · exact ⟨rfl, reject_alike hslot _ _⟩
  · generalize measurement e (e.sources slot) packet (times e.config packet) now = m
    have hnominate : Alike e (e.modify slot (nominate m now)) := Alike.modify hslot (by rfl)
    rcases objection (e.modify slot (nominate m now)).config
      ((e.modify slot (nominate m now)).sources slot) m with - | reason
    · exact ⟨rfl, rfl, rfl, rfl⟩
    · exact ⟨rfl, hnominate.trans (reject_alike hslot _ _)⟩

theorem answered_pass (e : Engine K) (hslot : slot ≠ referenceSlot) (packet : List UInt8)
    (now : Nat) :
    match e.answeredPass slot packet now with
    | none => (e.answered slot packet now).1 = false ∧ Alike e (e.answered slot packet now).2
    | some (e₀, t, b) => (e.answered slot packet now).1 = b ∧ t = now ∧
        Alike (e₀.select t b) (e.answered slot packet now).2 := by
  have hpending : Alike e (e.modify slot fun s => { s with pending := false }) :=
    Alike.modify hslot (by rfl)
  unfold answeredPass answered kiss unsynchronized
  split_ifs
  · exact ⟨rfl, (hpending.trans (Alike.modify hslot (by rfl))).trans (reject_alike hslot _ _)⟩
  · exact ⟨rfl, rfl, reject_alike hslot _ _⟩
  · exact ⟨rfl, rfl, reject_alike hslot _ _⟩
  · have hmeasure := measure_pass (e.modify slot fun s => { s with pending := false }) hslot
      packet now
    split
    · rename_i hnone
      rw [hnone] at hmeasure
      exact ⟨hmeasure.1, hpending.trans hmeasure.2⟩
    · rename_i e₀ t b hsome
      rw [hsome] at hmeasure
      obtain ⟨hanswer, rfl, rfl, heq⟩ := hmeasure
      exact ⟨hanswer, rfl, heq ▸ Alike.refl⟩

theorem advance_stays (e : Engine K) (now : Nat) : Stays e (e.advance now) := by
  unfold advance
  split_ifs
  · exact Stays.refl
  · exact ⟨rfl, Same.refl, rfl⟩

theorem seed_stays (frequencyPpb : Int) (skewPpb : Nat) :
    Stays e (e.seed frequencyPpb skewPpb) := by
  unfold seed
  split_ifs
  · exact Stays.refl
  · exact ⟨rfl, Same.refl, rfl⟩
  · exact Stays.refl

theorem observeFrequencyReference_stays (r : FrequencyReference) :
    Stays e (e.observeFrequencyReference r now).2 := by
  have hadvance := advance_stays e now
  unfold observeFrequencyReference
  dsimp only
  split_ifs
  · exact Stays.refl
  · exact ⟨hadvance.outcome, hadvance.shown, hadvance.reference⟩
  · exact ⟨hadvance.outcome, hadvance.shown, hadvance.reference⟩
  · exact ⟨hadvance.outcome, hadvance.shown, hadvance.reference⟩

theorem clearFrequencyReference_stays : Stays e (e.clearFrequencyReference now) := by
  have hadvance := advance_stays e now
  unfold clearFrequencyReference
  split_ifs
  · exact Stays.refl
  · exact ⟨hadvance.outcome, hadvance.shown, hadvance.reference⟩

theorem retireFrequencyReference_stays : Stays e (e.retireFrequencyReference now) := by
  have hadvance := advance_stays e now
  unfold retireFrequencyReference
  split_ifs
  · exact Stays.refl
  · exact ⟨hadvance.outcome, hadvance.shown, hadvance.reference⟩

/-- Only another endpoint changes a source. -/
theorem configure_cases (e : Engine K) {n : Nat} (endpoint now : Nat)
    (hslot : networkSlot n = some slot) :
    (∃ b, e.configure n endpoint now = (b, e) ∧
      ¬ (b = true ∧ (e.sources slot).status.endpoint ≠ endpoint)) ∨
    ((e.sources slot).status.endpoint ≠ endpoint ∧ ∃ f : Source K → Source K,
      (∀ s, (f s).shown = s.shown) ∧
      e.configure n endpoint now = (true, (e.removeSlot slot now).modify slot f)) := by
  unfold configure
  rw [hslot]
  dsimp only
  split_ifs with hvalid hused hsame
  · exact .inl ⟨false, rfl, by simp⟩
  · exact .inl ⟨false, rfl, by simp⟩
  · exact .inl ⟨true, rfl, by simp [hsame]⟩
  · exact .inr ⟨hsame, fun s => burst (e.removeSlot slot now).config
        { s with status := { s.status with
          endpoint := endpoint
          online := (e.removeSlot slot now).online
          reason := .insufficientSamples
          nextPollNs := now
          poll := (e.removeSlot slot now).config.minPoll } },
      fun _ => rfl, rfl⟩

theorem request_cases (e : Engine K) {n : Nat} (now random : Nat) (force : Bool)
    (hslot : networkSlot n = some slot) :
    e.request n now random force = (none, e) ∨
    ((e.request n now random force).1.isSome = true ∧
      (e.request n now random force).2 = (e.shifted slot now).modify slot (ask now random)) := by
  unfold request
  rw [hslot]
  dsimp only
  split_ifs
  · exact .inl rfl
  · exact .inr ⟨rfl, rfl⟩

/-- A request that makes a pass makes it before it is noted. -/
theorem request_pass {n random : Nat} {force : Bool} (hslot : networkSlot n = some slot)
    (hsent : (e.request n now random force).1.isSome = true) :
    match e.shiftedPass slot now with
    | none => Alike e (e.request n now random force).2
    | some (e₀, t, b) => b = false ∧ Alike (e₀.select t b) (e.request n now random force).2 := by
  have hask : ∀ {e' : Engine K}, Alike e' (e'.modify slot (ask now random)) := by
    intro e'
    exact Alike.modify (networkSlot_ne hslot) (by rfl)
  obtain hnone | ⟨-, hrequest⟩ := request_cases e now random force hslot
  · rw [hnone] at hsent
    cases hsent
  rw [hrequest]
  unfold shiftedPass shifted
  dsimp only
  split_ifs
  · exact ⟨rfl, hask⟩
  · exact (Alike.modify (networkSlot_ne hslot) shiftReach_shown).trans hask

/-- The call is an accepted measurement or observation. -/
def Call.accepted (call : Call) (e : Engine K) : Bool :=
  match call with
  | .receive n packet now => (e.receive n packet now).1
  | .observeReference o now => (e.observeReference o now).1
  | _ => false

/-- The call is about the frequency of the clock. -/
def Call.Rates : Call → Prop
  | .seed _ _ | .observeFrequencyReference _ _ | .clearFrequencyReference _
  | .retireFrequencyReference _ => True
  | _ => False

/-- Another call without a pass leaves the engine as it is but for the notes of an exchange, and
accepts nothing; one with a pass leaves what the pass does, which scores when the call accepts. -/
theorem exec_alike (call : Call) (e : Engine K) (hrates : ¬ call.Rates) :
    match call.passes e with
    | none => call.accepted e = false ∧ Alike e (call.exec e)
    | some (e₀, t, b) => call.accepted e = b ∧ Alike (e₀.select t b) (call.exec e) := by
  cases call with
  | configure n endpoint now =>
    unfold Call.passes Call.exec Call.perform
    dsimp only
    rcases hslot : networkSlot n with - | slot
    · unfold configure
      rw [hslot]
      exact ⟨rfl, Alike.refl⟩
    · dsimp only [Option.bind_some]
      obtain ⟨b, hkeep, hends⟩ | ⟨hne, f, hf, hmove⟩ :=
        configure_cases e endpoint now hslot
      · rw [hkeep, if_neg hends]
        exact ⟨rfl, Alike.refl⟩
      · rw [hmove, if_pos ⟨rfl, hne⟩]
        exact ⟨rfl, Alike.modify (networkSlot_ne hslot) (hf _)⟩
  | remove n now =>
    unfold Call.passes Call.exec Call.perform remove
    dsimp only
    rcases networkSlot n with - | slot
    · exact ⟨rfl, Alike.refl⟩
    · exact ⟨rfl, Alike.refl⟩
  | cancel n =>
    unfold Call.passes Call.exec Call.perform cancel
    dsimp only
    rcases hslot : networkSlot n with - | slot
    · exact ⟨rfl, Alike.refl⟩
    · exact ⟨rfl, Alike.modify (networkSlot_ne hslot) (by rfl)⟩
  | reset now => exact ⟨rfl, Alike.refl⟩
  | online enabled now =>
    unfold Call.passes Call.exec Call.perform setOnline
    dsimp only
    by_cases honline : e.online = enabled
    · rw [if_pos honline, if_pos honline]
      exact ⟨rfl, Alike.refl⟩
    · rw [if_neg honline, if_neg honline]
      exact ⟨rfl, Alike.refl⟩
  | seed frequencyPpb skewPpb => exact absurd trivial hrates
  | observeFrequencyReference reference now => exact absurd trivial hrates
  | clearFrequencyReference now => exact absurd trivial hrates
  | retireFrequencyReference now => exact absurd trivial hrates
  | referenceClock enabled now =>
    unfold Call.passes Call.exec Call.perform referenceClock Call.accepted
    dsimp only
    by_cases hvalid : (!e.config.valid || e.early now) = true
    · rw [if_pos hvalid]
      exact ⟨rfl, Alike.refl⟩
    · rw [if_neg hvalid]
      by_cases henabled : e.referenceEnabled = enabled
      · rw [if_pos henabled]
        simpa [henabled] using Alike.refl
      · rw [if_neg henabled, if_pos ⟨rfl, henabled⟩]
        exact ⟨rfl, Alike.refl⟩
  | observeReference o now =>
    unfold Call.passes Call.exec Call.perform Call.accepted observeReference
    by_cases hadmits : e.admitsEpoch o now = true
    · simpa [hadmits] using Alike.refl
    · simpa [hadmits] using Alike.refl
  | poll now =>
    unfold Call.passes Call.exec Call.perform poll
    dsimp only
    split_ifs
    · exact ⟨rfl, Alike.refl⟩
    · exact ⟨rfl, Alike.refl⟩
  | request n now random force =>
    unfold Call.passes Call.exec Call.perform
    dsimp only
    rcases hslot : networkSlot n with - | slot
    · unfold request
      rw [hslot]
      exact ⟨rfl, Alike.refl⟩
    · dsimp only [Option.bind_some]
      by_cases hsent : (e.request n now random force).1.isSome = true
      · rw [if_pos hsent]
        have hpass := request_pass hslot hsent
        split
        · rename_i hnone
          rw [hnone] at hpass
          exact ⟨rfl, hpass⟩
        · rename_i e₀ t b hsome
          rw [hsome] at hpass
          exact ⟨hpass.1.symm, hpass.2⟩
      · rw [if_neg hsent]
        obtain hnone | ⟨h, -⟩ := request_cases e now random force hslot
        · rw [hnone]
          exact ⟨rfl, Alike.refl⟩
        · exact absurd h hsent
  | receive n packet now =>
    unfold Call.passes Call.exec Call.perform Call.accepted receive
    dsimp only
    rcases htarget : networkSlot n with - | slot
    · exact ⟨rfl, Alike.refl⟩
    · have hslot := networkSlot_ne htarget
      dsimp only [Option.bind_some]
      by_cases hvalid : e.config.valid = true
      · by_cases hanswers : answers (e.sources slot) packet now = true
        · have hpass := answered_pass e hslot packet now
          simp only [hvalid, hanswers, Bool.and_self, Bool.not_true, Bool.false_eq_true, if_true,
            if_false]
          split
          · rename_i hnone
            rw [hnone] at hpass
            exact ⟨hpass.1, hpass.2⟩
          · rename_i e₀ t b hsome
            rw [hsome] at hpass
            exact ⟨hpass.1, hpass.2.2⟩
        · simp only [hvalid, hanswers, Bool.and_false, Bool.not_true, Bool.not_false,
            Bool.false_eq_true, if_true, if_false]
          exact ⟨rfl, reject_alike hslot _ _⟩
      · simp only [hvalid, Bool.false_and, Bool.not_false, Bool.false_eq_true, if_true, if_false]
        exact ⟨trivial, Alike.refl⟩

/-- A call about the frequency leaves the selection and the histories too. -/
theorem rates_stays {call : Call} (h : call.Rates) (e : Engine K) :
    call.passes e = none ∧ call.accepted e = false ∧ Stays e (call.exec e) := by
  cases call with
  | seed frequencyPpb skewPpb => exact ⟨rfl, rfl, seed_stays _ _⟩
  | observeFrequencyReference reference now =>
    exact ⟨rfl, rfl, observeFrequencyReference_stays _⟩
  | clearFrequencyReference now => exact ⟨rfl, rfl, clearFrequencyReference_stays⟩
  | retireFrequencyReference now => exact ⟨rfl, rfl, retireFrequencyReference_stays⟩
  | _ => exact absurd h id

theorem exec_pass (call : Call) (e : Engine K) :
    match call.passes e with
    | none => call.accepted e = false ∧ Stays e (call.exec e)
    | some (e₀, t, b) => call.accepted e = b ∧ Alike (e₀.select t b) (call.exec e) := by
  by_cases h : call.Rates
  · obtain ⟨hnone, hstays⟩ := rates_stays h e
    rw [hnone]
    exact hstays
  · have halike := exec_alike call e h
    split at halike
    · exact ⟨halike.1, halike.2.stays⟩
    · exact halike

/-! ## What a pass finds of the clock -/

/-- An engine without its sources and the selection among them. -/
def Engine.steady (e : Engine K) : Engine K :=
  { e with
    online := true
    sources := fun _ => {}
    usedGeneration := fun _ => 0
    generation := 0
    selected := none
    combinedCount := 0
    leap := .normal
    referenceEnabled := false
    referenceDisagreement := false
    referenceSequence := 0 }

theorem answeredPass_steady {packet : List UInt8} {e₀ : Engine K} {t : Nat} {b : Bool}
    (h : e.answeredPass slot packet now = some (e₀, t, b)) : e₀.steady = e.steady := by
  unfold answeredPass measurePass at h
  dsimp only at h
  split_ifs at h
  · cases h
    rfl
  · cases h
    rfl
  · split at h
    · cases h
    · cases h
      rfl

theorem appendEpoch_steady (o : ReferenceObservation) : (e.appendEpoch o).steady = e.steady := by
  unfold appendEpoch
  dsimp only
  split_ifs <;> rfl

theorem compareEpoch_steady : (e.compareEpoch now).steady = e.steady := by
  unfold compareEpoch
  dsimp only
  split_ifs <;> rfl

/-- A pass finds the clock as the call does. -/
theorem passes_steady {call : Call} {e₀ : Engine K} {t : Nat} {b : Bool}
    (h : call.passes e = some (e₀, t, b)) : e₀.steady = e.steady := by
  cases Call.passing h with
  | observeReference => exact compareEpoch_steady.trans (appendEpoch_steady _)
  | receive _ h => exact answeredPass_steady h
  | _ => rfl

theorem Engine.Passed.steady {e₀ e₁ : Engine K} (h : Passed e₀ e₁) : e₁.steady = e₀.steady := by
  have hsteady := congrArg Engine.steady h.clock
  exact hsteady

end WsprryPico.Microchrony
