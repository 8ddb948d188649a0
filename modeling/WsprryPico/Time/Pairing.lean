import Mathlib.Data.List.Chain
import WsprryPico.Lib.History
import WsprryPico.Time.Pairer

/-!
# What a pairer emits

A run is a list of turns, each an event with the pairer it meets. The pairer holds the newest
of the pulses captured since the last break, takes each of them for one label at most, and
emits the label that continues the one before.
-/

namespace WsprryPico.Time.Gps

inductive Event where
  | pulse (p : Pulse)
  | message (m : Message)
  | lost

structure Turn where
  before : Pairer
  event : Event

namespace Pairer

variable {s : Pairer} {m : Message} {p q : Pulse} {utc received : Nat} {o : Observation}
  {policy : PairingPolicy} {l : List Pulse}

def step (s : Pairer) : Event → Pairer
  | .pulse p => (s.pulse p).2
  | .message m => (s.message m).2
  | .lost => s.lost

/-- The label and the pulse a sentence brings together. -/
def pairs (s : Pairer) (m : Message) : Option (Nat × Pulse) :=
  if ¬ s.policy.valid ∨ m.kind ≠ .rmc then none
  else
    (m.utcNs.filter fun utc => m.timeValid ∧ utc % secondNs = 0).bind fun utc =>
      (select s.policy m.receivedRawNs none s.pulses).bind fun found =>
        (found.filter (s.accepts m utc)).map fun pulse => (utc, pulse)

/-! ## The selection -/

theorem select_found (h : select policy received (some q) l = some (some p)) :
    p = q ∧ ∀ c ∈ l, ¬ c.fits policy received := by
  induction l with
  | nil =>
    cases h
    exact ⟨rfl, by simp⟩
  | cons c l ih =>
    unfold select at h
    split_ifs at h with hc
    obtain ⟨hp, hl⟩ := ih h
    refine ⟨hp, ?_⟩
    intro c' hc'
    rcases List.mem_cons.mp hc' with rfl | hc'
    · exact hc
    · exact hl c' hc'

theorem select_only (h : select policy received none l = some (some p)) :
    p ∈ l ∧ ∀ c ∈ l, c.fits policy received → c = p := by
  induction l with
  | nil => cases h
  | cons c l ih =>
    unfold select at h
    split_ifs at h with hc
    · obtain ⟨rfl, hl⟩ := select_found h
      refine ⟨List.mem_cons_self, ?_⟩
      intro c' hc' hfits
      rcases List.mem_cons.mp hc' with rfl | hc'
      · rfl
      · exact absurd hfits (hl c' hc')
    · obtain ⟨hp, hl⟩ := ih h
      refine ⟨List.mem_cons_of_mem _ hp, ?_⟩
      intro c' hc' hfits
      rcases List.mem_cons.mp hc' with rfl | hc'
      · exact absurd hfits hc
      · exact hl c' hc' hfits

/-! ## A sentence -/

/-- A sentence that takes no pulse can only take the label before away. -/
structure Idle (s s' : Pairer) : Prop where
  policy : s'.policy = s.policy
  pulses : s'.pulses = s.pulses
  consumed : s'.consumedSequence = s.consumedSequence
  lastSequence : s'.lastPulseSequence = s.lastPulseSequence
  lastRaw : s'.lastPulseRawNs = s.lastPulseRawNs
  previous : s'.previous = s.previous ∨ s'.previous = none

theorem message_idle (h : s.pairs m = none) :
    (s.message m).1 = none ∧ Idle s (s.message m).2 := by
  have idle : ∀ error, Idle s { s with error } := fun _ => ⟨rfl, rfl, rfl, rfl, rfl, .inl rfl⟩
  have drops : ∀ error, Idle s { s with previous := none, error } :=
    fun _ => ⟨rfl, rfl, rfl, rfl, rfl, .inr rfl⟩
  unfold message
  by_cases hvalid : s.policy.valid
  swap
  · rw [if_pos hvalid]
    exact ⟨rfl, idle _⟩
  by_cases hkind : m.kind = .rmc
  swap
  · rw [if_neg (not_not_intro hvalid), if_pos hkind]
    exact ⟨rfl, idle s.error⟩
  rw [if_neg (not_not_intro hvalid), if_neg (not_not_intro hkind)]
  unfold pairs at h
  rw [if_neg (by tauto)] at h
  cases hutc : m.utcNs.filter fun utc => m.timeValid ∧ utc % secondNs = 0 with
  | none => exact ⟨rfl, drops _⟩
  | some utc =>
    cases hselect : select s.policy m.receivedRawNs none s.pulses with
    | none => exact ⟨rfl, drops _⟩
    | some found =>
      cases hpulse : found.filter (s.accepts m utc) with
      | none =>
        dsimp only
        rw [hpulse]
        exact ⟨rfl, idle _⟩
      | some pulse =>
        rw [hutc, Option.bind_some, hselect, Option.bind_some, hpulse] at h
        cases h

/-- A sentence and the pulse it takes. -/
structure Taken (s : Pairer) (m : Message) (utc : Nat) (p : Pulse) : Prop where
  message : s.message m = s.take m utc p
  held : p ∈ s.pulses
  only : ∀ c ∈ s.pulses, c.fits s.policy m.receivedRawNs → c = p
  fresh : s.consumedSequence < p.sequence
  contained : p.contained s.policy m.receivedRawNs = true
  valid : s.policy.valid = true

theorem pairs_taken (h : s.pairs m = some (utc, p)) : Taken s m utc p := by
  unfold pairs at h
  split_ifs at h with hpolicy
  obtain ⟨u, hutc, h⟩ := Option.bind_eq_some_iff.mp h
  obtain ⟨found, hselect, h⟩ := Option.bind_eq_some_iff.mp h
  obtain ⟨c, hpulse, hpair⟩ := Option.map_eq_some_iff.mp h
  cases hpair
  obtain ⟨rfl, haccepts⟩ := Option.filter_eq_some_iff.mp hpulse
  obtain ⟨hheld, honly⟩ := select_only hselect
  have hconditions := haccepts
  simp only [accepts, decide_eq_true_eq, not_or, not_not, Nat.not_le] at hconditions
  refine ⟨?_, hheld, honly, hconditions.2.2.1, hconditions.1, by tauto⟩
  unfold message
  rw [if_neg (by tauto), if_neg (by tauto)]
  simp only [hutc, hselect, Option.filter_some, haccepts, if_true]

theorem label_pulse (h : label policy m utc p = .ok o) :
    o.sequence = p.sequence ∧ o.captureRawNs = p.rawNs := by
  unfold label at h
  dsimp only at h
  split_ifs at h <;> cases h <;> exact ⟨rfl, rfl⟩

theorem follows_spec {preceding : Observation} (h : follows preceding o = true)
    (hlater : preceding.sequence < o.sequence) :
    o.sequence = preceding.sequence + 1 ∧ o.utcNs = preceding.utcNs + secondNs := by
  simp only [follows, decide_eq_true_eq, not_or, not_not, Nat.not_le] at h
  obtain ⟨hsequence, hutc, hsecond⟩ := h
  have hwrap := Nat.mod_lt (preceding.sequence + 1) (Nat.two_pow_pos 64)
  have hle := Nat.mod_le (preceding.sequence + 1) (2 ^ 64)
  omega

/-- What a taken pulse leaves: its label or none, and an emission that continues. -/
structure Labelled (s : Pairer) (m : Message) (utc : Nat) (p : Pulse)
    (r : Option Observation × Pairer) : Prop where
  policy : r.2.policy = s.policy
  pulses : r.2.pulses = s.pulses
  consumed : r.2.consumedSequence = p.sequence
  lastSequence : r.2.lastPulseSequence = s.lastPulseSequence
  lastRaw : r.2.lastPulseRawNs = s.lastPulseRawNs
  unlabelled : ∀ error, label s.policy m utc p = .error error →
    r.1 = none ∧ (r.2.previous = s.previous ∨ r.2.previous = none)
  labelled : ∀ o, label s.policy m utc p = .ok o → r.2.previous = some o ∧
    ∀ value, r.1 = some value → value = o ∧
      ∃ preceding, s.previous = some preceding ∧ follows preceding o = true

theorem take_labelled : Labelled s m utc p (s.take m utc p) := by
  unfold take
  dsimp only
  cases hlabel : label s.policy m utc p with
  | error error =>
    have hno : ∀ o, label s.policy m utc p ≠ .ok o := by
      intro o ho
      rw [hlabel] at ho
      cases ho
    cases error with
    | beforeStart =>
      exact ⟨rfl, rfl, rfl, rfl, rfl, fun _ _ => ⟨rfl, .inl rfl⟩, fun o ho => absurd ho (hno o)⟩
    | invalidOffset =>
      exact ⟨rfl, rfl, rfl, rfl, rfl, fun _ _ => ⟨rfl, .inr rfl⟩, fun o ho => absurd ho (hno o)⟩
    | futureEpoch =>
      exact ⟨rfl, rfl, rfl, rfl, rfl, fun _ _ => ⟨rfl, .inr rfl⟩, fun o ho => absurd ho (hno o)⟩
  | ok value =>
    have herror : ∀ error, label s.policy m utc p ≠ .error error := by
      intro error h
      rw [hlabel] at h
      cases h
    have hvalue : ∀ o, label s.policy m utc p = .ok o → o = value := by
      intro o ho
      rw [hlabel] at ho
      cases ho
      rfl
    dsimp only
    split_ifs with hany
    · refine ⟨rfl, rfl, rfl, rfl, rfl, fun error h => absurd h (herror error), ?_⟩
      intro o ho
      obtain rfl := hvalue o ho
      refine ⟨rfl, ?_⟩
      intro v hv
      cases hv
      cases hprevious : s.previous with
      | none =>
        rw [hprevious] at hany
        exact absurd hany (by simp)
      | some preceding =>
        rw [hprevious] at hany
        exact ⟨rfl, preceding, rfl, hany⟩
    · refine ⟨rfl, rfl, rfl, rfl, rfl, fun error h => absurd h (herror error), ?_⟩
      intro o ho
      obtain rfl := hvalue o ho
      refine ⟨rfl, ?_⟩
      intro v hv
      exact absurd hv (by simp)

end Pairer

/-! ## Turns -/

namespace Turn

/-- The pairer takes the capture `p`. -/
def Captures (p : Pulse) (t : Turn) : Prop :=
  t.event = .pulse p ∧ t.before.refuses p = false

/-- A sentence and the pulse `p` come together. -/
def Uses (p : Pulse) (t : Turn) : Prop :=
  ∃ m utc, t.event = .message m ∧ t.before.pairs m = some (utc, p)

def Labels (o : Observation) (t : Turn) : Prop :=
  ∃ m utc p, t.event = .message m ∧ t.before.pairs m = some (utc, p) ∧
    Pairer.label t.before.policy m utc p = .ok o

def Emits (o : Observation) (t : Turn) : Prop :=
  ∃ m, t.event = .message m ∧ (t.before.message m).1 = some o

/-- Captures do not continue over this turn. -/
def Breaks (t : Turn) : Prop :=
  match t.event with
  | .pulse p => t.before.refuses p = true ∨ t.before.continues p = false
  | .message _ => False
  | .lost => True

/-- The captures without a break between them, the newest first. -/
def extend (captures : List Pulse) (t : Turn) : List Pulse :=
  match t.event with
  | .pulse p =>
    if t.before.refuses p then []
    else p :: (if t.before.continues p then captures else [])
  | .message _ => captures
  | .lost => []

end Turn

def turns (s : Pairer) : List Event → List Turn
  | [] => []
  | event :: events => ⟨s, event⟩ :: turns (s.step event) events

def sinceBreak (l : List Turn) : List Pulse := l.foldl Turn.extend []

/-- `o` is the last label given, and nothing broke the captures after it. -/
def JustLabelled (l : List Turn) (o : Observation) : Prop :=
  ∃ a y b, l = a ++ y :: b ∧ y.Labels o ∧ ∀ z ∈ b, ¬ z.Breaks ∧ ∀ o', ¬ z.Labels o'

/-- No pulse that a sentence fits has left the history unless a capture came this much later
than the sentence. -/
def historyReachNs : Nat := pulseHistorySize * (secondNs - 1000000) - 100000000 - 2 * secondNs

/-- What a turn does, by the turns before it. -/
structure Paired (policy : PairingPolicy) (before : List Turn) (x : Turn) : Prop where
  captured : ∀ p, x.Captures p → ∀ y ∈ before, ∀ q, y.Captures q →
    q.sequence < p.sequence ∧ q.rawNs < p.rawNs
  used : ∀ p, x.Uses p → (∃ y ∈ before, y.Captures p) ∧
    ∀ y ∈ before, ∀ q, y.Uses q → q.sequence < p.sequence
  labelled : ∀ o, x.Emits o → x.Labels o ∧
    ∃ p, x.Uses p ∧ o.sequence = p.sequence ∧ o.captureRawNs = p.rawNs
  increasing : ∀ o, x.Emits o → ∀ y ∈ before, ∀ o', y.Emits o' → o'.sequence < o.sequence
  second : ∀ o, x.Emits o → ∃ preceding, JustLabelled before preceding ∧
    o.sequence = preceding.sequence + 1 ∧ o.utcNs = preceding.utcNs + secondNs
  single : ∀ m o, x.event = .message m → x.Emits o →
    ∀ p ∈ (sinceBreak before).take pulseHistorySize, p.fits policy m.receivedRawNs →
      p.sequence = o.sequence
  complete : ∀ m o, x.event = .message m → x.Emits o →
    (∀ y ∈ before, ∀ q, y.Captures q → q.rawNs ≤ m.receivedRawNs + historyReachNs) →
    ∀ p ∈ sinceBreak before, p.fits policy m.receivedRawNs → p.sequence = o.sequence

/-- The captures of a history stand a second apart. -/
def Apart (newer older : Pulse) : Prop :=
  newer.sequence = older.sequence + 1 ∧ older.rawNs + (secondNs - 1000000) ≤ newer.rawNs

/-- What the pairer knows of the turns. -/
structure Tracks (policy : PairingPolicy) (l : List Turn) (s : Pairer) : Prop where
  policy : s.policy = policy
  pulses : s.pulses = (sinceBreak l).take pulseHistorySize
  captured : ∀ y ∈ l, ∀ p, y.Captures p →
    0 < p.rawNs ∧ p.sequence ≤ s.lastPulseSequence ∧ p.rawNs ≤ s.lastPulseRawNs
  known : ∀ p ∈ sinceBreak l, p.uncertaintyNs ≤ 100000000 ∧ ∃ y ∈ l, y.Captures p
  apart : (sinceBreak l).IsChain Apart
  newest : ∀ p ∈ (sinceBreak l).head?,
    p.sequence = s.lastPulseSequence ∧ p.rawNs = s.lastPulseRawNs
  used : ∀ y ∈ l, ∀ p, y.Uses p → p.sequence ≤ s.consumedSequence
  previous : ∀ o, s.previous = some o → JustLabelled l o

section

variable {policy : PairingPolicy} {l : List Turn} {s : Pairer} {e : Event} {p : Pulse}
  {o : Observation} {m : Message} {utc : Nat} {x : Turn}

theorem sinceBreak_snoc : sinceBreak (l ++ [x]) = x.extend (sinceBreak l) := by
  simp [sinceBreak]

theorem JustLabelled.keep (h : JustLabelled l o) (hbreak : ¬ x.Breaks)
    (hlabel : ∀ o', ¬ x.Labels o') : JustLabelled (l ++ [x]) o := by
  obtain ⟨a, y, b, rfl, hy, hb⟩ := h
  refine ⟨a, y, b ++ [x], by simp, hy, ?_⟩
  intro z hz
  rcases List.mem_append.mp hz with hz | hz
  · exact hb z hz
  · obtain rfl := List.mem_singleton.mp hz
    exact ⟨hbreak, hlabel⟩

theorem JustLabelled.now (h : x.Labels o) : JustLabelled (l ++ [x]) o :=
  ⟨l, x, [], rfl, h, by simp⟩

/-- A capture is as many near-seconds old as there are captures after it. -/
theorem apart_head {captures : List Pulse} (h : captures.IsChain Apart) {i : Nat}
    (hi : i < captures.length) :
    ∃ newest ∈ captures.head?,
      captures[i].rawNs + i * (secondNs - 1000000) ≤ newest.rawNs := by
  induction captures generalizing i with
  | nil => simp at hi
  | cons newest older ih =>
    refine ⟨newest, rfl, ?_⟩
    cases i with
    | zero => simp
    | succ i =>
      obtain ⟨hhead, holder⟩ := List.isChain_cons.mp h
      obtain ⟨next, hnext, hdistance⟩ := ih holder (by simpa using hi)
      have hgap := (hhead next hnext).2
      rw [List.getElem_cons_succ, Nat.succ_mul]
      omega

theorem forall_snoc {P : Turn → Prop} (h : ∀ y ∈ l, P y) (hx : P x) : ∀ y ∈ l ++ [x], P y := by
  intro y hy
  rcases List.mem_append.mp hy with hy | hy
  · exact h y hy
  · obtain rfl := List.mem_singleton.mp hy
    exact hx

namespace Tracks

theorem start : Tracks policy [] { policy } where
  policy := rfl
  pulses := rfl
  captured := by simp
  known := by simp [sinceBreak]
  apart := by simp [sinceBreak]
  newest := by simp [sinceBreak]
  used := by simp
  previous := by simp

theorem broken (h : Tracks policy l s) {s' : Pairer} (hcaptures : x.extend (sinceBreak l) = [])
    (hno : ∀ p, ¬ x.Captures p) (huses : ∀ p, ¬ x.Uses p)
    (hs : s'.policy = s.policy ∧ s'.pulses = [] ∧ s'.previous = none ∧
      s'.consumedSequence = s.consumedSequence ∧
      s'.lastPulseSequence = s.lastPulseSequence ∧ s'.lastPulseRawNs = s.lastPulseRawNs) :
    Tracks policy (l ++ [x]) s' := by
  obtain ⟨hpolicy, hpulses, hprevious, hconsumed, hsequence, hraw⟩ := hs
  have hnil : sinceBreak (l ++ [x]) = [] := by rw [sinceBreak_snoc, hcaptures]
  refine ⟨hpolicy.trans h.policy, ?_, ?_, ?_, ?_, ?_, ?_, ?_⟩
  · rw [hpulses, hnil, List.take_nil]
  · rw [hsequence, hraw]
    exact forall_snoc h.captured fun p hp => absurd hp (hno p)
  · simp [hnil]
  · simp [hnil]
  · simp [hnil]
  · rw [hconsumed]
    exact forall_snoc h.used fun p hp => absurd hp (huses p)
  · simp [hprevious]

theorem accepted (h : s.refuses p = false) :
    0 < p.rawNs ∧ p.uncertaintyNs ≤ 100000000 ∧ s.lastPulseSequence < p.sequence ∧
      s.lastPulseRawNs < p.rawNs := by
  simp only [Pairer.refuses, decide_eq_false_iff_not, not_or, Nat.not_le, Nat.not_lt] at h
  omega

theorem capture (h : Tracks policy l s) (hrefuses : s.refuses p = false) :
    Tracks policy (l ++ [⟨s, .pulse p⟩]) (s.pulse p).2 := by
  obtain ⟨hraw, huncertainty, hsequence, hlater⟩ := accepted hrefuses
  have hsince : sinceBreak (l ++ [⟨s, .pulse p⟩]) =
      p :: (if s.continues p then sinceBreak l else []) := by
    rw [sinceBreak_snoc]
    simp [Turn.extend, hrefuses]
  have hcaptures : (⟨s, .pulse p⟩ : Turn).Captures p := ⟨rfl, hrefuses⟩
  have hcaptured : ∀ y ∈ l ++ [⟨s, .pulse p⟩], ∀ q, y.Captures q →
      0 < q.rawNs ∧ q.sequence ≤ p.sequence ∧ q.rawNs ≤ p.rawNs := by
    refine forall_snoc ?_ ?_
    · intro y hy q hq
      have hold := h.captured y hy q hq
      omega
    · intro q hq
      obtain rfl := Event.pulse.inj hq.1
      exact ⟨hraw, Nat.le_refl _, Nat.le_refl _⟩
  have hused : ∀ y ∈ l ++ [⟨s, .pulse p⟩], ∀ q, y.Uses q → q.sequence ≤ s.consumedSequence := by
    refine forall_snoc h.used ?_
    rintro q ⟨m, utc, hevent, -⟩
    cases hevent
  have hknown : ∀ q ∈ p :: (if s.continues p then sinceBreak l else []),
      q.uncertaintyNs ≤ 100000000 ∧ ∃ y ∈ l ++ [⟨s, .pulse p⟩], y.Captures q := by
    intro q hq
    rcases List.mem_cons.mp hq with rfl | hq
    · exact ⟨huncertainty, _, by simp, hcaptures⟩
    · split_ifs at hq
      · obtain ⟨hq, y, hy, hcaptures⟩ := h.known q hq
        exact ⟨hq, y, by simp [hy], hcaptures⟩
      · simp at hq
  unfold Pairer.pulse
  rw [if_neg (by simp [hrefuses])]
  by_cases hcontinues : s.continues p = true
  · rw [if_pos hcontinues] at hsince hknown
    rw [if_pos hcontinues, if_pos hcontinues]
    have hhead : ∀ q ∈ (sinceBreak l).head?, Apart p q := by
      intro q hq
      obtain ⟨hqsequence, hqraw⟩ := h.newest q hq
      have hmem : q ∈ sinceBreak l := List.mem_of_mem_head? hq
      obtain ⟨-, y, hy, hcaptures⟩ := h.known q hmem
      have hpositive := h.captured y hy q hcaptures
      have hmod := Nat.mod_le (s.lastPulseSequence + 1) (2 ^ 64)
      simp only [Pairer.continues, decide_eq_true_eq] at hcontinues
      constructor <;> omega
    refine ⟨h.policy, ?_, hcaptured, by rwa [hsince], ?_, ?_, hused, ?_⟩
    · rw [hsince, h.pulses]
      simp [pulseHistorySize, List.take_take]
    · rw [hsince]
      exact List.isChain_cons.mpr ⟨hhead, h.apart⟩
    · rw [hsince]
      simp
    · intro o ho
      refine (h.previous o ho).keep ?_ ?_
      · simp [Turn.Breaks, hrefuses, hcontinues]
      · rintro o' ⟨m, utc, q, hevent, -⟩
        cases hevent
  · rw [if_neg hcontinues] at hsince hknown
    rw [if_neg hcontinues, if_neg hcontinues]
    refine ⟨h.policy, ?_, hcaptured, by rwa [hsince], ?_, ?_, hused, ?_⟩
    · rw [hsince]
    · simp [hsince]
    · simp [hsince]
    · simp

theorem sentence (h : Tracks policy l s) {s' : Pairer}
    (hs : s'.policy = s.policy ∧ s'.pulses = s.pulses ∧
      s'.lastPulseSequence = s.lastPulseSequence ∧ s'.lastPulseRawNs = s.lastPulseRawNs)
    (hconsumed : s.consumedSequence ≤ s'.consumedSequence)
    (hused : ∀ p, (⟨s, .message m⟩ : Turn).Uses p → p.sequence ≤ s'.consumedSequence)
    (hprevious : ∀ o, s'.previous = some o → JustLabelled (l ++ [⟨s, .message m⟩]) o) :
    Tracks policy (l ++ [⟨s, .message m⟩]) s' := by
  obtain ⟨hpolicy, hpulses, hsequence, hraw⟩ := hs
  have hsince : sinceBreak (l ++ [⟨s, .message m⟩]) = sinceBreak l := by
    rw [sinceBreak_snoc]
    rfl
  refine ⟨hpolicy.trans h.policy, ?_, ?_, ?_, ?_, ?_, ?_, hprevious⟩
  · rw [hpulses, hsince, h.pulses]
  · rw [hsequence, hraw]
    refine forall_snoc h.captured ?_
    rintro p ⟨hevent, -⟩
    cases hevent
  · rw [hsince]
    intro p hp
    obtain ⟨hp, y, hy, hcaptures⟩ := h.known p hp
    exact ⟨hp, y, by simp [hy], hcaptures⟩
  · rw [hsince]
    exact h.apart
  · rw [hsince, hsequence, hraw]
    exact h.newest
  · refine forall_snoc ?_ hused
    intro y hy p hp
    exact (h.used y hy p hp).trans hconsumed

theorem idle (h : Tracks policy l s) (hpairs : s.pairs m = none) :
    Tracks policy (l ++ [⟨s, .message m⟩]) (s.message m).2 := by
  obtain ⟨-, hs⟩ := Pairer.message_idle hpairs
  refine h.sentence ⟨hs.policy, hs.pulses, hs.lastSequence, hs.lastRaw⟩ (by rw [hs.consumed]) ?_ ?_
  · rintro p ⟨m', utc, hevent, hused⟩
    cases hevent
    rw [hpairs] at hused
    cases hused
  · intro o ho
    rcases hs.previous with hprevious | hprevious <;> rw [hprevious] at ho
    · refine (h.previous o ho).keep (fun hbreak => hbreak) ?_
      rintro o ⟨m', utc, p, hevent, hused, -⟩
      cases hevent
      rw [hpairs] at hused
      cases hused
    · cases ho

theorem taken (h : Tracks policy l s) (hpairs : s.pairs m = some (utc, p)) :
    Tracks policy (l ++ [⟨s, .message m⟩]) (s.message m).2 := by
  have htaken := Pairer.pairs_taken hpairs
  have hs : Pairer.Labelled s m utc p (s.take m utc p) := Pairer.take_labelled
  rw [htaken.message]
  have hfresh : s.consumedSequence ≤ (s.take m utc p).2.consumedSequence := by
    rw [hs.consumed]
    exact htaken.fresh.le
  refine h.sentence ⟨hs.policy, hs.pulses, hs.lastSequence, hs.lastRaw⟩ hfresh ?_ ?_
  · rintro q ⟨m', utc', hevent, hused⟩
    cases hevent
    rw [hpairs] at hused
    cases hused
    exact hs.consumed.ge
  · intro o ho
    cases hlabel : Pairer.label s.policy m utc p with
    | error error =>
      rcases (hs.unlabelled error hlabel).2 with hprevious | hprevious <;> rw [hprevious] at ho
      · refine (h.previous o ho).keep (fun hbreak => hbreak) ?_
        rintro o ⟨m', utc', q, hevent, hused, hok⟩
        cases hevent
        rw [hpairs] at hused
        cases hused
        rw [hlabel] at hok
        cases hok
      · cases ho
    | ok value =>
      rw [(hs.labelled value hlabel).1] at ho
      cases ho
      exact JustLabelled.now ⟨m, utc, p, rfl, hpairs, hlabel⟩

theorem step (h : Tracks policy l s) : Tracks policy (l ++ [⟨s, e⟩]) (s.step e) := by
  cases e with
  | pulse p =>
    cases hrefuses : s.refuses p with
    | false => exact h.capture hrefuses
    | true =>
      have hstep : s.step (.pulse p) = { s.lost with error := "invalid_pps" } := by
        simp [Pairer.step, Pairer.pulse, hrefuses]
      rw [hstep]
      refine h.broken (by simp [Turn.extend, hrefuses]) ?_ ?_ ⟨rfl, rfl, rfl, rfl, rfl, rfl⟩
      · rintro q ⟨hevent, haccepted⟩
        cases hevent
        rw [hrefuses] at haccepted
        cases haccepted
      · rintro q ⟨m, utc, hevent, -⟩
        cases hevent
  | message m =>
    cases hpairs : s.pairs m with
    | none => exact h.idle hpairs
    | some pair => exact h.taken hpairs
  | lost =>
    refine h.broken rfl ?_ ?_ ⟨rfl, rfl, rfl, rfl, rfl, rfl⟩
    · rintro q ⟨hevent, -⟩
      cases hevent
    · rintro q ⟨m, utc, hevent, -⟩
      cases hevent

end Tracks

/-! ## What a turn does -/

theorem emits_uses (h : x.Emits o) :
    ∃ m utc p preceding, x.event = .message m ∧ x.before.pairs m = some (utc, p) ∧
      Pairer.label x.before.policy m utc p = .ok o ∧ x.before.previous = some preceding ∧
      Pairer.follows preceding o = true := by
  obtain ⟨m, hevent, hemits⟩ := h
  cases hpairs : x.before.pairs m with
  | none =>
    rw [(Pairer.message_idle hpairs).1] at hemits
    cases hemits
  | some pair =>
    obtain ⟨utc, p⟩ := pair
    have hs : Pairer.Labelled x.before m utc p (x.before.take m utc p) := Pairer.take_labelled
    rw [(Pairer.pairs_taken hpairs).message] at hemits
    cases hlabel : Pairer.label x.before.policy m utc p with
    | error error =>
      rw [(hs.unlabelled error hlabel).1] at hemits
      cases hemits
    | ok value =>
      obtain ⟨rfl, preceding, hprevious, hfollows⟩ := (hs.labelled value hlabel).2 o hemits
      exact ⟨m, utc, p, preceding, hevent, hpairs, hlabel, hprevious, hfollows⟩

theorem fits_latest {received : Nat} (h : p.fits policy received = true) :
    received ≤ p.latest + policy.maximumMessageDelayNs := by
  simp only [Pulse.fits, decide_eq_true_eq, not_or, not_and] at h
  omega

namespace Tracks

/-- A capture out of the history is far older than the newest. -/
theorem forgotten (h : Tracks policy l s) (hp : p ∈ sinceBreak l)
    (hgone : p ∉ (sinceBreak l).take pulseHistorySize) :
    ∃ y ∈ l, ∃ newest, y.Captures newest ∧
      p.rawNs + pulseHistorySize * (secondNs - 1000000) ≤ newest.rawNs := by
  obtain ⟨i, hi, rfl⟩ := List.mem_iff_getElem.mp hp
  have hfar : pulseHistorySize ≤ i := by
    by_contra hnear
    refine hgone (List.mem_iff_getElem.mpr ⟨i, ?_, by rw [List.getElem_take]⟩)
    rw [List.length_take]
    omega
  obtain ⟨newest, hnewest, hdistance⟩ := apart_head h.apart hi
  obtain ⟨-, y, hy, hcaptures⟩ := h.known newest (List.mem_of_mem_head? hnewest)
  have hspan := Nat.mul_le_mul_right (secondNs - 1000000) hfar
  exact ⟨y, hy, newest, hcaptures, by omega⟩

theorem paired (h : Tracks policy l s) : Paired policy l ⟨s, e⟩ := by
  have hused : ∀ p, (⟨s, e⟩ : Turn).Uses p → (∃ y ∈ l, y.Captures p) ∧
      ∀ y ∈ l, ∀ q, y.Uses q → q.sequence < p.sequence := by
    rintro p ⟨m, utc, -, hpairs⟩
    have htaken := Pairer.pairs_taken hpairs
    have hheld := htaken.held
    rw [h.pulses] at hheld
    obtain ⟨-, hcaptured⟩ := h.known p (List.mem_of_mem_take hheld)
    refine ⟨hcaptured, ?_⟩
    intro y hy q hq
    exact Nat.lt_of_le_of_lt (h.used y hy q hq) htaken.fresh
  have hsingle : ∀ m o, e = .message m → (⟨s, e⟩ : Turn).Emits o →
      ∀ p ∈ (sinceBreak l).take pulseHistorySize, p.fits policy m.receivedRawNs →
        p.sequence = o.sequence := by
    intro m o hevent hemits p hp hfits
    obtain ⟨m', utc, taken, preceding, hmessage, hpairs, hlabel, -⟩ := emits_uses hemits
    obtain rfl := Event.message.inj (hevent.symm.trans hmessage)
    have honly := (Pairer.pairs_taken hpairs).only p (by rwa [h.pulses])
      (by rwa [h.policy])
    rw [honly, (Pairer.label_pulse hlabel).1]
  refine ⟨?_, hused, ?_, ?_, ?_, hsingle, ?_⟩
  · rintro p ⟨hevent, hrefuses⟩ y hy q hq
    obtain ⟨-, -, hsequence, hraw⟩ : _ ∧ _ ∧ s.lastPulseSequence < p.sequence ∧
      s.lastPulseRawNs < p.rawNs := accepted hrefuses
    have hold := h.captured y hy q hq
    exact ⟨by omega, by omega⟩
  · intro o hemits
    obtain ⟨m, utc, p, -, rfl, hpairs, hlabel, -⟩ := emits_uses hemits
    have hpulse := Pairer.label_pulse hlabel
    exact ⟨⟨m, utc, p, rfl, hpairs, hlabel⟩, p, ⟨m, utc, rfl, hpairs⟩, hpulse.1, hpulse.2⟩
  · intro o hemits y hy o' hearlier
    obtain ⟨m, utc, p, -, hevent, hpairs, hlabel, -⟩ := emits_uses hemits
    obtain ⟨m', utc', q, -, hevent', hpairs', hlabel', -⟩ := emits_uses hearlier
    rw [(Pairer.label_pulse hlabel).1, (Pairer.label_pulse hlabel').1]
    exact (hused p ⟨m, utc, hevent, hpairs⟩).2 y hy q ⟨m', utc', hevent', hpairs'⟩
  · intro o hemits
    obtain ⟨m, utc, p, preceding, rfl, hpairs, hlabel, hprevious, hfollows⟩ := emits_uses hemits
    have hjust := h.previous preceding hprevious
    obtain ⟨a, y, b, rfl, ⟨m', utc', q, hevent, hqpairs, hqlabel⟩, -⟩ := hjust
    have hearlier := (hused p ⟨m, utc, rfl, hpairs⟩).2 y (by simp) q ⟨m', utc', hevent, hqpairs⟩
    rw [← (Pairer.label_pulse hlabel).1, ← (Pairer.label_pulse hqlabel).1] at hearlier
    exact ⟨preceding, h.previous preceding hprevious, Pairer.follows_spec hfollows hearlier⟩
  · intro m o hevent hemits hnewest p hp hfits
    by_cases hheld : p ∈ (sinceBreak l).take pulseHistorySize
    · exact hsingle m o hevent hemits p hheld hfits
    · exfalso
      obtain ⟨y, hy, newest, hcaptures, hfar⟩ := h.forgotten hp hheld
      obtain ⟨m', utc, taken, -, hmessage, hpairs, -⟩ := emits_uses hemits
      have hvalid : s.policy.valid = true := (Pairer.pairs_taken hpairs).valid
      have hdelay : policy.maximumMessageDelayNs < 2 * secondNs := by
        rw [h.policy] at hvalid
        simp only [PairingPolicy.valid, decide_eq_true_eq] at hvalid
        exact hvalid.2.2.2.2.1
      have huncertainty := (h.known p hp).1
      have hreach := hnewest y hy newest hcaptures
      have hlatest := fits_latest hfits
      unfold Pulse.latest at hlatest
      have hspan : pulseHistorySize * (secondNs - 1000000) =
          historyReachNs + 100000000 + 2 * secondNs := by decide
      omega

end Tracks

theorem tracked (h : Tracks policy l s) (hl : Lib.Each (Paired policy) l) (events : List Event) :
    Lib.Each (Paired policy) (l ++ turns s events) := by
  induction events generalizing l s with
  | nil => simpa [turns] using hl
  | cons event events ih =>
    have hnext := ih (l := l ++ [⟨s, event⟩]) h.step (hl.snoc h.paired)
    rwa [List.append_assoc, List.singleton_append] at hnext

/-- Over all runs: captures and emissions advance, no capture takes two labels, an emission
continues the label of the capture before, one second earlier, and no other capture of the
history fits its sentence. -/
theorem pairer_pairs (policy : PairingPolicy) (events : List Event) :
    Lib.Each (Paired policy) (turns { policy } events) :=
  tracked Tracks.start Lib.Each.nil events

end

/-- A receiver whose sentences follow their edge by less than a second. -/
def promptPolicy : PairingPolicy :=
  { qualified := true, maximumMessageDelayNs := 999999999 }

/-- A capture of great uncertainty, a break ten milliseconds later, and two labelled edges. -/
def glitchEvents : List Event :=
  [.pulse { rawNs := 9990000000, uncertaintyNs := 100000000, sequence := 1 },
    .pulse { rawNs := 10000000000, sequence := 2 },
    .message { receivedRawNs := 10500000000, utcNs := some (100 * secondNs), timeValid := true },
    .pulse { rawNs := 11000000000, sequence := 3 },
    .message { receivedRawNs := 11050000000, utcNs := some (101 * secondNs), timeValid := true }]

/-- The sentence of an emission may fit a capture that a break has dropped. -/
theorem dropped_pulse_fits : ¬ ∀ (policy : PairingPolicy) (events : List Event),
    Lib.Each (fun before x => ∀ m o, x.event = .message m → x.Emits o →
      ∀ y ∈ before, ∀ p, y.Captures p → p.fits policy m.receivedRawNs → p.sequence = o.sequence)
      (turns { policy := policy } events) := by
  intro h
  have hlast := h promptPolicy glitchEvents
    (turns { policy := promptPolicy } (glitchEvents.take 4)) _ [] rfl _
    { rawNs := 11000000000, utcNs := 101 * secondNs, uncertaintyNs := 100000, sequence := 3,
      captureRawNs := 11000000000 } rfl ⟨_, rfl, by decide⟩ _ List.mem_cons_self
    { rawNs := 9990000000, uncertaintyNs := 100000000, sequence := 1 } ⟨rfl, by decide⟩ (by decide)
  exact absurd hlast (by decide)

end WsprryPico.Time.Gps
