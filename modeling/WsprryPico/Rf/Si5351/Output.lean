import WsprryPico.Lib.Leaves
import WsprryPico.Rf.Si5351.Stop

/-!
# The commanded output

What the log of the engine says of the output: the gate, the newest command of the
transmit output, the tone last programmed and the events entered since the launch
(`Machine.output`). Then the two facts a running job needs of its plan and the
three of the device.
-/

namespace WsprryPico.Rf.Si5351

open Wtp Lib

variable {ω α : Type}

/-! ## Plans -/

/-- A plan sounds, and the first tone it keys on is its first. -/
structure JobPlan.Playable (plan : JobPlan) : Prop where
  first : ∀ tone, plan.tone 0 = some tone → tone = 0
  sounds : ∃ index, (plan.tone index).isSome

/-- What one round of the event loop plans, before any tone is selected. -/
theorem planEvent_first {job : Job} {minimumTransition : UInt64} {last : Bool}
    {cursor next : JobCursor} {event : RfEvent} {planned : List PlannedEvent}
    (hnone : cursor.frequencies = [])
    (h : planEvent job minimumTransition last cursor event = .ok (planned, next)) :
    (∃ endUs, planned = [⟨endUs, some 0⟩]) ∨
      next.frequencies = [] ∧ (planned = [] → last = true) ∧ ∀ e ∈ planned, e.tone = none := by
  unfold planEvent at h
  dsimp only at h
  generalize (cursor.previous + event.durationNs +
    if (last && !event.rfOn) = true then 999 else 500) / 1000 = ticks at h
  split at h
  · cases h
  split at h
  · cases h
  split at h
  · cases h
  rename_i hvalid hinterval hcollapsed
  unfold selectTone at h
  rw [hnone] at h
  cases hon : event.rfOn with
  | false =>
    rw [hon] at h
    dsimp only at h
    cases h
    refine .inr ⟨rfl, fun hempty => ?_, fun e he => ?_⟩
    · by_contra hlast
      rw [if_pos] at hempty
      · cases hempty
      · simpa [hlast, hon] using hcollapsed
    · split at he
      · rw [List.mem_singleton.mp he]
      · cases he
  | true =>
    rw [hon] at h
    cases hfrequency : event.frequencyNhz with
    | none => exact absurd (.inr (.inr (.inr (by simp [hon, hfrequency])))) hvalid
    | some frequency =>
      rw [hfrequency] at h
      cases h
      refine .inl ⟨_, if_pos ?_⟩
      simpa [hon] using hcollapsed

theorem planEvents_first {job : Job} {minimumTransition : UInt64} {events : List RfEvent} :
    ∀ {cursor next : JobCursor} {planned : List PlannedEvent}, cursor.frequencies = [] →
      planEvents job minimumTransition cursor events = .ok (planned, next) →
      (∀ e, planned.head? = some e → e.tone = none ∨ e.tone = some 0) ∧
        (next.frequencies ≠ [] → ∃ e ∈ planned, e.tone.isSome) := by
  induction events with
  | nil =>
    intro cursor next planned hnone h
    cases h
    exact ⟨nofun, fun h => absurd hnone h⟩
  | cons event rest ih =>
    intro cursor next planned hnone h
    obtain ⟨first, middle, others, hevent, hrest, rfl⟩ := planEvents_cons h
    rcases planEvent_first hnone hevent with ⟨endUs, rfl⟩ | ⟨hmiddle, hlast, hsilent⟩
    · exact ⟨fun e he => .inr (by rw [← Option.some.inj he]), fun _ => ⟨_, List.mem_cons_self, rfl⟩⟩
    obtain ⟨hhead, hsounds⟩ := ih hmiddle hrest
    refine ⟨fun e he => ?_, fun hne => ?_⟩
    · cases first with
      | nil =>
        have hempty := List.isEmpty_iff.mp (hlast rfl)
        subst hempty
        exact hhead e he
      | cons planned₀ _ =>
        rw [← Option.some.inj he]
        exact .inl (hsilent _ List.mem_cons_self)
    · obtain ⟨e, he, hsome⟩ := hsounds hne
      exact ⟨e, List.mem_append_right _ he, hsome⟩

theorem planJob_playable {synthesis : Synthesis} {configuration : Configuration} {job : Job}
    {correction : Int} {minimumTransition : UInt64} {plan : JobPlan}
    (h : planJob synthesis configuration job correction minimumTransition = .ok plan) :
    plan.Playable := by
  unfold planJob at h
  split at h
  · cases h
  split at h
  · cases h
  rename_i events cursor hevents
  split at h
  · cases h
  rename_i hcomplete
  split at h
  · cases h
  split at h
  · cases h
  cases h
  obtain ⟨hhead, hsounds⟩ := planEvents_first rfl hevents
  refine ⟨fun tone htone => ?_, ?_⟩
  · unfold JobPlan.tone at htone
    rw [← List.head?_eq_getElem?] at htone
    obtain ⟨e, he, hsome⟩ := Option.bind_eq_some_iff.mp htone
    rcases hhead e he with hnone | hzero
    · cases hnone.symm.trans hsome
    · exact Option.some.inj (hsome.symm.trans hzero)
  · obtain ⟨e, he, hsome⟩ := hsounds fun hnone => hcomplete (.inr (.inl hnone))
    obtain ⟨index, hlt, rfl⟩ := List.getElem_of_mem he
    refine ⟨index, ?_⟩
    unfold JobPlan.tone
    rw [List.getElem?_eq_getElem hlt]
    exact hsome

/-! ## The output in the log -/

/-- What a call commands the transmit output to do. -/
def Action.request : Action → Option Bool
  | .requestTransmitEnabled value => some value
  | .transmitEnabled value => some value
  | .quiesce => some false
  | _ => none

/-- The output as it was last commanded. `request` is the newest command of the
transmit output and `events` the events entered since the launch, newest first. -/
structure Commanded where
  gate : Bool := false
  request : Option Entry := none
  tone : Tone := {}
  events : List (Nat × UInt64) := []

def Commanded.after (o : Commanded) (x : Entry) : Commanded :=
  match x.action with
  | .setGate active => { o with gate := active }
  | .requestTransmitEnabled _ | .transmitEnabled _ | .quiesce => { o with request := some x }
  | .configure first => { o with tone := first.getD {} }
  | .transmitTone tone => { o with tone := tone }
  | .entered 0 now => { o with events := [(0, now)] }
  | .entered index now => { o with events := (index, now) :: o.events }
  | _ => o

def Machine.output (m : Machine ω) : Commanded := m.log.foldr (fun x o => o.after x) {}

/-- The calls that leave the commanded output as it is. -/
def Action.neutral : Action → Bool
  | .setGate _ | .requestTransmitEnabled _ | .transmitEnabled _ | .quiesce | .configure _
  | .transmitTone _ | .entered _ _ => false
  | _ => true

theorem Commanded.after_neutral {o : Commanded} {x : Entry} (h : x.action.neutral = true) :
    o.after x = o := by
  unfold Commanded.after
  split <;> first | rfl | simp_all [Action.neutral]

/-- The engine and the commanded output are these, and the device is one of `D`. -/
structure At (e : Engine) (o : Commanded) (D : Device → Prop) (m : Machine ω) : Prop where
  engine : m.engine = e
  output : m.output = o
  device : D m.device

section Rules

variable {wiring : Wiring ω} {a : Action} {e : Engine} {o : Commanded} {D : Device → Prop}

theorem Performed.output {ok : Bool} {m m' : Machine ω} (h : Performed wiring a m ok m') :
    m'.output =
      m.output.after ⟨a, ok, m.engine.epoch, wiring.time m.world, wiring.time m'.world⟩ := by
  unfold Machine.output
  rw [h.log]
  rfl

theorem Calls.rests {c : EngineM ω Bool} (hc : Calls wiring a c) (ha : a.neutral = true)
    (hd : a.drivesDevice = false) : Keeps (At e o D) c := fun m h =>
  ⟨(hc m).engine.trans h.engine,
    (hc m).output.trans ((Commanded.after_neutral ha).trans h.output),
    (hc m).device hd ▸ h.device⟩

theorem Calls.unchanged {c : EngineM ω Bool} (hc : Calls wiring a c) (ha : a.neutral = true) :
    Triple (At e o D) c fun _ => At e o fun _ => True := fun m h =>
  ⟨(hc m).engine.trans h.engine,
    (hc m).output.trans ((Commanded.after_neutral ha).trans h.output), trivial⟩

theorem Reads.rests {c : EngineM ω α} (hc : Reads c) : Keeps (At e o D) c := fun m h =>
  ⟨(hc.engine m).trans h.engine, by
    unfold Machine.output
    rw [hc.log m]
    exact h.output, (hc.device m).symm ▸ h.device⟩

theorem update_at (f : Engine → Engine) :
    Triple (At e o D) (EngineM.update f : EngineM ω Unit) fun _ => At (f e) o D := fun _ h =>
  ⟨congrArg f h.engine, h.output, h.device⟩

end Rules

/-! ## The device -/

/-- From a device of `P` the device is one of `Q` where `m` succeeds. -/
def Gives (P Q : Device → Prop) (m : DeviceM ω Bool) : Prop :=
  ∀ c, P c.device → (m c).1 = true → Q (m c).2.device

namespace Gives

open DeviceM

variable {P Q R : Device → Prop} {m n : DeviceM ω Bool}

theorem pure (b : Bool) (h : ∀ d, P d → Q d) : Gives P Q (Pure.pure b : DeviceM ω Bool) :=
  fun _ hp _ => h _ hp

theorem never : Gives P Q (Pure.pure false : DeviceM ω Bool) := fun _ _ h => nomatch h

theorem refused (m : DeviceM ω Unit) : Gives P Q (do m; return false) := fun _ _ h => nomatch h

theorem both (hm : Gives P R m) (hn : Gives R Q n) : Gives P Q (do
    if !(← m) then
      return false
    n) := fun c h hok => by
  have hm' := hm c h
  simp only [bind, StateT.bind] at hok ⊢
  rcases hr : m c with ⟨ok, c'⟩
  rw [hr] at hok hm'
  cases ok with
  | false => exact nomatch hok
  | true => exact hn c' (hm' rfl) hok

theorem ite {p : Prop} [Decidable p] (hm : p → Gives P Q m) (hn : ¬ p → Gives P Q n) :
    Gives P Q (if p then m else n) := by
  split
  · exact hm ‹_›
  · exact hn ‹_›

theorem read {f : ω → α × ω} {k : α → DeviceM ω Bool} (hk : ∀ a, Gives P Q (k a)) :
    Gives P Q (onWorld f >>= k) := fun _ h hok => hk _ _ h hok

theorem look {k : Device → DeviceM ω Bool} (hk : ∀ d, P d → Gives (· = d) Q (k d)) :
    Gives P Q (device >>= k) := fun _ h hok => hk _ h _ rfl hok

theorem update {f : Device → Device} (hf : ∀ d, P d → R (f d)) (hn : Gives R Q n) :
    Gives P Q (do DeviceM.update f; n) := fun _ h hok => hn _ (hf _ h) hok

theorem strengthen (hm : Gives P Q m) (h : ∀ d, R d → P d) : Gives R Q m :=
  fun c hr hok => hm c (h _ hr) hok

end Gives

def Shows (state : ClockOutputState) (d : Device) : Prop := d.transmitState = state

namespace Bus

open DeviceM

variable (bus : Bus ω) {deadline : UInt64} {state : ClockOutputState}

theorem checkedWrite_gives (reg : Nat) (bytes : List UInt8) :
    Gives (Shows state) (Shows state) (bus.checkedWrite reg bytes deadline) := by
  have honWorld : ∀ {α : Type} (f : ω → α × ω), Leaves Controller.device (onWorld f) :=
    fun _ _ => rfl
  have hconfirmed : Leaves Controller.device (bus.confirmed reg bytes deadline) :=
    .ite (.pure _) (.branch (honWorld _) ((honWorld _).bind fun _ => .pure _) (.pure _))
  have hcached : ∀ d, Shows state d → Shows state (d.cached reg bytes) := fun d h => by
    unfold Device.cached
    split <;> exact h
  intro c h hok
  unfold checkedWrite at hok ⊢
  simp only [bind, StateT.bind] at hok ⊢
  have hdevice := hconfirmed c
  rcases hr : bus.confirmed reg bytes deadline c with ⟨ok, c'⟩
  rw [hr] at hok hdevice
  cases ok with
  | false => exact nomatch hok
  | true => exact hcached c'.device (show Shows state c'.device from hdevice ▸ h)

theorem maskedWrite_gives (reg : Nat) (mask bits : UInt8) :
    Gives (Shows state) (Shows state) (bus.maskedWrite reg mask bits deadline) := by
  refine .read fun answer => ?_
  split
  · exact bus.checkedWrite_gives reg _
  · exact .refused _

theorem locked_gives : Gives (Shows state) (Shows state) (bus.locked deadline) := by
  refine .look fun d hd => .ite (fun _ => .never) fun _ => .read fun answer => ?_
  split
  · refine .look fun d' hd' => .update (R := Shows state) (fun _ h => ?_) (.pure _ fun _ h => h)
    rw [h, hd']
    exact hd
  · exact .refused _

theorem retune_gives (pll : Divider) :
    Gives (Shows state) (Shows state) (bus.retune pll deadline) := by
  refine .look fun d hd => .strengthen (.both (bus.checkedWrite_gives 26 _) ?_) fun _ h => h ▸ hd
  refine .both (.ite (fun _ => bus.maskedWrite_gives 22 _ _) fun _ => .pure true fun _ h => h) ?_
  intro c h hok
  have hlocked : (bus.locked deadline c).1 = true → Shows state (bus.locked deadline c).2.device :=
    bus.locked_gives c h
  simp only [bind, StateT.bind] at hok ⊢
  rcases hr : bus.locked deadline c with ⟨ok, c'⟩
  rw [hr] at hok hlocked
  cases ok with
  | false => exact nomatch hok
  | true => exact hlocked rfl

theorem writeTone_gives (tone : Tone) (active : Bool) :
    Gives (Shows state) (Shows state) (bus.writeTone tone active deadline) := by
  refine .look fun d hd => .ite (fun _ => .pure true fun _ h => h ▸ hd) fun _ => ?_
  refine .update (R := Shows state) (fun _ h => h ▸ hd) ?_
  refine .both (bus.checkedWrite_gives _ _) (.both (bus.checkedWrite_gives _ _) ?_)
  exact .update (R := Shows state) (fun _ h => h) (.pure true fun _ h => h)

/-- A change of tone leaves the state of the output. -/
theorem transmitTone_gives (tone : Tone) :
    Gives (Shows state) (Shows state) (bus.transmitTone tone deadline) := by
  refine .look fun d hd => .ite (fun _ => .never) fun _ => .strengthen ?_ fun _ h => h ▸ hd
  unfold tuneTo
  dsimp only
  split
  · refine .both (.ite (fun _ => bus.retune_gives _) fun _ => .pure true fun _ h => h) ?_
    exact bus.writeTone_gives tone _
  · exact bus.writeTone_gives tone _

theorem request_gives :
    Gives (fun _ => True) (·.pending = .enable) (bus.requestTransmitEnabled true deadline) := by
  refine .look fun d _ => ?_
  split
  · refine .ite (fun _ => .never) fun _ => .update (R := fun _ => True) (fun _ _ => trivial) ?_
    refine .read fun done => .ite (fun _ => .refused _) fun _ => ?_
    exact .update (fun _ _ => rfl) (.pure true fun _ h => h)
  · exact .never

/-- A confirmed request shows the output enabled. -/
theorem verify_gives :
    Gives (·.pending = .enable) (Shows .registerEnabled) (bus.verifyTransmit deadline) := by
  refine .look fun d hpending => .ite (fun _ => .never) fun _ => .read fun answer => ?_
  split
  · refine .read fun answer => ?_
    split
    · rename_i mask _ control
      refine .ite (fun _ => .refused _) fun hconfirms => ?_
      refine .update (R := Shows .registerEnabled) (fun d' hd => ?_) (.pure true fun _ h => h)
      have hruns : runs d.transmit mask control = true := by
        have h : confirms mask control d = true := by simpa using hconfirms
        unfold confirms at h
        rw [show d.pending = .enable from hpending] at h
        exact (Bool.and_eq_true_iff.mp h).2
      subst hd
      unfold Shows observed Device.transmitState Device.setState
      simp [hruns]
    · exact .refused _
  · exact .refused _

end Bus

end WsprryPico.Rf.Si5351
