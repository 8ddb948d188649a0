import WsprryPico.Rf.Si5351.Execute

/-!
# The calls of the Si5351 engine

What one call leaves behind (`Performed`): an entry in the log, the engine as it
was, and the device too where the call is not one of its own. `Since base` says
that nothing was entered in the log after `base` that turns the output on, and
every function but the launch and the restart after a gap keeps it.
-/

namespace WsprryPico.Rf.Si5351

open Wtp Lib

variable {ω α β : Type}

/-- The calls that may turn an output on. -/
def Action.enabling : Action → Bool
  | .setGate active => active
  | .requestTransmitEnabled value => value
  | .transmitEnabled value => value
  | .referenceEnabled value => value
  | .serviceReference permitted => permitted
  | _ => false

/-- The calls that may change the device. -/
def Action.drivesDevice : Action → Bool
  | .pauseReference | .serviceReference _ | .configure _ | .locked | .transmitTone _
  | .primeTransmit | .requestTransmitEnabled _ | .verifyTransmit | .transmitEnabled _
  | .referenceEnabled _ | .quiesce => true
  | _ => false

/-- The log is `base` with quiet entries before it. -/
def Since (base : List Entry) (m : Machine ω) : Prop :=
  ∃ recent, m.log = recent ++ base ∧ ∀ x ∈ recent, x.action.enabling = false

theorem Since.refl (m : Machine ω) : Since m.log m := ⟨[], rfl, by simp⟩

theorem Since.of_log {base : List Entry} {m m' : Machine ω} (h : Since base m)
    (hlog : m'.log = m.log) : Since base m' := by
  unfold Since
  rw [hlog]
  exact h

theorem Since.trans {base : List Entry} {m m' : Machine ω} (h : Since base m)
    (h' : Since m.log m') : Since base m' := by
  obtain ⟨recent, hlog, hquiet⟩ := h
  obtain ⟨recent', hlog', hquiet'⟩ := h'
  refine ⟨recent' ++ recent, by rw [hlog', hlog, List.append_assoc], fun x hx => ?_⟩
  rcases List.mem_append.mp hx with hx | hx
  · exact hquiet' x hx
  · exact hquiet x hx

/-- What a call leaves: its entry, and nothing else of the engine's. -/
structure Performed (wiring : Wiring ω) (a : Action) (m : Machine ω) (ok : Bool)
    (m' : Machine ω) : Prop where
  engine : m'.engine = m.engine
  log : m'.log = ⟨a, ok, m.engine.epoch, wiring.time m.world, wiring.time m'.world⟩ :: m.log
  device : a.drivesDevice = false → m'.device = m.device

theorem Performed.since {wiring : Wiring ω} {a : Action} {ok : Bool} {m m' : Machine ω}
    (h : Performed wiring a m ok m') (ha : a.enabling = false) : Since m.log m' :=
  ⟨[_], h.log, by simpa using ha⟩

/-- A call that leaves one entry for `a`. -/
def Calls (wiring : Wiring ω) (a : Action) (c : EngineM ω Bool) : Prop :=
  ∀ m, Performed wiring a m (c m).1 (c m).2

/-- A computation that leaves the engine, the device and the log alone. -/
structure Reads (c : EngineM ω α) : Prop where
  engine : ∀ m, (c m).2.engine = m.engine
  device : ∀ m, (c m).2.device = m.device
  log : ∀ m, (c m).2.log = m.log

section Rules

variable {wiring : Wiring ω} {a : Action} {P : Machine ω → Prop} {Q : β → Machine ω → Prop}

theorem Calls.bind {c : EngineM ω Bool} {k : Bool → EngineM ω β} (hc : Calls wiring a c)
    (h : ∀ m ok m', P m → c m = (ok, m') → Performed wiring a m ok m' →
      Triple (· = m') (k ok) Q) : Triple P (c >>= k) Q :=
  fun m hm => h m (c m).1 (c m).2 hm rfl (hc m) _ rfl

theorem engine_bind {k : Engine → EngineM ω β}
    (h : ∀ m, P m → Triple (· = m) (k m.engine) Q) : Triple P (EngineM.engine >>= k) Q :=
  fun m hm => h m hm m rfl

theorem machine_bind {k : Machine ω → EngineM ω β}
    (h : ∀ m, P m → Triple (· = m) (k m) Q) : Triple P (EngineM.machine >>= k) Q :=
  fun m hm => h m hm m rfl

theorem update_bind {f : Engine → Engine} {k : Unit → EngineM ω β}
    (h : ∀ m, P m → Triple (· = { m with engine := f m.engine }) (k ()) Q) :
    Triple P (EngineM.update f >>= k) Q :=
  fun m hm => h m hm _ rfl

end Rules

theorem Reads.pure (x : α) : Reads (Pure.pure x : EngineM ω α) :=
  ⟨fun _ => rfl, fun _ => rfl, fun _ => rfl⟩

theorem Reads.bind_reads {c : EngineM ω α} {k : α → EngineM ω β} (hc : Reads c)
    (hk : ∀ x, Reads (k x)) : Reads (c >>= k) where
  engine m := ((hk _).engine _).trans (hc.engine m)
  device m := ((hk _).device _).trans (hc.device m)
  log m := ((hk _).log _).trans (hc.log m)

theorem Reads.ite {p : Prop} [Decidable p] {c d : EngineM ω α} (hc : Reads c) (hd : Reads d) :
    Reads (if p then c else d) := by
  split
  · exact hc
  · exact hd

open EngineM

theorem reads_onWorld (f : ω → α × ω) : Reads (onWorld f) := ⟨fun _ => rfl, fun _ => rfl, fun _ => rfl⟩

theorem reads_machine : Reads (machine : EngineM ω _) := ⟨fun _ => rfl, fun _ => rfl, fun _ => rfl⟩

theorem reads_engine : Reads (engine : EngineM ω _) := ⟨fun _ => rfl, fun _ => rfl, fun _ => rfl⟩

theorem reads_onIndicator (f : IndicatorGate → α × IndicatorGate) :
    Reads (onIndicator f : EngineM ω α) := ⟨fun _ => rfl, fun _ => rfl, fun _ => rfl⟩

theorem reads_onFilters (f : FilterSelector → ω → α × FilterSelector × ω) : Reads (onFilters f) :=
  ⟨fun _ => rfl, fun _ => rfl, fun _ => rfl⟩

theorem reads_onAmplifier (f : AmplifierEnable → ω → α × AmplifierEnable × ω) :
    Reads (onAmplifier f) := ⟨fun _ => rfl, fun _ => rfl, fun _ => rfl⟩

namespace Wiring

variable (wiring : Wiring ω)

theorem perform_reads {a : Action} {c : EngineM ω Bool} (hc : Reads c) :
    Calls wiring a (wiring.perform a c) := fun m =>
  ⟨hc.engine m, congrArg (_ :: ·) (hc.log m), fun _ => hc.device m⟩

theorem perform_onDevice {a : Action} (f : DeviceM (Tapped ω) Bool) (ha : a.drivesDevice = true) :
    Calls wiring a (wiring.perform a (onDevice f)) := fun _ =>
  ⟨rfl, rfl, fun h => absurd (ha.symm.trans h) (by decide)⟩

theorem perform_onReference {a : Action} (f : Controller ω → Bool × Controller ω)
    (ha : a.drivesDevice = true) : Calls wiring a (wiring.perform a (onReference f)) := fun _ =>
  ⟨rfl, rfl, fun h => absurd (ha.symm.trans h) (by decide)⟩

theorem setGate_calls (active : Bool) : Calls wiring (.setGate active) (wiring.setGate active) :=
  wiring.perform_reads (reads_onWorld _)

theorem armCutoff_calls (endNs : UInt64) :
    Calls wiring (.armCutoff endNs) (wiring.armCutoff endNs) :=
  wiring.perform_reads (reads_onWorld _)

theorem pauseReference_calls (deadline : UInt64) :
    Calls wiring .pauseReference (wiring.pauseReference deadline) :=
  wiring.perform_onReference _ rfl

theorem configure_calls (plan : Plan) (deadline : UInt64) :
    Calls wiring (.configure plan.tones.head?) (wiring.configure plan deadline) :=
  wiring.perform_onDevice _ rfl

theorem locked_calls (deadline : UInt64) : Calls wiring .locked (wiring.locked deadline) :=
  wiring.perform_onDevice _ rfl

theorem transmitTone_calls (tone : Tone) (deadline : UInt64) :
    Calls wiring (.transmitTone tone) (wiring.transmitTone tone deadline) :=
  wiring.perform_onDevice _ rfl

theorem primeTransmit_calls (deadline : UInt64) :
    Calls wiring .primeTransmit (wiring.primeTransmit deadline) :=
  wiring.perform_onDevice _ rfl

theorem requestTransmitEnabled_calls (value : Bool) (deadline : UInt64) :
    Calls wiring (.requestTransmitEnabled value) (wiring.requestTransmitEnabled value deadline) :=
  wiring.perform_onDevice _ rfl

theorem verifyTransmit_calls (deadline : UInt64) :
    Calls wiring .verifyTransmit (wiring.verifyTransmit deadline) :=
  wiring.perform_onDevice _ rfl

theorem transmitEnabled_calls (value : Bool) (deadline : UInt64) :
    Calls wiring (.transmitEnabled value) (wiring.transmitEnabled value deadline) :=
  wiring.perform_onDevice _ rfl

theorem referenceEnabled_calls (value : Bool) (deadline : UInt64) :
    Calls wiring (.referenceEnabled value) (wiring.referenceEnabled value deadline) :=
  wiring.perform_onDevice _ rfl

theorem quiesce_calls (deadline : UInt64) : Calls wiring .quiesce (wiring.quiesce deadline) :=
  wiring.perform_onDevice _ rfl

theorem nowNs_reads : Reads wiring.nowNs := reads_onWorld _

theorem outputActive_reads : Reads wiring.outputActive := by
  refine reads_machine.bind_reads fun m => .ite (.pure _) ?_
  refine (reads_onWorld _).bind_reads fun _ => .ite (.pure _) ?_
  exact reads_machine.bind_reads fun _ => .pure _

theorem report_reads : Reads wiring.report :=
  wiring.outputActive_reads.bind_reads fun _ => reads_machine.bind_reads fun _ => .pure _

end Wiring

end WsprryPico.Rf.Si5351
