import WsprryPico.Rf.Si5351.Order

/-!
# The chain of an armed Si5351 job

A poll of an armed engine before its launch: the filters are released, selected and
settle, then the amplifier leads. `Poised` is what each of these steps keeps, from
the reading `now` on that the poll acts on.
-/

namespace WsprryPico.Rf.Si5351

open Wtp Lib EngineM

variable {ω α : Type}

theorem addSat_toNat (a b : UInt64) :
    (addSat a b).toNat = min (a.toNat + b.toNat) (2 ^ 64 - 1) := by
  unfold addSat
  have ha := a.toNat_lt
  have hb := b.toNat_lt
  have hmax : (u64Max - b).toNat = 2 ^ 64 - 1 - b.toNat :=
    UInt64.toNat_sub_of_le _ _ (UInt64.le_iff_toNat_le.mpr (Nat.le_of_lt_succ hb))
  split
  · rename_i h
    rw [gt_iff_lt, UInt64.lt_iff_toNat_lt, hmax] at h
    show 2 ^ 64 - 1 = _
    omega
  · rename_i h
    rw [gt_iff_lt, UInt64.lt_iff_toNat_lt, hmax] at h
    rw [UInt64.toNat_add]
    omega

theorem addSat_mono {a b : UInt64} (h : a ≤ b) (c : UInt64) : addSat a c ≤ addSat b c := by
  rw [UInt64.le_iff_toNat_le] at h ⊢
  rw [addSat_toNat, addSat_toNat]
  omega

/-! ## Time -/

/-- `c` does not turn the timer back. -/
def Forward (wiring : Wiring ω) (c : EngineM ω α) : Prop :=
  ∀ m, wiring.time m.world ≤ wiring.time (c m).2.world

namespace Ticks

variable {wiring : Wiring ω} (h : Ticks wiring)
include h

theorem nowNs_forward : Forward wiring wiring.nowNs := fun m =>
  UInt64.le_trans (h.reads m.world).1 (h.reads m.world).2

theorem deactivateFilters_forward : Forward wiring wiring.deactivateFilters := by
  intro m
  unfold Wiring.deactivateFilters Wiring.filterCall
  cases hbank : wiring.filters with
  | none => exact UInt64.le_refl _
  | some bank =>
    show _ ≤ wiring.time (bank.deactivate m.filters m.world).2.2
    unfold FilterBank.deactivate
    cases houtputs : bank.outputs with
    | none => exact UInt64.le_refl _
    | some outputs =>
      dsimp only
      split
      · exact (h.filters hbank houtputs m.world).2.1
      · exact (h.filters hbank houtputs m.world).1

theorem activateFilters_forward : Forward wiring wiring.activateFilters := by
  intro m
  unfold Wiring.activateFilters Wiring.filterCall
  cases hbank : wiring.filters with
  | none => exact UInt64.le_refl _
  | some bank =>
    show _ ≤ wiring.time (bank.activate m.filters m.world).2.2
    unfold FilterBank.activate
    split
    · exact UInt64.le_refl _
    cases houtputs : bank.outputs with
    | none => exact UInt64.le_refl _
    | some outputs =>
      dsimp only
      split
      · exact UInt64.le_refl _
      · exact ((h.filters hbank houtputs m.world).2.2 _).1

theorem verifyFilters_forward : Forward wiring wiring.verifyFilters := by
  intro m
  unfold Wiring.verifyFilters Wiring.filterCall
  cases hbank : wiring.filters with
  | none => exact UInt64.le_refl _
  | some bank =>
    show _ ≤ wiring.time (bank.verify m.filters m.world).2
    unfold FilterBank.verify
    split
    · exact UInt64.le_refl _
    cases houtputs : bank.outputs with
    | none => exact UInt64.le_refl _
    | some outputs =>
      dsimp only
      split
      · exact ((h.filters hbank houtputs m.world).2.2 _).2
      · exact UInt64.le_refl _

theorem activateAmplifier_forward : Forward wiring wiring.activateAmplifier := by
  intro m
  unfold Wiring.activateAmplifier Wiring.amplifierCall
  cases hamplifier : wiring.amplifier with
  | none => exact UInt64.le_refl _
  | some amplifier =>
    show _ ≤ wiring.time (amplifier.activate m.amplifier m.world).2.2
    unfold Amplifier.activate
    cases houtput : amplifier.output with
    | none => exact UInt64.le_refl _
    | some output =>
      dsimp only
      split
      · exact UInt64.le_refl _
      · exact (h.amplifier hamplifier houtput m.world).1 true

theorem verifyAmplifier_forward : Forward wiring wiring.verifyAmplifier := by
  intro m
  unfold Wiring.verifyAmplifier
  cases hamplifier : wiring.amplifier with
  | none => exact UInt64.le_refl _
  | some amplifier =>
    dsimp only
    split
    · exact UInt64.le_refl _
    show _ ≤ wiring.time (amplifier.verifyActive m.amplifier m.world).2
    unfold Amplifier.verifyActive
    cases houtput : amplifier.output with
    | none => exact UInt64.le_refl _
    | some output =>
      dsimp only
      split
      · exact UInt64.le_refl _
      · exact (h.amplifier hamplifier houtput m.world).2

end Ticks

/-! ## A step of the chain -/

/-- The members of an armed engine that the chain leaves alone. -/
def Engine.arming (e : Engine) := (e.state, e.plan, e.epoch, e.conditions, e.deadlineNs, e.startNs)

/-- An armed engine in the poll that reads `now`, before its launch. -/
structure Poised (wiring : Wiring ω) (m₀ : Machine ω) (now : UInt64) (m : Machine ω) : Prop where
  trail : Trail m₀ (fun _ _ => False) m
  arming : m.engine.arming = m₀.engine.arming
  stages : Stages wiring m.engine m.log
  time : now ≤ wiring.time m.world

/-- A poll ended before the launch: the engine is still armed, or was shut down. -/
def Rests (wiring : Wiring ω) (m₀ : Machine ω) (now : UInt64) (m : Machine ω) : Prop :=
  Poised wiring m₀ now m ∨ Dead wiring m₀ (fun _ _ => False) m ∧
    (m.engine.state = .failed ∨ m.engine.state = .missed)

/-- A step of the poll goes on, or ends it. -/
def Goes (wiring : Wiring ω) (m₀ : Machine ω) (now : UInt64) (R : Engine → Prop) (ok : Bool)
    (m : Machine ω) : Prop :=
  if ok then Poised wiring m₀ now m ∧ R m.engine else Rests wiring m₀ now m

/-- The filters an engine requires are settled at `now`. -/
def Settled (wiring : Wiring ω) (now : UInt64) (e : Engine) : Prop :=
  wiring.filtersRequired = true →
    ∃ selected, e.selectionNs = some selected ∧ addSat selected wiring.filterSettleNs ≤ now

/-- The amplifier of an engine leads its start. -/
def Leads (wiring : Wiring ω) (e : Engine) : Prop :=
  wiring.amplifierEnabled = true →
    ∃ enabled, e.enableNs = some enabled ∧ addSat enabled wiring.amplifierLeadNs ≤ e.startNs

theorem Stages.of_engine {wiring : Wiring ω} {e e' : Engine} {log : List Entry}
    (h : Stages wiring e log) (hepoch : e'.epoch = e.epoch) (hrelease : e'.releaseNs = e.releaseNs)
    (hselection : e'.selectionNs = e.selectionNs) (henable : e'.enableNs = e.enableNs) :
    Stages wiring e' log := by
  constructor
  · rw [hepoch, hrelease, hselection]
    exact h.filters
  · rw [hepoch, hselection, henable]
    exact h.amplifier

namespace Wiring

variable (wiring : Wiring ω) {m₀ : Machine ω} {now : UInt64} {R Q : Engine → Prop}

theorem poised_reads {c : EngineM ω α} (hc : Reads c) (hforward : Forward wiring c) :
    Keeps (Poised wiring m₀ now) c := fun m h =>
  ⟨h.trail.of_engine (hc.log m) (congrArg Engine.epoch (hc.engine m)),
    (congrArg Engine.arming (hc.engine m)).trans h.arming,
    by rw [hc.engine m, hc.log m]; exact h.stages, UInt64.le_trans h.time (hforward m)⟩

theorem fail_rests (now : UInt64) (reason : String) (outcome : EngineState)
    (houtcome : outcome = .failed ∨ outcome = .missed) :
    Triple (Trail m₀ fun _ _ => False) (wiring.fail reason outcome) fun ok m =>
      ok = false ∧ Rests wiring m₀ now m := by
  refine (wiring.fail_dead reason outcome).weaken fun ok m h => ⟨h.1, .inr ⟨h.2.1, ?_⟩⟩
  rcases h.2.2 with h | h
  · exact .inl h
  · exact houtcome.imp h.trans h.trans

theorem noted {a : Action} {c : EngineM ω Bool} {reason : String} {f : UInt64 → Engine → Engine}
    {S : Engine → Prop} {e : Engine} (hticks : Ticks wiring) (hc : Calls wiring a c)
    (hforward : Forward wiring c) (hquiet : a.starts = false)
    (harming : ∀ r, (f r e).arming = e.arming) (hs : ∀ r, S (f r e))
    (hstages : ∀ x r log, Stages wiring e log → x.action = a → x.ok = true → x.epoch = e.epoch →
      now ≤ x.issued → x.done ≤ r → Stages wiring (f r e) (x :: log)) :
    Triple (fun m => Poised wiring m₀ now m ∧ m.engine = e) (do
      if !(← c) then
        return ← wiring.fail reason
      let r ← wiring.nowNs
      update (f r)
      return true) (Goes wiring m₀ now S) := by
  refine hc.bind fun m ok m' hm hrun hp => ?_
  obtain ⟨hpoised, rfl⟩ := hm
  have htrail : Trail m₀ (fun _ _ => False) m' := hpoised.trail.performed hp
    fun hs => nomatch hquiet.symm.trans hs
  have htime : wiring.time m.world ≤ wiring.time m'.world := by
    have h := hforward m
    rw [hrun] at h
    exact h
  cases ok with
  | false =>
    refine Triple.strengthen (P := Trail m₀ fun _ _ => False) ?_ fun _ h => h ▸ htrail
    refine (wiring.fail_rests now reason .failed (.inl rfl)).bind fun r =>
      Triple.pure fun m h => ?_
    obtain ⟨rfl, h⟩ := h
    exact h
  | true =>
    rintro m' rfl
    have hread := hticks.reads m'.world
    have hepoch : ∀ r, (f r m.engine).epoch = m.engine.epoch := fun r =>
      congrArg (·.2.2.1) (harming r)
    have hstaged := hstages ⟨a, true, m.engine.epoch, wiring.time m.world, wiring.time m'.world⟩
      (wiring.nowNs m').1 m.log hpoised.stages rfl rfl rfl hpoised.time hread.1
    have hafter : Poised wiring m₀ now { (wiring.nowNs m').2 with
        engine := f (wiring.nowNs m').1 m'.engine } := by
      refine ⟨htrail.of_engine rfl ?_, ?_, ?_, ?_⟩
      · rw [hp.engine]
        exact hepoch _
      · rw [hp.engine]
        exact (harming _).trans hpoised.arming
      · rw [hp.engine, show (wiring.nowNs m').2.log = m'.log from rfl, hp.log]
        exact hstaged
      · exact UInt64.le_trans hpoised.time (UInt64.le_trans htime (UInt64.le_trans hread.1 hread.2))
    have hnoted : S (f (wiring.nowNs m').1 m'.engine) := hp.engine ▸ hs _
    exact ⟨hafter, hnoted⟩

/-! ## The filters -/

theorem filterCall_calls (hrequired : wiring.filtersRequired = true) (a : Action)
    (f : FilterBank ω → FilterSelector → ω → Bool × FilterSelector × ω) :
    Calls wiring a (wiring.filterCall a f) := by
  unfold filtersRequired at hrequired
  unfold filterCall
  cases hbank : wiring.filters with
  | none => exact nomatch (hbank ▸ hrequired : Option.any _ none = true)
  | some bank => exact wiring.perform_reads (reads_onFilters _)

theorem releaseFilters_goes (hticks : Ticks wiring) (hrequired : wiring.filtersRequired = true) :
    Triple (Poised wiring m₀ now) (wiring.releaseFilters now)
      (Goes wiring m₀ now fun _ => True) := by
  refine engine_bind fun m hm => Triple.ite (fun _ => ?_) fun hdue => ?_
  · rintro _ rfl
    exact ⟨hm, trivial⟩
  rw [Bool.or_eq_true, not_or] at hdue
  have hnone : m.engine.releaseNs = none := by simpa using hdue.1
  refine Triple.strengthen (wiring.noted (e := m.engine) hticks
    (wiring.filterCall_calls hrequired _ _) hticks.deactivateFilters_forward rfl (fun _ => rfl)
    (fun _ => trivial) ?_) (by rintro _ rfl; exact ⟨hm, rfl⟩)
  rintro x r log ⟨hfilters, hamplifier⟩ haction hok hepoch - hdone
  constructor
  · rw [moves_cons_of hepoch (by rw [haction]; rfl)]
    rw [hnone] at hfilters
    show FilterStage wiring (some r) m.engine.selectionNs _
    generalize m.engine.selectionNs = selection at hfilters ⊢
    generalize moves _ m.engine.epoch log = moved at hfilters ⊢
    cases hfilters with
    | waiting => exact .released haction hok hdone
  · rw [moves_cons_of_not (by rw [haction]; rfl)]
    exact hamplifier

theorem selectFilters_goes (hticks : Ticks wiring) (hrequired : wiring.filtersRequired = true) :
    Triple (Poised wiring m₀ now) (wiring.selectFilters now)
      (Goes wiring m₀ now fun _ => True) := by
  refine engine_bind fun m hm => engine_bind fun m' hm' => ?_
  subst hm'
  have hrest : Triple (· = m') (Pure.pure true : EngineM ω Bool)
      (Goes wiring m₀ now fun _ => True) := Triple.pure fun _ h => h ▸ ⟨hm, trivial⟩
  split
  case h_2 => exact hrest
  rename_i release hrelease hnone
  refine Triple.ite (fun _ => hrest) fun hlong => ?_
  have hrested : addSat release wiring.filterReleaseNs ≤ now := UInt64.not_lt.mp hlong
  refine Triple.strengthen (wiring.noted (e := m'.engine) hticks
    (wiring.filterCall_calls hrequired _ _) hticks.activateFilters_forward rfl (fun _ => rfl)
    (fun _ => trivial) ?_) (by rintro _ rfl; exact ⟨hm, rfl⟩)
  rintro x r log ⟨hfilters, hamplifier⟩ haction hok hepoch hissued hdone
  constructor
  · rw [moves_cons_of hepoch (by rw [haction]; rfl)]
    rw [hrelease, hnone] at hfilters
    show FilterStage wiring m'.engine.releaseNs (some r) _
    rw [hrelease]
    generalize moves _ m'.engine.epoch log = moved at hfilters ⊢
    cases hfilters with
    | released haction' hok' hdone' =>
      refine .selected ⟨haction', hok'⟩ haction hok ?_ hdone
      exact UInt64.le_trans (addSat_mono hdone' _) (UInt64.le_trans hrested hissued)
  · rw [moves_cons_of_not (by rw [haction]; rfl)]
    rw [hnone] at hamplifier
    show AmplifierStage wiring (some r) m'.engine.enableNs _
    generalize m'.engine.enableNs = enabled at hamplifier ⊢
    generalize moves _ m'.engine.epoch log = moved at hamplifier ⊢
    cases hamplifier with
    | waiting => exact .waiting
    | leading _ _ _ hsettled => exact nomatch (hsettled hrequired).choose_spec.1

theorem settleFilters_goes (hticks : Ticks wiring) :
    Triple (Poised wiring m₀ now) (wiring.settleFilters now)
      (Goes wiring m₀ now (Settled wiring now)) := by
  refine Triple.ite (fun hno => Triple.pure fun m h => ⟨h, fun hyes => ?_⟩) fun hrequired => ?_
  · simp [hyes] at hno
  have hrequired : wiring.filtersRequired = true := by simpa using hrequired
  refine (wiring.releaseFilters_goes hticks hrequired).guarded
    (R := fun m => Poised wiring m₀ now m ∧ True) ?_ (Triple.pure fun _ h => h)
  refine ((wiring.selectFilters_goes hticks hrequired).strengthen fun _ h => h.1).guarded
    (R := fun m => Poised wiring m₀ now m ∧ True) ?_ (Triple.pure fun _ h => h)
  refine engine_bind fun m hm => ?_
  rintro m rfl
  cases hselected : m.engine.selectionNs with
  | none => exact .inl hm.1
  | some selected =>
    show Goes wiring m₀ now _ (decide (now ≥ _)) m
    by_cases hsettled : now ≥ addSat selected wiring.filterSettleNs
    · rw [decide_eq_true hsettled]
      exact ⟨hm.1, fun _ => ⟨selected, hselected, hsettled⟩⟩
    · rw [decide_eq_false hsettled]
      exact .inl hm.1

/-! ## The amplifier -/

theorem amplifierCall_calls (henabled : wiring.amplifierEnabled = true) (a : Action)
    (f : Amplifier ω → AmplifierEnable → ω → Bool × AmplifierEnable × ω) :
    Calls wiring a (wiring.amplifierCall a f) := by
  unfold amplifierEnabled at henabled
  unfold amplifierCall
  cases hamplifier : wiring.amplifier with
  | none => exact nomatch (hamplifier ▸ henabled : Option.any _ none = true)
  | some amplifier => exact wiring.perform_reads (reads_onAmplifier _)

theorem enableAmplifier_goes (hticks : Ticks wiring) (henabled : wiring.amplifierEnabled = true) :
    Triple (fun m => Poised wiring m₀ now m ∧ Settled wiring now m.engine)
      (wiring.enableAmplifier now) (Goes wiring m₀ now (Settled wiring now)) := by
  refine engine_bind fun m hm => Triple.ite (fun _ => ?_) fun hdue => ?_
  · rintro _ rfl
    exact hm
  rw [Bool.or_eq_true, not_or] at hdue
  have hnone : m.engine.enableNs = none := by simpa using hdue.1
  refine Triple.strengthen (wiring.noted (e := m.engine) hticks
    (wiring.amplifierCall_calls henabled _ _) hticks.activateAmplifier_forward rfl (fun _ => rfl)
    (fun _ => hm.2) ?_) (by rintro _ rfl; exact ⟨hm.1, rfl⟩)
  rintro x r log ⟨hfilters, hamplifier⟩ haction hok hepoch hissued hdone
  constructor
  · rw [moves_cons_of_not (by rw [haction]; rfl)]
    exact hfilters
  · rw [moves_cons_of hepoch (by rw [haction]; rfl)]
    rw [hnone] at hamplifier
    show AmplifierStage wiring m.engine.selectionNs (some r) _
    have hsettled : wiring.filtersRequired = true → ∃ chosen, m.engine.selectionNs = some chosen ∧
        addSat chosen wiring.filterSettleNs ≤ x.issued := fun hrequired => by
      obtain ⟨selected, hselected, hle⟩ := hm.2 hrequired
      exact ⟨selected, hselected, UInt64.le_trans hle hissued⟩
    generalize moves _ m.engine.epoch log = moved at hamplifier ⊢
    cases hamplifier with
    | waiting => exact .leading haction hok hdone hsettled

theorem leadAmplifier_goes (hticks : Ticks wiring) :
    Triple (fun m => Poised wiring m₀ now m ∧ Settled wiring now m.engine)
      (wiring.leadAmplifier now)
      (Goes wiring m₀ now fun e => Settled wiring now e ∧ Leads wiring e) := by
  refine Triple.ite (fun hno => Triple.pure fun m h => ⟨h.1, h.2, fun hyes => ?_⟩)
    fun henabled => ?_
  · simp [hyes] at hno
  have henabled : wiring.amplifierEnabled = true := by simpa using henabled
  refine (wiring.enableAmplifier_goes hticks henabled).guarded
    (R := fun m => Poised wiring m₀ now m ∧ Settled wiring now m.engine) ?_
    (Triple.pure fun _ h => h)
  refine engine_bind fun m hm => Triple.ite (fun hlead => ?_) fun _ => Triple.ite (fun _ => ?_)
    fun _ => ?_
  · rintro m rfl
    refine ⟨hm.1, hm.2, fun _ => ?_⟩
    obtain ⟨enabled, henabled, hle⟩ := Option.any_eq_true _ _ |>.mp hlead
    exact ⟨enabled, henabled, of_decide_eq_true hle⟩
  · refine Triple.strengthen ((wiring.fail_rests now "shortened_amplifier_lead" .missed
      (.inr rfl)).bind fun r => Triple.pure fun m h => ?_) fun _ h => h ▸ hm.1.trail
    obtain ⟨rfl, h⟩ := h
    exact h
  · rintro m rfl
    exact .inl hm.1

end Wiring

end WsprryPico.Rf.Si5351
