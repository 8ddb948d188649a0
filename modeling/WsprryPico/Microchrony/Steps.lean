import WsprryPico.Lib.History
import WsprryPico.Microchrony.Majority
import WsprryPico.Microchrony.Steering

/-!
# The clock never steps

Along a run in the order of its times no call moves the clock shown at its own time, and the clock
shown does not run backward, when a seed finds the clock settled or keeps its frequency.
-/

namespace WsprryPico.Microchrony

open Engine

variable {K : Type} [Scalar K]
  {e e' e₀ : Engine K} {now s t : Nat} {b : Bool} {slot : Slot} {combined : List Slot}
  {call : Call} {config : Config K}

/-! ## Times of calls -/

/-- The time of a call; a cancel and a seed have none. -/
def Call.time : Call → Option Nat
  | .configure _ _ now | .remove _ now | .reset now | .online _ now
  | .observeFrequencyReference _ now | .clearFrequencyReference now
  | .retireFrequencyReference now | .referenceClock _ now | .observeReference _ now | .poll now
  | .request _ now _ _ | .receive _ _ now => some now
  | .cancel _ | .seed _ _ => none

theorem answeredPass_time {packet : List UInt8}
    (h : e.answeredPass slot packet now = some (e₀, t, b)) : now = t := by
  unfold answeredPass measurePass at h
  dsimp only at h
  split_ifs at h
  · cases h
    rfl
  · cases h
    rfl
  · split at h
    · cases h
    · cases h
      rfl

theorem passes_time (h : call.passes e = some (e₀, t, b)) : call.time = some t := by
  cases Call.passing h with
  | receive _ h => rw [Call.time, answeredPass_time h]
  | _ => rfl

/-! ## What the clock shows -/

namespace Engine

/-- The UTC shown at `now`. -/
def utcAt (e : Engine K) (now : Nat) : Nat :=
  if ¬ e.clockValid ∨ now < e.clockRawNs then 0
  else addTime e.clockUtcNs (difference now e.clockRawNs * (1 + e.frequency) +
    e.slewed (difference now e.clockRawNs))

theorem tracking_utcAt (e : Engine K) (now : Nat) : (e.tracking now).utcNs = e.utcAt now := by
  unfold tracking utcAt
  split_ifs <;> rfl

/-- A clock that is not valid is not slewed. -/
def Idle (e : Engine K) : Prop := e.clockValid = false → e.slew = 0 ∧ e.pendingPhase = 0

/-- The clock was settled by `t`. -/
def By (e : Engine K) (t : Nat) : Prop := e.clockValid = true → e.clockRawNs ≤ t

/-- The clock is kept as it was shown at `t`, and was settled by then. -/
structure Keeps (e e' : Engine K) (t : Nat) : Prop where
  steered : Steered e'
  idle : Idle e'
  settled : By e' t
  valid : e.clockValid = true → e'.clockValid = true
  utc : e.clockValid = true → (e'.tracking t).utcNs = (e.tracking t).utcNs

theorem discipline_clock (combined : List Slot) (hchanged : e.changed slot = true) (hby : By e now) :
    (e.discipline slot combined now).clockValid = true ∧
    (e.discipline slot combined now).clockRawNs = now ∧
    (e.clockValid = true →
      (e.discipline slot combined now).clockUtcNs = (e.tracking now).utcNs) := by
  have hsettled : (e.settled slot combined now).clockValid = true ∧
      (e.settled slot combined now).clockRawNs = now ∧
      (e.clockValid = true →
        (e.settled slot combined now).clockUtcNs = (e.tracking now).utcNs) := by
    have hused : ((e.markUsed combined).tracking now).utcNs = (e.tracking now).utcNs := by
      rw [tracking_utcAt, tracking_utcAt]
      rfl
    unfold settled settle
    rcases hvalid : e.clockValid with - | -
    · rw [show (e.markUsed combined).clockValid = false from hvalid]
      exact ⟨rfl, rfl, fun h => by cases h⟩
    · have hvalid' : (e.markUsed combined).clockValid = true := hvalid
      obtain ⟨hraw, -, hutc, -⟩ := advance_eq hvalid' (hby hvalid)
      have hclock : ((e.markUsed combined).advance now).clockValid = true :=
        (of_view advance_unclocked Engine.clockValid fun _ => rfl).trans hvalid'
      rw [hvalid']
      exact ⟨hclock, hraw, fun _ => hutc.trans hused⟩
  rw [discipline_eq combined hchanged]
  generalize combineSources (e.estimates slot combined now) = estimate
  have hview : ((e.settled slot combined now).rated estimate now).unrated =
      (e.settled slot combined now).unrated := rated_unrated estimate
  have hclock := of_view hview (fun e : Engine K => (e.clockValid, e.clockRawNs, e.clockUtcNs))
    fun _ => rfl
  simp only [Prod.mk.injEq] at hclock
  obtain ⟨hvalid, hraw, hutc⟩ := hclock
  generalize (e.settled slot combined now).rated estimate now = rated at hvalid hraw hutc ⊢
  exact ⟨hvalid.trans hsettled.1, hraw.trans hsettled.2.1, fun h => hutc.trans (hsettled.2.2 h)⟩

theorem Keeps.refl (h : Steered e) (hidle : Idle e) (hby : By e t) : Keeps e e t :=
  ⟨h, hidle, hby, id, fun _ => rfl⟩

/-- What is kept does not depend on the sources. -/
theorem Keeps.after {e₁ : Engine K} (h : Keeps e e₁ t) (hview : e'.steady = e₁.steady) :
    Keeps e e' t := by
  have hvalid : e'.clockValid = e₁.clockValid := of_view hview Engine.clockValid fun _ => rfl
  refine ⟨h.steered.of_helm (of_view hview helm fun _ => rfl), ?_, ?_,
    fun hv => hvalid.trans (h.valid hv), fun hv => ?_⟩
  · unfold Idle
    rw [hvalid, of_view hview Engine.slew fun _ => rfl, of_view hview Engine.pendingPhase
      fun _ => rfl]
    exact h.idle
  · unfold By
    rw [hvalid, of_view hview Engine.clockRawNs fun _ => rfl]
    exact h.settled
  · rw [← h.utc hv, tracking_utcAt, tracking_utcAt]
    exact of_view hview (fun e => e.utcAt t) fun _ => rfl

theorem Keeps.before {e₁ : Engine K} (h : Keeps e₁ e' t) (hview : e₁.steady = e.steady) :
    Keeps e e' t := by
  have hvalid : e₁.clockValid = e.clockValid := of_view hview Engine.clockValid fun _ => rfl
  refine ⟨h.steered, h.idle, h.settled, fun hv => h.valid (hvalid.trans hv), fun hv => ?_⟩
  rw [h.utc (hvalid.trans hv), tracking_utcAt, tracking_utcAt]
  exact of_view hview (fun e => e.utcAt t) fun _ => rfl

theorem advance_invalid (h : e.clockValid = false) : e.advance now = e := by
  unfold advance
  rw [if_pos (.inl (by simp [h]))]

theorem advance_idle (h : Idle e) (hvalid : (e.advance now).clockValid = false) :
    (e.advance now).slew = 0 ∧ (e.advance now).pendingPhase = 0 := by
  have hclock : e.clockValid = false :=
    (of_view advance_unclocked Engine.clockValid fun _ => rfl).symm.trans hvalid
  rw [advance_invalid hclock]
  exact h hclock

variable [IsStrictOrderedRing K]

theorem select_keeps (h : Steered e) (hidle : Idle e) (hby : By e now) :
    Keeps e (e.select now b) now := by
  have hview := (e.pass_passed now b).clock
  have hclock : (e.pass now b).1.utcAt now = e.utcAt now :=
    of_view hview (fun e => e.utcAt now) fun _ => rfl
  have hvalid : (e.pass now b).1.clockValid = e.clockValid :=
    of_view hview Engine.clockValid fun _ => rfl
  have hby' : By (e.pass now b).1 now := by
    unfold By
    rw [hvalid, of_view hview Engine.clockRawNs fun _ => rfl]
    exact hby
  have hidle' : Idle (e.pass now b).1 := by
    unfold Idle
    rw [hvalid, of_view hview Engine.slew fun _ => rfl, of_view hview Engine.pendingPhase
      fun _ => rfl]
    exact hidle
  have hpassed : Keeps e (e.pass now b).1 now :=
    ⟨h.of_helm (of_view hview helm fun _ => rfl), hidle', hby', fun hv => hvalid.trans hv,
      fun _ => by rw [tracking_utcAt, tracking_utcAt, hclock]⟩
  have hsteered : Steered (e.select now b) := select_steered h
  obtain ⟨-, hselect⟩ | ⟨slot, combined, -, hselect⟩ := e.select_cases now b
  · rw [hselect]
    exact hpassed
  · rw [hselect] at hsteered ⊢
    rcases hchanged : (e.pass now b).1.changed slot with - | -
    · rw [discipline_kept combined hchanged]
      exact hpassed
    · obtain ⟨hvalid', hraw, hutc⟩ := discipline_clock combined hchanged hby'
      refine ⟨hsteered, fun hinvalid => ?_, fun _ => hraw.le, fun _ => hvalid', fun hv => ?_⟩
      · rw [hvalid'] at hinvalid
        cases hinvalid
      · rw [utc_settled hvalid' hraw, hutc (hvalid.trans hv)]
        exact hpassed.utc hv

/-! ## One call -/

theorem keeps_of_settled (hearly : e.early t = false) (hsteered : Steered e') (hidle : Idle e')
    (hview : e'.anchored = (e.advance t).anchored) : Keeps e e' t := by
  have hvalid : e'.clockValid = e.clockValid :=
    (of_view hview Engine.clockValid fun _ => rfl).trans
      (of_view advance_unclocked Engine.clockValid fun _ => rfl)
  refine ⟨hsteered, hidle, fun h => ?_, fun h => hvalid.trans h, fun _ => ?_⟩
  · have hclock := hvalid.symm.trans h
    have hraw := (advance_eq hclock (early_eq_false hearly hclock)).1
    exact ((of_view hview Engine.clockRawNs fun _ => rfl).trans hraw).le
  · exact congrArg Prod.fst (settled_authority hearly hview)

theorem clampSlew_idle (h : |e.frequency| ≤ 1 / 10) (hslew : e.slew = 0) :
    e.clampSlew.slew = 0 := by
  obtain ⟨hlow, hhigh⟩ := abs_le.mp h
  dsimp only [clampSlew]
  rw [hslew, min_eq_left (by linarith), max_eq_right (by linarith)]

/-- A settled clock whose rate and slew `f` changes. -/
theorem keeps_rated (f : Engine K → Engine K) (hearly : e.early t = false) (hidle : Idle e)
    (hanchored : ∀ a, (f a).anchored = a.anchored)
    (hslew : ∀ a, Steered (f a) → Idle a → Idle (f a)) (hsteered : Steered (f (e.advance t))) :
    Keeps e (f (e.advance t)) t :=
  keeps_of_settled hearly hsteered (hslew _ hsteered (advance_idle hidle)) (hanchored _)

theorem observe_keeps (h : Steered e) (hidle : Idle e) (hby : By e t) (r : FrequencyReference) :
    Keeps e (e.observeFrequencyReference r t).2 t := by
  have hsteered := observe_steered h r t
  rcases e.observe_cases r t with ⟨-, hobserve⟩ | ⟨hadmits, hobserve⟩
  · rw [hobserve]
    exact Keeps.refl h hidle hby
  · have hearly := admits_early hadmits
    rcases hobserve with ⟨-, hobserve⟩ | ⟨-, hobserve | hobserve⟩
    · rw [hobserve] at hsteered ⊢
      exact keeps_rated (fun a => { a with
        frequencyReference := r
        generation := e.generation + 1
        frequencyReferenceState := .disagreement }) hearly hidle (fun _ => rfl) (fun _ _ h => h)
        hsteered
    · rw [hobserve] at hsteered ⊢
      exact keeps_rated (fun a => { a with
        frequencyReference := r
        generation := e.generation + 1
        frequencyReferenceState := .quality }) hearly hidle (fun _ => rfl) (fun _ _ h => h) hsteered
    · rw [hobserve] at hsteered ⊢
      exact keeps_rated (fun a => (Engine.takeReference { a with
        frequencyReference := r
        generation := e.generation + 1 } r).clampSlew) hearly hidle (fun _ => rfl)
        (fun _ hsteered h hvalid => ⟨clampSlew_idle hsteered.frequency (h hvalid).1, (h hvalid).2⟩)
        hsteered

theorem clear_keeps (h : Steered e) (hidle : Idle e) (hby : By e t) :
    Keeps e (e.clearFrequencyReference t) t := by
  have hsteered := clear_steered h t
  rcases e.clear_cases t with ⟨-, hclear⟩ | ⟨hearly, hclear⟩
  · rw [hclear]
    exact Keeps.refl h hidle hby
  · rw [hclear] at hsteered ⊢
    exact keeps_rated (fun a => { (a.expireReference t).withoutReference with
      generation := (a.expireReference t).generation + 1 }) hearly hidle (fun _ => rfl)
      (fun _ hsteered h hvalid => ⟨clampSlew_idle hsteered.frequency (h hvalid).1, (h hvalid).2⟩)
      hsteered

theorem retire_keeps (h : Steered e) (hidle : Idle e) (hby : By e t) :
    Keeps e (e.retireFrequencyReference t) t := by
  have hsteered := retire_steered h t
  rcases e.retire_cases t with hretire | ⟨hearly, hretire⟩
  · rw [hretire]
    exact Keeps.refl h hidle hby
  · rw [hretire] at hsteered ⊢
    exact keeps_rated (fun a => { a.expireReference t with
      frequencySkew := max (a.expireReference t).frequencySkew (a.expireReference t).config.clockError
      generation := (a.expireReference t).generation + 1 }) hearly hidle (fun _ => rfl)
      (fun _ _ h => h) hsteered

end Engine

/-- A seed that is taken on a valid clock keeps its frequency, or finds the clock settled at the
time of the call and the slew within its bound. -/
def Call.Gentle (t : Nat) (e : Engine K) : Call → Prop
  | .seed frequencyPpb skewPpb =>
    e.Seeds frequencyPpb skewPpb → e.clockValid = true →
      (frequencyPpb : K) / billion = e.frequency ∨
        (t = e.clockRawNs ∧ |(frequencyPpb : K) / billion + e.slew| ≤ 1 / 10)
  | _ => True

theorem gentle_of_time (h : call.time ≠ none) : call.Gentle t e := by
  cases call with
  | seed frequencyPpb skewPpb => exact absurd rfl h
  | _ => trivial

def performed (config : Config K) (steps : List (Nat × Call)) : Engine K :=
  run (steps.map Prod.snd) (construct config)

theorem performed_snoc (config : Config K) (steps : List (Nat × Call)) (p : Nat × Call) :
    performed config (steps ++ [p]) = p.2.exec (performed config steps) := by
  unfold performed
  rw [List.map_append, List.map_singleton, run_snoc]

theorem construct_idle (config : Config K) : Idle (construct config) := fun _ => ⟨rfl, rfl⟩

variable [IsStrictOrderedRing K]

theorem seed_keeps (h : Steered e) (hidle : Idle e) (hby : By e t) {frequencyPpb : Int}
    {skewPpb : Nat} (hgentle : (Call.seed frequencyPpb skewPpb).Gentle t e) :
    Keeps e (e.seed frequencyPpb skewPpb) t := by
  have hsteered : Steered (e.seed frequencyPpb skewPpb) := by
    refine seed_steered h fun hseeds => ?_
    rcases hvalid : e.clockValid with - | -
    · rw [(hidle hvalid).1, add_zero]
      exact ppb_le_tenth h.config hseeds.2.1
    · rcases hgentle hseeds hvalid with hsame | ⟨-, htotal⟩
      · rw [hsame]
        exact h.total
      · exact htotal
  rcases e.seed_cases frequencyPpb skewPpb with ⟨-, hseed⟩ | ⟨hseeds, skew, hseed⟩
  · rw [hseed]
    exact Keeps.refl h hidle hby
  · rw [hseed] at hsteered ⊢
    refine ⟨hsteered, hidle, hby, id, fun hvalid => ?_⟩
    rcases hgentle hseeds hvalid with hsame | ⟨hsettled, -⟩
    · rw [tracking_utcAt, tracking_utcAt, hsame]
      rfl
    · rw [utc_settled hvalid hsettled.symm]
      exact utc_settled hvalid hsettled.symm

theorem exec_keeps (h : Steered e) (hidle : Idle e) (hby : By e t)
    (htime : ∀ t', call.time = some t' → t' = t) (hgentle : call.Gentle t e) :
    Keeps e (call.exec e) t := by
  by_cases hrates : call.Rates
  · cases call with
    | seed frequencyPpb skewPpb => exact seed_keeps h hidle hby hgentle
    | observeFrequencyReference r now =>
      obtain rfl := htime now rfl
      exact observe_keeps h hidle hby r
    | clearFrequencyReference now =>
      obtain rfl := htime now rfl
      exact clear_keeps h hidle hby
    | retireFrequencyReference now =>
      obtain rfl := htime now rfl
      exact retire_keeps h hidle hby
    | _ => exact absurd hrates id
  · have halike := exec_alike call e hrates
    split at halike
    · exact (Keeps.refl h hidle hby).after (of_view halike.2.shell steady fun _ => rfl)
    · rename_i e₀ t' b hsome
      obtain rfl := htime t' (passes_time hsome)
      have hview := passes_steady hsome
      have hfound : Keeps e e₀ t' := (Keeps.refl h hidle hby).after hview
      exact ((select_keeps hfound.steered hfound.idle hfound.settled).before hview).after
        (of_view halike.2.shell steady fun _ => rfl)

/-! ## Runs in the order of their times -/

/-- A run in the order of its times, each call at its own. -/
structure InTime (steps : List (Nat × Call)) : Prop where
  own : ∀ p ∈ steps, p.2.time = none ∨ p.2.time = some p.1
  ordered : steps.Pairwise fun p q => p.1 ≤ q.1

theorem InTime.of_append {steps rest : List (Nat × Call)} (h : InTime (steps ++ rest)) :
    InTime steps :=
  ⟨fun p hp => h.own p (List.mem_append_left _ hp), (List.pairwise_append.mp h.ordered).1⟩

theorem InTime.at_own {steps : List (Nat × Call)} {p : Nat × Call} (h : InTime (steps ++ [p]))
    (t : Nat) (ht : p.2.time = some t) : t = p.1 := by
  obtain hnone | hsome := h.own p (List.mem_append_right _ (List.mem_singleton_self p))
  · rw [hnone] at ht
    cases ht
  · rw [hsome] at ht
    exact (Option.some.inj ht).symm

theorem InTime.le_last {steps : List (Nat × Call)} {p : Nat × Call} (h : InTime (steps ++ [p])) :
    ∀ q ∈ steps, q.1 ≤ p.1 :=
  fun q hq => (List.pairwise_append.mp h.ordered).2.2 q hq p (List.mem_singleton_self p)

theorem construct_steered (h : config.valid = true) : Steered (construct config) := by
  have hzero : |(0 : K)| ≤ 1 / 10 := by
    rw [abs_zero]
    norm_num
  have hppb : |((0 : Int) : K) / billion| ≤ 1 / 10 := by
    rw [Int.cast_zero, zero_div]
    exact hzero
  refine ⟨h, hzero, ?_, ?_, hppb, hppb⟩
  · dsimp only [construct]
    rw [add_zero]
    exact hzero
  · dsimp only [construct]
    rw [mul_zero]

/-- Each call is gentle to the engine that the calls before it leave. -/
def AllGentle (config : Config K) (steps : List (Nat × Call)) : Prop :=
  Lib.Each (fun before p => p.2.Gentle p.1 (performed config before)) steps

/-- A run of gentle calls steers within the bounds, and settles the clock by its last time. -/
theorem performed_governed (hconfig : config.valid = true) (steps : List (Nat × Call))
    (h : InTime steps) (hgentle : AllGentle config steps) :
    Steered (performed config steps) ∧ Idle (performed config steps) ∧
      ∀ t, (∀ p ∈ steps, p.1 ≤ t) → By (performed config steps) t := by
  induction steps using List.reverseRecOn with
  | nil => exact ⟨construct_steered hconfig, construct_idle config, fun t _ hvalid => by cases hvalid⟩
  | append_singleton steps p ih =>
    obtain ⟨hsteered, hidle, hby⟩ := ih h.of_append hgentle.init
    have hkeeps := exec_keeps hsteered hidle (hby p.1 h.le_last) h.at_own hgentle.last
    rw [performed_snoc]
    refine ⟨hkeeps.steered, hkeeps.idle, fun t ht hvalid => (hkeeps.settled hvalid).trans ?_⟩
    exact ht p (List.mem_append_right _ (List.mem_singleton_self p))

theorem performed_keeps (hconfig : config.valid = true) {before : List (Nat × Call)}
    {p : Nat × Call} (h : InTime (before ++ [p])) (hgentle : AllGentle config (before ++ [p])) :
    Keeps (performed config before) (performed config (before ++ [p])) p.1 := by
  obtain ⟨hsteered, hidle, hby⟩ := performed_governed hconfig before h.of_append hgentle.init
  rw [performed_snoc]
  exact exec_keeps hsteered hidle (hby p.1 h.le_last) h.at_own hgentle.last

/-- The clock shown does not run backward along a run of gentle calls. -/
theorem performed_mono (hconfig : config.valid = true) {before : List (Nat × Call)}
    (hvalid : (performed config before).clockValid = true) (mid : List (Nat × Call))
    (h : InTime (before ++ mid)) (hgentle : AllGentle config (before ++ mid))
    (hfar : ∀ l, l <+: before ++ mid → (performed config l).clockUtcNs < 2 ^ 63)
    (hs : ∀ p ∈ before, p.1 ≤ s) (hmid : ∀ p ∈ mid, s ≤ p.1 ∧ p.1 ≤ t) (hst : s ≤ t)
    (ht : t < 2 ^ 61) :
    (performed config (before ++ mid)).clockValid = true ∧
      ((performed config before).tracking s).utcNs ≤
        ((performed config (before ++ mid)).tracking t).utcNs := by
  induction mid using List.reverseRecOn generalizing t with
  | nil =>
    rw [List.append_nil] at h hgentle hfar ⊢
    obtain ⟨hsteered, -, hby⟩ := performed_governed hconfig before h hgentle
    exact ⟨hvalid, utc_mono hsteered hvalid (hby s hs hvalid) hst ht (hfar _ List.prefix_rfl)⟩
  | append_singleton mid p ih =>
    rw [← List.append_assoc] at h hgentle hfar ⊢
    have hp := hmid p (List.mem_append_right _ (List.mem_singleton_self p))
    have hmid' : ∀ q ∈ mid, s ≤ q.1 ∧ q.1 ≤ p.1 := fun q hq =>
      ⟨(hmid q (List.mem_append_left _ hq)).1, h.le_last q (List.mem_append_right _ hq)⟩
    obtain ⟨hvalid', hmono⟩ := ih h.of_append hgentle.init
      (fun l hl => hfar l (hl.trans (List.prefix_append _ _))) hmid' hp.1 (by omega)
    have hkeeps := performed_keeps hconfig h hgentle
    refine ⟨hkeeps.valid hvalid', hmono.trans ?_⟩
    rw [← hkeeps.utc hvalid']
    exact utc_mono hkeeps.steered (hkeeps.valid hvalid') (hkeeps.settled (hkeeps.valid hvalid'))
      hp.2 ht (hfar _ List.prefix_rfl)

/-- In a run in the order of its times, on times far from the largest, whose seeds find the clock
settled or keep its frequency, no call moves the clock shown at its time, the clock shown does not
run backward, and the frequency and the slew stay within a tenth. -/
theorem clock_never_steps (config : Config K) (hconfig : config.valid = true)
    (steps : List (Nat × Call)) (h : InTime steps) (hgentle : AllGentle config steps)
    (hfar : ∀ l, l <+: steps → (performed config l).clockUtcNs < 2 ^ 63) :
    (∀ before p rest, steps = before ++ p :: rest →
      (performed config before).clockValid = true →
      (performed config (before ++ [p])).clockValid = true ∧
      ((performed config (before ++ [p])).tracking p.1).utcNs =
        ((performed config before).tracking p.1).utcNs) ∧
    (∀ before mid rest s t, steps = before ++ mid ++ rest →
      (performed config before).clockValid = true →
      (∀ p ∈ before, p.1 ≤ s) → (∀ p ∈ mid, s ≤ p.1 ∧ p.1 ≤ t) → s ≤ t → t < 2 ^ 61 →
      ((performed config before).tracking s).utcNs ≤
        ((performed config (before ++ mid)).tracking t).utcNs) ∧
    ∀ before, before <+: steps →
      |(performed config before).frequency + (performed config before).slew| ≤ 1 / 10 := by
  refine ⟨?_, ?_, ?_⟩
  · rintro before p rest rfl hvalid
    rw [List.append_cons] at h hgentle
    have hkeeps := performed_keeps hconfig h.of_append hgentle.of_append
    exact ⟨hkeeps.valid hvalid, hkeeps.utc hvalid⟩
  · rintro before mid rest s t rfl hvalid hs hmid hst ht
    exact (performed_mono hconfig hvalid mid h.of_append hgentle.of_append
      (fun l hl => hfar l (hl.trans (List.prefix_append _ _))) hs hmid hst ht).2
  · rintro before ⟨rest, rfl⟩
    exact (performed_governed hconfig before h.of_append hgentle.of_append).1.total

/-! ## A seed on a clock that ran free -/

/-- A seed at the time of the third measurement, which settled the clock. -/
def seededMeasurements : List (Nat × Call) :=
  threeMeasurements ++ [(192 * second + 1000000, .seed 5000 2000000)]

theorem seededMeasurements_gentle : AllGentle stock seededMeasurements := by
  rintro before p rest heq
  rcases List.eq_nil_or_concat' rest with rfl | ⟨rest, last, rfl⟩
  · obtain ⟨rfl, hp⟩ := List.append_inj' heq rfl
    cases hp
    exact fun _ _ => .inr ⟨by decide +kernel, by decide +kernel⟩
  · rw [← List.cons_append, ← List.append_assoc] at heq
    have htimes : ∀ p ∈ threeMeasurements, p.2.time ≠ none := by decide +kernel
    refine gentle_of_time (htimes p ?_)
    rw [(List.append_inj' heq rfl).1]
    exact List.mem_append_right _ List.mem_cons_self

/-- The seed changes the frequency and not the clock, which does not run backward after it. -/
theorem clock_never_steps_three :
    ((performed stock threeMeasurements).frequency ≠ (performed stock seededMeasurements).frequency) ∧
    ((performed stock seededMeasurements).tracking (192 * second + 1000000)).utcNs =
      ((performed stock threeMeasurements).tracking (192 * second + 1000000)).utcNs ∧
    ((performed stock seededMeasurements).tracking (193 * second)).utcNs ≤
      ((performed stock seededMeasurements).tracking (1000 * second)).utcNs := by
  have hfar : ∀ l ∈ seededMeasurements.inits, (performed stock l).clockUtcNs < 2 ^ 63 := by
    decide +kernel
  obtain ⟨hstands, hascends, -⟩ := clock_never_steps stock (by decide +kernel) seededMeasurements
    ⟨by decide +kernel, by decide +kernel⟩ seededMeasurements_gentle
    fun l hl => hfar l ((List.mem_inits l _).mpr hl)
  refine ⟨by decide +kernel, (hstands threeMeasurements _ [] rfl (by decide +kernel)).2, ?_⟩
  have h := hascends seededMeasurements [] [] (193 * second) (1000 * second) (by simp)
    (by decide +kernel) (by decide +kernel) (by simp) (by decide) (by decide)
  rwa [List.append_nil] at h

/-- A seed sets the clock back by more than 2 ms. -/
theorem seed_steps_clock :
    stock.valid = true ∧ InTime (threeMeasurements ++ [(1000 * second, .seed 0 2000000)]) ∧
    (performed stock threeMeasurements).clockValid = true ∧
    ((performed stock (threeMeasurements ++ [(1000 * second, .seed 0 2000000)])).tracking
      (1000 * second)).utcNs + 2000000 <
        ((performed stock threeMeasurements).tracking (1000 * second)).utcNs :=
  ⟨by decide +kernel, ⟨by decide +kernel, by decide +kernel⟩, by decide +kernel, by decide +kernel⟩

end WsprryPico.Microchrony
