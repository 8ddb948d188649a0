import WsprryPico.Microchrony.Passes

/-!
# Histories

A call leaves the history of a source as it is, clears it or adds the sample it yields. So the
samples of a history ascend, a fit has samples, and each sample is one a call accepted.
-/

namespace WsprryPico.Microchrony

open Engine

variable {K : Type} [Scalar K]
  {e e' e₀ : Engine K} {now t : Nat} {b : Bool} {slot i : Slot} {config : Config K} {s s' : Source K}
  {m : Measurement K} {call : Call}

/-- The call accepts `m` as a measurement of `slot`. -/
def Call.Yields (slot : Slot) (m : Measurement K) (e : Engine K) : Call → Prop
  | .receive n packet now => networkSlot n = some slot ∧ (e.receive n packet now).1 = true ∧
      m = measurement e (e.sources slot) packet (times e.config packet) now
  | .observeReference o now => slot = referenceSlot ∧ (e.observeReference o now).1 = true ∧
      m = ReferenceObservation.measurement o e.config
  | _ => False

/-! ## One sample more -/

namespace Source

/-- A valid fit has a sample. -/
def Fitted (s : Source K) : Prop :=
  s.status.estimate.valid = true → s.fitStart < s.samples.length

def Ascending (s : Source K) : Prop := s.samples.Pairwise (·.rawNs < ·.rawNs)

theorem fit_samples : (s.fit config).samples = s.samples := by
  have hfit : (s.fit config).unfitted = s.unfitted := fit_unfitted
  have h := congrArg samples hfit
  exact h

theorem fitFrom_fitted {noise : NoiseScale K} (fuel : Nat) :
    (s.fitFrom config noise fuel).Fitted := by
  induction fuel generalizing s with
  | zero => intro h; cases h
  | succ fuel ih =>
    unfold fitFrom
    dsimp only
    split_ifs with hfew hshort
    · intro h; cases h
    · exact ih
    · intro _
      dsimp only [withEstimate]
      omega

theorem fit_fitted : (s.fit config).Fitted := by
  unfold fit
  split_ifs
  · intro h; cases h
  · exact fitFrom_fitted _

theorem retireOldest_samples (room : Nat) :
    (s.retireOldest room).samples = s.samples.drop 1 := by
  unfold retireOldest
  dsimp only
  split_ifs <;> rfl

theorem makeRoom_samples (room : Nat) : (s.makeRoom config room).samples.Sublist s.samples := by
  unfold makeRoom
  dsimp only
  split_ifs
  · rw [retireOldest_samples]
    exact List.drop_sublist _ _
  · exact List.Sublist.refl _

theorem append_fitted (room : Nat) : (s.append config room m now).Fitted := by
  have h : (((s.makeRoom config room).withSample config room m now).fit config).Fitted := fit_fitted
  exact h

theorem append_samples (room : Nat) :
    (s.append config room m now).samples = (s.makeRoom config room).samples ++ [m] := by
  have h : (((s.makeRoom config room).withSample config room m now).fit config).samples =
      ((s.makeRoom config room).withSample config room m now).samples := fit_samples
  exact h

theorem append_ascending (room : Nat) (h : s.Ascending)
    (hlast : ∀ last, s.samples.getLast? = some last → last.rawNs < m.rawNs) :
    (s.append config room m now).Ascending := by
  unfold Ascending
  rw [append_samples, List.pairwise_append]
  refine ⟨h.sublist (makeRoom_samples room), List.pairwise_singleton _ _, ?_⟩
  intro x hx y hy
  obtain rfl := List.mem_singleton.mp hy
  have hmem := (makeRoom_samples room).mem hx
  -- The samples ascend, so the new one is later than all if it is later than the last.
  obtain ⟨init, last, hinit⟩ := List.eq_nil_or_concat s.samples |>.resolve_left
    (List.ne_nil_of_mem hmem)
  rw [List.concat_eq_append] at hinit
  have hlt := hlast last (by rw [hinit]; simp)
  rw [Ascending, hinit, List.pairwise_append] at h
  rw [hinit, List.mem_append] at hmem
  obtain hx | hx := hmem
  · exact (h.2.2 x hx last (by simp)).trans hlt
  · rwa [List.mem_singleton.mp hx]

/-- What a new sample leaves of a source: the request in flight, the last candidate and the
score. -/
def exchange (s : Source K) : (Bool × Nat × Nat) × Option (Measurement K) × K :=
  ((s.pending, s.sendNs, s.token), s.last, s.status.selectionScore)

theorem fit_exchange : (s.fit config).exchange = s.exchange := by
  have h : (s.fit config).unfitted = s.unfitted := fit_unfitted
  have hexchange := congrArg exchange h
  exact hexchange

theorem retireOldest_exchange (room : Nat) : (s.retireOldest room).exchange = s.exchange := by
  unfold retireOldest
  dsimp only
  split_ifs <;> rfl

theorem makeRoom_exchange (room : Nat) : (s.makeRoom config room).exchange = s.exchange := by
  unfold makeRoom
  dsimp only
  split_ifs
  · exact retireOldest_exchange _
  · rfl

theorem append_exchange (room : Nat) : (s.append config room m now).exchange = s.exchange := by
  calc (s.append config room m now).exchange
      = (((s.makeRoom config room).withSample config room m now).fit config).exchange := rfl
    _ = ((s.makeRoom config room).withSample config room m now).exchange := fit_exchange
    _ = (s.makeRoom config room).exchange := rfl
    _ = s.exchange := makeRoom_exchange _

theorem append_last (room : Nat) : (s.append config room m now).last = s.last := by
  have h : (s.append config room m now).exchange = s.exchange := append_exchange room
  exact congrArg (fun x => x.2.1) h

end Source

/-- How a call leaves the history of a source: as it was, cleared, or with the sample it yields. -/
inductive Renewed (e : Engine K) (call : Call) (i : Slot) (s' : Source K) : Prop
  | kept (h : s'.record = (e.sources i).record)
  | cleared (h : s'.record = Source.record {})
  | added (s : Source K) (m : Measurement K) (now : Nat)
      (hbase : s.record = (e.sources i).record ∨ s.record = Source.record {})
      (hyields : call.Yields i m e)
      (hlater : ∀ last, s.samples.getLast? = some last → last.rawNs < m.rawNs)
      (h : s'.record = (s.append e.config (capacity i) m now).record)

/-- The last sample of the reference clock is its last observation. -/
def LastObserved (e : Engine K) : Prop :=
  (e.sources referenceSlot).samples.getLast? = (e.sources referenceSlot).last

theorem Renewed.modify_other {f : Source K → Source K} (hi : i ≠ slot) :
    Renewed e call i ((e.modify slot f).sources i) :=
  .kept (by rw [Microchrony.modify_other _ _ hi])

theorem withdrawn_renewed : Renewed e call i ((e.withdrawn slot).sources i) := by
  unfold withdrawn
  by_cases hi : i = slot
  · subst hi
    rw [modify_same]
    simp only [withUsed, clear, modify_same]
    exact .cleared rfl
  · rw [Microchrony.modify_other _ _ hi]
    simp only [withUsed, clear]
    exact Renewed.modify_other hi

theorem compareEpoch_sources : (e.compareEpoch now).sources = e.sources := by
  unfold compareEpoch
  dsimp only
  split_ifs <;> rfl

theorem appendEpoch_other (o : ReferenceObservation) (hslot : slot ≠ referenceSlot) :
    (e.appendEpoch o).sources slot = e.sources slot := by
  unfold appendEpoch
  rw [modify_other _ _ hslot, modify_other _ _ hslot]
  split_ifs
  · rw [modify_other _ _ hslot, clear, modify_other _ _ hslot]
  · rfl

theorem later_of_objection {last : Measurement K} (h : objection config s m = none)
    (hlast : s.samples.getLast? = some last) : last.rawNs < m.rawNs := by
  unfold objection at h
  split_ifs at h with hdelay hlater
  rw [hlast] at hlater
  simpa using hlater

theorem accepted_record :
    ((e.accepted slot m now).sources slot).record =
      ((e.sources slot).append e.config (capacity slot) m now).record := by
  unfold accepted
  rw [modify_same, modify_same]
  generalize (e.sources slot).append e.config (capacity slot) m now = s
  have hpoll : (adaptPoll e.config s).shown = s.shown := adaptPoll_shown
  exact congrArg Prod.fst hpoll

theorem measure_renewed {packet : List UInt8} {e₁ : Engine K}
    (he₁ : e₁ = e.modify slot fun s => { s with pending := false })
    (hyields : call.Yields slot (measurement e (e.sources slot) packet (times e.config packet) now) e)
    (h : e₁.measurePass slot packet now = some (e₀, t, b)) :
    Renewed e call i (e₀.sources i) := by
  have hm : measurement e₁ (e₁.sources slot) packet (times e₁.config packet) now =
      measurement e (e.sources slot) packet (times e.config packet) now := by
    rw [he₁, modify_same]
    rfl
  unfold measurePass at h
  dsimp only at h
  split_ifs at h
  rw [hm] at h
  generalize measurement e (e.sources slot) packet (times e.config packet) now = m at h hyields
  split at h
  · cases h
  · rename_i hnone
    cases h
    by_cases hi : i = slot
    · subst hi
      refine .added (((e₁.modify i (nominate m now)).sources i)) m now (.inl ?_) hyields
        (fun last hlast => later_of_objection hnone hlast) ?_
      · rw [modify_same, he₁, modify_same]
        rfl
      · rw [accepted_record, he₁]
        rfl
    · refine .kept ?_
      unfold accepted
      rw [Microchrony.modify_other _ _ hi, Microchrony.modify_other _ _ hi,
        Microchrony.modify_other _ _ hi, he₁, Microchrony.modify_other _ _ hi]

/-- An accepted observation is later than the sample before it, behind which it is added. -/
theorem appendEpoch_renewed {o : ReferenceObservation} (hlast : LastObserved e)
    (hadmits : e.admitsEpoch o now = true)
    (hyields : call.Yields referenceSlot (ReferenceObservation.measurement o e.config) e) :
    Renewed e call i ((e.appendEpoch o).sources i) := by
  by_cases hi : i = referenceSlot
  · subst hi
    unfold appendEpoch
    rw [modify_same, modify_same]
    split_ifs with hgap
    · refine .added _ (ReferenceObservation.measurement o e.config) o.rawNs (.inr ?_) hyields ?_ rfl
      · rw [modify_same, clear, modify_same]
        rfl
      · rw [modify_same, clear, modify_same]
        intro last h
        cases h
    · refine .added _ (ReferenceObservation.measurement o e.config) o.rawNs (.inl (by rfl)) hyields ?_ rfl
      intro last h
      have hobserved : (e.sources referenceSlot).last = some last := hlast.symm.trans h
      unfold admitsEpoch at hadmits
      rw [hobserved] at hadmits
      simp only [Option.any_some, Bool.and_eq_true, Bool.not_eq_true', Bool.or_eq_false_iff,
        decide_eq_false_iff_not, not_le] at hadmits
      exact hadmits.2.1
  · rw [appendEpoch_other o hi]
    exact .kept rfl

/-- A pass finds each history renewed. -/
theorem passes_renewed (hlast : LastObserved e) (h : call.passes e = some (e₀, t, b)) (i : Slot) :
    Renewed e call i (e₀.sources i) := by
  have hpass := exec_pass call e
  rw [h] at hpass
  cases Call.passing h with
  | configure | remove => exact withdrawn_renewed
  | reset =>
    unfold restarted
    dsimp only
    split_ifs
    · exact .kept rfl
    · exact .cleared rfl
  | online =>
    refine .kept ?_
    unfold switched
    dsimp only
    split_ifs <;> rfl
  | referenceClock =>
    unfold toggled
    by_cases hi : i = referenceSlot
    · subst hi
      rw [modify_same]
      simp only [withUsed, clear, modify_same]
      exact .cleared rfl
    · rw [Microchrony.modify_other _ _ hi]
      simp only [withUsed, clear]
      rw [Microchrony.modify_other _ _ hi]
      exact .kept rfl
  | observeReference hadmits =>
    rw [compareEpoch_sources]
    refine appendEpoch_renewed hlast hadmits ⟨rfl, ?_, rfl⟩
    simp [observeReference, hadmits]
  | poll => exact .kept rfl
  | @request n now random force slot hslot =>
    refine .kept ?_
    by_cases hi : i = slot
    · subst hi
      rw [modify_same, modify_same]
      exact congrArg Prod.fst shiftReach_shown
    · rw [Microchrony.modify_other _ _ hi, Microchrony.modify_other _ _ hi]
  | @receive n now _ packet slot _ _ hslot h =>
    unfold answeredPass refused unserved at h
    split_ifs at h
    · cases h
      refine .kept ?_
      by_cases hi : i = slot
      · subst hi
        rw [modify_same, modify_same]
        rfl
      · rw [Microchrony.modify_other _ _ hi, Microchrony.modify_other _ _ hi]
    · cases h
      refine .kept ?_
      by_cases hi : i = slot
      · subst hi
        rw [modify_same, modify_same]
        rfl
      · rw [Microchrony.modify_other _ _ hi, Microchrony.modify_other _ _ hi]
    · have hmeasure := measure_pass (e.modify slot fun s => { s with pending := false })
        (networkSlot_ne hslot) packet now
      rw [h] at hmeasure
      have hreceive : (e.receive n packet now).1 = true := hpass.1.trans hmeasure.2.2.1
      exact measure_renewed rfl ⟨hslot, hreceive, rfl⟩ h

theorem Renewed.congr {s'' : Source K} (h : Renewed e call i s') (hs : s''.record = s'.record) :
    Renewed e call i s'' := by
  cases h with
  | kept h => exact .kept (hs.trans h)
  | cleared h => exact .cleared (hs.trans h)
  | added s m now hbase hyields hlater h => exact .added s m now hbase hyields hlater (hs.trans h)

theorem exec_renewed (hlast : LastObserved e) (call : Call) (i : Slot) :
    Renewed e call i ((call.exec e).sources i) := by
  have hpass := exec_pass call e
  split at hpass
  · exact .kept (congrArg Prod.fst (hpass.2.shown i))
  · rename_i e₀ t b hsome
    refine (passes_renewed hlast hsome i).congr ?_
    have hselect : Same Source.record e₀ (e₀.select t b) := Same.select Source.record_core b
    rw [← hselect i]
    exact congrArg Prod.fst (hpass.2.shown i)

/-! ## The last observation -/

theorem LastObserved.of_core (h : LastObserved e)
    (hcore : (e'.sources referenceSlot).core = (e.sources referenceSlot).core) :
    LastObserved e' := by
  have hsamples := congrArg (fun s : Source K => s.samples.getLast?) hcore
  have hlast := congrArg (fun s : Source K => s.last) hcore
  exact (hsamples.trans h).trans hlast.symm

theorem appendEpoch_observed (o : ReferenceObservation) : LastObserved (e.appendEpoch o) := by
  unfold LastObserved appendEpoch
  rw [modify_same, Source.append_samples, List.getLast?_concat, Source.append_last, modify_same]

theorem withdrawn_other (hi : i ≠ slot) : (e.withdrawn slot).sources i = e.sources i := by
  unfold withdrawn
  rw [Microchrony.modify_other _ _ hi]
  simp only [withUsed, clear]
  rw [Microchrony.modify_other _ _ hi]

/-- A pass finds the reference clock as it was, cleared, or with its new observation. -/
theorem passes_observed (hlast : LastObserved e) (h : call.passes e = some (e₀, t, b)) :
    LastObserved e₀ := by
  have hkept : e₀.sources referenceSlot = e.sources referenceSlot → LastObserved e₀ :=
    fun heq => hlast.of_core (by rw [heq])
  cases Call.passing h with
  | configure hslot | remove hslot => exact hkept (withdrawn_other (networkSlot_ne hslot).symm)
  | reset | online | poll => exact hkept rfl
  | referenceClock =>
    unfold LastObserved toggled
    rw [modify_same]
    rfl
  | observeReference => exact (appendEpoch_observed _).of_core (by rw [compareEpoch_sources])
  | request hslot =>
    have hne := (networkSlot_ne hslot).symm
    exact hkept (by rw [modify_other _ _ hne, modify_other _ _ hne])
  | receive hslot h =>
    have hne := (networkSlot_ne hslot).symm
    unfold answeredPass refused unserved measurePass accepted at h
    dsimp only at h
    split_ifs at h
    · cases h
      exact hkept (by rw [modify_other _ _ hne, modify_other _ _ hne])
    · cases h
      exact hkept (by rw [modify_other _ _ hne, modify_other _ _ hne])
    · split at h
      · cases h
      · cases h
        exact hkept (by simp only [modify_other _ _ hne])

theorem exec_observed (hlast : LastObserved e) (call : Call) : LastObserved (call.exec e) := by
  have hpass := exec_pass call e
  split at hpass
  · exact hlast.of_core (by rw [hpass.2.reference])
  · rename_i e₀ t b hsome
    refine (passes_observed hlast hsome).of_core ?_
    rw [hpass.2.reference, select_core]

/-! ## Runs -/

/-- The histories of an engine that `calls` lead to from `first`. -/
structure Recorded (first : Engine K) (calls : List Call) (e : Engine K) : Prop where
  observed : LastObserved e
  fitted : ∀ i, (e.sources i).Fitted
  ascending : ∀ i, (e.sources i).Ascending
  yielded : ∀ i, ∀ m ∈ (e.sources i).samples, ∃ p ∈ trace calls first, p.2.Yields i m p.1

theorem Source.Fitted.of_record (h : s.Fitted) (hs : s'.record = s.record) : s'.Fitted := by
  have hrecord : s'.record.Fitted := by
    rw [hs]
    exact h
  exact hrecord

theorem Source.Ascending.of_record (h : s.Ascending) (hs : s'.record = s.record) :
    s'.Ascending := by
  have hrecord : s'.record.Ascending := by
    rw [hs]
    exact h
  exact hrecord

theorem Renewed.fitted (h : Renewed e call i s') (hfitted : (e.sources i).Fitted) :
    s'.Fitted := by
  cases h with
  | kept h => exact hfitted.of_record h
  | cleared h => exact Source.Fitted.of_record (s := {}) (fun hvalid => by cases hvalid) h
  | added s m now hbase hyields hlater h => exact (Source.append_fitted _).of_record h

theorem Renewed.ascending (h : Renewed e call i s') (hascending : (e.sources i).Ascending) :
    s'.Ascending := by
  have hnil : Source.Ascending ({} : Source K) := List.Pairwise.nil
  cases h with
  | kept h => exact hascending.of_record h
  | cleared h => exact hnil.of_record h
  | added s m now hbase hyields hlater h =>
    refine (Source.append_ascending _ ?_ hlater).of_record h
    rcases hbase with hbase | hbase
    · exact hascending.of_record hbase
    · exact hnil.of_record hbase

theorem Source.record_samples (hs : s'.record = s.record) : s'.samples = s.samples := by
  have h := congrArg Source.samples hs
  exact h

theorem Renewed.mem (h : Renewed e call i s') {m : Measurement K} (hm : m ∈ s'.samples) :
    m ∈ (e.sources i).samples ∨ call.Yields i m e := by
  cases h with
  | kept h =>
    rw [Source.record_samples h] at hm
    exact .inl hm
  | cleared h =>
    rw [Source.record_samples h] at hm
    cases hm
  | added s x now hbase hyields hlater h =>
    rw [Source.record_samples h, Source.append_samples, List.mem_append, List.mem_singleton] at hm
    rcases hm with hm | rfl
    · have hmem := (Source.makeRoom_samples _).mem hm
      rcases hbase with hbase | hbase
      · rw [Source.record_samples hbase] at hmem
        exact .inl hmem
      · rw [Source.record_samples hbase] at hmem
        cases hmem
    · exact .inr hyields

theorem construct_recorded (config : Config K) :
    Recorded (construct config) [] (construct config) where
  observed := rfl
  fitted := fun _ h => by cases h
  ascending := fun _ => List.Pairwise.nil
  yielded := fun _ m hm => by cases hm

theorem run_recorded (config : Config K) (calls : List Call) :
    Recorded (construct config) calls (run calls (construct config)) := by
  refine run_induction (P := Recorded (construct config)) (construct_recorded config) ?_ calls
  intro calls call ih
  have hrenewed := exec_renewed ih.observed call
  refine ⟨exec_observed ih.observed call, fun i => (hrenewed i).fitted (ih.fitted i),
    fun i => (hrenewed i).ascending (ih.ascending i), ?_⟩
  intro i m hm
  rw [trace_snoc]
  rcases (hrenewed i).mem hm with hold | hnew
  · obtain ⟨p, hp, hyields⟩ := ih.yielded i m hold
    exact ⟨p, List.mem_append_left _ hp, hyields⟩
  · exact ⟨_, List.mem_append_right _ (List.mem_singleton_self _), hnew⟩

end WsprryPico.Microchrony
