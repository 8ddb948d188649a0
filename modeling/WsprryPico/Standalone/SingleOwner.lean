import WsprryPico.Hardware.Ownership
import WsprryPico.Standalone.RfConfiguration

/-!
# One owner for each GPIO

An accepted configuration gives no GPIO to two functions, and neither does a state of
the store, whatever the journal held and in whatever order the parts were saved.
-/

namespace WsprryPico.Standalone

open Hardware

/-- The GPIOs of the Si5351 beside its I2C pair, which the I2C engine uses. -/
def RfConfig.deviceGpios (config : RfConfig) : List Nat :=
  match config.pins.engine, config.si5351 with
  | .i2c, some si => si.gpios
  | _, _ => []

def RfConfig.gpsGpios (config : RfConfig) : List Nat :=
  match config.gps with
  | some gps => if gps.enabled then gps.gpios else []
  | none => []

/-- The GPIOs of the active functions: the RF output or the I2C pair, the button, the
amplifier, the filter outputs, the indicator, and those of the devices. -/
def activeGpios (config : RfConfig) (filters : FilterSettings) : List Nat :=
  (config.pins.withFilters filters).gpios ++ config.deviceGpios ++ config.gpsGpios

/-- No GPIO has two owners, no PWM slice two captures and no frequency two selectors. -/
structure SingleOwner (config : RfConfig) (filters : FilterSettings) : Prop where
  eligible : ∀ gp ∈ activeGpios config filters, eligible gp = true
  single : (activeGpios config filters).Nodup
  slices : ∀ si gps loopback, config.pins.engine = .i2c → config.si5351 = some si →
    config.gps = some gps → gps.enabled = true → si.loopbackInput = some loopback →
    pwmSliceOf gps.ppsGp ≠ pwmSliceOf loopback
  ranges : Unambiguous filters.mapped

section Accepted

variable {config : RfConfig} {filters : FilterSettings}

theorem validateEngine_owned (hfilters : validateFilters filters config.pins = none)
    (h : validateEngine config filters = none) :
    ∃ v, Owned v ((config.pins.withFilters filters).gpios ++ config.deviceGpios) := by
  unfold validateEngine at h
  unfold RfConfig.deviceGpios
  cases hengine : config.pins.engine with
  | direct =>
    refine ⟨(config.pins.withFilters filters).validate, ?_⟩
    simp only [List.append_nil]
    exact PinPlan.validate_owned (validateFilters_none hfilters).1
  | i2c =>
    rw [hengine] at h
    cases hsi : config.si5351 with
    | none =>
      rw [hsi] at h
      cases h
    | some si =>
      simp only [hsi] at h
      split at h
      · rename_i hinvalid
        rw [Option.or_eq_none_iff] at h
        have hvalid : (validateSi5351 config.pins si 0 filters).valid = true := by
          unfold Si5351Allocation.valid Validation.valid
          rw [h.1, h.2]
          rfl
        rw [hvalid] at hinvalid
        cases hinvalid
      · rename_i hvalid
        rw [Bool.not_eq_true', Bool.not_eq_false] at hvalid
        exact ⟨_, (validateSi5351_allocated hvalid).owned⟩

/-- What the pins of a receiver are checked against is everything else. -/
theorem gpsAllocation_owned {gps : GpsSettings} {v : Validation}
    (hplan : config.pins.validate.error = none)
    (h : gpsAllocation config.pins config.si5351 gps filters = .ok v) :
    (∀ gp, v.owners gp = "" →
      gp ∉ (config.pins.withFilters filters).gpios ++ config.deviceGpios) ∧
    ∀ si loopback, config.pins.engine = .i2c → config.si5351 = some si →
      si.loopbackInput = some loopback → pwmSliceOf gps.ppsGp ≠ pwmSliceOf loopback := by
  unfold gpsAllocation at h
  unfold RfConfig.deviceGpios
  cases hengine : config.pins.engine with
  | direct =>
    simp only [hengine] at h
    split at h
    · cases h
    · cases h
      refine ⟨fun gp hfree hmem => ?_, fun _ _ h => (nomatch h)⟩
      simp only [List.append_nil, PinPlan.mem_withFilters] at hmem
      refine (markFilters_owned filters.used config.pins.validate gp).mpr ?_ hfree
      exact hmem.imp_left ((PinPlan.validate_owned hplan).owned gp).mpr
  | i2c =>
    simp only [hengine] at h
    cases hsi : config.si5351 with
    | none =>
      simp only [hsi] at h
      cases h
    | some si =>
      simp only [hsi] at h
      split at h
      · cases h
      · rename_i hvalid
        rw [Bool.not_eq_true', Bool.not_eq_false] at hvalid
        cases h
        have hallocated := validateSi5351_allocated hvalid
        refine ⟨fun gp hfree hmem => (hallocated.owned.owned gp).mpr hmem hfree,
          fun si' loopback _ hsame hloopback heq => ?_⟩
        cases hsame
        have hclear := hallocated.slice loopback hloopback
        rw [heq, Nat.and_self, Nat.one_shiftLeft] at hclear
        exact Nat.ne_of_gt (Nat.two_pow_pos _) hclear

theorem validateRfConfiguration_parts (h : validateRfConfiguration config filters = none) :
    config.pins.validate.error = none ∧ validateEngine config filters = none ∧
      (∀ gps, config.gps = some gps → validateGps config.pins config.si5351 gps filters = none) ∧
      validateFilters filters config.pins = none := by
  unfold validateRfConfiguration at h
  split at h
  · cases h
  · rename_i hoperational
    rw [Bool.not_eq_true', Bool.not_eq_false] at hoperational
    unfold PinPlan.operational Validation.valid at hoperational
    rw [Bool.and_eq_true, Option.isNone_iff_eq_none] at hoperational
    simp only [Option.or_eq_none_iff, Option.bind_eq_none_iff] at h
    exact ⟨hoperational.1, h.2.1, h.2.2.1, h.2.2.2⟩

theorem accepted_singleOwner (h : validateRfConfiguration config filters = none) :
    SingleOwner config filters := by
  obtain ⟨hplan, hengine, hgps, hfilters⟩ := validateRfConfiguration_parts h
  obtain ⟨v, howned⟩ := validateEngine_owned hfilters hengine
  have hranges := (validateFilters_none hfilters).2
  -- a receiver that is enabled was checked against the others
  have hreceiver : ∀ gps, config.gps = some gps → gps.enabled = true →
      (gps.gpios.Nodup ∧ ∀ gp ∈ gps.gpios, Hardware.eligible gp = true) ∧
      ∃ v, gpsAllocation config.pins config.si5351 gps filters = .ok v ∧ v.error = none ∧
        ∀ gp ∈ gps.gpios, v.owners gp = "" := fun gps hsome henabled =>
    validateGps_allocated henabled (hgps gps hsome)
  have hlist : config.gpsGpios.Nodup ∧ ∀ gp ∈ config.gpsGpios, Hardware.eligible gp = true ∧
      gp ∉ (config.pins.withFilters filters).gpios ++ config.deviceGpios := by
    unfold RfConfig.gpsGpios
    cases hsome : config.gps with
    | none => exact ⟨List.nodup_nil, nofun⟩
    | some gps =>
      dsimp only
      split
      · rename_i henabled
        obtain ⟨⟨hnodup, heligible⟩, v, hallocation, -, hfree⟩ := hreceiver gps hsome henabled
        exact ⟨hnodup, fun gp hgp => ⟨heligible gp hgp,
          (gpsAllocation_owned hplan hallocation).1 gp (hfree gp hgp)⟩⟩
      · exact ⟨List.nodup_nil, nofun⟩
  refine ⟨fun gp hgp => ?_, ?_, fun si gps loopback hi2c hsi hsome henabled hloopback => ?_,
    hranges⟩
  · rcases List.mem_append.mp hgp with hgp | hgp
    · exact howned.eligible gp hgp
    · exact (hlist.2 gp hgp).1
  · refine List.nodup_append.mpr ⟨howned.single, hlist.1, fun a ha b hb heq => ?_⟩
    exact (hlist.2 b hb).2 (heq ▸ ha)
  · obtain ⟨-, v, hallocation, -⟩ := hreceiver gps hsome henabled
    exact (gpsAllocation_owned hplan hallocation).2 si loopback hi2c hsi hloopback

/-- An I2C engine with a gate, a loopback, two filter outputs and a receiver. -/
example : validateRfConfiguration
    { pins := { engine := .i2c, rf := none, i2cPair := some 1, amplifier := some 15 }
      si5351 := some
        { synthesis := { referenceHz := 25000000, crystalLoadPf := some 10, loopback := some .clk1 }
          loopbackInput := some 7, gate := some 6 }
      gps := some { enabled := true, rxGp := 17, ppsGp := 19 } }
    { outputCount := 2
      outputs := #v[{ id := 1, gp := 10, name := [49] }, { id := 2, gp := 11, name := [50] },
        {}, {}, {}] } = none := by decide +kernel

end Accepted

/-! ## The store -/

namespace ConfigStore

variable {s : ConfigStore}

/-- What the store has without a configuration is the default plan. -/
theorem validateState_singleOwner {current : Option RfConfig} {filters : FilterSettings}
    (h : validateState current filters = none) : SingleOwner (current.getD {}) filters := by
  cases current with
  | some config => exact accepted_singleOwner h
  | none =>
    refine accepted_singleOwner ?_
    have hoperational : (({} : RfConfig).pins.operational) = true := by decide
    unfold validateRfConfiguration
    rw [Option.getD_none, hoperational]
    exact h

theorem validateFilters_default {pins : PinPlan} (h : pins.validate.error = none) :
    validateFilters {} pins = none := by
  have hused : ({} : FilterSettings).used = [] := by decide
  have hmapped : ({} : FilterSettings).mapped = [] := by decide
  have hplan : pins.withFilters {} = pins := by
    unfold PinPlan.withFilters
    rw [hused, List.map_nil, List.append_nil]
  unfold validateFilters
  rw [if_neg (by decide), hused, hmapped, hplan]
  simp only [outputsError, h]
  rfl

/-- The checks of `parse_config` on a text without filters are those of the validator. -/
theorem parseConfig_valid {record : ConfigRecord} {config : RfConfig}
    (h : parseConfig record = some config) : validateRfConfiguration config {} = none := by
  unfold parseConfig at h
  dsimp only at h
  split at h
  · cases h
  rename_i hplan
  split at h
  · cases h
  rename_i hsettings
  split at h
  · cases h
  rename_i hgps
  split at h
  · cases h
  rename_i hserved
  split at h
  · cases h
  rename_i hdevice
  cases h
  rw [Bool.not_eq_true', Bool.not_eq_false] at hplan
  rw [Option.isSome_iff_ne_none, not_not] at hsettings hgps
  have hoperational : (record.pins.getD {}).operational = true := by
    cases hpins : record.pins with
    | none => decide
    | some pins =>
      rw [hpins] at hplan
      exact hplan
  have herror : (record.pins.getD {}).validate.error = none := by
    unfold PinPlan.operational Validation.valid at hoperational
    rw [Bool.and_eq_true, Option.isNone_iff_eq_none] at hoperational
    exact hoperational.1
  have hengine : validateEngine
      ⟨record.pins.getD {}, record.si5351, record.gps, record.enabled⟩ {} = none := by
    unfold validateEngine
    dsimp only
    cases hi2c : (record.pins.getD {}).engine with
    | direct => rfl
    | i2c =>
      cases hsi : record.si5351 with
      | none => simp [hi2c, hsi] at hdevice
      | some si =>
        simp only [hi2c, hsi, decide_true, Bool.true_and, Option.any_some, Bool.not_eq_true',
          Bool.not_eq_false] at hdevice
        simp only [hsi, Option.any_some, Bool.not_eq_true] at hserved
        simp only [hdevice, hserved]
        rfl
  unfold validateRfConfiguration
  rw [hoperational]
  rw [hsettings, hengine, hgps, validateFilters_default herror]
  rfl

/-- A document that is accepted leaves what `validateState` accepts. -/
theorem loadDocument_valid {document : Document} (h : loadDocument document = (true, s)) :
    validateState s.current s.filters = none := by
  unfold loadDocument at h
  split at h
  · obtain rfl := (Prod.mk.inj h).2
    have hplan : ({} : PinPlan).validate.error = none := by decide
    exact validateFilters_default hplan
  · cases h
  · split at h
    · cases h
    · rename_i hparse
      obtain rfl := (Prod.mk.inj h).2
      obtain ⟨record, -, hrecord⟩ := Option.bind_eq_some_iff.mp hparse
      exact parseConfig_valid hrecord
  · unfold loadState at h
    split at h
    · cases h
    split at h
    · cases h
    dsimp only at h
    split at h
    · cases h
    split at h
    · cases h
    split at h
    · cases h
    rename_i hvalid
    rw [Option.isSome_iff_ne_none, not_not] at hvalid
    split at h
    · obtain rfl := (Prod.mk.inj h).2
      exact hvalid
    · cases h
    · obtain rfl := (Prod.mk.inj h).2
      exact hvalid

theorem load_valid {journals cursorValid : Bool} {document : Document}
    (h : load journals document cursorValid = (true, s)) :
    validateState s.current s.filters = none := by
  unfold load at h
  split at h
  · cases h
  · split at h
    · cases h
    · rename_i hdocument
      split at h
      · obtain rfl := (Prod.mk.inj h).2
        have hvalid := loadDocument_valid hdocument
        exact hvalid
      · cases h

/-- A save of the configuration: refused, or checked against the saved filters. -/
theorem save_cases (config : RfConfig) (a : Answers) (s : ConfigStore) :
    ((s.save config a).1 = false ∧ ∃ healthy, (s.save config a).2 = { s with healthy := healthy }) ∨
    ((s.save config a).1 = true ∧ (s.save config a).2 = { s with current := some config } ∧
      validateRfConfiguration config s.filters = none) := by
  unfold save
  split
  · exact .inl ⟨rfl, s.healthy, rfl⟩
  · rename_i hadmitted
    split
    · exact .inl ⟨rfl, false, rfl⟩
    · simp only [Bool.or_eq_true, not_or, Bool.not_eq_true, Option.isSome_eq_false_iff,
        Option.isNone_iff_eq_none] at hadmitted
      exact .inr ⟨rfl, rfl, hadmitted.1.2⟩

theorem saveFilters_cases (settings : FilterSettings) (a : Answers) (s : ConfigStore) :
    ((s.saveFilters settings a).1 = false ∧
      ∃ healthy, (s.saveFilters settings a).2 = { s with healthy := healthy }) ∨
    ((s.saveFilters settings a).1 = true ∧
      (s.saveFilters settings a).2 = { s with filters := settings } ∧
      validateState s.current settings = none) := by
  unfold saveFilters
  split
  · exact .inl ⟨rfl, s.healthy, rfl⟩
  · rename_i hadmitted
    split
    · exact .inl ⟨rfl, false, rfl⟩
    · simp only [Bool.or_eq_true, not_or, Bool.not_eq_true, Option.isSome_eq_false_iff,
        Option.isNone_iff_eq_none] at hadmitted
      exact .inr ⟨rfl, rfl, hadmitted.1.2⟩

/-- Every state of the store passes its own check. -/
theorem Reachable.valid (h : Reachable s) : validateState s.current s.filters = none := by
  induction h with
  | load h => exact load_valid h
  | @save s config a _ ih =>
    rcases save_cases config a s with ⟨-, healthy, hs⟩ | ⟨-, hs, hvalid⟩
    · rw [hs]
      exact ih
    · rw [hs]
      exact hvalid
  | @saveFilters s settings a _ ih =>
    rcases saveFilters_cases settings a s with ⟨-, healthy, hs⟩ | ⟨-, hs, hvalid⟩
    · rw [hs]
      exact ih
    · rw [hs]
      exact hvalid
  | saveOther a _ ih =>
    unfold ConfigStore.saveOther
    split
    · exact ih
    · split
      · exact ih
      · exact ih
  | saveMessageSchedule schedule a _ ih =>
    unfold ConfigStore.saveMessageSchedule
    split
    · exact ih
    · split
      · exact ih
      · exact ih
  | purgeRefused _ ih => exact ih

end ConfigStore

/-- No GPIO has two owners: in an accepted configuration, in every state behind a load
that succeeded, and in what a later save of either part adds to the other. -/
theorem gpios_single_owner :
    (∀ config filters, validateRfConfiguration config filters = none → SingleOwner config filters) ∧
    (∀ s : ConfigStore, s.Reachable → SingleOwner (s.current.getD {}) s.filters) ∧
    (∀ (s : ConfigStore) (config : RfConfig) (a : ConfigStore.Answers),
      (s.save config a).1 = true → (s.save config a).2 = { s with current := some config } ∧
        SingleOwner config s.filters) ∧
    ∀ (s : ConfigStore) (settings : FilterSettings) (a : ConfigStore.Answers),
      (s.saveFilters settings a).1 = true →
        (s.saveFilters settings a).2 = { s with filters := settings } ∧
          SingleOwner (s.current.getD {}) settings := by
  refine ⟨fun _ _ h => accepted_singleOwner h,
    fun s h => ConfigStore.validateState_singleOwner h.valid, fun s config a hok => ?_,
    fun s settings a hok => ?_⟩
  · rcases ConfigStore.save_cases config a s with ⟨hrefused, -⟩ | ⟨-, hs, hvalid⟩
    · cases hrefused.symm.trans hok
    · exact ⟨hs, accepted_singleOwner hvalid⟩
  · rcases ConfigStore.saveFilters_cases settings a s with ⟨hrefused, -⟩ | ⟨-, hs, hvalid⟩
    · cases hrefused.symm.trans hok
    · exact ⟨hs, ConfigStore.validateState_singleOwner hvalid⟩

/-- A filter output on the RF output of the default plan. -/
def conflictingFilters : FilterSettings :=
  { outputCount := 1
    outputs := #v[{ id := 1, gp := 2, name := [76, 80, 70] }, {}, {}, {}, {}] }

/-- A load that fails keeps the parts it has read, also where they conflict. -/
theorem failedLoad_conflicts :
    ¬ ∀ journals document cursorValid,
      SingleOwner ((ConfigStore.load journals document cursorValid).2.current.getD {})
        (ConfigStore.load journals document cursorValid).2.filters := by
  intro hall
  have hsingle := (hall true
    (.state { filters := some (some conflictingFilters), config := some (some {}) }) true).single
  exact absurd hsingle (by decide)

end WsprryPico.Standalone
