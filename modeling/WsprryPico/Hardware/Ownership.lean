import WsprryPico.Hardware.Devices

/-!
# Who owns a GPIO

What an allocation that a validator accepts says: the GPIOs it claimed are exactly
those with an owner, each is eligible and none was claimed twice.
-/

namespace WsprryPico.Hardware

section Except

variable {ε α β : Type} {x : Except ε α} {k : α → Except ε β} {b : β}

theorem bind_ok (h : (x >>= k) = .ok b) : ∃ a, x = .ok a ∧ k a = .ok b := by
  cases x with
  | error e => exact nomatch h
  | ok a => exact ⟨a, rfl, h⟩

/-- A validator that fails leaves an error text. -/
def Fails (error : ε → Option String) (x : Except ε α) : Prop := ∀ e, x = .error e → error e ≠ none

theorem Fails.bind {error : ε → Option String} (h : Fails error x) (hk : ∀ a, Fails error (k a)) :
    Fails error (x >>= k) := by
  intro v hv
  cases hx : x with
  | error e =>
    rw [hx] at hv
    obtain rfl := Except.error.inj hv
    exact h e hx
  | ok a =>
    rw [hx] at hv
    exact hk a v hv

end Except

/-- The GPIOs with an owner in a table. -/
structure Owned (v : Validation) (pins : List Nat) : Prop where
  owned : ∀ gp, v.owners gp ≠ "" ↔ gp ∈ pins
  single : pins.Nodup
  eligible : ∀ gp ∈ pins, eligible gp = true

theorem Owned.empty : Owned {} [] :=
  ⟨fun _ => ⟨fun h => absurd rfl h, nofun⟩, List.nodup_nil, nofun⟩

/-- One more GPIO, eligible and without an owner so far. -/
theorem Owned.add {v v' : Validation} {pins : List Nat} {gp : Nat} {role : String}
    (h : Owned v pins) (heligible : Hardware.eligible gp = true) (hfree : v.owners gp = "")
    (hrole : role ≠ "")
    (howners : v'.owners = fun pin => if pin = gp then role else v.owners pin) :
    Owned v' (pins ++ [gp]) := by
  have hnew : gp ∉ pins := fun hmem => (h.owned gp).mpr hmem hfree
  refine ⟨fun pin => ?_, ?_, fun pin hpin => ?_⟩
  · rw [howners, List.mem_append, List.mem_singleton]
    dsimp only
    split
    · rename_i hpin
      exact ⟨fun _ => .inr hpin, fun _ => hrole⟩
    · rename_i hpin
      rw [h.owned pin]
      exact ⟨.inl, fun h => h.resolve_right hpin⟩
  · rw [List.nodup_append]
    refine ⟨h.single, by simp, fun a ha b hb => ?_⟩
    obtain rfl := List.mem_singleton.mp hb
    exact fun heq => hnew (heq ▸ ha)
  · rcases List.mem_append.mp hpin with hpin | hpin
    · exact h.eligible pin hpin
    · obtain rfl := List.mem_singleton.mp hpin
      exact heligible

section Claims

variable {v v' : Validation} {pins : List Nat} {gp : Nat} {role : String}
  {claims : List (Nat × String)}

theorem claim_owned (h : Owned v pins) (hrole : role ≠ "") (hrun : v.claim gp role = .ok v') :
    Owned v' (pins ++ [gp]) ∧ v'.error = v.error := by
  unfold Validation.claim at hrun
  split at hrun
  · cases hrun
  · rename_i heligible
    split at hrun
    · cases hrun
    · rename_i hfree
      cases hrun
      rw [Bool.not_eq_true', Bool.not_eq_false] at heligible
      exact ⟨h.add heligible (not_not.mp hfree) hrole rfl, rfl⟩

theorem claim_fails : Fails Validation.error (v.claim gp role) := by
  intro failed h
  unfold Validation.claim at h
  split at h
  · obtain rfl := Except.error.inj h
    exact nofun
  · split at h
    · obtain rfl := Except.error.inj h
      exact nofun
    · cases h

theorem claimAll_owned (h : Owned v pins) (hroles : ∀ c ∈ claims, c.2 ≠ "")
    (hrun : Validation.claimAll claims v = .ok v') :
    Owned v' (pins ++ claims.map (·.1)) ∧ v'.error = v.error := by
  induction claims generalizing v pins with
  | nil =>
    cases hrun
    rw [List.map_nil, List.append_nil]
    exact ⟨h, rfl⟩
  | cons c rest ih =>
    obtain ⟨next, hclaim, hrest⟩ := bind_ok hrun
    obtain ⟨hnext, herror⟩ := claim_owned h (hroles c List.mem_cons_self) hclaim
    obtain ⟨howned, herror'⟩ := ih hnext (List.forall_mem_cons.1 hroles).2 hrest
    rw [List.append_assoc] at howned
    exact ⟨howned, herror'.trans herror⟩

theorem claimAll_fails : Fails Validation.error (Validation.claimAll claims v) := by
  induction claims generalizing v with
  | nil => exact nofun
  | cons c rest ih => exact claim_fails.bind fun _ => ih

theorem ensure_fails {condition : Bool} (h : v.error ≠ none) :
    Fails Validation.error (Validation.ensure condition v) := by
  intro failed hrun
  unfold Validation.ensure at hrun
  split at hrun
  · cases hrun
  · obtain rfl := Except.error.inj hrun
    exact h

theorem optional_roles {o : Option Nat} (h : role ≠ "") :
    ∀ c ∈ PinPlan.optional o role, c.2 ≠ "" := by
  intro c hc
  obtain ⟨gp, -, rfl⟩ := List.mem_map.mp hc
  exact h

theorem optional_gpios (o : Option Nat) (role : String) :
    (PinPlan.optional o role).map (·.1) = o.toList := by
  unfold PinPlan.optional
  rw [List.map_map]
  exact List.map_id _

end Claims

/-! ## Plans -/

namespace PinPlan

variable {p : PinPlan} {v v' : Validation} {pins : List Nat}

def pairGpios (p : PinPlan) : List Nat :=
  match p.i2cPair.bind (i2cPairs[·]?) with
  | some pair => [pair.sda, pair.scl]
  | none => []

def gpios (p : PinPlan) : List Nat :=
  p.rf.toList ++ p.pairGpios ++ p.button.toList ++ p.amplifier.toList ++ p.lpf ++
  p.indicatorGp.toList

theorem claimPair_owned (h : Owned v pins) (hrun : p.claimPair v = .ok v') :
    Owned v' (pins ++ p.pairGpios) ∧ v'.error = v.error := by
  unfold claimPair at hrun
  unfold pairGpios
  cases hpair : p.i2cPair with
  | none =>
    rw [hpair] at hrun
    cases hrun
    refine ⟨?_, rfl⟩
    simp only [Option.bind_none, List.append_nil]
    exact h
  | some index =>
    rw [hpair] at hrun
    simp only [Option.bind_some]
    dsimp only at hrun
    cases hget : i2cPairs[index]? with
    | none =>
      rw [hget] at hrun
      cases hrun
    | some pair =>
      rw [hget] at hrun
      refine claimAll_owned h (fun c hc => ?_) hrun
      rcases List.mem_cons.mp hc with rfl | hc
      · exact (by decide : "i2c_sda" ≠ "")
      · obtain rfl := List.mem_singleton.mp hc
        exact (by decide : "i2c_scl" ≠ "")

theorem claimPair_fails : Fails Validation.error (p.claimPair v) := by
  unfold claimPair
  split
  · exact nofun
  · split
    · intro failed h
      obtain rfl := Except.error.inj h
      exact nofun
    · exact claimAll_fails

theorem lpfRoles_roles : ∀ c ∈ p.lpfRoles, c.2 ≠ "" := by
  intro c hc
  obtain ⟨i, hi, rfl⟩ := List.mem_mapIdx.mp hc
  intro hempty
  have hlength := congrArg String.length hempty
  simp at hlength

theorem lpfRoles_gpios : p.lpfRoles.map (·.1) = p.lpf := by
  unfold lpfRoles
  refine List.ext_getElem? fun i => ?_
  rw [List.getElem?_map, List.getElem?_mapIdx]
  cases p.lpf[i]? <;> rfl

theorem allocate_owned (h : p.allocate = .ok v) : Owned v p.gpios ∧ v.error = none := by
  obtain ⟨_, -, h⟩ := bind_ok h
  obtain ⟨v₁, hrf, h⟩ := bind_ok h
  obtain ⟨v₂, hpair, h⟩ := bind_ok h
  obtain ⟨v₃, hbutton, h⟩ := bind_ok h
  obtain ⟨v₄, hamplifier, h⟩ := bind_ok h
  obtain ⟨_, -, h⟩ := bind_ok h
  obtain ⟨v₅, hlpf, h⟩ := bind_ok h
  obtain ⟨_, -, hindicator⟩ := bind_ok h
  obtain ⟨h₁, e₁⟩ := claimAll_owned Owned.empty (optional_roles (by decide)) hrf
  obtain ⟨h₂, e₂⟩ := claimPair_owned h₁ hpair
  obtain ⟨h₃, e₃⟩ := claimAll_owned h₂ (optional_roles (by decide)) hbutton
  obtain ⟨h₄, e₄⟩ := claimAll_owned h₃ (optional_roles (by decide)) hamplifier
  obtain ⟨h₅, e₅⟩ := claimAll_owned h₄ lpfRoles_roles hlpf
  obtain ⟨h₆, e₆⟩ := claimAll_owned h₅ (optional_roles (by decide)) hindicator
  simp only [optional_gpios, lpfRoles_gpios, List.nil_append] at h₆
  exact ⟨h₆, by rw [e₆, e₅, e₄, e₃, e₂, e₁]⟩

theorem allocate_fails : Fails Validation.error p.allocate :=
  (ensure_fails (Option.some_ne_none _)).bind fun _ => claimAll_fails.bind fun _ =>
    claimPair_fails.bind fun _ => claimAll_fails.bind fun _ => claimAll_fails.bind fun _ =>
      (ensure_fails (Option.some_ne_none _)).bind fun _ => claimAll_fails.bind fun _ =>
        (ensure_fails (Option.some_ne_none _)).bind fun _ => claimAll_fails

theorem validate_owned (h : p.validate.error = none) : Owned p.validate p.gpios := by
  unfold validate at h ⊢
  cases hrun : p.allocate with
  | ok v => exact (allocate_owned hrun).1
  | error v =>
    rw [hrun] at h
    exact absurd h (allocate_fails v hrun)

theorem mem_withFilters {s : FilterSettings} {gp : Nat} :
    gp ∈ (p.withFilters s).gpios ↔ gp ∈ p.gpios ∨ gp ∈ s.used.map (·.gp) := by
  simp only [gpios, withFilters, pairGpios, List.mem_append]
  grind

end PinPlan

/-! ## Filters -/

section Filters

variable {s : FilterSettings} {plan : PinPlan}

/-- No frequency lies in the ranges of two selectors. -/
def Unambiguous (ranges : List FilterRange) : Prop :=
  ∀ p ∈ ranges, ∀ r ∈ ranges, ∀ hz, p.lowHz ≤ hz → hz ≤ p.highHz → r.lowHz ≤ hz →
    hz ≤ r.highHz → p.selector = r.selector

theorem rangeConflict_none {p r : FilterRange} (h : rangeConflict r p = none) {hz : Nat}
    (hp : p.lowHz ≤ hz ∧ hz ≤ p.highHz) (hr : r.lowHz ≤ hz ∧ hz ≤ r.highHz) :
    p.selector = r.selector := by
  unfold rangeConflict at h
  split at h
  · cases h
  · split at h
    · cases h
    · rename_i hconflict
      by_cases hselector : p.selector = r.selector
      · exact hselector
      · refine absurd ?_ hconflict
        simp only [Bool.and_eq_true, decide_eq_true_eq]
        exact ⟨⟨hselector, by omega⟩, by omega⟩

theorem rangesError_none {outputs : List FilterOutput} {seen rest : List FilterRange}
    (hseen : Unambiguous seen) (h : rangesError outputs seen rest = none) :
    Unambiguous (seen ++ rest) := by
  induction rest generalizing seen with
  | nil =>
    rw [List.append_nil]
    exact hseen
  | cons r rest ih =>
    unfold rangesError at h
    split at h
    · cases h
    · split at h
      · cases h
      · rename_i hconflict
        rw [List.findSome?_eq_none_iff] at hconflict
        have hnext : Unambiguous (seen ++ [r]) := by
          intro a ha b hb hz ha₁ ha₂ hb₁ hb₂
          rcases List.mem_append.mp ha with ha | ha
          · rcases List.mem_append.mp hb with hb | hb
            · exact hseen a ha b hb hz ha₁ ha₂ hb₁ hb₂
            · rw [List.mem_singleton.mp hb] at hb₁ hb₂ ⊢
              exact rangeConflict_none (hconflict a ha) ⟨ha₁, ha₂⟩ ⟨hb₁, hb₂⟩
          · rw [List.mem_singleton.mp ha] at ha₁ ha₂ ⊢
            rcases List.mem_append.mp hb with hb | hb
            · exact (rangeConflict_none (hconflict b hb) ⟨hb₁, hb₂⟩ ⟨ha₁, ha₂⟩).symm
            · rw [List.mem_singleton.mp hb]
        have hall := ih hnext h
        rwa [List.append_assoc] at hall

theorem validateFilters_none (h : validateFilters s plan = none) :
    (plan.withFilters s).validate.error = none ∧ Unambiguous s.mapped := by
  unfold validateFilters at h
  split at h
  · cases h
  · split at h
    · cases h
    · dsimp only at h
      split at h
      · cases h
      · rename_i hvalid
        have hempty : Unambiguous [] := fun _ hmem => absurd hmem List.not_mem_nil
        exact ⟨hvalid, rangesError_none hempty h⟩

end Filters

/-! ## The Si5351 -/

section Si5351

variable {a a' : Si5351Allocation} {pins : List Nat} {s : Si5351Settings} {mask gp : Nat}

theorem deviceClaim_owned {role : String} (h : Owned a.pins pins) (hrole : role ≠ "")
    (hrun : a.claim gp role = .ok a') :
    Owned a'.pins (pins ++ [gp]) ∧ a'.error = a.error := by
  unfold Si5351Allocation.claim at hrun
  split at hrun
  · cases hrun
  · rename_i heligible
    split at hrun
    · cases hrun
    · rename_i hfree
      cases hrun
      rw [Bool.not_eq_true', Bool.not_eq_false] at heligible
      exact ⟨h.add heligible (not_not.mp hfree) hrole rfl, rfl⟩

theorem claimLoopback_owned (h : Owned a.pins pins) (hrun : a.claimLoopback mask gp = .ok a') :
    Owned a'.pins (pins ++ [gp]) ∧ mask &&& (1 <<< pwmSliceOf gp) = 0 := by
  obtain ⟨next, hclaim, hrest⟩ := bind_ok hrun
  have hnext := deviceClaim_owned h (by decide) hclaim
  split at hrest
  · cases hrest
  · split at hrest
    · cases hrest
    · rename_i hfree
      cases hrest
      exact ⟨hnext.1, not_not.mp hfree⟩

/-- The GPIOs of the device beside its I2C pair. -/
def Si5351Settings.gpios (s : Si5351Settings) : List Nat := s.gate.toList ++ s.loopbackInput.toList

theorem claimDevice_owned (h : Owned a.pins pins) (hrun : a.claimDevice s mask = .ok a') :
    Owned a'.pins (pins ++ s.gpios) ∧
      ∀ gp, s.loopbackInput = some gp → mask &&& (1 <<< pwmSliceOf gp) = 0 := by
  obtain ⟨next, hgate, hloopback⟩ := bind_ok hrun
  have hnext : Owned next.pins (pins ++ s.gate.toList) := by
    unfold Si5351Allocation.claimGate at hgate
    cases hg : s.gate with
    | none =>
      rw [hg] at hgate
      cases hgate
      rw [Option.toList_none, List.append_nil]
      exact h
    | some gp =>
      rw [hg] at hgate
      exact (deviceClaim_owned h (by decide) hgate).1
  unfold Si5351Settings.gpios
  rw [← List.append_assoc]
  cases hl : s.loopbackInput with
  | none =>
    rw [hl] at hloopback
    cases hloopback
    rw [Option.toList_none, List.append_nil]
    exact ⟨hnext, nofun⟩
  | some gp =>
    rw [hl] at hloopback
    obtain ⟨howned, hfree⟩ := claimLoopback_owned hnext hloopback
    refine ⟨howned, fun gp' hgp' => ?_⟩
    cases hgp'
    exact hfree

theorem deviceClaim_fails {role : String} : Fails Si5351Allocation.error (a.claim gp role) := by
  intro failed h
  unfold Si5351Allocation.claim at h
  split at h
  · obtain rfl := Except.error.inj h
    exact Option.some_ne_none _
  · split at h
    · obtain rfl := Except.error.inj h
      exact Option.some_ne_none _
    · cases h

theorem claimDevice_fails : Fails Si5351Allocation.error (a.claimDevice s mask) := by
  refine Fails.bind ?_ fun b => ?_
  · unfold Si5351Allocation.claimGate
    split
    · exact deviceClaim_fails
    · exact nofun
  · split
    · refine deviceClaim_fails.bind fun c failed h => ?_
      split at h
      · obtain rfl := Except.error.inj h
        exact Option.some_ne_none _
      · split at h
        · obtain rfl := Except.error.inj h
          exact Option.some_ne_none _
        · cases h
    · exact nofun

/-- What an allocation with the device says. -/
structure DeviceAllocated (plan : PinPlan) (s : Si5351Settings) (mask : Nat)
    (filters : FilterSettings) (v : Validation) : Prop where
  engine : plan.engine = .i2c
  accepted : validateFilters filters plan = none
  owned : Owned v ((plan.withFilters filters).gpios ++ s.gpios)
  slice : ∀ gp, s.loopbackInput = some gp → mask &&& (1 <<< pwmSliceOf gp) = 0

theorem validateSi5351_allocated {plan : PinPlan} {filters : FilterSettings}
    (h : (validateSi5351 plan s mask filters).valid = true) :
    DeviceAllocated plan s mask filters (validateSi5351 plan s mask filters).pins := by
  have herror : (validateSi5351 plan s mask filters).error = none := by
    unfold Si5351Allocation.valid at h
    rw [Bool.and_eq_true, Option.isNone_iff_eq_none] at h
    exact h.2
  unfold validateSi5351 at h herror ⊢
  dsimp only at h herror ⊢
  split at h
  · rename_i hplan
    unfold Si5351Allocation.valid at h
    rw [Bool.and_eq_true] at h
    rw [h.1] at hplan
    cases hplan
  rename_i hplan
  rw [if_neg hplan] at herror ⊢
  cases hfilters : validateFilters filters plan with
  | some error =>
    rw [hfilters] at herror
    cases herror
  | none =>
    rw [hfilters] at herror
    dsimp only at herror ⊢
    split at herror
    · cases herror
    rename_i hengine
    rw [if_neg hengine]
    cases hsettings : validateSi5351Settings s with
    | some error =>
      rw [hsettings] at herror
      cases herror
    | none =>
      rw [hsettings] at herror
      cases hrun : Si5351Allocation.claimDevice s mask
          { pins := (plan.withFilters filters).validate } with
      | error failed =>
        rw [hrun] at herror
        exact absurd herror (claimDevice_fails failed hrun)
      | ok a =>
        have howned := PinPlan.validate_owned (validateFilters_none hfilters).1
        obtain ⟨hdevice, hslice⟩ := claimDevice_owned howned hrun
        exact ⟨not_not.mp hengine, hfilters, hdevice, hslice⟩

end Si5351

/-! ## The GPS receiver -/

section Gps

variable {s : GpsSettings} {filters : FilterSettings} {plan : PinPlan}

theorem of_contains {l : List Nat} {gp parity : Nat}
    (hl : ∀ gp ∈ l, eligible gp = true ∧ gp % 2 = parity) (h : l.contains gp = true) :
    eligible gp = true ∧ gp % 2 = parity :=
  hl gp (List.contains_iff_mem.mp h)

theorem uart_eligible {gp : Nat} (h : (gpsUart gp).isSome = true) :
    eligible gp = true ∧ gp % 2 = 1 := by
  unfold gpsUart at h
  split at h
  · rename_i hmem
    exact of_contains (by decide) hmem
  · split at h
    · rename_i hmem
      exact of_contains (by decide) hmem
    · cases h

theorem txUart_eligible {gp : Nat} (h : (txUart gp).isSome = true) :
    eligible gp = true ∧ gp % 2 = 0 := by
  unfold txUart at h
  split at h
  · rename_i hmem
    exact of_contains (by decide) hmem
  · split at h
    · rename_i hmem
      exact of_contains (by decide) hmem
    · cases h

/-- The pins of a receiver whose settings are accepted: the UART has an odd receive and
an even transmit pin, and the pulse an odd one of its own. -/
theorem gpsSettings_gpios (h : validateGpsSettings s = none) :
    s.gpios.Nodup ∧ ∀ gp ∈ s.gpios, eligible gp = true := by
  unfold validateGpsSettings at h
  dsimp only at h
  split at h
  · cases h
  rename_i hpins
  split at h
  · cases h
  split at h
  · cases h
  rename_i htransmit
  simp only [Bool.or_eq_true, not_or, decide_eq_true_eq, Bool.not_eq_true, Bool.not_eq_false',
    Option.isNone_eq_false_iff] at hpins
  obtain ⟨⟨⟨huart, hpps⟩, hodd⟩, hne⟩ := hpins
  obtain ⟨hrx, hrxOdd⟩ := uart_eligible huart
  unfold GpsSettings.gpios
  cases htx : s.txGp with
  | none =>
    simp only [Option.toList_none]
    refine ⟨?_, fun gp hgp => ?_⟩
    · simp [Ne.symm hne]
    · rcases List.mem_cons.mp hgp with rfl | hgp
      · exact hrx
      · obtain rfl := List.mem_singleton.mp hgp
        exact hpps
  | some tx =>
    rw [htx] at htransmit
    simp only [Option.any_some, Bool.or_eq_true, not_or, decide_eq_true_eq, Bool.not_eq_true,
      Option.isNone_eq_false_iff] at htransmit
    obtain ⟨htxEligible, heven⟩ := txUart_eligible htransmit.1.1.2
    simp only [Option.toList_some]
    refine ⟨?_, fun gp hgp => ?_⟩
    · simp only [List.nodup_cons, List.mem_cons, List.not_mem_nil, or_false, not_or,
        not_false_eq_true, List.nodup_nil, and_true]
      exact ⟨⟨Ne.symm hne, by omega⟩, by omega⟩
    · rcases List.mem_cons.mp hgp with rfl | hgp
      · exact hrx
      · rcases List.mem_cons.mp hgp with rfl | hgp
        · exact hpps
        · obtain rfl := List.mem_singleton.mp hgp
          exact htxEligible

theorem markFilters_owned (outputs : List FilterOutput) (v : Validation) (gp : Nat) :
    (markFilters v outputs).owners gp ≠ "" ↔ v.owners gp ≠ "" ∨ gp ∈ outputs.map (·.gp) := by
  induction outputs generalizing v with
  | nil => simp [markFilters]
  | cons o rest ih =>
    have hrest := ih
      { v with owners := fun pin => if pin = o.gp then "filter_selector" else v.owners pin }
    show (markFilters _ rest).owners gp ≠ "" ↔ _
    rw [hrest, List.map_cons, List.mem_cons]
    dsimp only
    split
    · rename_i hgp
      simp [hgp]
    · rename_i hgp
      simp [hgp]

/-- The pins of an accepted receiver beside those of the plan, by the engine. -/
theorem validateGps_allocated {si : Option Si5351Settings} (henabled : s.enabled = true)
    (h : validateGps plan si s filters = none) :
    (s.gpios.Nodup ∧ ∀ gp ∈ s.gpios, eligible gp = true) ∧
      ∃ v, gpsAllocation plan si s filters = .ok v ∧ v.error = none ∧
        ∀ gp ∈ s.gpios, v.owners gp = "" := by
  unfold validateGps at h
  cases hsettings : validateGpsSettings s with
  | some error =>
    rw [hsettings] at h
    cases h
  | none =>
    rw [hsettings] at h
    rw [henabled, if_neg (by decide)] at h
    refine ⟨gpsSettings_gpios hsettings, ?_⟩
    cases hallocation : gpsAllocation plan si s filters with
    | error e =>
      rw [hallocation] at h
      cases h
    | ok v =>
      rw [hallocation] at h
      refine ⟨v, rfl, ?_⟩
      cases herror : v.error with
      | some error =>
        simp only [herror] at h
        cases h
      | none =>
        simp only [herror] at h
        split at h
        · cases h
        · rename_i hfree
          refine ⟨rfl, fun gp hgp => ?_⟩
          rw [Bool.not_eq_true, List.any_eq_false] at hfree
          have hnot := hfree gp hgp
          rw [decide_eq_true_eq, not_not] at hnot
          exact hnot

end Gps

end WsprryPico.Hardware
