import WsprryPico.Provisioning.ProfileSafe
import WsprryPico.Provisioning.Reset

/-!
# The storage targets of a reset

`ResetStorageTargets` of `provisioning/reset_storage.cpp`. The operational flash and the
profile store are concrete; what the targets call of the other stores is a parameter.
-/

namespace WsprryPico.Provisioning

open Lib Standalone Wtp

/-- The fields of a standalone configuration that a reset sets, and the others. -/
structure StationConfig (κ : Type) where
  callsign : List UInt8
  locator : List UInt8
  powerDbm : Nat
  ssid : List UInt8
  password : List UInt8
  ntpIpv4 : List UInt8
  rest : κ

/-- The operational store, the retained time, the log settings and the bonds. The store works on
the operational flash; `udp` and `ntp` say whether these stores are there. -/
structure Stores (ρ κ : Type) where
  activity : ρ → Activity
  eraseProgress : ρ → Bool × ρ
  healthy : ρ → Bool
  load : Bool → ρ → Media → Bool × ρ × Media
  config : ρ → Option (StationConfig κ)
  save : StationConfig κ → ρ → Media → Bool × ρ × Media
  purgeConfigHistory : ρ → Media → Bool × ρ × Media
  scheduled : ρ → Bool
  inFlight : ρ → Bool
  watermark : ρ → Nat
  udp : Bool
  clearUdp : ρ → Bool × ρ
  udpCleared : ρ → Bool
  ntp : Bool
  eraseNtp : ρ → Bool × ρ
  ntpErased : ρ → Bool
  eraseBonds : ρ → Bool × ρ
  factoryConfig : StationConfig κ
  defaultTimeServer : List UInt8

structure StorageTargets (ρ : Type) where
  flash : Media
  media : Media
  profiles : ProfileStore
  stores : ρ
  bondsDone : Bool := false

namespace StorageTargets

variable {ρ κ : Type} (stores : Stores ρ κ) (p : Parsers)

def operationalSize : Nat := 16 * 1024
def sectorSize : Nat := 4096

/-- The configuration that a provisioning reset keeps. -/
def preservedConfig (s : StorageTargets ρ) : Option (Option (StationConfig κ)) :=
  let config := stores.config s.stores
  if s.profiles.source = .consumerProfile then
    match p.consumer s.profiles.data with
    | none => none
    | some consumer =>
      let config := config.getD stores.factoryConfig
      some (some { config with
        callsign := consumer.callsign, locator := consumer.locator, powerDbm := consumer.powerDbm })
  else some config

def preserveOperational (s : StorageTargets ρ) : Bool × StorageTargets ρ :=
  match stores.eraseProgress s.stores with
  | (false, r) => (false, { s with stores := r })
  | (true, r) =>
    let s := { s with stores := r }
    let ready := if stores.healthy s.stores then (true, s.stores, s.flash)
      else stores.load true s.stores s.flash
    match ready with
    | (false, r, f) => (false, { s with stores := r, flash := f })
    | (true, r, f) =>
      let s := { s with stores := r, flash := f }
      match preservedConfig stores p s with
      | none => (false, s)
      | some none => (true, s)
      | some (some config) =>
        let config := { config with ssid := [], password := [], ntpIpv4 := stores.defaultTimeServer }
        match stores.save config s.stores s.flash with
        | (false, r, f) => (false, { s with stores := r, flash := f })
        | (true, r, f) =>
          let (ok, r, f) := stores.purgeConfigHistory r f
          (ok, { s with stores := r, flash := f })

def eraseMedia (offset : Nat) (m : Media) : Bool × Media :=
  ((m.flash.erase offset profileSlotSize).1,
    { m with flash := (m.flash.erase offset profileSlotSize).2 })

def clearProfile (target : ProfileSource) (s : StorageTargets ρ) : Bool × StorageTargets ρ :=
  if target ≠ .unprovisioned then (false, s)
  else
    match eraseMedia 0 s.media with
    | (false, m) => (false, { s with media := m })
    | (true, m) =>
      match eraseMedia profileSlotSize m with
      | (false, m) => (false, { s with media := m })
      | (true, m) =>
        match ProfileStore.load p m with
        | (false, profiles) => (false, { s with media := m, profiles })
        | (true, profiles) =>
          let (ok, profiles, m) := profiles.select p target [] m
          (ok, { s with media := m, profiles })

/-- Sectors one after the other, up to the first that fails. -/
def eraseSectors : List Nat → Media → Bool × Media
  | [], m => (true, m)
  | sector :: rest, m =>
    match m.flash.erase (sector * sectorSize) sectorSize with
    | (false, f) => (false, { m with flash := f })
    | (true, f) => eraseSectors rest { m with flash := f }

def eraseOperational (s : StorageTargets ρ) : Bool × StorageTargets ρ :=
  match if stores.udp then stores.clearUdp s.stores else (true, s.stores) with
  | (false, r) => (false, { s with stores := r })
  | (true, r) =>
    match if stores.ntp then stores.eraseNtp r else (true, r) with
    | (false, r) => (false, { s with stores := r })
    | (true, r) =>
      match stores.eraseProgress r with
      | (false, r) => (false, { s with stores := r })
      | (true, r) =>
        match eraseSectors (List.range 4) s.flash with
        | (false, f) => (false, { s with stores := r, flash := f })
        | (true, f) =>
          let (ok, r, f) := stores.load false r f
          (ok, { s with stores := r, flash := f })

/-- Pages that read back erased. -/
def pagesErased (m : Media) (pages : List Nat) : Bool :=
  pages.all fun page =>
    match m.read (page * 256) 256 with
    | none => false
    | some bytes => erased bytes

def operationalErased (s : StorageTargets ρ) : Bool :=
  (!stores.udp || stores.udpCleared s.stores) && (!stores.ntp || stores.ntpErased s.stores) &&
    pagesErased s.flash (List.range 64) && stores.healthy s.stores &&
    (stores.config s.stores).isNone && !stores.scheduled s.stores && !stores.inFlight s.stores &&
    stores.watermark s.stores = 0

def eraseBonds (s : StorageTargets ρ) : Bool × StorageTargets ρ :=
  ((stores.eraseBonds s.stores).1,
    { s with stores := (stores.eraseBonds s.stores).2, bondsDone := (stores.eraseBonds s.stores).1 })

def targets : ResetTargets (StorageTargets ρ) where
  activity s := stores.activity s.stores
  profilesHealthy s := s.profiles.healthy
  preserveOperational := preserveOperational stores p
  clearProfile := clearProfile p
  eraseOperational := eraseOperational stores
  operationalErased := operationalErased stores
  eraseBonds := eraseBonds stores
  bondsErased s := s.bondsDone

variable {stores p} {s s' : StorageTargets ρ}

/-- The operational flash is erased and nothing of it is left in memory. -/
structure OperationalBlank (stores : Stores ρ κ) (s : StorageTargets ρ) : Prop where
  flash : ∀ a, a < operationalSize → s.flash.flash.bytes a = 255
  config : (stores.config s.stores).isNone = true
  scheduled : stores.scheduled s.stores = false
  inFlight : stores.inFlight s.stores = false
  watermark : stores.watermark s.stores = 0
  udp : stores.udp = true → stores.udpCleared s.stores = true
  ntp : stores.ntp = true → stores.ntpErased s.stores = true

/-- Nothing of the old profile is left on the flash, and a fresh load returns an unprovisioned
device. -/
structure ProfileBlank (p : Parsers) (s : StorageTargets ρ) : Prop where
  source : s.profiles.source = .unprovisioned
  data : s.profiles.data = []
  load : ProfileStore.load p { flash := { bytes := s.media.flash.bytes } } = (true, s.profiles)
  first : Profile.scanned s.media.flash.bytes 0 =
    .valid 1 (ProfileStore.selectionPayload .unprovisioned [])
  second : ∀ a, profileSlotSize ≤ a → a < 2 * profileSlotSize → s.media.flash.bytes a = 255

theorem operational_verified (h : (targets stores p).operationalErased s = true) :
    OperationalBlank stores s := by
  have h : operationalErased stores s = true := h
  simp only [operationalErased, Bool.and_eq_true, Bool.or_eq_true, Bool.not_eq_true',
    decide_eq_true_eq] at h
  obtain ⟨⟨⟨⟨⟨⟨⟨hudp, hntp⟩, hpages⟩, -⟩, hconfig⟩, hscheduled⟩, hflight⟩, hwatermark⟩ := h
  refine ⟨fun a ha => ?_, hconfig, hscheduled, hflight, hwatermark, fun hu => ?_, fun hn => ?_⟩
  · unfold operationalSize at ha
    have hpage := List.all_eq_true.mp hpages (a / 256) (List.mem_range.mpr (by omega))
    cases hread : s.flash.read (a / 256 * 256) 256 with
    | none =>
      rw [hread] at hpage
      cases hpage
    | some bytes =>
      rw [hread] at hpage
      rw [Profile.read_bytes hread] at hpage
      have hbyte := erased_slice.mp hpage (a % 256) (by omega)
      rwa [show a / 256 * 256 + a % 256 = a by omega] at hbyte
  · exact hudp.resolve_left fun hno => (nomatch hu.symm.trans hno)
  · exact hntp.resolve_left fun hno => (nomatch hn.symm.trans hno)

theorem erased_media {offset : Nat} {m m' : Media} (h : eraseMedia offset m = (true, m')) :
    m'.unreadable = m.unreadable ∧
      m'.flash.bytes = (Nor.Write.erase offset profileSlotSize).upTo profileSlotSize m.flash.bytes := by
  have hwrote := Nor.write_spec (.erase offset profileSlotSize) m.flash
  unfold eraseMedia at h
  injection h with hok hm
  rw [Nor.erase] at hok hm
  rw [hok] at hwrote
  rw [← hm]
  exact ⟨rfl, hwrote.done⟩

theorem profile_cleared {target : ProfileSource}
    (h : (targets stores p).clearProfile target s = (true, s')) :
    target = .unprovisioned ∧ ProfileBlank p s' := by
  have h : clearProfile p target s = (true, s') := h
  unfold clearProfile at h
  split at h
  · cases h
  rename_i htarget
  obtain rfl := Decidable.not_not.mp htarget
  rcases hzero : eraseMedia 0 s.media with ⟨_ | _, m₁⟩
  · rw [hzero] at h
    cases h
  rw [hzero] at h
  dsimp only at h
  rcases hone : eraseMedia profileSlotSize m₁ with ⟨_ | _, m₂⟩
  · rw [hone] at h
    cases h
  rw [hone] at h
  dsimp only at h
  have hblank : ∀ a, a < 2 * profileSlotSize → m₂.flash.bytes a = 255 := by
    intro a ha
    rw [(erased_media hone).2]
    by_cases hsecond : profileSlotSize ≤ a
    · exact if_pos ⟨hsecond, by omega⟩
    · rw [Nor.Write.upTo_outside (by simp only [Nor.Write.base]; omega), (erased_media hzero).2]
      exact if_pos ⟨Nat.zero_le _, by omega⟩
  have hempty : ∀ slot, slot < 2 → Profile.scanned m₂.flash.bytes slot = .empty := by
    intro slot hslot
    rw [← Profiles.scanned_blank slot]
    refine Profile.scanned_congr fun i hi => hblank _ ?_
    have hslots : slot = 0 ∨ slot = 1 := by omega
    rcases hslots with rfl | rfl <;> omega
  rcases hload : ProfileStore.load p m₂ with ⟨_ | _, profiles⟩
  · rw [hload] at h
    cases h
  rw [hload] at h
  dsimp only at h
  have hheld := Profile.load_held hload
  obtain rfl : profiles = { healthy := true } := by
    cases hheld with
    | virgin => rfl
    | slot hhealthy hslot hfound => cases (hempty _ hslot).symm.trans hfound
  rcases hselect : ({ healthy := true } : ProfileStore).select p .unprovisioned [] m₂ with
    ⟨ok, profiles', m₃⟩
  rw [hselect] at h
  obtain ⟨rfl, rfl⟩ := h
  rcases Profile.select_spec (Profiles.held_sequence hheld) hselect with ⟨hok, -⟩ |
      ⟨hadmitted, ⟨-, -, -, hsame, -⟩ | hstored⟩
  · cases hok
  · cases hsame
  · obtain ⟨-, hdone⟩ := Profiles.stored_spec hheld hadmitted hstored
    obtain ⟨hselected, hfound⟩ := hstored.done rfl
    refine ⟨rfl, ?_, ?_, (hdone rfl).1.load, hfound, fun a hge hlt => ?_⟩
    · rw [hselected]
    · rw [hselected]
    · show m₃.flash.bytes a = 255
      rw [hstored.outside a (.inr ?_)]
      · exact hblank a hlt
      · show 0 * profileSlotSize + profileSlotSize ≤ a
        omega

end StorageTargets

end WsprryPico.Provisioning
