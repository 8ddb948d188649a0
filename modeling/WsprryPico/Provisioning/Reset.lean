import WsprryPico.Provisioning.AccessStore

/-!
# The reset coordinator

`ResetCoordinator` of `provisioning/reset.cpp`. The reset in progress is an intent in the
access record; each phase is saved after the effects it stands for, and `resume` goes on
from the phase it finds. The targets are those of `provisioning/reset.hpp`, over any state
of theirs.
-/

namespace WsprryPico.Provisioning

open Lib Standalone Wtp

structure Activity where
  owned : Bool := false
  outputKnown : Bool := true
  outputActive : Bool := false
  armed : Bool := false
  running : Bool := false
  failed : Bool := false

def idleForAccess (activity : Activity) : Bool :=
  !activity.owned && activity.outputKnown && !activity.outputActive && !activity.armed &&
    !activity.running && !activity.failed

inductive ResetResult where
  | complete | pending | busy | invalid | storageFault | targetFault

/-- The targets of a reset; the profile store is one of them. -/
structure ResetTargets (σ : Type) where
  activity : σ → Activity
  profilesHealthy : σ → Bool
  preserveOperational : σ → Bool × σ
  clearProfile : ProfileSource → σ → Bool × σ
  eraseOperational : σ → Bool × σ
  operationalErased : σ → Bool
  eraseBonds : σ → Bool × σ
  bondsErased : σ → Bool

/-- What a coordinator does, with the answer. -/
inductive Effect where
  | preserved (ok : Bool)
  | cleared (target : ProfileSource) (ok : Bool)
  | erasedOperational (ok : Bool)
  | verifiedOperational (ok : Bool)
  | erasedBonds (ok : Bool)
  | verifiedBonds (ok : Bool)
  /-- The access store is asked to save a phase, none when the intent is taken back. Whether it
  did is read from the flash. -/
  | saving (phase : ResetPhase)

/-- A coordinator with what it works on. -/
structure Reset (σ : Type) where
  access : AccessStore
  flash : Nor
  targets : σ
  uncertainIntent : Bool := false
  log : List Effect := []

namespace Reset

variable {σ : Type} (targets : ResetTargets σ) (defaultPassword : List UInt8)
  /- the pages that fail to read while a phase is saved -/
  (faults : ResetPhase → Nat → Bool)

def pending (w : Reset σ) : Bool := w.access.healthy && w.access.record.reset.pending

/-- `replace` of the access store. -/
def replace (record : AccessRecord) (w : Reset σ) : Bool × Reset σ :=
  let run := w.access.replace record { flash := w.flash, unreadable := faults record.reset.phase }
  (run.1, { w with
    access := run.2.1, flash := run.2.2.flash, log := w.log ++ [.saving record.reset.phase] })

/-- The record a `resume` works with, or the result it ends with. -/
abbrev Attempt (σ : Type) := Except (ResetResult × Reset σ) (AccessRecord × Reset σ)

def save (phase : ResetPhase) (record : AccessRecord) (w : Reset σ) : Attempt σ :=
  let record := { record with reset := { record.reset with phase := phase } }
  match replace faults record w with
  | (true, w) => .ok (record, w)
  | (false, w) => .error (.storageFault, w)

def zero (digest : PayloadDigest) : Bool := digest.bytes.all (· = 0)

def begin (level : ResetLevel) (targetSource : ProfileSource) (requestDigest : PayloadDigest)
    (w : Reset σ) : ResetResult × Reset σ :=
  if !w.access.healthy || (level ≠ .full && !targets.profilesHealthy w.targets) then
    (.storageFault, w)
  else if w.pending then (.pending, w)
  else if !idleForAccess (targets.activity w.targets) then (.busy, w)
  else if level = .none || zero requestDigest ||
      (level = .access && targetSource ≠ .unprovisioned) ||
      (level ≠ .access && targetSource ≠ .unprovisioned && targetSource ≠ .buildBundle) then
    (.invalid, w)
  else
    let reset := { w.access.record.reset with level, targetSource, requestDigest }
    match save faults .intent { w.access.record with reset } { w with uncertainIntent := true } with
    | .error (result, w) => (result, w)
    | .ok (_, w) => (.pending, w)

/-- A call of a target: its answer is logged. -/
def call (effect : Bool → Effect) (run : σ → Bool × σ) (w : Reset σ) : Bool × Reset σ :=
  ((run w.targets).1,
    { w with targets := (run w.targets).2, log := w.log ++ [effect (run w.targets).1] })

/-- A question to a target. -/
def ask (effect : Bool → Effect) (answer : σ → Bool) (w : Reset σ) : Bool × Reset σ :=
  call effect (fun s => (answer s, s)) w

/-- The second call is made when the first succeeds. -/
def both (first second : Reset σ → Bool × Reset σ) (w : Reset σ) : Bool × Reset σ :=
  match first w with
  | (true, w) => second w
  | (false, w) => (false, w)

/-- A call that only some levels make. -/
def callIf (need : Bool) (run : Reset σ → Bool × Reset σ) (w : Reset σ) : Bool × Reset σ :=
  if need then run w else (true, w)

def preserve (record : AccessRecord) (w : Reset σ) : Attempt σ :=
  if record.reset.phase = .intent then
    match callIf (record.reset.level = .provisioning)
        (call .preserved targets.preserveOperational) w with
    | (false, w) => .error (.targetFault, w)
    | (true, w) => save faults .preservationComplete record w
  else .ok (record, w)

def selectSource (record : AccessRecord) (w : Reset σ) : Attempt σ :=
  if record.reset.phase = .preservationComplete then
    match callIf (record.reset.level ≠ .access)
        (call (.cleared record.reset.targetSource)
          (targets.clearProfile record.reset.targetSource)) w with
    | (false, w) => .error (.storageFault, w)
    | (true, w) => save faults .sourceSelected record w
  else .ok (record, w)

/-- The access record that a reset leaves, but for the intent. -/
def renewed (record : AccessRecord) : AccessRecord :=
  { record with
    epoch := record.epoch + 1, password := defaultPassword, radioPassword := []
    defaultPassword := true, fieldMode := record.reset.level = .access, bleDisabled := false
    bonds := .replicate 4 0, bondCount := 0 }

def renew (record : AccessRecord) (w : Reset σ) : Attempt σ :=
  if record.reset.phase = .sourceSelected then
    if record.epoch = 0xffffffffffffffff then .error (.storageFault, w)
    else save faults .accessReset (renewed defaultPassword record) w
  else .ok (record, w)

def eraseOperational (record : AccessRecord) (w : Reset σ) : Attempt σ :=
  if record.reset.phase = .accessReset then
    match callIf (record.reset.level = .full)
        (both (call .erasedOperational targets.eraseOperational)
          (ask .verifiedOperational targets.operationalErased)) w with
    | (false, w) => .error (.targetFault, w)
    | (true, w) => save faults .operationalErased record w
  else .ok (record, w)

def eraseBonds (record : AccessRecord) (w : Reset σ) : Attempt σ :=
  if record.reset.phase = .operationalErased then
    match both (call .erasedBonds targets.eraseBonds) (ask .verifiedBonds targets.bondsErased) w with
    | (false, w) => .error (.targetFault, (replace faults { record with bleDisabled := true } w).2)
    | (true, w) => save faults .bondsCleared { record with bleDisabled := false } w
  else .ok (record, w)

def finish (record : AccessRecord) (w : Reset σ) : ResetResult × Reset σ :=
  if record.reset.phase ≠ .bondsCleared then (.storageFault, w)
  else
    match replace faults { record with reset := {} } w with
    | (false, w) => (.storageFault, w)
    | (true, w) => (.complete, { w with uncertainIntent := false })

/-- The phases of `resume`, from the one in the record on. -/
def phases (record : AccessRecord) (w : Reset σ) :
    Except (ResetResult × Reset σ) (AccessRecord × Reset σ) := do
  let (record, w) ← preserve targets faults record w
  let (record, w) ← selectSource targets faults record w
  let (record, w) ← renew defaultPassword faults record w
  let (record, w) ← eraseOperational targets faults record w
  eraseBonds targets faults record w

def resume (w : Reset σ) : ResetResult × Reset σ :=
  if !w.access.healthy then (.storageFault, w)
  else if !w.pending then (.complete, w)
  else if !idleForAccess (targets.activity w.targets) then (.busy, w)
  else
    match phases targets defaultPassword faults w.access.record w with
    | .error ended => ended
    | .ok (record, w) => finish faults record w

end Reset

end WsprryPico.Provisioning
