import WsprryPico.Provisioning.AccessSafe
import WsprryPico.Provisioning.Reset

/-!
# A reset is resumable and happens once

From a durable intent on, whatever fails and however often `resume` is called: every
valid record on the flash stands at a phase of this reset, with the effects of the
phases before it in the log. So there is one record that `Complete` can leave.
-/

namespace WsprryPico.Provisioning

open Lib Standalone Wtp

/-- A reset: the default password of the device, the record in force when it was asked
for, and its intent. -/
structure Course where
  defaultPassword : List UInt8
  origin : AccessRecord
  intent : ResetIntent

namespace Course

/-- The phases from the intent to this one; `none` stands for the end. -/
def phasesThrough : ResetPhase → List ResetPhase
  | .intent => []
  | .preservationComplete => [.preservationComplete]
  | .sourceSelected => [.preservationComplete, .sourceSelected]
  | .accessReset => [.preservationComplete, .sourceSelected, .accessReset]
  | .operationalErased => [.preservationComplete, .sourceSelected, .accessReset, .operationalErased]
  | .bondsCleared => [.preservationComplete, .sourceSelected, .accessReset, .operationalErased,
      .bondsCleared]
  | .none => [.preservationComplete, .sourceSelected, .accessReset, .operationalErased,
      .bondsCleared, .none]

/-- What a phase asks of the targets before it is saved. -/
def effects (c : Course) : ResetPhase → List Effect
  | .preservationComplete => if c.intent.level = .provisioning then [.preserved true] else []
  | .sourceSelected => if c.intent.level ≠ .access then [.cleared c.intent.targetSource true] else []
  | .operationalErased =>
    if c.intent.level = .full then [.erasedOperational true, .verifiedOperational true] else []
  | .bondsCleared => [.erasedBonds true, .verifiedBonds true]
  | _ => []

/-- All that has to have happened, in this order, when a phase is reached. -/
def required (c : Course) (phase : ResetPhase) : List Effect :=
  (phasesThrough phase).flatMap fun phase => c.effects phase ++ [.saving phase]

def recordAt (c : Course) (bleDisabled : Bool) (phase : ResetPhase) : AccessRecord :=
  let reset := { c.intent with phase }
  match phase with
  | .intent | .preservationComplete | .sourceSelected => { c.origin with reset }
  | .none => { Reset.renewed c.defaultPassword { c.origin with reset } with reset := {} }
  | _ => { Reset.renewed c.defaultPassword { c.origin with reset } with bleDisabled, reset }

/-- The phases before the access record is renewed. -/
def early : ResetPhase → Bool
  | .intent | .preservationComplete | .sourceSelected => true
  | _ => false

/-- A record at a phase of the reset, the phase earned. Only while the bonds are to be erased
the radio may stay disabled. -/
structure At (c : Course) (log : List Effect) (phase : ResetPhase) (record : AccessRecord) :
    Prop where
  record : ∃ bleDisabled, record = c.recordAt bleDisabled phase ∧
    (bleDisabled = true → phase = .operationalErased)
  earned : (c.required phase).Sublist log
  room : early phase = false → c.origin.epoch ≠ 0xffffffffffffffff

def OnTrack (c : Course) (log : List Effect) (record : AccessRecord) : Prop :=
  ∃ phase, c.At log phase record

/-- The slots while the reset is under way: this record in one of them, and in the other
another of the reset or an older one that is no intent. -/
structure Tracked (c : Course) (log : List Effect) (bytes : Nat → UInt8) (slot sequence : Nat)
    (record : AccessRecord) : Prop where
  inRange : slot < 2
  found : scanned bytes slot = .valid sequence record
  onTrack : c.OnTrack log record
  other : ∀ s r, scanned bytes (1 - slot) = .valid s r →
    c.OnTrack log r ∨ (s < sequence ∧ r.reset.pending = false)

variable {c : Course} {log : List Effect} {phase next : ResetPhase} {record : AccessRecord}

theorem At.grow (h : c.At log phase record) (more : List Effect) :
    c.At (log ++ more) phase record :=
  ⟨h.record, h.earned.trans (List.sublist_append_left log more), h.room⟩

theorem At.phase_eq (h : c.At log phase record) : record.reset.phase = phase := by
  obtain ⟨⟨ble, rfl, -⟩, -⟩ := h
  cases phase <;> rfl

theorem At.level (h : c.At log phase record) (hphase : phase ≠ .none) :
    record.reset.level = c.intent.level ∧ record.reset.targetSource = c.intent.targetSource := by
  obtain ⟨⟨ble, rfl, -⟩, -⟩ := h
  cases phase with
  | none => exact absurd rfl hphase
  | _ => exact ⟨rfl, rfl⟩

theorem At.pending (h : c.At log phase record) (hlevel : c.intent.level ≠ .none) :
    record.reset.pending = true ↔ phase ≠ .none := by
  unfold ResetIntent.pending
  rw [decide_eq_true_eq]
  by_cases hphase : phase = .none
  · obtain ⟨⟨ble, rfl, -⟩, -⟩ := h
    subst hphase
    exact ⟨fun h => absurd rfl h, fun h => absurd rfl h⟩
  · rw [(h.level hphase).1]
    exact ⟨fun _ => hphase, fun _ => hlevel⟩

variable (next) in
theorem At.advance (h : c.At log phase record)
    (hnext : phasesThrough next = phasesThrough phase ++ [next])
    (hroom : early next = false → c.origin.epoch ≠ 0xffffffffffffffff) :
    c.At (log ++ (c.effects next ++ [.saving next])) next (c.recordAt false next) := by
  refine ⟨⟨false, rfl, nofun⟩, ?_, hroom⟩
  rw [required, hnext, List.flatMap_append, List.flatMap_singleton]
  exact h.earned.append (List.Sublist.refl _)

theorem OnTrack.grow (h : c.OnTrack log record) (more : List Effect) :
    c.OnTrack (log ++ more) record :=
  h.imp fun _ hat => hat.grow more

theorem Tracked.grow {bytes : Nat → UInt8} {slot sequence : Nat}
    (h : c.Tracked log bytes slot sequence record) (more : List Effect) :
    c.Tracked (log ++ more) bytes slot sequence record :=
  ⟨h.inRange, h.found, h.onTrack.grow more, fun s r hv => (h.other s r hv).imp_left (·.grow more)⟩

end Course

namespace Reset

variable {σ : Type} {c : Course} {w w' : Reset σ}

structure Sound (c : Course) (w : Reset σ) : Prop where
  tracked : ∃ slot sequence record, c.Tracked w.log w.flash.bytes slot sequence record
  current : w.access.state = .healthy →
    c.Tracked w.log w.flash.bytes w.access.activeSlot w.access.sequence w.access.record

theorem Sound.grow (h : Sound c w) (targets : σ) (more : List Effect) :
    Sound c { w with targets := targets, log := w.log ++ more } := by
  obtain ⟨slot, sequence, record, htracked⟩ := h.tracked
  exact ⟨⟨slot, sequence, record, htracked.grow more⟩, fun hs => (h.current hs).grow more⟩

theorem tracked_commit {log : List Effect} {store store' : AccessStore} {m m' : AccessMedia}
    {record : AccessRecord} {ok : Bool}
    (h : c.Tracked log m.flash.bytes store.activeSlot store.sequence store.record)
    (hrecord : c.OnTrack log record) (hc : Committed store record m ok store' m') :
    (∃ slot sequence record, c.Tracked log m'.flash.bytes slot sequence record) ∧
      (ok = true → c.Tracked log m'.flash.bytes store'.activeSlot store'.sequence store'.record) := by
  have htarget := target_of_found h.found
  have hslot := h.inRange
  have hback : 1 - store.target = store.activeSlot := by omega
  have hold := (hc.others store.activeSlot (by omega)).trans h.found
  refine ⟨⟨_, _, _, hslot, hold, h.onTrack, fun s r hv => ?_⟩, fun hok => ?_⟩
  · rw [← htarget] at hv
    cases hc.left with
    | untouched hsame => exact h.other s r (htarget ▸ hsame.symm.trans hv)
    | torn hnot => exact absurd hv (hnot s r)
    | written hwritten =>
      obtain ⟨-, rfl⟩ := Candidate.valid.inj (hwritten.symm.trans hv)
      exact .inl hrecord
  · obtain ⟨rfl, hwritten⟩ := hc.done hok
    refine ⟨?_, hwritten, hrecord, fun s r hv => .inl ?_⟩
    · show store.target < 2
      omega
    · have hv : scanned m'.flash.bytes (1 - store.target) = .valid s r := hv
      rw [hback] at hv
      obtain ⟨-, rfl⟩ := Candidate.valid.inj (hold.symm.trans hv)
      exact h.onTrack

theorem sound_replace (h : Sound c w) (faults : ResetPhase → Nat → Bool) {record : AccessRecord}
    (hrecord : c.OnTrack (w.log ++ [.saving record.reset.phase]) record) {ok : Bool}
    (hrun : replace faults record w = (ok, w')) :
    Sound c w' ∧ w'.log = w.log ++ [.saving record.reset.phase] ∧
      (ok = true → w'.access.state = .healthy ∧ w'.access.record = record) := by
  have hgrown := h.grow w.targets [.saving record.reset.phase]
  unfold replace at hrun
  rcases hr : w.access.replace record
    { flash := w.flash, unreadable := faults record.reset.phase } with ⟨ok', store', m'⟩
  rw [hr] at hrun
  obtain ⟨rfl, rfl⟩ := hrun
  refine ⟨?_, rfl, ?_⟩
  · rcases replace_spec (fun hs => (h.current hs).found) hr with ⟨-, rfl, rfl⟩ |
        ⟨hhealthy, -, ⟨-, rfl, rfl, rfl⟩ | ⟨-, hc⟩⟩
    · exact ⟨hgrown.tracked, hgrown.current⟩
    · exact ⟨hgrown.tracked, hgrown.current⟩
    · obtain ⟨htracked, hcurrent⟩ := tracked_commit (hgrown.current hhealthy) hrecord hc
      refine ⟨htracked, fun hstate => hcurrent ?_⟩
      cases ok' with
      | true => rfl
      | false =>
        rw [hc.failed rfl] at hstate
        cases hstate
  · rintro rfl
    rcases replace_spec (fun hs => (h.current hs).found) hr with ⟨hok, -⟩ |
        ⟨hhealthy, -, ⟨-, rfl, rfl, rfl⟩ | ⟨-, hc⟩⟩
    · cases hok
    · exact ⟨hhealthy, rfl⟩
    · obtain ⟨rfl, -⟩ := hc.done rfl
      exact ⟨rfl, rfl⟩

/-- A record of the reset that the store holds, at a phase before the end. -/
structure Working (c : Course) (phase : ResetPhase) (record : AccessRecord) (w : Reset σ) : Prop where
  sound : Sound c w
  healthy : w.access.state = .healthy
  holds : w.access.record = record
  stands : c.At w.log phase record
  unfinished : phase ≠ .none

/-- An attempt that goes on, or has ended without success. -/
def Proceeds (c : Course) : Attempt σ → Prop
  | .ok (record, w) => ∃ phase, Working c phase record w
  | .error (result, w) => Sound c w ∧ result ≠ .complete

theorem save_proceeds {faults : ResetPhase → Nat → Bool} {next : ResetPhase}
    {saved : AccessRecord} (hsound : Sound c w)
    (hat : c.At (w.log ++ [.saving next]) next (c.recordAt false next)) (hnext : next ≠ .none)
    (hsaved : { saved with reset := { saved.reset with phase := next } } = c.recordAt false next) :
    Proceeds c (save faults next saved w) := by
  unfold save
  rw [hsaved]
  dsimp only
  rcases hrun : replace faults (c.recordAt false next) w with ⟨ok, w'⟩
  have hphase := hat.phase_eq
  obtain ⟨hsound', hlog, hok⟩ := sound_replace hsound faults (by
    rw [hphase]
    exact ⟨next, hat⟩) hrun
  rw [hphase] at hlog
  cases ok with
  | false => exact ⟨hsound', nofun⟩
  | true => exact ⟨next, hsound', (hok rfl).1, (hok rfl).2, hlog ▸ hat, hnext⟩

/-- Calls of the targets, as far as the access store is concerned. -/
structure Called (c : Course) (es : List Effect) (w : Reset σ) (run : Bool × Reset σ) : Prop where
  sound : Sound c run.2
  grows : ∃ more, run.2.log = w.log ++ more
  done : run.1 = true → run.2.log = w.log ++ es

theorem called_call (h : Sound c w) (effect : Bool → Effect) (run : σ → Bool × σ) :
    Called c [effect true] w (call effect run w) where
  sound := h.grow _ _
  grows := ⟨_, rfl⟩
  done hok := by
    have hok : (run w.targets).1 = true := hok
    show w.log ++ [effect (run w.targets).1] = _
    rw [hok]

theorem called_both {first second : Reset σ → Bool × Reset σ} {es es' : List Effect}
    (hfirst : Called c es w (first w))
    (hsecond : ∀ w, Sound c w → Called c es' w (second w)) :
    Called c (es ++ es') w (both first second w) := by
  unfold both
  rcases hrun : first w with ⟨_ | _, w₁⟩
  · rw [hrun] at hfirst
    exact ⟨hfirst.sound, hfirst.grows, nofun⟩
  · rw [hrun] at hfirst
    have hthen := hsecond w₁ hfirst.sound
    have hlog := hfirst.done rfl
    obtain ⟨more, hmore⟩ := hthen.grows
    refine ⟨hthen.sound, ⟨es ++ more, ?_⟩, fun hok => ?_⟩
    · rw [hmore, hlog, List.append_assoc]
    · rw [hthen.done hok, hlog, List.append_assoc]

theorem called_if (need : Bool) {run : Reset σ → Bool × Reset σ} {es : List Effect}
    (h : Sound c w) (hrun : Called c es w (run w)) :
    Called c (if need = true then es else []) w (callIf need run w) := by
  cases need with
  | true => exact hrun
  | false => exact ⟨h, ⟨[], (List.append_nil _).symm⟩, fun _ => (List.append_nil _).symm⟩

theorem Working.advance {phase next : ResetPhase} {record saved : AccessRecord}
    (h : Working c phase record w) {faults : ResetPhase → Nat → Bool} (run : Bool × Reset σ)
    (hcalled : Called c (c.effects next) w run) (hok : run.1 = true)
    (hfollows : Course.phasesThrough next = Course.phasesThrough phase ++ [next])
    (hroom : Course.early next = false → c.origin.epoch ≠ 0xffffffffffffffff) (hnext : next ≠ .none)
    (hsaved : { saved with reset := { saved.reset with phase := next } } = c.recordAt false next) :
    Proceeds c (save faults next saved run.2) := by
  refine save_proceeds hcalled.sound ?_ hnext hsaved
  rw [hcalled.done hok, List.append_assoc]
  exact h.stands.advance _ hfollows hroom

variable {targets : ResetTargets σ} {faults : ResetPhase → Nat → Bool} {phase : ResetPhase}
  {record : AccessRecord}

theorem preserve_proceeds (h : Working c phase record w) :
    Proceeds c (preserve targets faults record w) := by
  unfold preserve
  split
  · rename_i hphase
    obtain rfl : phase = .intent := h.stands.phase_eq.symm.trans hphase
    have hcalled := called_if (decide (record.reset.level = .provisioning)) h.sound
      (called_call h.sound .preserved targets.preserveOperational)
    rw [(h.stands.level h.unfinished).1] at hcalled ⊢
    rcases hrun : callIf (decide (c.intent.level = .provisioning))
      (call .preserved targets.preserveOperational) w with ⟨_ | _, w₁⟩
    · rw [hrun] at hcalled
      exact ⟨hcalled.sound, nofun⟩
    · rw [hrun] at hcalled
      obtain ⟨⟨ble, rfl, -⟩, -, -⟩ := h.stands
      refine h.advance (true, w₁) ?_ rfl rfl nofun nofun rfl
      simpa [Course.effects] using hcalled
  · exact ⟨phase, h⟩

theorem selectSource_proceeds (h : Working c phase record w) :
    Proceeds c (selectSource targets faults record w) := by
  unfold selectSource
  split
  · rename_i hphase
    obtain rfl : phase = .preservationComplete := h.stands.phase_eq.symm.trans hphase
    have hcalled := called_if (decide (record.reset.level ≠ .access)) h.sound
      (called_call h.sound (.cleared record.reset.targetSource)
        (targets.clearProfile record.reset.targetSource))
    rw [(h.stands.level h.unfinished).1, (h.stands.level h.unfinished).2] at hcalled ⊢
    rcases hrun : callIf (decide (c.intent.level ≠ .access))
      (call (.cleared c.intent.targetSource) (targets.clearProfile c.intent.targetSource)) w with
      ⟨_ | _, w₁⟩
    · rw [hrun] at hcalled
      exact ⟨hcalled.sound, nofun⟩
    · rw [hrun] at hcalled
      obtain ⟨⟨ble, rfl, -⟩, -, -⟩ := h.stands
      refine h.advance (true, w₁) ?_ rfl rfl nofun nofun rfl
      simpa [Course.effects] using hcalled
  · exact ⟨phase, h⟩

theorem renew_proceeds (h : Working c phase record w) :
    Proceeds c (renew c.defaultPassword faults record w) := by
  unfold renew
  split
  · rename_i hphase
    obtain rfl : phase = .sourceSelected := h.stands.phase_eq.symm.trans hphase
    obtain ⟨⟨ble, rfl, -⟩, -, -⟩ := h.stands
    split
    · exact ⟨h.sound, nofun⟩
    · rename_i hroom
      have hcalled : Called c (c.effects .accessReset) w (true, w) :=
        ⟨h.sound, ⟨[], (List.append_nil _).symm⟩, fun _ => (List.append_nil _).symm⟩
      exact h.advance _ hcalled rfl rfl (fun _ => hroom) nofun rfl
  · exact ⟨phase, h⟩

theorem eraseOperational_proceeds (h : Working c phase record w) :
    Proceeds c (eraseOperational targets faults record w) := by
  unfold eraseOperational
  split
  · rename_i hphase
    obtain rfl : phase = .accessReset := h.stands.phase_eq.symm.trans hphase
    have hboth := called_both (called_call h.sound .erasedOperational targets.eraseOperational)
      fun w hw => called_call hw .verifiedOperational fun s => (targets.operationalErased s, s)
    have hcalled := called_if (decide (record.reset.level = .full)) h.sound hboth
    rw [(h.stands.level h.unfinished).1] at hcalled ⊢
    rcases hrun : callIf (decide (c.intent.level = .full))
      (both (call .erasedOperational targets.eraseOperational)
        (ask .verifiedOperational targets.operationalErased)) w with ⟨_ | _, w₁⟩
    · unfold ask at hrun
      rw [hrun] at hcalled
      exact ⟨hcalled.sound, nofun⟩
    · unfold ask at hrun
      rw [hrun] at hcalled
      have hroom := h.stands.room
      obtain ⟨⟨ble, rfl, hble⟩, -, -⟩ := h.stands
      obtain rfl : ble = false := Bool.eq_false_iff.mpr fun h => (nomatch hble h)
      refine h.advance (true, w₁) ?_ rfl rfl hroom nofun rfl
      simpa [Course.effects] using hcalled
  · exact ⟨phase, h⟩

theorem eraseBonds_proceeds (h : Working c phase record w) :
    Proceeds c (eraseBonds targets faults record w) := by
  unfold eraseBonds
  split
  · rename_i hphase
    obtain rfl : phase = .operationalErased := h.stands.phase_eq.symm.trans hphase
    have hcalled := called_both (called_call h.sound .erasedBonds targets.eraseBonds)
      fun w hw => called_call hw .verifiedBonds fun s => (targets.bondsErased s, s)
    have hroom := h.stands.room
    rcases hrun : both (call .erasedBonds targets.eraseBonds)
      (ask .verifiedBonds targets.bondsErased) w with ⟨_ | _, w₁⟩
    · unfold ask at hrun
      rw [hrun] at hcalled
      obtain ⟨more, hmore⟩ := hcalled.grows
      obtain ⟨⟨ble, rfl, -⟩, hearned, -⟩ := h.stands
      have hstands : c.At w₁.log .operationalErased (c.recordAt true .operationalErased) := by
        rw [hmore]
        exact Course.At.grow ⟨⟨true, rfl, fun _ => rfl⟩, hearned, hroom⟩ more
      exact ⟨(sound_replace hcalled.sound faults ⟨_, hstands.grow _⟩ rfl).1, nofun⟩
    · unfold ask at hrun
      rw [hrun] at hcalled
      obtain ⟨⟨ble, rfl, hble⟩, -, -⟩ := h.stands
      exact h.advance (true, w₁) hcalled rfl rfl hroom nofun rfl
  · exact ⟨phase, h⟩

/-- The end of the reset, on the flash as well. -/
structure Finished (c : Course) (w : Reset σ) : Prop where
  healthy : w.access.state = .healthy
  stored : scanned w.flash.bytes w.access.activeSlot = .valid w.access.sequence w.access.record
  stands : c.At w.log .none w.access.record

theorem finish_spec (h : Working c phase record w) {result : ResetResult}
    (hrun : finish faults record w = (result, w')) :
    Sound c w' ∧ (result = .complete → Finished c w') := by
  unfold finish at hrun
  split at hrun
  · obtain ⟨rfl, rfl⟩ := hrun
    exact ⟨h.sound, nofun⟩
  · rename_i hphase
    obtain rfl : phase = .bondsCleared := h.stands.phase_eq.symm.trans (Decidable.not_not.mp hphase)
    have hroom := h.stands.room
    have hend : c.At (w.log ++ [.saving .none]) .none (c.recordAt false .none) :=
      h.stands.advance .none rfl fun _ => hroom rfl
    obtain ⟨⟨ble, rfl, hble⟩, -, -⟩ := h.stands
    obtain rfl : ble = false := Bool.eq_false_iff.mpr fun h => (nomatch hble h)
    rcases hreplace : replace faults { c.recordAt false .bondsCleared with reset := {} } w with
      ⟨_ | _, w₁⟩
    · rw [hreplace] at hrun
      obtain ⟨rfl, rfl⟩ := hrun
      exact ⟨(sound_replace h.sound faults ⟨.none, hend⟩ hreplace).1, nofun⟩
    · rw [hreplace] at hrun
      obtain ⟨rfl, rfl⟩ := hrun
      obtain ⟨hsound, hlog, hok⟩ := sound_replace h.sound faults ⟨.none, hend⟩ hreplace
      obtain ⟨hhealthy, hrecord⟩ := hok rfl
      refine ⟨⟨hsound.tracked, hsound.current⟩, fun _ => ⟨hhealthy, (hsound.current hhealthy).found, ?_⟩⟩
      show c.At w₁.log .none w₁.access.record
      rw [hlog, hrecord]
      exact hend

theorem proceeds_bind {attempt : Attempt σ} {k : AccessRecord × Reset σ → Attempt σ}
    (h : Proceeds c attempt)
    (hk : ∀ phase record w, Working c phase record w → Proceeds c (k (record, w))) :
    Proceeds c (Except.bind attempt k) := by
  match attempt, h with
  | .ok (record, w), ⟨phase, hw⟩ => exact hk phase record w hw
  | .error (result, w), h => exact h

variable (targets faults) in
theorem phases_proceeds (h : Working c phase record w) :
    Proceeds c (phases targets c.defaultPassword faults record w) := by
  refine proceeds_bind (preserve_proceeds h) fun _ _ _ h => ?_
  refine proceeds_bind (selectSource_proceeds h) fun _ _ _ h => ?_
  refine proceeds_bind (renew_proceeds h) fun _ _ _ h => ?_
  refine proceeds_bind (eraseOperational_proceeds h) fun _ _ _ h => ?_
  exact eraseBonds_proceeds h

theorem resume_spec (h : Sound c w) (hlevel : c.intent.level ≠ .none) {result : ResetResult}
    (hrun : resume targets c.defaultPassword faults w = (result, w')) :
    Sound c w' ∧ (result = .complete → Finished c w') := by
  unfold resume at hrun
  cases hhealthy : w.access.healthy with
  | false =>
    rw [hhealthy] at hrun
    obtain ⟨rfl, rfl⟩ := hrun
    exact ⟨h, nofun⟩
  | true =>
    have hstate : w.access.state = .healthy := of_decide_eq_true hhealthy
    have htracked := h.current hstate
    obtain ⟨phase, hat⟩ := htracked.onTrack
    have hpending : w.pending = w.access.record.reset.pending := by
      rw [pending, hhealthy, Bool.true_and]
    rw [hhealthy, hpending] at hrun
    rw [if_neg (by decide)] at hrun
    split at hrun
    · rename_i hnot
      obtain ⟨rfl, rfl⟩ := hrun
      refine ⟨h, fun _ => ⟨hstate, htracked.found, ?_⟩⟩
      have hdone : phase = .none := by
        by_contra hphase
        rw [(hat.pending hlevel).mpr hphase] at hnot
        cases hnot
      exact hdone ▸ hat
    · rename_i hnot
      split at hrun
      · obtain ⟨rfl, rfl⟩ := hrun
        exact ⟨h, nofun⟩
      · have hworking : Working c phase w.access.record w := by
          refine ⟨h, hstate, rfl, hat, (hat.pending hlevel).mp ?_⟩
          simpa using hnot
        have hphases := phases_proceeds targets faults hworking
        split at hrun
        · rename_i ended hended
          rw [hended] at hphases
          obtain rfl := hrun
          exact ⟨hphases.1, fun h => absurd h hphases.2⟩
        · rename_i record w₁ hok
          rw [hok] at hphases
          obtain ⟨_, hworking⟩ := hphases
          exact finish_spec hworking hrun

/-- The intent is durable, and no other on the flash. -/
structure Intended (c : Course) (w : Reset σ) : Prop where
  healthy : w.access.state = .healthy
  record : w.access.record = c.recordAt false .intent
  inRange : w.access.activeSlot < 2
  found : scanned w.flash.bytes w.access.activeSlot = .valid w.access.sequence w.access.record
  older : ∀ s r, scanned w.flash.bytes (1 - w.access.activeSlot) = .valid s r →
    s < w.access.sequence ∧ r.reset.pending = false

/-- The access store with the power for so many bytes. -/
def powered (power : Option Nat) (w : Reset σ) : Reset σ := { w with flash := { w.flash with power } }

/-- The store starts anew. -/
def reloaded (unreadable : Nat → Bool) (w : Reset σ) : Reset σ :=
  { w with access := (AccessStore.load { flash := w.flash, unreadable }).2 }

/-- The histories of a reset from its intent on: `resume` and loads of the access store, each
with any failures, and anything else that happens to the targets. -/
inductive Run (targets : ResetTargets σ) (c : Course) : Reset σ → Prop where
  | start {w : Reset σ} (h : Intended c w) : Run targets c { w with log := [] }
  | resume {w : Reset σ} (h : Run targets c w) (power : Option Nat)
    (faults : ResetPhase → Nat → Bool) :
    Run targets c (Reset.resume targets c.defaultPassword faults (w.powered power)).2
  | load {w : Reset σ} (h : Run targets c w) (power : Option Nat) (unreadable : Nat → Bool) :
    Run targets c ((w.powered power).reloaded unreadable)
  | environment {w : Reset σ} (h : Run targets c w) (s : σ) : Run targets c { w with targets := s }

theorem Intended.sound (h : Intended c w) : Sound c { w with log := [] } := by
  have htracked : c.Tracked [] w.flash.bytes w.access.activeSlot w.access.sequence
      w.access.record := by
    refine ⟨h.inRange, h.found, ⟨.intent, ⟨false, h.record, nofun⟩, ?_,
      nofun⟩, fun s r hv => .inr (h.older s r hv)⟩
    exact List.Sublist.refl _
  exact ⟨⟨_, _, _, htracked⟩, fun _ => htracked⟩

/-- A load finds a record of the reset, or nothing. -/
theorem sound_reloaded (h : Sound c w) (unreadable : Nat → Bool) : Sound c (w.reloaded unreadable) := by
  refine ⟨h.tracked, fun hstate => ?_⟩
  unfold reloaded at hstate ⊢
  rcases hrun : AccessStore.load { flash := w.flash, unreadable } with ⟨ok, store⟩
  rw [hrun] at hstate
  rcases load_spec hrun with ⟨-, rfl⟩ | ⟨-, rfl, -⟩ | ⟨-, hloaded⟩
  · cases hstate
  · cases hstate
  · obtain ⟨slot, sequence, record, ht⟩ := h.tracked
    have hactive := valid_of_scan hloaded.found
    have hlt := hloaded.slot
    have hslot := ht.inRange
    by_cases heq : store.activeSlot = slot
    · rw [heq] at hactive
      obtain ⟨rfl, rfl⟩ := Candidate.valid.inj (ht.found.symm.trans hactive)
      exact heq ▸ ht
    · have hslots : store.activeSlot = 1 - slot ∧ 1 - store.activeSlot = slot := by omega
      rw [hslots.1] at hactive
      have hontrack : c.OnTrack w.log store.record := by
        rcases ht.other _ _ hactive with hontrack | ⟨holder, hplain⟩
        · exact hontrack
        · exfalso
          rcases scan_cases { flash := w.flash, unreadable } slot with hinvalid | hscan
          · have hpending := hloaded.torn (by rw [hslots.2]; exact hinvalid)
            cases hplain.symm.trans hpending
          · have := hloaded.newest sequence record (by rw [hslots.2]; exact hscan.trans ht.found)
            omega
      refine ⟨hlt, valid_of_scan hloaded.found, hontrack, fun s r hv => .inl ?_⟩
      rw [hslots.2] at hv
      obtain ⟨-, rfl⟩ := Candidate.valid.inj (ht.found.symm.trans hv)
      exact ht.onTrack

theorem run_sound (hlevel : c.intent.level ≠ .none) (h : Run targets c w) : Sound c w := by
  induction h with
  | start h => exact h.sound
  | @resume w _ power faults ih =>
    rcases hrun : Reset.resume targets c.defaultPassword faults (w.powered power) with ⟨result, w'⟩
    exact (resume_spec (w := w.powered power) ⟨ih.tracked, ih.current⟩ hlevel hrun).1
  | @load w _ power unreadable ih =>
    exact sound_reloaded (w := w.powered power) ⟨ih.tracked, ih.current⟩ unreadable
  | environment _ s ih => exact ⟨ih.tracked, ih.current⟩

/-- The intent that `begin` makes durable. -/
theorem begin_intended {level : ResetLevel} {targetSource : ProfileSource}
    {requestDigest : PayloadDigest} (hheld : Access.Held w.flash.bytes w.access)
    (hpending : w.pending = false)
    (hrun : begin targets faults level targetSource requestDigest w = (.pending, w'))
    (defaultPassword : List UInt8) :
    level ≠ .none ∧
      Intended ⟨defaultPassword, w.access.record,
        { level, phase := .intent, targetSource, requestDigest }⟩ w' := by
  unfold begin at hrun
  split at hrun
  · cases hrun
  rename_i hready
  have hhealthy : w.access.healthy = true := by
    cases hh : w.access.healthy with
    | true => rfl
    | false => simp [hh] at hready
  rw [hpending] at hrun
  rw [if_neg (by decide)] at hrun
  split at hrun
  · cases hrun
  split at hrun
  · cases hrun
  rename_i hvalid
  have hlevel : level ≠ .none := by
    rintro rfl
    simp at hvalid
  have hplain : w.access.record.reset.pending = false := by
    rwa [pending, hhealthy, Bool.true_and] at hpending
  refine ⟨hlevel, ?_⟩
  unfold save replace at hrun
  dsimp only at hrun
  generalize hrecord : ({ w.access.record with
    reset := { level, phase := .intent, targetSource, requestDigest } } : AccessRecord) = record at hrun
  rcases hr : w.access.replace record { flash := w.flash, unreadable := faults .intent } with
    ⟨ok, store', m'⟩
  rw [hr] at hrun
  cases ok with
  | false => exact nomatch hrun
  | true =>
    obtain ⟨-, rfl⟩ := hrun
    rcases replace_spec (fun _ => hheld.found) hr with ⟨hok, -⟩ | ⟨-, -, ⟨-, hsame, -⟩ | ⟨-, hc⟩⟩
    · cases hok
    · refine absurd (hsame ▸ hplain) ?_
      rw [← hrecord]
      simp [ResetIntent.pending, hlevel]
    · have htarget := target_of_found hheld.found
      have hslot := hheld.slot
      have hold := (hc.others w.access.activeSlot (by omega)).trans hheld.found
      obtain ⟨rfl, hfound⟩ := hc.done rfl
      refine ⟨rfl, hrecord.symm, ?_, hfound, fun s r hv => ?_⟩
      · show w.access.target < 2
        omega
      · have hv : scanned m'.flash.bytes (1 - w.access.target) = .valid s r := hv
        rw [htarget, show 1 - (1 - w.access.activeSlot) = w.access.activeSlot by omega] at hv
        obtain ⟨rfl, rfl⟩ := Candidate.valid.inj (hold.symm.trans hv)
        exact ⟨Nat.lt_succ_self _, hplain⟩

end Reset

end WsprryPico.Provisioning
