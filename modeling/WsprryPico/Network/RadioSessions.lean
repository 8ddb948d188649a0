import WsprryPico.Network.RadioServed

/-!
# Radio sessions

What the history of an API says of a session: how its ciphers are used, under which packet a
request of it is taken, and that a failed cipher closes it.
-/

namespace WsprryPico.Network

open Lib Wtp Wtp.Json
open Provisioning hiding ascii

variable {ω : Type} {h before after : List RadioEvent} {x : RadioEvent} {p : Place} {id : Bytes}
  {L L' : Ledger} {life life' : Life}

namespace RadioEvent

/-- The sequence under which a packet of the session is opened. -/
def opens (id : Bytes) : RadioEvent → Option Nat
  | opened _ id' sequence _ => if id' = id then some sequence.toNat else none
  | _ => none

/-- The sequence under which a reply of the session is sealed. -/
def seals (id : Bytes) : RadioEvent → Option Nat
  | sealed _ id' sequence _ => if id' = id then some sequence.toNat else none
  | _ => none

/-- The password proof of the session is tried. -/
def proves (id : Bytes) : RadioEvent → Option Unit
  | authenticated _ id' _ => if id' = id then some () else none
  | _ => none

def starts : RadioEvent → Option Bytes
  | started _ id .. => some id
  | _ => none

/-- `handle` is called. -/
def Calls : RadioEvent → Prop
  | handled .. => True
  | _ => False

/-- The session at a place is closed, or another is started there. -/
def Renews (p : Place) : RadioEvent → Prop
  | closed q _ | started q .. => q = p
  | _ => False

/-- A cipher of the session fails. -/
def Fails (p : Place) (id : Bytes) : RadioEvent → Prop
  | authenticated q id' accepted | opened q id' _ accepted | sealed q id' _ accepted =>
    q = p ∧ id' = id ∧ accepted = false
  | _ => False

/-- What closing does: a finish, or a close. -/
def Closing : RadioEvent → Prop
  | finished .. | closed .. => True
  | _ => False

end RadioEvent

open RadioEvent

/-- A request is taken from a packet that the session at the place has just opened, under its id
and the sequence that is next: for a call of its interface and authority, in which its
generation was found current, and behind an accepted login. -/
def Passed (p : Place) (id : Bytes) (sequence : UInt64) (before : List RadioEvent) : Prop :=
  before.getLast? = some (.opened p id sequence true) ∧
    ∃ request interface generation call session,
      Since Calls (.handled request interface) call before ∧
      ConsumerRadio.headerMatches request.body id sequence = true ∧
      .current p generation ∈ call ∧
      Since (Renews p) (.started p id generation interface (request.header "host")) session
        before ∧
      .sealed p id 0 true ∈ session

/-- What the history of an API says of its sessions. -/
structure SessionProtocol (h : List RadioEvent) : Prop where
  passed : ∀ before p id sequence transaction sink after,
    h = before ++ .dispatched p id sequence transaction sink :: after →
      Passed p id sequence before
  /-- Whatever else is passed on is one of the fixed public reads. -/
  observed : ∀ request, .observed request ∈ h → ConsumerRadio.PublicRead request
  /-- The packets of a session are opened under 1, 2, 3 and so on. -/
  consecutive : ∀ id, ∃ n, h.filterMap (opens id) = List.range' 1 n
  once : ∀ id, (h.filterMap (seals id)).Nodup
  /-- Only the answer to an accepted proof is sealed under 0. -/
  zero : ∀ before p id accepted after, h = before ++ .sealed p id 0 accepted :: after →
    before.getLast? = some (.authenticated p id true)
  proof : ∀ id, (h.filterMap (proves id)).length ≤ 1
  /-- Behind a failed cipher the session is closed before anything else goes on. -/
  failed : ∀ before x p id after, h = before ++ x :: after → x.Fails p id →
    ∃ closing rest, after = closing ++ .closed p id :: rest ∧ ∀ y ∈ closing, y.Closing
  fresh : (h.filterMap starts).Nodup

namespace Ledger

/-! ## The ledger tells the calls and the lives -/

/-- The last call stands in the history, with what was found current in it. -/
theorem Runs.called {request : HttpRequest} {interface : ConsumerInterface} (hrun : Runs h L)
    (hcall : L.call = some (request, interface)) :
    ∃ call, Since Calls (.handled request interface) call h ∧
      ∀ p generation, (p, generation) ∈ L.current → .current p generation ∈ call := by
  induction hrun with
  | nil => cases hcall
  | @snoc h L L' x run step ih =>
    have keep (hcalls : ¬ x.Calls) (hcall' : L'.call = L.call) (hcurrent : L'.current = L.current) :
        ∃ call, Since Calls (.handled request interface) call (h ++ [x]) ∧
          ∀ p generation, (p, generation) ∈ L'.current → .current p generation ∈ call := by
      obtain ⟨call, hsince, hmem⟩ := ih (by rw [← hcall', hcall])
      refine ⟨call ++ [x], hsince.snoc hcalls, ?_⟩
      intro p generation hp
      rw [hcurrent] at hp
      exact List.mem_append_left _ (hmem p generation hp)
    cases step with
    | handled =>
      cases hcall
      exact ⟨[], Since.here, by simp⟩
    | @current p generation settled =>
      obtain ⟨call, hsince, hmem⟩ := ih hcall
      refine ⟨call ++ [.current p generation], hsince.snoc id, ?_⟩
      intro q g hq
      rcases List.mem_cons.mp hq with hq | hq
      · cases hq
        simp
      · exact List.mem_append_left _ (hmem q g hq)
    | _ => exact keep id rfl rfl

/-- What an event makes of the life at a place. -/
inductive Follows (p : Place) (life' : Life) (L : Ledger) : RadioEvent → Prop where
  | keeps {x : RadioEvent} {life : Life} (lives : L.lives p = some life)
      (same : life'.id = life.id ∧ life'.generation = life.generation ∧
        life'.interface = life.interface ∧ life'.authority = life.authority)
      (still : ¬ x.Renews p)
      (login : life'.phase = .pending → life.phase = .pending)
      (phase : life'.phase = .ready ∨ life'.phase.Busy → x = .sealed p life.id 0 true ∨
        life.phase = .ready ∨ life.phase.Busy) : Follows p life' L x
  | starts (phase : life'.phase = .pending) : Follows p life' L
      (.started p life'.id life'.generation life'.interface life'.authority)

theorem Follows.source (h : Follows p life' L x) :
    (∃ life, L.lives p = some life ∧ life'.id = life.id ∧
      (life'.phase = .pending → life.phase = .pending)) ∨
      x = .started p life'.id life'.generation life'.interface life'.authority := by
  cases h with
  | keeps lives same _ login => exact Or.inl ⟨_, lives, same.1, login⟩
  | starts => exact Or.inr rfl

theorem Follows.idle (hlives : L.lives p = some life) (hstill : ¬ x.Renews p) :
    Follows p life L x :=
  .keeps hlives ⟨rfl, rfl, rfl, rfl⟩ hstill (fun h => h) Or.inr

theorem put_lives {q : Place} {l : Option Life} (hlife : (L.put q l).lives p = some life') :
    (q = p ∧ l = some life') ∨ (q ≠ p ∧ L.lives p = some life') := by
  by_cases hq : q = p
  · subst hq
    exact Or.inl ⟨rfl, by simpa [put] using hlife⟩
  · exact Or.inr ⟨hq, by simpa [put, Function.update_of_ne (Ne.symm hq)] using hlife⟩

theorem Step.follows (hstep : Step h L x L') (hlife : L'.lives p = some life') :
    Follows p life' L x := by
  cases hstep with
  | handled | current | observed | reported | unheld => exact .idle hlife id
  | started =>
    obtain ⟨rfl, heq⟩ | ⟨hq, hlife⟩ := put_lives hlife
    · cases heq
      exact .starts rfl
    · exact .idle hlife hq
  | closed =>
    obtain ⟨-, heq⟩ | ⟨hq, hlife⟩ := put_lives hlife
    · cases heq
    · exact .idle hlife hq
  | unused _ free =>
    refine .idle hlife ?_
    rintro rfl
    rw [free] at hlife
    cases hlife
  | @authenticated q life accepted _ lives | @greeted q life accepted _ lives =>
    obtain ⟨rfl, heq⟩ | ⟨hq, hlife⟩ := put_lives hlife
    · cases heq
      refine .keeps lives ⟨rfl, rfl, rfl, rfl⟩ id ?_ ?_ <;>
        cases accepted <;> simp [tried, Phase.Busy]
    · exact .idle hlife id
  | @opened q life sequence accepted _ lives ready =>
    obtain ⟨rfl, heq⟩ | ⟨hq, hlife⟩ := put_lives hlife
    · cases heq
      refine .keeps lives ⟨rfl, rfl, rfl, rfl⟩ id ?_ fun _ => Or.inr (Or.inl ready)
      cases accepted <;> simp [tried]
    · exact .idle hlife id
  | dispatched _ lives opened =>
    obtain ⟨rfl, heq⟩ | ⟨hq, hlife⟩ := put_lives hlife
    · cases heq
      exact .keeps lives ⟨rfl, rfl, rfl, rfl⟩ id (fun h => by cases h)
        fun _ => Or.inr (Or.inr (Or.inl opened))
    · exact .idle hlife id
  | @replied q life sequence accepted _ lives busy =>
    obtain ⟨rfl, heq⟩ | ⟨hq, hlife⟩ := put_lives hlife
    · cases heq
      refine .keeps lives ⟨rfl, rfl, rfl, rfl⟩ id ?_ fun _ => Or.inr (Or.inr busy)
      cases accepted <;> simp [tried]
    · exact .idle hlife id
  | finished lives =>
    obtain ⟨rfl, heq⟩ | ⟨hq, hlife⟩ := put_lives hlife
    · cases heq
      exact .keeps lives ⟨rfl, rfl, rfl, rfl⟩ id (fun h => h) Or.inr
    · exact .idle hlife id

theorem Runs.begun (hrun : Runs h L) (hlife : L.lives p = some life) : ∃ session,
    Since (Renews p) (.started p life.id life.generation life.interface life.authority) session h ∧
      (life.phase = .ready ∨ life.phase.Busy → .sealed p life.id 0 true ∈ session) := by
  induction hrun generalizing life with
  | nil => cases hlife
  | @snoc h L L' x run step ih =>
    cases step.follows hlife with
    | starts phase => exact ⟨[], Since.here, by simp [phase, Phase.Busy]⟩
    | keeps lives same still _ phase =>
      obtain ⟨session, hsince, hsealed⟩ := ih lives
      obtain ⟨hid, hgeneration, hinterface, hauthority⟩ := same
      rw [hid, hgeneration, hinterface, hauthority]
      refine ⟨session ++ [x], hsince.snoc still, ?_⟩
      intro hphase
      obtain rfl | hphase := phase hphase
      · simp
      · exact List.mem_append_left _ (hsealed hphase)

/-- What a request is taken under. -/
theorem Runs.passed {sequence transaction : UInt64} {sink : Option Sink}
    (hrun : Runs (h ++ [.dispatched p id sequence transaction sink]) L) :
    Passed p id sequence h := by
  obtain ⟨M, hM, hstep⟩ := hrun.last
  cases hstep with
  | dispatched settled lives opened last next call faces names current =>
    obtain ⟨before, hcall, hcurrent⟩ := hM.called call
    obtain ⟨session, hsession, hsealed⟩ := hM.begun lives
    rw [faces.1, faces.2] at hsession
    exact ⟨last, _, _, _, before, session, hcall, names, hcurrent _ _ current, hsession,
      hsealed (Or.inr (Or.inl opened))⟩

/-! ## Ids -/

theorem Runs.ids (hrun : Runs h L) : L.ids = (h.filterMap starts).reverse ∧ L.ids.Nodup ∧
    ∀ p life, L.lives p = some life → life.id ∈ L.ids := by
  induction hrun with
  | nil => exact ⟨rfl, List.nodup_nil, fun _ _ h => by cases h⟩
  | @snoc h L L' x run step ih =>
    obtain ⟨hids, hnodup, hmem⟩ := ih
    have keep (hstarts : starts x = none) (hids' : L'.ids = L.ids) :
        L'.ids = ((h ++ [x]).filterMap starts).reverse ∧ L'.ids.Nodup ∧
          ∀ p life, L'.lives p = some life → life.id ∈ L'.ids := by
      rw [hids', List.filterMap_append]
      refine ⟨by simp [hids, hstarts], hnodup, ?_⟩
      intro p life hlife
      cases step.follows hlife with
      | starts => cases hstarts
      | keeps lives same => exact same.1 ▸ hmem p _ lives
    cases step with
    | started _ _ fresh =>
      refine ⟨by simp [hids, starts], List.nodup_cons.mpr ⟨fresh, hnodup⟩, ?_⟩
      intro p life hlife
      obtain ⟨-, heq⟩ | ⟨-, hlife⟩ := put_lives hlife
      · cases heq
        exact List.mem_cons_self
      · exact List.mem_cons_of_mem _ (hmem p life hlife)
    | _ => exact keep rfl rfl

/-- No two lives have one id. -/
theorem Runs.alone {q : Place} {life' : Life} (hrun : Runs h L) (hp : L.lives p = some life)
    (hq : L.lives q = some life') (hid : life.id = life'.id) : p = q := by
  induction hrun generalizing life life' with
  | nil => cases hp
  | @snoc h L L' x run step ih =>
    have hfresh {r : Place} {l : Life} (hl : L.lives r = some l) : x.starts ≠ some l.id := by
      intro hstarts
      cases step with
      | started _ _ fresh =>
        cases hstarts
        exact fresh (run.ids.2.2 r l hl)
      | _ => cases hstarts
    obtain ⟨l, lives, same, -⟩ | hx := (step.follows hp).source <;>
      obtain ⟨l', lives', same', -⟩ | hx' := (step.follows hq).source
    · exact ih lives lives' (by rw [← same, ← same', hid])
    · exact absurd (by rw [hx', starts, ← hid, same]) (hfresh lives)
    · exact absurd (by rw [hx, starts, hid, same']) (hfresh lives')
    · rw [hx] at hx'
      injection hx'

/-! ## Ciphers -/

/-- How the ciphers of a session were used: what they opened and sealed, and its proofs. -/
structure Uses where
  opened : List Nat
  sealed : List Nat
  proofs : List Unit

/-- The uses of a session in a history. -/
def uses (id : Bytes) (h : List RadioEvent) : Uses where
  opened := h.filterMap (opens id)
  sealed := h.filterMap (seals id)
  proofs := h.filterMap (proves id)

/-- An event that uses no cipher of the session. -/
def Apart (id : Bytes) (x : RadioEvent) : Prop :=
  opens id x = none ∧ seals id x = none ∧ proves id x = none

theorem uses_apart (hx : Apart id x) : uses id (h ++ [x]) = uses id h := by
  simp [uses, hx.1, hx.2.1, hx.2.2]

theorem uses_proved (p : Place) (accepted : Bool) :
    uses id (h ++ [.authenticated p id accepted]) =
      { uses id h with proofs := (uses id h).proofs ++ [()] } := by
  simp [uses, opens, seals, proves]

theorem uses_opened (p : Place) (sequence : UInt64) (accepted : Bool) :
    uses id (h ++ [.opened p id sequence accepted]) =
      { uses id h with opened := (uses id h).opened ++ [sequence.toNat] } := by
  simp [uses, opens, seals, proves]

theorem uses_sealed (p : Place) (sequence : UInt64) (accepted : Bool) :
    uses id (h ++ [.sealed p id sequence accepted]) =
      { uses id h with sealed := (uses id h).sealed ++ [sequence.toNat] } := by
  simp [uses, opens, seals, proves]

/-- The uses that a life stands behind. -/
structure Stands (life : Life) (u : Uses) : Prop where
  opened : u.opened = List.range' 1 life.opened
  pending : life.phase = .pending → u.proofs = []
  unsealed : life.phase = .pending ∨ life.phase = .proved → u.sealed = [] ∧ life.opened = 0
  ready : life.phase = .ready → ∀ n ∈ u.sealed, n ≤ life.opened
  busy : life.phase.Busy → ∀ n ∈ u.sealed, n < life.opened

/-- The uses of a session keep to the protocol. -/
structure Fair (u : Uses) : Prop where
  consecutive : ∃ n, u.opened = List.range' 1 n
  once : u.sealed.Nodup
  proof : u.proofs.length ≤ 1

/-- What a history says of the ciphers of a session. -/
structure Kept (id : Bytes) (h : List RadioEvent) (L : Ledger) : Prop where
  fair : Fair (uses id h)
  unused : id ∉ L.ids → uses id h = ⟨[], [], []⟩
  stands : ∀ p life, L.lives p = some life → life.id = id → Stands life (uses id h)

/-- An event that uses no cipher and changes no life of the session. -/
theorem Kept.apart (hkept : Kept id h L) (hx : Apart id x) (hids : L'.ids = L.ids)
    (hlives : ∀ p life, L'.lives p = some life → L.lives p = some life) :
    Kept id (h ++ [x]) L' := by
  constructor
  · rw [uses_apart hx]
    exact hkept.fair
  · rw [uses_apart hx, hids]
    exact hkept.unused
  · intro p life hlife hid
    rw [uses_apart hx]
    exact hkept.stands p life (hlives p life hlife) hid

theorem Kept.used (hkept : Kept id h L) (hrun : Runs h L) (hlives : L.lives p = some life)
    (hput : L'.lives = (L.put p (some life')).lives) (hids : L'.ids = L.ids)
    (hid : life'.id = life.id) (hother : life.id ≠ id → Apart id x)
    (huse : life.id = id → Fair (uses id h) → Stands life (uses id h) →
      Fair (uses id (h ++ [x])) ∧ Stands life' (uses id (h ++ [x]))) :
    Kept id (h ++ [x]) L' := by
  have hput' : ∀ q l, L'.lives q = some l → (p = q ∧ l = life') ∨ (p ≠ q ∧ L.lives q = some l) := by
    intro q l hl
    rw [hput] at hl
    obtain ⟨hq, heq⟩ | hq := put_lives hl
    · exact Or.inl ⟨hq, (Option.some.inj heq).symm⟩
    · exact Or.inr hq
  by_cases hlife : life.id = id
  · obtain ⟨hfair, hstands⟩ := huse hlife hkept.fair (hkept.stands p life hlives hlife)
    refine ⟨hfair, ?_, ?_⟩
    · rw [hids, ← hlife]
      exact fun hmem => absurd (hrun.ids.2.2 p life hlives) hmem
    · intro q l hl hql
      obtain ⟨-, rfl⟩ | ⟨hq, hl⟩ := hput' q l hl
      · exact hstands
      · exact absurd (hrun.alone hlives hl (hlife.trans hql.symm)) hq
  · have hx := hother hlife
    refine ⟨?_, ?_, ?_⟩
    · rw [uses_apart hx]
      exact hkept.fair
    · rw [uses_apart hx, hids]
      exact hkept.unused
    · intro q l hl hql
      rw [uses_apart hx]
      obtain ⟨-, rfl⟩ | ⟨-, hl⟩ := hput' q l hl
      · exact absurd (hid.symm.trans hql) hlife
      · exact hkept.stands q l hl hql

theorem Runs.kept (hrun : Runs h L) (id : Bytes) : Kept id h L := by
  induction hrun with
  | nil =>
    exact ⟨⟨⟨0, rfl⟩, List.nodup_nil, Nat.zero_le 1⟩, fun _ => rfl, fun _ _ h => by cases h⟩
  | @snoc h L L' x run step ih =>
    cases step with
    | handled | current | observed | reported | unheld | unused =>
      exact ih.apart ⟨rfl, rfl, rfl⟩ rfl fun _ _ h => h
    | closed =>
      refine ih.apart ⟨rfl, rfl, rfl⟩ rfl ?_
      intro q l hl
      obtain ⟨-, heq⟩ | ⟨-, hl⟩ := put_lives hl
      · cases heq
      · exact hl
    | @started q id' generation interface authority settled free fresh =>
      have hx : Apart id (.started q id' generation interface authority) := ⟨rfl, rfl, rfl⟩
      refine ⟨?_, ?_, ?_⟩
      · rw [uses_apart hx]
        exact ih.fair
      · intro hmem
        rw [uses_apart hx]
        exact ih.unused fun hmem' => hmem (List.mem_cons_of_mem _ hmem')
      · intro r l hl hid
        rw [uses_apart hx]
        obtain ⟨-, heq⟩ | ⟨-, hl⟩ := put_lives hl
        · cases heq
          obtain rfl : id' = id := hid
          rw [ih.unused fresh]
          exact ⟨rfl, fun _ => rfl, fun _ => ⟨rfl, rfl⟩, by simp, by simp [Phase.Busy]⟩
        · exact ih.stands r l hl hid
    | finished lives =>
      refine ih.used run lives rfl rfl rfl (fun _ => ⟨rfl, rfl, rfl⟩) ?_
      intro _ hfair hstands
      rw [uses_apart ⟨rfl, rfl, rfl⟩]
      exact ⟨hfair, hstands.opened, hstands.pending, hstands.unsealed, hstands.ready,
        hstands.busy⟩
    | dispatched _ lives opened =>
      refine ih.used run lives rfl rfl rfl (fun _ => ⟨rfl, rfl, rfl⟩) ?_
      intro _ hfair hstands
      rw [uses_apart ⟨rfl, rfl, rfl⟩]
      exact ⟨hfair, hstands.opened, by simp, by simp, by simp,
        fun _ => hstands.busy (Or.inl opened)⟩
    | @authenticated q life accepted _ lives pending =>
      refine ih.used run lives rfl rfl rfl
        (fun hne => ⟨rfl, rfl, by simp [proves, hne]⟩) ?_
      rintro rfl hfair hstands
      obtain ⟨hsealed, hzero⟩ := hstands.unsealed (Or.inl pending)
      rw [uses_proved]
      refine ⟨⟨hfair.consecutive, hfair.once, ?_⟩, hstands.opened, ?_, ?_, ?_, ?_⟩
      · simp [hstands.pending pending]
      · cases accepted <;> simp [tried]
      · exact fun _ => ⟨hsealed, hzero⟩
      · cases accepted <;> simp [tried]
      · cases accepted <;> simp [tried, Phase.Busy]
    | @greeted q life accepted _ lives proved =>
      refine ih.used run lives rfl rfl rfl
        (fun hne => ⟨rfl, by simp [seals, hne], rfl⟩) ?_
      rintro rfl hfair hstands
      obtain ⟨hsealed, hzero⟩ := hstands.unsealed (Or.inr proved)
      rw [uses_sealed]
      refine ⟨⟨hfair.consecutive, ?_, hfair.proof⟩, hstands.opened, ?_, ?_, ?_, ?_⟩
      · simp [hsealed]
      · cases accepted <;> simp [tried]
      · cases accepted <;> simp [tried]
      · simp [hsealed]
      · cases accepted <;> simp [tried, Phase.Busy]
    | @opened q life sequence accepted _ lives ready next =>
      refine ih.used run lives rfl rfl rfl
        (fun hne => ⟨by simp [opens, hne], rfl, rfl⟩) ?_
      rintro rfl hfair hstands
      have hopened : (uses life.id h).opened ++ [sequence.toNat] =
          List.range' 1 (life.opened + 1) := by
        rw [hstands.opened, next, List.range'_1_concat, Nat.add_comm 1]
      have hle := hstands.ready ready
      rw [uses_opened, hopened]
      refine ⟨⟨⟨_, rfl⟩, hfair.once, hfair.proof⟩, rfl, ?_, ?_, ?_, ?_⟩
      · cases accepted <;> simp [tried]
      · cases accepted <;> simp [tried]
      · cases accepted <;> simp [tried]
      · exact fun _ n hn => Nat.lt_succ_of_le (hle n hn)
    | @replied q life sequence accepted _ lives busy next =>
      refine ih.used run lives rfl rfl rfl
        (fun hne => ⟨rfl, by simp [seals, hne], rfl⟩) ?_
      rintro rfl hfair hstands
      have hlt := hstands.busy busy
      have hle : ∀ n ∈ (uses life.id h).sealed ++ [sequence.toNat], n ≤ life.opened := by
        intro n hn
        rcases List.mem_append.mp hn with hn | hn
        · exact Nat.le_of_lt (hlt n hn)
        · exact Nat.le_of_eq ((List.mem_singleton.mp hn).trans next)
      rw [uses_sealed]
      refine ⟨⟨hfair.consecutive, ?_, hfair.proof⟩, hstands.opened, ?_, ?_, fun _ => hle, ?_⟩
      · refine List.nodup_append.mpr ⟨hfair.once, by simp, ?_⟩
        intro m hm n hn
        rw [List.mem_singleton.mp hn, next]
        exact Nat.ne_of_lt (hlt m hm)
      · cases accepted <;> simp [tried]
      · cases accepted <;> simp [tried]
      · cases accepted <;> simp [tried, Phase.Busy]

theorem Runs.zero {accepted : Bool} (hrun : Runs (h ++ [.sealed p id 0 accepted]) L) :
    h.getLast? = some (.authenticated p id true) := by
  obtain ⟨M, hM, hstep⟩ := hrun.last
  generalize hn : (0 : UInt64) = n at hstep
  cases hstep with
  | greeted _ _ _ last => exact last
  | @replied p life _ _ _ lives busy next =>
    -- a packet is open: 0 was sealed before it
    obtain ⟨session, ⟨front, rfl, -⟩, hsealed⟩ := hM.begun lives
    have hmem : 0 ∈ (uses life.id (front ++ .started p life.id life.generation life.interface
        life.authority :: session)).sealed := by
      have hmem := List.mem_cons_of_mem
        (.started p life.id life.generation life.interface life.authority)
        (hsealed (Or.inr busy))
      exact List.mem_filterMap.mpr ⟨_, List.mem_append_right _ hmem, if_pos rfl⟩
    have hlt := ((hM.kept life.id).stands p life lives rfl).busy busy 0 hmem
    rw [← next, ← hn] at hlt
    cases hlt

theorem Runs.public {request : HttpRequest} (hrun : Runs h L) (hmem : .observed request ∈ h) :
    ConsumerRadio.PublicRead request := by
  obtain ⟨before, after, rfl⟩ := List.append_of_mem hmem
  obtain ⟨_, _, -, hstep, -⟩ := hrun.step_at
  cases hstep with
  | observed _ fixed => exact fixed

/-! ## Failures -/

/-- Behind a failed cipher only the closing goes on, until the session is closed. -/
theorem Runs.failing (hrun : Runs (before ++ x :: after) L) (hx : x.Fails p id) :
    (∃ closing rest, after = closing ++ .closed p id :: rest ∧ ∀ y ∈ closing, y.Closing) ∨
      (∀ y ∈ after, y.Closing) ∧
        ∃ life, L.lives p = some life ∧ life.id = id ∧ life.phase = .failed := by
  induction after using List.reverseRecOn generalizing L with
  | nil =>
    obtain ⟨M, -, hstep⟩ := hrun.last
    refine Or.inr ⟨by simp, ?_⟩
    cases hstep with
    | authenticated | greeted | opened | replied =>
      obtain ⟨rfl, rfl, rfl⟩ := hx
      exact ⟨_, Function.update_self _ _ _, rfl, rfl⟩
    | _ => exact hx.elim
  | append_singleton after y ih =>
    rw [← List.cons_append, ← List.append_assoc] at hrun
    obtain ⟨M, hM, hstep⟩ := hrun.last
    obtain ⟨closing, rest, rfl, hclosing⟩ | ⟨hafter, life, hlife, hid, hfailed⟩ := ih hM
    · exact Or.inl ⟨closing, rest ++ [y], by simp, hclosing⟩
    · have hmore (hy : y.Closing) : ∀ z ∈ after ++ [y], z.Closing := by
        intro z hz
        rcases List.mem_append.mp hz with hz | hz
        · exact hafter z hz
        · rwa [List.mem_singleton.mp hz]
      have hsettled : ¬ M.Settled := fun h => h.2 p life hlife hfailed
      cases hstep with
      | unused => exact Or.inr ⟨hmore trivial, life, hlife, hid, hfailed⟩
      | @closed q life' _ lives =>
        by_cases hq : q = p
        · subst hq
          cases lives.symm.trans hlife
          exact Or.inl ⟨after, [], by rw [hid], hafter⟩
        · exact Or.inr ⟨hmore trivial, life, by
            simpa [put, Function.update_of_ne (Ne.symm hq)] using hlife, hid, hfailed⟩
      | @finished q life' _ _ lives =>
        by_cases hq : q = p
        · subst hq
          cases lives.symm.trans hlife
          exact Or.inr ⟨hmore trivial, _, Function.update_self _ _ _, hid, hfailed⟩
        · exact Or.inr ⟨hmore trivial, life, by
            simpa [put, Function.update_of_ne (Ne.symm hq)] using hlife, hid, hfailed⟩
      | handled rests =>
        exact absurd hfailed (by rcases rests.2 p life hlife with h | h <;> simp [h])
      | _ settled => exact absurd settled hsettled

/-! ## Pending logins -/

/-- No two of the three sessions wait for their login. -/
theorem Runs.pending {i j : Fin 3} (hrun : Runs h L) (hi : L.lives (.session i) = some life)
    (hj : L.lives (.session j) = some life') (hlife : life.phase = .pending)
    (hlife' : life'.phase = .pending) : i = j := by
  induction hrun generalizing life life' with
  | nil => cases hi
  | @snoc h L L' x run step ih =>
    have hlone {i k : Fin 3} {id : Bytes} {generation : UInt64} {interface : ConsumerInterface}
        {authority : Bytes} {l : Life} (hl : L.lives (.session k) = some l)
        (hpending : l.phase = .pending) : x ≠ .started (.session i) id generation interface authority := by
      rintro rfl
      cases step with
      | started _ _ _ alone => exact alone (by simp) k l hl hpending
    obtain ⟨l, lives, -, login⟩ | hx := (step.follows hi).source <;>
      obtain ⟨l', lives', -, login'⟩ | hx' := (step.follows hj).source
    · exact ih lives lives' (login hlife) (login' hlife')
    · exact absurd hx' (hlone lives (login hlife))
    · exact absurd hx (hlone lives' (login' hlife'))
    · rw [hx] at hx'
      injection hx' with hplace
      injection hplace

theorem Runs.protocol (hrun : Runs h L)
    (hrests : ∀ p life, L.lives p = some life → life.phase ≠ .failed) : SessionProtocol h := by
  constructor
  · rintro before p id sequence transaction sink after rfl
    obtain ⟨_, _, -, -, hrun'⟩ := hrun.step_at
    exact hrun'.passed
  · exact fun request hmem => hrun.public hmem
  · exact fun id => (hrun.kept id).fair.consecutive
  · exact fun id => (hrun.kept id).fair.once
  · rintro before p id accepted after rfl
    obtain ⟨_, _, -, -, hrun'⟩ := hrun.step_at
    exact hrun'.zero
  · exact fun id => (hrun.kept id).fair.proof
  · rintro before x p id after rfl hfails
    obtain hclosed | ⟨-, life, hlife, -, hfailed⟩ := hrun.failing hfails
    · exact hclosed
    · exact absurd hfailed (hrests p life hlife)
  · obtain ⟨hids, hnodup, -⟩ := hrun.ids
    rw [hids] at hnodup
    exact (List.reverse_perm _).nodup_iff.mp hnodup

end Ledger

theorem sessions_protocol (host : RadioHost ω) (device boot : Bytes) (crypto recovery : Bool)
    (world : ω) (calls : List (RadioCall ω)) :
    let a := (Radio.run host device boot crypto recovery world calls).api
    SessionProtocol a.history ∧
      ∀ i j, (a.sessions i).state = .pending → (a.sessions j).state = .pending → i = j := by
  intro a
  obtain ⟨L, tracks, howed⟩ :=
    ConsumerRadio.run_held host device boot crypto recovery world calls
  constructor
  · refine tracks.run.protocol ?_
    intro p life hlife hfailed
    obtain ⟨φ, hφ, rfl⟩ := tracks.life_inv hlife
    obtain rfl : φ = .failed := hfailed
    exact ConsumerRadio.rest_ne_failed hφ
  · intro i j hi hj
    have hlives : ∀ i, (a.sessions i).state = .pending →
        L.lives (.session i) = some ((a.sessions i).life .pending) := by
      intro i hi
      have hphase : a.rest (.session i) = some .pending := by
        show (a.sessions i).state.phase = _
        rw [hi]
        rfl
      exact tracks.life hphase
    exact tracks.run.pending (hlives i hi) (hlives j hj) rfl rfl

/-! ## A public read -/

/-- A host with a profile, and nothing in it that changes. -/
def idleHost : RadioHost Unit where
  store := fun _ => { healthy := true, sequence := 1, source := .networkOnly }
  runtime := fun _ =>
    { faulted := false, generation := 1, stationSourceGeneration := none
      networkProfile := some { deviceId := [], password := ascii "passphrase" }
      consumerProfile := none }
  accessStore := fun _ => {}
  memoryAdmitted := fun _ _ => true
  pages := fun w => (true, w)
  fill := fun w => ((false, []), w)
  cryptoBegin := fun _ w => (false, w)
  cryptoPublicKey := fun _ _ => []
  cryptoAuthenticate := fun _ _ _ _ w => (false, w)
  cryptoOpen := fun _ _ _ _ w => (none, w)
  cryptoSeal := fun _ _ _ _ w => (none, w)
  cryptoClear := fun _ w => w
  cancelChallenge := fun _ _ w => w
  apiHandle := fun _ _ _ _ _ w => (httpOk (ascii "\x7b\x7d"), w)
  apiFinishRequest := fun _ _ w => w
  apiPublicStatus := fun w => (httpOk (ascii "\x7b\x7d"), w)
  setupHandler := fun _ _ _ w => (httpError 404 "not_found", w)
  setupDelivery := fun _ _ w => w
  setupBusy := fun w => (false, w)
  setupClosed := fun _ w => w
  timeResource := fun _ _ w => (httpError 404 "not_found", w)
  fieldResource := fun _ w => ((httpError 404 "not_found", false), w)
  passwordResource := fun _ w => (httpError 404 "not_found", w)

/-- A read of the status by anyone on the access point. -/
def statusRead : HttpRequest where
  method := ascii "GET"
  path := ascii "/api/consumer/v1/read/status"
  headers := [(ascii "host", ConsumerRadio.apAuthority)]

/-- A public read reaches the browser API where no session was ever started. -/
theorem public_read_without_session :
    let h := (Radio.run idleHost [] [] true true ()
      [.admission true, .listeners true [] [], .handle statusRead 0 1 .accessPoint]).api.history
    (.observed (ConsumerRadio.publicRequest (ascii "status")) ∈ h) ∧ h.filterMap starts = [] := by
  have hrun : (Radio.run idleHost [] [] true true ()
      [.admission true, .listeners true [] [],
        .handle statusRead 0 1 .accessPoint]).api.history =
      [.handled statusRead .accessPoint,
        .observed (ConsumerRadio.publicRequest (ascii "status"))] := by
    rfl
  rw [hrun]
  exact ⟨by simp, rfl⟩

end WsprryPico.Network
