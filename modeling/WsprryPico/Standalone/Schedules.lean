import WsprryPico.Lib.Recurrence
import WsprryPico.Wtp.Json.View

/-!
# Schedules

The list of WSPR recurrences as `parse_config` of `standalone/config.cpp` and
`valid_progress_field` of `standalone/progress.cpp` read it. Two entries conflict
when some time starts both, and the two readers refuse the same lists.
-/

namespace WsprryPico.Standalone

open Lib Wtp.Json

structure Schedule where
  periodS : UInt32 := 0
  phaseS : UInt32 := 0
  deriving DecidableEq

namespace Schedule

/-- A UTC second, counted from the second a recurrence starts in, that the entry selects. -/
def Selects (s : Schedule) (t : Nat) : Prop := t % s.periodS.toNat = s.phaseS.toNat

/-- What one entry must be by itself. -/
structure WellFormed (s : Schedule) : Prop where
  period : 120 ≤ s.periodS.toNat ∧ s.periodS.toNat ≤ 86400 ∧ s.periodS.toNat % 120 = 0 ∧
    86400 % s.periodS.toNat = 0
  phase : s.phaseS.toNat < s.periodS.toNat ∧ s.phaseS.toNat % 120 = 0

/-- Recurrences intersect, even if their first slots differ. -/
def conflicts (prior s : Schedule) : Bool :=
  let gcd := Nat.gcd prior.periodS.toNat s.periodS.toNat
  prior.phaseS.toNat % gcd == s.phaseS.toNat % gcd

theorem conflicts_iff {prior s : Schedule} (hp : prior.phaseS.toNat < prior.periodS.toNat)
    (hs : s.phaseS.toNat < s.periodS.toNat) :
    prior.conflicts s = true ↔ ∃ t, prior.Selects t ∧ s.Selects t := by
  unfold conflicts Selects
  rw [beq_iff_eq, ← recurrences_meet, Nat.mod_eq_of_lt hp, Nat.mod_eq_of_lt hs]

end Schedule

/-! ## `parse_config` -/

/-- `integer` of `config.cpp`. -/
def integer (value : Value) : Option UInt32 :=
  if value.type < 48 ∨ value.type > 57 ∨ value.raw.isEmpty then none
  else if value.raw.length > 10 then none
  else
    match fromChars 0 4294967295 value.raw with
    | some (n, []) => some (UInt32.ofNat n.toNat)
    | _ => none

def scheduleNames : List Bytes := [ascii "period_s", ascii "phase_s"]

/-- One entry of `schedules`, as far as it is checked by itself. -/
def configEntry (entry : Value) : Option Schedule :=
  if !fields entry scheduleNames then none
  else
    match (entry.get (ascii "period_s")).bind integer,
      (entry.get (ascii "phase_s")).bind integer with
    | some period, some phase =>
      if period < 120 ∨ period > 86400 ∨ period % 120 ≠ 0 ∨ 86400 % period ≠ 0 ∨
          phase ≥ period ∨ phase % 120 ≠ 0 then none
      else some ⟨period, phase⟩
    | _, _ => none

/-- The loop over the entries, after those accepted so far. -/
def configLoop : List Schedule → List Value → Option (List Schedule)
  | accepted, [] => some accepted
  | accepted, entry :: rest =>
    match configEntry entry with
    | none => none
    | some s =>
      if accepted.any fun prior => prior.conflicts s then none
      else configLoop (accepted ++ [s]) rest

/-- The part of `parse_config` that reads `schedules`. -/
def configSchedules (enabled : Bool) (entries : Value) : Option (List Schedule) :=
  if entries.type ≠ 91 then none
  else
    let schedules := entries.elements 9
    if (enabled && schedules.isEmpty) ∨ schedules.length > 8 then none
    else configLoop [] schedules

/-! ## `valid_progress_field` -/

def number (v : Value) : Bool :=
  !v.raw.isEmpty && decide (v.raw.length ≤ 10) && v.raw.all isDigit

def progressEntry (row : Value) : Option Schedule :=
  if !fields row scheduleNames then none
  else
    match row.get (ascii "period_s"), row.get (ascii "phase_s") with
    | some period, some phase =>
      if !number period || !number phase then none
      else
        let p := period.integer
        let f := phase.integer
        if p < 120 ∨ p > 86400 ∨ p % 120 ≠ 0 ∨ 86400 % p ≠ 0 ∨ f < 0 ∨ f ≥ p ∨ f % 120 ≠ 0 then
          none
        else some ⟨UInt32.ofNat p.toNat, UInt32.ofNat f.toNat⟩
    | _, _ => none

def progressLoop : List Schedule → List Value → Bool
  | _, [] => true
  | checked, row :: rest =>
    match progressEntry row with
    | none => false
    | some s =>
      if checked.any fun prior => prior.conflicts s then false
      else progressLoop (checked ++ [s]) rest

/-- `valid_progress_field("schedules", value)`. -/
def validProgressSchedules (value : Value) : Bool :=
  if value.raw = ascii "null" then true
  else if value.type ≠ 91 then false
  else
    let schedules := value.elements 9
    if schedules.length > 8 then false
    else progressLoop [] schedules

/-! ## The two readers of an entry -/

theorem type_digit {v : Value} : isDigit v.type = true ↔ ¬ (v.type < 48 ∨ v.type > 57) := by
  simp [isDigit]

theorem number_type {v : Value} (h : number v = true) : isDigit v.type = true := by
  unfold number at h
  simp only [Bool.and_eq_true] at h
  obtain ⟨⟨hne, -⟩, hall⟩ := h
  unfold Value.type
  cases hraw : v.raw with
  | nil => rw [hraw] at hne; exact nomatch hne
  | cons c rest =>
    rw [hraw, List.all_cons, Bool.and_eq_true] at hall
    exact hall.1

theorem view_decimal {v : Value} (h : View v) (hd : isDigit v.type = true) :
    ∃ k : Nat, v.raw = Lib.decimal k ∧ v.integer = k ∧ k < 2 ^ 31 := by
  obtain ⟨j, hspells, -⟩ := h.readable
  obtain ⟨k, rfl, hraw⟩ := spells_digit hspells hd
  have hrange : inInt32 k := by
    cases hspells with
    | integer _ hrange => exact hrange
  have hmax : (k : Int) ≤ int32Max := hrange.2
  unfold int32Max at hmax
  exact ⟨k, hraw, integer_of_spells hspells, by omega⟩

/-- A number of a payload is the same to both readers. -/
theorem integer_eq {v : Value} (h : View v) :
    (isDigit v.type = true ∧ number v = true ∧ ∃ k : Nat, v.integer = k ∧ k < 2 ^ 31 ∧
      integer v = some (UInt32.ofNat k)) ∨ (number v = false ∧ integer v = none) := by
  by_cases hd : isDigit v.type = true
  · obtain ⟨k, hraw, hinteger, hk⟩ := view_decimal h hd
    have hlen : v.raw.length ≤ 10 := by
      rw [hraw]
      exact (decimal_length_le (by decide)).mpr (by omega)
    have hne : v.raw.isEmpty = false := by
      rw [hraw]
      simpa using decimal_ne_nil k
    refine .inl ⟨hd, ?_, k, hinteger, hk, ?_⟩
    · unfold number
      rw [hne, decide_eq_true hlen, Bool.and_eq_true]
      refine ⟨rfl, List.all_eq_true.mpr ?_⟩
      rw [hraw]
      exact decimal_digits k
    · have htype := type_digit.mp hd
      unfold integer
      rw [if_neg (by rw [hne]; simpa using htype), if_neg (Nat.not_lt.mpr hlen), hraw,
        fromChars_natural, if_neg (by omega)]
      rfl
  · refine .inr ⟨Bool.eq_false_iff.mpr fun hn => hd (number_type hn), ?_⟩
    have htype := not_not.mp (mt type_digit.mpr hd)
    unfold integer
    exact if_pos (htype.elim .inl fun h => .inr (.inl h))

/-- The bounds read the same in either type. -/
theorem bounds_iff {p f : Nat} (hp : p < 2 ^ 31) (hf : f < 2 ^ 31) :
    ((p : Int) < 120 ∨ (p : Int) > 86400 ∨ (p : Int) % 120 ≠ 0 ∨ 86400 % (p : Int) ≠ 0 ∨
      (f : Int) < 0 ∨ (f : Int) ≥ p ∨ (f : Int) % 120 ≠ 0) ↔
    (UInt32.ofNat p < 120 ∨ UInt32.ofNat p > 86400 ∨ UInt32.ofNat p % 120 ≠ 0 ∨
      86400 % UInt32.ofNat p ≠ 0 ∨ UInt32.ofNat f ≥ UInt32.ofNat p ∨ UInt32.ofNat f % 120 ≠ 0) := by
  have hpn : (UInt32.ofNat p).toNat = p := UInt32.toNat_ofNat_of_lt (hp.trans (by decide))
  have hfn : (UInt32.ofNat f).toNat = f := UInt32.toNat_ofNat_of_lt (hf.trans (by decide))
  have hmod : (86400 : Int) % (p : Int) = ((86400 % p : Nat) : Int) := by norm_cast
  have hnat : UInt32.toNat 120 = 120 ∧ UInt32.toNat 86400 = 86400 ∧ UInt32.toNat 0 = 0 :=
    ⟨rfl, rfl, rfl⟩
  simp only [UInt32.lt_iff_toNat_lt, UInt32.le_iff_toNat_le, gt_iff_lt, ge_iff_le, ne_eq,
    ← UInt32.toNat_inj, UInt32.toNat_mod, hpn, hfn, hmod, hnat]
  omega

theorem entry_eq {row : Value} (h : View row) : progressEntry row = configEntry row := by
  unfold progressEntry configEntry
  by_cases hfields : fields row scheduleNames = true
  · rw [hfields]
    rcases hperiod : row.get (ascii "period_s") with - | period
    · rfl
    rcases hphase : row.get (ascii "phase_s") with - | phase
    · simp
    obtain ⟨-, hp, p, hpi, hpk, hps⟩ | ⟨hp, hps⟩ := integer_eq (.member h hperiod)
    · obtain ⟨-, hf, f, hfi, hfk, hfs⟩ | ⟨hf, hfs⟩ := integer_eq (.member h hphase)
      · simp only [Option.bind_some, hp, hf, hpi, hfi, hps, hfs]
        simp only [bounds_iff hpk hfk, Int.toNat_natCast]
        rfl
      · simp [hf, hfs]
    · simp [hp, hps]
  · rw [Bool.not_eq_true] at hfields
    rw [hfields]
    rfl

theorem loop_eq {rows : List Value} (h : ∀ row ∈ rows, View row) (accepted : List Schedule) :
    progressLoop accepted rows = (configLoop accepted rows).isSome := by
  induction rows generalizing accepted with
  | nil => rfl
  | cons row rest ih =>
    rw [List.forall_mem_cons] at h
    unfold progressLoop configLoop
    rw [entry_eq h.1]
    cases configEntry row with
    | none => rfl
    | some s =>
      show (if _ then false else _) = (if _ then none else _).isSome
      split
      · rfl
      · exact ih h.2 (accepted ++ [s])

/-! ## Conflicts -/

theorem configEntry_wellFormed {entry : Value} {s : Schedule} (h : configEntry entry = some s) :
    s.WellFormed := by
  unfold configEntry at h
  split at h
  · cases h
  split at h
  · rename_i period phase _ _
    split at h
    · cases h
    · rename_i hbounds
      cases h
      simp only [not_or, not_not, gt_iff_lt, ge_iff_le, Nat.not_lt, Nat.not_le,
        UInt32.le_iff_toNat_le, UInt32.lt_iff_toNat_lt, ← UInt32.toNat_inj,
        UInt32.toNat_mod] at hbounds
      obtain ⟨hlow, hhigh, hperiod, hday, hphase, heven⟩ := hbounds
      exact ⟨⟨hlow, hhigh, hperiod, hday⟩, hphase, heven⟩
  · cases h

/-- The entries of a list, each accepted by itself. -/
def Entries (rows : List Value) (l : List Schedule) : Prop :=
  List.Forall₂ (fun row s => configEntry row = some s) rows l

/-- No time starts both. -/
def Schedule.Apart (a b : Schedule) : Prop := ∀ t, ¬ (a.Selects t ∧ b.Selects t)

theorem Schedule.apart_iff {a b : Schedule} (ha : a.WellFormed) (hb : b.WellFormed) :
    a.Apart b ↔ a.conflicts b = false := by
  rw [Bool.eq_false_iff, ne_eq, conflicts_iff ha.phase.1 hb.phase.1, not_exists]
  rfl

theorem configLoop_iff {rows : List Value} {accepted out : List Schedule}
    (h : ∀ s ∈ accepted, s.WellFormed) :
    configLoop accepted rows = some out ↔ ∃ l, Entries rows l ∧ out = accepted ++ l ∧
      l.Pairwise Schedule.Apart ∧ ∀ prior ∈ accepted, ∀ s ∈ l, prior.Apart s := by
  induction rows generalizing accepted with
  | nil =>
    constructor
    · intro hout
      cases hout
      exact ⟨[], .nil, (List.append_nil _).symm, .nil, fun _ _ s hs => nomatch hs⟩
    · rintro ⟨l, hl, rfl, -⟩
      cases hl
      rw [List.append_nil]
      rfl
  | cons row rest ih =>
    unfold configLoop
    cases hentry : configEntry row with
    | none =>
      refine ⟨nofun, ?_⟩
      rintro ⟨l, hl, -⟩
      cases hl with
      | cons hrow _ =>
        rw [hentry] at hrow
        cases hrow
    | some s =>
      have hs := configEntry_wellFormed hentry
      have hclear : (accepted.any fun prior => prior.conflicts s) = false ↔
          ∀ prior ∈ accepted, prior.Apart s := by
        rw [List.any_eq_false]
        exact forall₂_congr fun prior hprior =>
          (Bool.not_eq_true _).to_iff.trans (Schedule.apart_iff (h prior hprior) hs).symm
      have hnext : ∀ prior ∈ accepted ++ [s], prior.WellFormed := by
        intro prior hprior
        rcases List.mem_append.mp hprior with hmem | hmem
        · exact h prior hmem
        · rw [List.mem_singleton.mp hmem]
          exact hs
      dsimp only
      split
      · rename_i hconflict
        refine ⟨nofun, ?_⟩
        rintro ⟨l, hl, -, -, hapart⟩
        cases hl with
        | cons hrow _ =>
          cases hentry.symm.trans hrow
          rw [hclear.mpr fun prior hprior => hapart prior hprior _ List.mem_cons_self] at hconflict
          cases hconflict
      · rename_i hconflict
        have hapart := hclear.mp (Bool.eq_false_iff.mpr hconflict)
        rw [ih hnext]
        constructor
        · rintro ⟨l, hl, rfl, hpairs, hall⟩
          refine ⟨s :: l, .cons hentry hl, by simp, List.pairwise_cons.mpr ⟨fun b hb =>
            hall s (by simp) b hb, hpairs⟩, fun prior hprior => List.forall_mem_cons.mpr
            ⟨hapart prior hprior, hall prior (List.mem_append_left _ hprior)⟩⟩
        · rintro ⟨l, hl, rfl, hpairs, hall⟩
          cases hl with
          | @cons _ s' _ l hrow hrest =>
            cases hentry.symm.trans hrow
            rw [List.pairwise_cons] at hpairs
            refine ⟨l, hrest, by simp, hpairs.2, fun prior hprior b hb => ?_⟩
            rcases List.mem_append.mp hprior with hmem | hmem
            · exact hall prior hmem b (List.mem_cons_of_mem s hb)
            · rw [List.mem_singleton.mp hmem]
              exact hpairs.1 b hb

/-- The lists `parse_config` accepts: at most eight entries, each accepted by itself, no two of
which start at one time; an enabled configuration has one at least. -/
theorem configSchedules_iff {enabled : Bool} {entries : Value} {l : List Schedule} :
    configSchedules enabled entries = some l ↔ entries.type = 91 ∧
      Entries (entries.elements 9) l ∧ l.length ≤ 8 ∧ (enabled = true → l ≠ []) ∧
      l.Pairwise Schedule.Apart := by
  have hlength : ∀ {rows : List Value} {l : List Schedule}, Entries rows l →
      rows.length = l.length := fun h => List.Forall₂.length_eq h
  have hloop : ∀ rows, configLoop [] rows = some l ↔ _ := fun rows =>
    configLoop_iff fun s (hs : s ∈ []) => nomatch hs
  unfold configSchedules
  by_cases htype : entries.type = 91
  · rw [if_neg (not_not.mpr htype)]
    dsimp only
    generalize entries.elements 9 = rows at hloop ⊢
    constructor
    · intro h
      split at h
      · cases h
      · rename_i hcount
        obtain ⟨l', hl, rfl, hpairs, -⟩ := (hloop rows).mp h
        rw [hlength hl, not_or] at hcount
        refine ⟨htype, hl, Nat.not_lt.mp hcount.2, ?_, hpairs⟩
        rintro rfl rfl
        cases hl
        exact hcount.1 rfl
    · rintro ⟨-, hl, hfew, hsome, hpairs⟩
      rw [if_neg]
      · exact (hloop rows).mpr ⟨l, hl, rfl, hpairs, nofun⟩
      · rw [hlength hl, not_or]
        refine ⟨fun h => ?_, Nat.not_lt.mpr hfew⟩
        rw [Bool.and_eq_true, List.isEmpty_iff] at h
        obtain ⟨henabled, rfl⟩ := h
        cases hl
        exact hsome henabled rfl
  · rw [if_pos htype]
    exact ⟨nofun, fun h => absurd h.1 htype⟩

theorem validProgressSchedules_eq {entries : Value} (h : View entries) :
    validProgressSchedules entries =
      (entries.raw == ascii "null" || (configSchedules false entries).isSome) := by
  unfold validProgressSchedules configSchedules
  by_cases hnull : entries.raw = ascii "null"
  · rw [if_pos hnull, beq_iff_eq.mpr hnull]
    rfl
  · rw [if_neg hnull, beq_eq_false_iff_ne.mpr hnull, Bool.false_or]
    split
    · rfl
    · have hrows : ∀ row ∈ entries.elements 9, View row := fun row hrow => .element h hrow
      dsimp only
      rw [Bool.false_and]
      simp only [Bool.false_eq_true, false_or]
      split
      · rfl
      · exact loop_eq hrows []

theorem Entries.unique {rows : List Value} {l l' : List Schedule} (h : Entries rows l)
    (h' : Entries rows l') : l = l' := by
  induction h generalizing l' with
  | nil => cases h'; rfl
  | cons hentry _ ih =>
    cases h' with
    | cons hentry' hrest' =>
      rw [Option.some.inj (hentry.symm.trans hentry'), ih hrest']

/-- Entries that do not lie apart are two that some time starts. -/
theorem not_pairwise_iff {l : List Schedule} : ¬ l.Pairwise Schedule.Apart ↔
    ∃ (i j t : Nat) (a b : Schedule), i < j ∧ l[i]? = some a ∧ l[j]? = some b ∧
      a.Selects t ∧ b.Selects t := by
  rw [List.pairwise_iff_getElem]
  constructor
  · intro h
    simp only [not_forall, Schedule.Apart, not_not] at h
    obtain ⟨i, j, hi, hj, hij, t, ha, hb⟩ := h
    exact ⟨i, j, t, l[i], l[j], hij, List.getElem?_eq_getElem hi, List.getElem?_eq_getElem hj,
      ha, hb⟩
  · rintro ⟨i, j, t, a, b, hij, ha, hb, hselects⟩ hall
    obtain ⟨hi, rfl⟩ := List.getElem?_eq_some_iff.mp ha
    obtain ⟨hj, rfl⟩ := List.getElem?_eq_some_iff.mp hb
    exact hall i j hi hj hij t hselects

/-- No two entries of an accepted list select one time. Entries accepted one by one are only
refused together when two of them do. `valid_progress_field` accepts the lists that
`parse_config` accepts, an empty one also for an enabled configuration. -/
theorem schedules_apart {entries : Value} (h : View entries) :
    (∀ enabled l, configSchedules enabled entries = some l → l.Pairwise Schedule.Apart) ∧
    (∀ enabled l, entries.type = 91 → Entries (entries.elements 9) l → l.length ≤ 8 →
      (enabled = true → l ≠ []) →
      (configSchedules enabled entries = none ↔
        ∃ (i j t : Nat) (a b : Schedule), i < j ∧ l[i]? = some a ∧ l[j]? = some b ∧
          a.Selects t ∧ b.Selects t)) ∧
    (entries.type = 91 → (validProgressSchedules entries = true ↔
      (configSchedules false entries).isSome = true)) ∧
    ((configSchedules true entries).isSome = true ↔
      entries.type = 91 ∧ validProgressSchedules entries = true ∧ entries.elements 9 ≠ []) := by
  have hvalid := validProgressSchedules_eq h
  have hlist : entries.type = 91 → (entries.raw == ascii "null") = false := by
    intro htype
    refine beq_eq_false_iff_ne.mpr fun hraw => ?_
    rw [Value.type, hraw] at htype
    exact absurd htype (by decide)
  refine ⟨fun enabled l hl => (configSchedules_iff.mp hl).2.2.2.2,
    fun enabled l htype hl hfew hsome => ?_, fun htype => ?_, fun hsome => ?_, ?_⟩
  · have hnone : configSchedules enabled entries = none ↔ ¬ l.Pairwise Schedule.Apart := by
      constructor
      · intro hnone hpairs
        rw [configSchedules_iff.mpr ⟨htype, hl, hfew, hsome, hpairs⟩] at hnone
        cases hnone
      · intro hpairs
        cases hcase : configSchedules enabled entries with
        | none => rfl
        | some l' =>
          obtain ⟨-, hl', -, -, hpairs'⟩ := configSchedules_iff.mp hcase
          rw [hl.unique hl'] at hpairs
          exact absurd hpairs' hpairs
    rw [hnone]
    exact not_pairwise_iff
  · rw [hvalid, hlist htype, Bool.false_or]
  · obtain ⟨l, hl⟩ := Option.isSome_iff_exists.mp hsome
    obtain ⟨htype, hentries, hfew, hne, hpairs⟩ := configSchedules_iff.mp hl
    refine ⟨htype, ?_, fun hrows => ?_⟩
    · have hpaused : configSchedules false entries = some l :=
        configSchedules_iff.mpr ⟨htype, hentries, hfew, fun h => (by cases h), hpairs⟩
      rw [hvalid, hpaused]
      exact Bool.or_true _
    · rw [hrows] at hentries
      cases hentries
      exact hne rfl rfl
  · rintro ⟨htype, haccepted, hrows⟩
    rw [hvalid, hlist htype, Bool.false_or] at haccepted
    obtain ⟨l, hl⟩ := Option.isSome_iff_exists.mp haccepted
    obtain ⟨-, hentries, hfew, -, hpairs⟩ := configSchedules_iff.mp hl
    rw [configSchedules_iff.mpr ⟨htype, hentries, hfew, ?_, hpairs⟩]
    · rfl
    · rintro - rfl
      cases hlist : entries.elements 9 with
      | nil => exact hrows hlist
      | cons row rest =>
        rw [hlist] at hentries
        cases hentries

/-- Every ten minutes from the second, and every twenty from the fourth. -/
def twoSchedules : Value :=
  ⟨ascii "[\x7b\"period_s\":600,\"phase_s\":120\x7d," ++
    ascii "\x7b\"phase_s\":240,\"period_s\":1200\x7d]"⟩

def scheduled : Value := ⟨ascii "\x7b\"schedules\":" ++ twoSchedules.raw ++ ascii "\x7d"⟩

theorem twoSchedules_view : View twoSchedules := by
  have hparse : parse scheduled.raw = some scheduled := by decide +kernel
  have hget : scheduled.get (ascii "schedules") = some twoSchedules := by decide +kernel
  exact .member (.payload hparse) hget

/-- Both readers accept the two, and no time is a start of both. -/
theorem twoSchedules_apart :
    configSchedules true twoSchedules = some [⟨600, 120⟩, ⟨1200, 240⟩] ∧
    validProgressSchedules twoSchedules = true ∧
    Schedule.Apart ⟨600, 120⟩ ⟨1200, 240⟩ := by
  have hconfig : configSchedules true twoSchedules = some [⟨600, 120⟩, ⟨1200, 240⟩] := by
    decide +kernel
  obtain ⟨hapart, -, -, henabled⟩ := schedules_apart twoSchedules_view
  obtain ⟨-, hprogress, -⟩ := henabled.mp (by rw [hconfig]; rfl)
  exact ⟨hconfig, hprogress, List.pairwise_pair.mp (hapart true _ hconfig)⟩

/-- Every ten minutes from the second and every four meet in minute twelve. -/
example : configSchedules false ⟨ascii "[\x7b\"period_s\":600,\"phase_s\":120\x7d," ++
    ascii "\x7b\"phase_s\":0,\"period_s\":240\x7d]"⟩ = none := by
  decide +kernel

end WsprryPico.Standalone
