import WsprryPico.Wtp.Json

/-!
# Messages in GATT frames

`provisioning/gatt_framing.cpp`: `gatt_frames` cuts a message into numbered frames and
`GattFrameReceiver` puts one together. Which frames lead to a complete message, and from
which states the next message is received.
-/

namespace WsprryPico.Provisioning

open Wtp.Json (Bytes)

def gattFrameBytes : Nat := 64
def gattFrameHeaderBytes : Nat := 4
def gattFramePayloadBytes : Nat := gattFrameBytes - gattFrameHeaderBytes
def gattFrameCount : Nat := 16

inductive FrameResult where
  | pending | complete | invalid | oversize | outOfOrder
  deriving DecidableEq

structure GattFrameReceiver where
  maximum : Nat
  message : Bytes := []
  nextSequence : UInt8 := 0
  active : Bool := false

namespace GattFrameReceiver

def reset (r : GattFrameReceiver) : GattFrameReceiver :=
  { r with message := [], nextSequence := 0, active := false }

/-- A first frame drops what a complete message left. -/
def begun (first : Bool) (r : GattFrameReceiver) : GattFrameReceiver :=
  if first then { r with message := [], active := true } else r

def insert (last : Bool) (payload : Bytes) (r : GattFrameReceiver) :
    FrameResult × GattFrameReceiver :=
  if payload.isEmpty ∨ r.maximum - min r.maximum r.message.length < payload.length then
    (.oversize, r.reset)
  else
    let r := { r with message := r.message ++ payload, nextSequence := r.nextSequence + 1 }
    if ¬ last then (.pending, r) else (.complete, { r with active := false, nextSequence := 0 })

/-- What is checked behind the header: the order of the frames, then the room for the payload. -/
def accept (first last : Bool) (sequence : UInt8) (payload : Bytes) (r : GattFrameReceiver) :
    FrameResult × GattFrameReceiver :=
  if (first ∧ (r.active ∨ sequence ≠ 0)) ∨ (¬ first ∧ ¬ r.active) ∨ sequence ≠ r.nextSequence ∨
      gattFrameCount ≤ sequence.toNat then (.outOfOrder, r.reset)
  else (r.begun first).insert last payload

def receive (frame : Bytes) (r : GattFrameReceiver) : FrameResult × GattFrameReceiver :=
  match frame with
  | version :: flags :: sequence :: count :: payload =>
    if gattFrameBytes < frame.length ∨ version ≠ 1 ∨ flags &&& ~~~3 ≠ 0 ∨
        count.toNat ≠ payload.length then (.invalid, r.reset)
    else r.accept (flags &&& 1 ≠ 0) (flags &&& 2 ≠ 0) sequence payload
  | _ => (.invalid, r.reset)

/-- The frames of a caller one after the other, with the answer to each. -/
def feed : List Bytes → GattFrameReceiver → List FrameResult × GattFrameReceiver
  | [], r => ([], r)
  | frame :: rest, r => ((r.receive frame).1 :: (feed rest (r.receive frame).2).1,
      (feed rest (r.receive frame).2).2)

end GattFrameReceiver

def gattFlags (first last : Bool) : UInt8 := (if first then 1 else 0) ||| (if last then 2 else 0)

def gattFrame (first last : Bool) (sequence : Nat) (payload : Bytes) : Bytes :=
  1 :: gattFlags first last :: UInt8.ofNat sequence :: UInt8.ofNat payload.length :: payload

/-- The loop of `gatt_frames`, from an offset on. -/
def gattFramesFrom (message : Bytes) : Nat → Nat → Nat → List Bytes
  | 0, _, _ => []
  | fuel + 1, offset, sequence =>
    if offset < message.length then
      let count := min gattFramePayloadBytes (message.length - offset)
      gattFrame (offset = 0) (offset + count = message.length) sequence
          ((message.drop offset).take count) ::
        gattFramesFrom message fuel (offset + count) (sequence + 1)
    else []

def gattFrames (message : Bytes) : List Bytes :=
  if message.isEmpty ∨ gattFramePayloadBytes * gattFrameCount < message.length then []
  else gattFramesFrom message message.length 0 0

/-! ## One frame -/

theorem gattFlags_first (first last : Bool) : (gattFlags first last &&& 1 ≠ 0) ↔ first = true := by
  revert first last; decide

theorem gattFlags_last (first last : Bool) : (gattFlags first last &&& 2 ≠ 0) ↔ last = true := by
  revert first last; decide

theorem gattFlags_known (first last : Bool) : gattFlags first last &&& ~~~3 = 0 := by
  revert first last; decide

set_option maxRecDepth 4096 in
theorem gattFlags_eq {flags : UInt8} (h : flags &&& ~~~3 = 0) :
    gattFlags (flags &&& 1 ≠ 0) (flags &&& 2 ≠ 0) = flags := by
  have hall : ∀ n < 256, UInt8.ofNat n &&& ~~~3 = 0 →
      gattFlags (UInt8.ofNat n &&& 1 ≠ 0) (UInt8.ofNat n &&& 2 ≠ 0) = UInt8.ofNat n := by
    decide
  have := hall flags.toNat flags.toNat_lt
  rw [UInt8.ofNat_toNat] at this
  exact this h

namespace GattFrameReceiver

variable {r : GattFrameReceiver} {last : Bool} {payload : Bytes}

def held (r : GattFrameReceiver) : Bytes := if r.active then r.message else []

/-- The receiver has room for a payload, and for one more frame. -/
structure Fits (r : GattFrameReceiver) (payload : Bytes) : Prop where
  ne_nil : payload ≠ []
  frame : payload.length ≤ gattFramePayloadBytes
  count : r.nextSequence.toNat < gattFrameCount
  room : r.held.length + payload.length ≤ r.maximum

def taken (last : Bool) (payload : Bytes) (r : GattFrameReceiver) : GattFrameReceiver :=
  { r with
    message := r.held ++ payload
    nextSequence := if last then 0 else r.nextSequence + 1
    active := !last }

theorem begun_eq (r : GattFrameReceiver) :
    r.begun (!r.active) = { r with message := r.held, active := true } := by
  obtain ⟨maximum, message, nextSequence, active⟩ := r
  cases active <;> rfl

theorem room_iff {room used length : Nat} (h : 0 < length) :
    room - min room used < length ↔ room < used + length := by
  omega

theorem insert_taken (hfits : r.Fits payload) :
    (r.begun (!r.active)).insert last payload =
      (if last then .complete else .pending, r.taken last payload) := by
  have hroom : ¬ (payload.isEmpty = true ∨
      r.maximum - min r.maximum r.held.length < payload.length) := by
    rw [room_iff (List.length_pos_iff.mpr hfits.ne_nil), List.isEmpty_iff, not_or]
    exact ⟨hfits.ne_nil, Nat.not_lt.mpr hfits.room⟩
  rw [begun_eq, insert, if_neg hroom]
  cases last <;> rfl

theorem accept_taken (hfits : r.Fits payload) (hstart : r.active = false → r.nextSequence = 0) :
    r.accept (!r.active) last r.nextSequence payload =
      (if last then .complete else .pending, r.taken last payload) := by
  have hcount := Nat.not_le.mpr hfits.count
  unfold accept
  rw [if_neg, insert_taken hfits]
  cases hactive : r.active with
  | true => simp [hcount]
  | false =>
    rw [hstart hactive] at hcount
    simpa [hstart hactive] using hcount

theorem insert_dropped (h : payload = [] ∨ r.maximum < r.held.length + payload.length) :
    (r.begun (!r.active)).insert last payload = (.oversize, r.reset) := by
  have hroom : payload.isEmpty = true ∨
      r.maximum - min r.maximum r.held.length < payload.length := by
    by_cases hpayload : payload = []
    · exact .inl (List.isEmpty_iff.mpr hpayload)
    · exact .inr ((room_iff (List.length_pos_iff.mpr hpayload)).mpr (h.resolve_left hpayload))
  rw [begun_eq, insert, if_pos hroom]
  rfl

/-- A frame is accepted where it stands in line, and otherwise all is dropped. -/
theorem accept_cases (r : GattFrameReceiver) (first last : Bool) (sequence : UInt8)
    {payload : Bytes} (hpayload : payload.length ≤ gattFramePayloadBytes) :
    (r.Fits payload ∧ first = !r.active ∧ sequence = r.nextSequence ∧
        (r.active = false → r.nextSequence = 0)) ∨
      ((r.accept first last sequence payload).2 = r.reset ∧
        (r.accept first last sequence payload).1 ≠ .pending ∧
        (r.accept first last sequence payload).1 ≠ .complete) := by
  unfold accept
  split
  · exact .inr ⟨rfl, nofun, nofun⟩
  · rename_i horder
    simp only [not_or, not_and, Decidable.not_not, Nat.not_le] at horder
    obtain ⟨hfirst, hlater, hnext, hcount⟩ := horder
    have hactive : first = !r.active := by
      cases first with
      | true => simpa using (hfirst rfl).1
      | false => simpa using hlater nofun
    by_cases hroom : payload = [] ∨ r.maximum < r.held.length + payload.length
    · rw [hactive, insert_dropped hroom]
      exact .inr ⟨rfl, nofun, nofun⟩
    · rw [not_or, Nat.not_lt] at hroom
      refine .inl ⟨⟨hroom.1, hpayload, hnext ▸ hcount, hroom.2⟩, hactive, hnext, fun hidle => ?_⟩
      rw [hidle] at hactive
      rw [← hnext]
      exact (hfirst hactive).2

theorem receive_frame (hpayload : payload.length ≤ gattFramePayloadBytes) (first last : Bool)
    (sequence : Nat) (r : GattFrameReceiver) :
    r.receive (gattFrame first last sequence payload) =
      r.accept first last (UInt8.ofNat sequence) payload := by
  have hpayload : payload.length ≤ 60 := hpayload
  have hcount := UInt8.toNat_ofNat_of_lt' (show payload.length < 256 by omega)
  have hlength : (gattFrame first last sequence payload).length = payload.length + 4 := by
    simp [gattFrame]
  rw [gattFrame] at hlength ⊢
  unfold receive
  dsimp only
  rw [hcount, gattFlags_known, if_neg (by simp [gattFrameBytes] at hlength ⊢; omega)]
  simp only [gattFlags_first, gattFlags_last, Bool.decide_eq_true]

theorem receive_cases (r : GattFrameReceiver) (frame : Bytes) :
    (∃ last payload, r.Fits payload ∧ (r.active = false → r.nextSequence = 0) ∧
        frame = gattFrame (!r.active) last r.nextSequence.toNat payload ∧
        r.receive frame = (if last then .complete else .pending, r.taken last payload)) ∨
      ((r.receive frame).2 = r.reset ∧ (r.receive frame).1 ≠ .pending ∧
        (r.receive frame).1 ≠ .complete) := by
  unfold receive
  split
  · rename_i version flags sequence count payload
    split
    · exact .inr ⟨rfl, nofun, nofun⟩
    · rename_i hheader
      simp only [not_or, Decidable.not_not, Nat.not_lt] at hheader
      obtain ⟨hlength, rfl, hknown, hcount⟩ := hheader
      have hpayload : payload.length ≤ gattFramePayloadBytes := by
        simp only [List.length_cons, gattFrameBytes] at hlength
        show payload.length ≤ 60
        omega
      rcases accept_cases r (flags &&& 1 ≠ 0) (flags &&& 2 ≠ 0) sequence hpayload with
        ⟨hfits, hfirst, rfl, hstart⟩ | hdropped
      · refine .inl ⟨flags &&& 2 ≠ 0, payload, hfits, hstart, ?_, ?_⟩
        · rw [gattFrame, ← hfirst, gattFlags_eq hknown, UInt8.ofNat_toNat, ← hcount,
            UInt8.ofNat_toNat]
        · rw [hfirst]
          exact accept_taken hfits hstart
      · exact .inr hdropped
  · exact .inr ⟨rfl, nofun, nofun⟩

/-! ## Frames one after the other -/

theorem feed_append (frames frames' : List Bytes) (r : GattFrameReceiver) :
    r.feed (frames ++ frames') =
      ((r.feed frames).1 ++ ((r.feed frames).2.feed frames').1, ((r.feed frames).2.feed frames').2) := by
  induction frames generalizing r with
  | nil => rfl
  | cons frame rest ih => simp only [List.cons_append, feed, ih]

theorem feed_snoc (frames : List Bytes) (frame : Bytes) (r : GattFrameReceiver) :
    r.feed (frames ++ [frame]) =
      ((r.feed frames).1 ++ [((r.feed frames).2.receive frame).1],
        ((r.feed frames).2.receive frame).2) :=
  feed_append frames [frame] r

/-- Frames in order and without a gap, the first of a message in front, and what they carry. -/
inductive Line : List Bytes → Nat → Bytes → Prop where
  | nil : Line [] 0 []
  | next {frames : List Bytes} {n : Nat} {message payload : Bytes} : Line frames n message →
      payload ≠ [] → payload.length ≤ gattFramePayloadBytes →
      Line (frames ++ [gattFrame (n = 0) false n payload]) (n + 1) (message ++ payload)

/-- A line of frames with a last one behind it. -/
def Whole (frames : List Bytes) (message : Bytes) : Prop :=
  ∃ before n held payload, Line before n held ∧ n < gattFrameCount ∧ payload ≠ [] ∧
    payload.length ≤ gattFramePayloadBytes ∧
    frames = before ++ [gattFrame (n = 0) true n payload] ∧ message = held ++ payload

/-- Where a receiver stands behind the frames it was fed. -/
structure Stands (maximum : Nat) (frames : List Bytes) (r : GattFrameReceiver) : Prop where
  maximum : r.maximum = maximum
  idle : r.active = false → r.nextSequence = 0
  line : r.active = true → ∃ earlier line, frames = earlier ++ line ∧
    Line line r.nextSequence.toNat r.message ∧ r.nextSequence ≠ 0

section

variable {maximum : Nat} {frames : List Bytes}

theorem toNat_succ (h : r.nextSequence.toNat < gattFrameCount) :
    (r.nextSequence + 1).toNat = r.nextSequence.toNat + 1 := by
  have h : r.nextSequence.toNat < 16 := h
  rw [UInt8.toNat_add]
  have : UInt8.toNat 1 = 1 := rfl
  omega

/-- The line that a receiver holds, none when it is idle. -/
theorem Stands.held (h : Stands maximum frames r) : ∃ earlier line, frames = earlier ++ line ∧
    Line line r.nextSequence.toNat r.held ∧ (r.nextSequence.toNat = 0 ↔ r.active = false) := by
  cases hactive : r.active with
  | true =>
    obtain ⟨earlier, line, hframes, hline, hnext⟩ := h.line hactive
    refine ⟨earlier, line, hframes, ?_, ?_⟩
    · rwa [GattFrameReceiver.held, if_pos hactive]
    · simpa using fun hzero => hnext (UInt8.toNat_inj.mp hzero)
  | false =>
    refine ⟨frames, [], (List.append_nil _).symm, ?_, by simp [h.idle hactive]⟩
    rw [h.idle hactive, GattFrameReceiver.held, if_neg (by simp [hactive])]
    exact .nil

theorem Stands.receive (h : Stands maximum frames r) (frame : Bytes) :
    Stands maximum (frames ++ [frame]) (r.receive frame).2 ∧
      ((r.receive frame).1 = .pending ↔ (r.receive frame).2.active = true) ∧
      ((r.receive frame).1 = .complete → ∃ earlier run, frames ++ [frame] = earlier ++ run ∧
        Whole run (r.receive frame).2.message ∧ (r.receive frame).2.message.length ≤ maximum) := by
  obtain ⟨last, payload, hfits, hstart, hframe, hreceive⟩ | ⟨hreset, hpending, hcomplete⟩ :=
    receive_cases r frame
  · obtain ⟨earlier, line, hframes, hline, hzero⟩ := h.held
    have hfirst : (!r.active) = decide (r.nextSequence.toNat = 0) := by
      rw [Bool.eq_iff_iff, decide_eq_true_iff, hzero, Bool.not_eq_true']
    rw [hfirst] at hframe
    rw [hreceive]
    cases last with
    | false =>
      refine ⟨⟨h.maximum, nofun, fun _ => ⟨earlier, line ++ [frame], ?_, ?_, ?_⟩⟩, by simp [taken],
        nofun⟩
      · rw [hframes, List.append_assoc]
      · have hnext := hline.next hfits.ne_nil hfits.frame
        rw [← hframe, ← toNat_succ hfits.count] at hnext
        exact hnext
      · intro hwrapped
        have := toNat_succ hfits.count
        rw [show r.nextSequence + 1 = 0 from hwrapped] at this
        exact absurd this.symm (Nat.succ_ne_zero _)
    | true =>
      refine ⟨⟨h.maximum, fun _ => rfl, nofun⟩, by simp [taken],
        fun _ => ⟨earlier, line ++ [frame], ?_, ?_, ?_⟩⟩
      · rw [hframes, List.append_assoc]
      · exact ⟨line, _, _, payload, hline, hfits.count, hfits.ne_nil, hfits.frame,
          by rw [hframe], rfl⟩
      · have := hfits.room
        rw [h.maximum] at this
        simpa [taken] using this
  · refine ⟨?_, ?_, fun hdone => absurd hdone hcomplete⟩
    · rw [hreset]
      exact ⟨h.maximum, fun _ => rfl, nofun⟩
    · rw [hreset]
      exact ⟨fun hwait => absurd hwait hpending, nofun⟩

theorem stands_new (maximum : Nat) : Stands maximum [] { maximum } := ⟨rfl, fun _ => rfl, nofun⟩

theorem stands_fed (maximum : Nat) (frames : List Bytes) :
    Stands maximum frames (({ maximum } : GattFrameReceiver).feed frames).2 ∧
      ((({ maximum } : GattFrameReceiver).feed frames).1.getLast? = some .pending ↔
        (({ maximum } : GattFrameReceiver).feed frames).2.active = true) := by
  induction frames using List.reverseRecOn with
  | nil => exact ⟨stands_new maximum, by simp [feed]⟩
  | append_singleton frames frame ih =>
    rw [feed_snoc, List.getLast?_concat, Option.some.injEq]
    exact ⟨(ih.1.receive frame).1, (ih.1.receive frame).2.1⟩

/-! ## Whole messages -/

variable {message : Bytes} {fuel offset sequence : Nat}

/-- Where a receiver stands in a message whose frames it is fed in order. -/
structure Midway (message : Bytes) (offset sequence : Nat) (r : GattFrameReceiver) : Prop where
  room : message.length ≤ r.maximum
  number : sequence = r.nextSequence.toNat
  held : r.held = message.take offset
  start : r.active = false ↔ offset = 0
  idle : r.active = false → r.nextSequence = 0
  frames : message.length ≤ offset + gattFramePayloadBytes * (gattFrameCount - sequence)

theorem feed_framesFrom (hfuel : message.length ≤ fuel + offset) (hoffset : offset < message.length)
    (h : Midway message offset sequence r) :
    (r.feed (gattFramesFrom message fuel offset sequence)).1 =
        List.replicate ((gattFramesFrom message fuel offset sequence).length - 1) .pending ++
          [.complete] ∧
      (r.feed (gattFramesFrom message fuel offset sequence)).2.message = message := by
  induction fuel generalizing offset sequence r with
  | zero => omega
  | succ fuel ih =>
    have hroom := h.room
    have hframes := h.frames
    have hheld : r.held.length = offset := by
      rw [h.held, List.length_take]
      omega
    generalize hcount : min gattFramePayloadBytes (message.length - offset) = count
    have hpayload : ((message.drop offset).take count).length = count := by
      rw [List.length_take, List.length_drop]
      omega
    have hpositive : 0 < count := by
      have : gattFramePayloadBytes = 60 := rfl
      omega
    have hfits : r.Fits ((message.drop offset).take count) := by
      refine ⟨List.ne_nil_of_length_pos (by omega), by omega, ?_, by omega⟩
      rw [← h.number]
      by_contra hmany
      rw [Nat.sub_eq_zero_of_le (Nat.not_lt.mp hmany)] at hframes
      omega
    have hfirst : decide (offset = 0) = !r.active := by
      rw [Bool.eq_iff_iff, decide_eq_true_iff, ← h.start, Bool.not_eq_true']
    have hreceive (last : Bool) : r.receive (gattFrame (offset = 0) last sequence
        ((message.drop offset).take count)) =
          (if last then .complete else .pending, r.taken last ((message.drop offset).take count)) := by
      rw [receive_frame hfits.frame, hfirst, h.number, UInt8.ofNat_toNat,
        accept_taken hfits h.idle]
    have htaken : r.held ++ (message.drop offset).take count = message.take (offset + count) := by
      rw [h.held, List.take_add]
    rw [gattFramesFrom, if_pos hoffset]
    dsimp only
    rw [hcount, feed, hreceive]
    by_cases hlast : offset + count = message.length
    · have hrest : gattFramesFrom message fuel (offset + count) (sequence + 1) = [] := by
        cases fuel with
        | zero => rfl
        | succ fuel => rw [gattFramesFrom, if_neg (by omega)]
      rw [decide_eq_true hlast, hrest]
      refine ⟨rfl, ?_⟩
      show r.held ++ _ = message
      rw [htaken, hlast, List.take_length]
    · have hmid : Midway message (offset + count) (sequence + 1)
          (r.taken false ((message.drop offset).take count)) := by
        refine ⟨hroom, ?_, ?_, ?_, nofun, ?_⟩
        · rw [h.number]
          exact (toNat_succ hfits.count).symm
        · rw [← htaken]
          rfl
        · exact ⟨nofun, by omega⟩
        · have hcount : min 60 (message.length - offset) = count := hcount
          have hframes : message.length ≤ offset + 60 * (16 - sequence) := hframes
          show message.length ≤ offset + count + 60 * (16 - (sequence + 1))
          omega
      obtain ⟨hanswers, hmessage⟩ := ih (by omega) (by omega) hmid
      have hne : gattFramesFrom message fuel (offset + count) (sequence + 1) ≠ [] := by
        intro hnil
        rw [hnil] at hanswers
        cases hanswers
      have hlength := List.length_pos_iff.mpr hne
      rw [decide_eq_false hlast]
      refine ⟨?_, hmessage⟩
      rw [hanswers, List.length_cons, if_neg Bool.false_ne_true, ← List.cons_append,
        ← List.replicate_succ, Nat.add_sub_cancel, Nat.sub_add_cancel hlength]

/-- A receiver fed the frames of a message answers the last of them, and it alone, with the message. -/
def Receives (r : GattFrameReceiver) (message : Bytes) : Prop :=
  (r.feed (gattFrames message)).1 =
      List.replicate ((gattFrames message).length - 1) .pending ++ [.complete] ∧
    (r.feed (gattFrames message)).2.message = message

theorem receives_idle (hidle : r.active = false) (hstart : r.nextSequence = 0)
    (hsome : message ≠ []) (hframes : message.length ≤ gattFramePayloadBytes * gattFrameCount)
    (hroom : message.length ≤ r.maximum) : r.Receives message := by
  have hmid : Midway message 0 0 r := by
    refine ⟨hroom, by rw [hstart]; rfl, ?_, by simp [hidle], fun _ => hstart, by simpa using hframes⟩
    rw [held, if_neg (by simp [hidle])]
    rfl
  unfold Receives gattFrames
  rw [if_neg (by simpa [hsome] using hframes)]
  exact feed_framesFrom (Nat.le_refl _) (List.length_pos_iff.mpr hsome) hmid

/-- A frame that does not begin a message is refused by an idle receiver. -/
theorem feed_refused (hidle : r.active = false) (hoffset : 0 < offset) :
    (∀ answer ∈ (r.feed (gattFramesFrom message fuel offset sequence)).1, answer = .outOfOrder) ∧
      (r.feed (gattFramesFrom message fuel offset sequence)).2.active = false ∧
      (r.nextSequence = 0 →
        (r.feed (gattFramesFrom message fuel offset sequence)).2.nextSequence = 0) ∧
      (r.feed (gattFramesFrom message fuel offset sequence)).2.maximum = r.maximum := by
  induction fuel generalizing offset sequence r with
  | zero => exact ⟨nofun, hidle, id, rfl⟩
  | succ fuel ih =>
    rw [gattFramesFrom]
    split
    · generalize hcount : min gattFramePayloadBytes (message.length - offset) = count
      have hpayload : ((message.drop offset).take count).length ≤ gattFramePayloadBytes := by
        rw [List.length_take]
        omega
      have hreceive : r.receive (gattFrame (offset = 0) (offset + count = message.length) sequence
          ((message.drop offset).take count)) = (.outOfOrder, r.reset) := by
        rw [receive_frame hpayload, accept, if_pos]
        exact .inr (.inl ⟨by simpa using Nat.ne_of_gt hoffset, by simp [hidle]⟩)
      obtain ⟨hanswers, hactive, hnext, hmaximum⟩ :=
        @ih r.reset (offset + count) (sequence + 1) rfl (by omega)
      rw [feed, hreceive]
      refine ⟨fun answer hanswer => ?_, hactive, fun _ => hnext rfl, hmaximum⟩
      rcases List.mem_cons.mp hanswer with rfl | hrest
      · rfl
      · exact hanswers answer hrest
    · exact ⟨nofun, hidle, id, rfl⟩

/-- A message that begins while another is unfinished is refused, and the receiver is idle again. -/
theorem feed_interrupting (hactive : r.active = true) (hsome : message ≠ [])
    (hframes : message.length ≤ gattFramePayloadBytes * gattFrameCount) :
    (∀ answer ∈ (r.feed (gattFrames message)).1, answer = .outOfOrder) ∧
      (r.feed (gattFrames message)).2.active = false ∧
      (r.feed (gattFrames message)).2.nextSequence = 0 ∧
      (r.feed (gattFrames message)).2.maximum = r.maximum := by
  have hlength := List.length_pos_iff.mpr hsome
  obtain ⟨fuel, hfuel⟩ := Nat.exists_eq_add_one.2 hlength
  unfold gattFrames
  rw [if_neg (by simpa [hsome] using hframes), hfuel, gattFramesFrom, if_pos hlength]
  generalize hcount : min gattFramePayloadBytes (message.length - 0) = count
  have hpayload : ((message.drop 0).take count).length ≤ gattFramePayloadBytes := by
    rw [List.length_take]
    omega
  have hpositive : 0 < 0 + count := by
    have : gattFramePayloadBytes = 60 := rfl
    omega
  have hreceive : r.receive (gattFrame ((0 : Nat) = 0) (0 + count = message.length) 0
      ((message.drop 0).take count)) = (.outOfOrder, r.reset) := by
    rw [receive_frame hpayload, accept, if_pos]
    exact .inl ⟨rfl, .inl hactive⟩
  obtain ⟨hanswers, hidle, hnext, hmaximum⟩ := @feed_refused r.reset message
    fuel (0 + count) (0 + 1) rfl hpositive
  rw [feed, hreceive]
  refine ⟨fun answer hanswer => ?_, hidle, hnext rfl, hmaximum⟩
  rcases List.mem_cons.mp hanswer with rfl | hrest
  · rfl
  · exact hanswers answer hrest

end

/-! ## Every sequence of frames -/

/-- A complete message stands in an unbroken run of frames at the end; the next message is
received unless one is unfinished, and then it is the one behind it that is received. -/
theorem messages_received (maximum : Nat) (frames : List Bytes) :
    let fed := ({ maximum } : GattFrameReceiver).feed frames
    (fed.1.getLast? = some .complete → ∃ earlier run, frames = earlier ++ run ∧
      Whole run fed.2.message ∧ fed.2.message.length ≤ maximum) ∧
    ∀ message, 1 ≤ message.length → message.length ≤ 960 → message.length ≤ maximum →
      (fed.1.getLast? ≠ some .pending → fed.2.Receives message) ∧
      (fed.1.getLast? = some .pending →
        ∀ interrupting, 1 ≤ interrupting.length → interrupting.length ≤ 960 →
          (∀ answer ∈ (fed.2.feed (gattFrames interrupting)).1, answer = .outOfOrder) ∧
          (fed.2.feed (gattFrames interrupting)).2.Receives message) := by
  intro fed
  obtain ⟨hstands, hpending⟩ := stands_fed maximum frames
  refine ⟨fun hlast => ?_, fun message hsome hframes hroom => ⟨fun hlast => ?_, fun hlast => ?_⟩⟩
  · rcases List.eq_nil_or_concat' frames with rfl | ⟨init, frame, rfl⟩
    · cases hlast
    · have hfed : fed = GattFrameReceiver.feed (init ++ [frame]) { maximum } := rfl
      rw [hfed, feed_snoc, List.getLast?_concat, Option.some.injEq] at hlast
      rw [hfed, feed_snoc]
      exact ((stands_fed maximum init).1.receive frame).2.2 hlast
  · have hidle : fed.2.active = false := by
      rw [← Bool.not_eq_true]
      exact fun hactive => hlast (hpending.mpr hactive)
    exact receives_idle hidle (hstands.idle hidle) (List.ne_nil_of_length_pos hsome) hframes
      (hstands.maximum ▸ hroom)
  · intro interrupting hsome' hframes'
    obtain ⟨hanswers, hidle, hnext, hmaximum⟩ :=
      feed_interrupting (hpending.mp hlast) (List.ne_nil_of_length_pos hsome') hframes'
    refine ⟨hanswers, receives_idle hidle hnext (List.ne_nil_of_length_pos hsome) hframes ?_⟩
    rw [hmaximum, hstands.maximum]
    exact hroom

/-- A fresh receiver gets a message of three frames. -/
theorem first_message_received :
    (gattFrames (.replicate 130 7)).length = 3 ∧
      ({ maximum := 960 } : GattFrameReceiver).Receives (.replicate 130 7) :=
  ⟨by decide +kernel, ((messages_received 960 []).2 (.replicate 130 7) (by simp) (by simp)
    (by simp)).1 (by decide)⟩

/-- A first frame sent three times: the second is refused and the third begins anew, so that the
message sent next is not received. -/
theorem thrice_loses_next :
    let first := gattFrame true false 0 [7]
    let fed := ({ maximum := 960 } : GattFrameReceiver).feed [first, first, first]
    fed.1 = [.pending, .outOfOrder, .pending] ∧ (fed.2.feed (gattFrames [9])).1 = [.outOfOrder] ∧
      ¬ fed.2.Receives [9] := by
  have hframes : gattFrames [9] = [gattFrame true true 0 [9]] := rfl
  refine ⟨by decide, by decide, ?_⟩
  unfold Receives
  rw [hframes]
  decide

end GattFrameReceiver

end WsprryPico.Provisioning
