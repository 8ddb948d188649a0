import WsprryPico.Wtp.Framing

/-!
# A stream byte by byte

A parser that is fed one byte at a time never holds a whole frame between two bytes. So a byte
completes one payload at most, and nothing else is read with it.
-/

namespace WsprryPico.Wtp

open FrameParser

variable {memory : InputMemory} {p : FrameParser}

namespace FrameParser

/-- The buffer holds less than a header, or a header and less than its frame. -/
def Waits (p : FrameParser) : Prop :=
  p.buffer.bytes.length < frameHeaderBytes ∨
    search magic p.buffer.bytes = 0 ∧ validHeader p.buffer.bytes = true ∧
      frameHeaderBytes ≤ p.buffer.bytes.length ∧
      p.buffer.bytes.length < frameLength p.buffer.bytes

/-- Between two bytes. -/
def Quiet (p : FrameParser) : Prop := p.closed = true ∨ p.Waits

/-- A byte more than that: one frame at most. -/
def Fits (p : FrameParser) : Prop :=
  p.buffer.bytes.length ≤ frameHeaderBytes ∨
    search magic p.buffer.bytes = 0 ∧ validHeader p.buffer.bytes = true ∧
      p.buffer.bytes.length ≤ frameLength p.buffer.bytes

/-- Events without a payload. -/
def Silent (events : List FrameEvent) : Prop := ∀ bytes, .payload bytes ∉ events

/-- The events of a byte: one payload and nothing else, or none. -/
def OnePayload (events : List FrameEvent) : Prop :=
  (∃ bytes, bytes ≠ [] ∧ events = [.payload bytes]) ∨ Silent events

theorem silent_nil : Silent [] := fun _ => List.not_mem_nil

theorem Silent.append {xs ys : List FrameEvent} (hx : Silent xs) (hy : Silent ys) :
    Silent (xs ++ ys) := by
  intro bytes hmem
  rcases List.mem_append.mp hmem with hmem | hmem
  · exact hx bytes hmem
  · exact hy bytes hmem

theorem turn_short (memory : InputMemory) (h : p.closed = false)
    (hlength : p.buffer.bytes.length ≤ frameHeaderBytes)
    (hshort : search magic p.buffer.bytes = 0 → p.buffer.bytes.length < frameHeaderBytes) :
    (p.turn memory).again = false ∧ (p.turn memory).parser.Quiet ∧
      Silent (p.turn memory).events := by
  unfold turn
  simp only
  split
  · rename_i hfront
    unfold readFrame
    simp only [FrameBuffer.size, hshort hfront, if_true]
    exact ⟨trivial, .inr (.inl (hshort hfront)), silent_nil⟩
  · rename_i hfront
    split
    · obtain ⟨-, -, hended, hevents⟩ | ⟨-, heq⟩ :=
        discardPrefix_cases (p.buffer.size - min 3 p.buffer.size) h
      · exact ⟨rfl, .inl hended.closed, by simp [hevents, Silent]⟩
      · rw [heq]
        refine ⟨rfl, .inr (.inl ?_), silent_nil⟩
        simp only [FrameBuffer.discard, FrameBuffer.size, List.length_drop, frameHeaderBytes]
        omega
    · obtain ⟨-, -, hended, hevents⟩ | ⟨-, heq⟩ :=
        discardPrefix_cases (search magic p.buffer.bytes) h
      · rw [if_pos hended.closed]
        exact ⟨rfl, .inl hended.closed, by simp [hevents, Silent]⟩
      · have hless : (p.buffer.discard (search magic p.buffer.bytes)).bytes.length <
            frameHeaderBytes := by
          simp only [FrameBuffer.discard, List.length_drop, frameHeaderBytes] at hlength ⊢
          omega
        rw [heq, if_neg (by simp [h])]
        unfold readFrame
        simp only [FrameBuffer.size, hless, if_true]
        exact ⟨trivial, .inr (.inl hless), by simp [Silent]⟩

theorem readFrame_more (memory : InputMemory) (hheader : ¬ p.buffer.bytes.length < frameHeaderBytes)
    (hvalid : validHeader p.buffer.bytes = true)
    (hmore : p.buffer.bytes.length < frameLength p.buffer.bytes) :
    p.readFrame memory = { parser := { p with partialFrame := true }, again := false } := by
  unfold readFrame
  simp only [FrameBuffer.size, hheader, if_false, hvalid, Bool.not_true, Bool.false_eq_true]
  exact if_pos hmore

theorem validHeader_positive {bytes : List UInt8} (h : validHeader bytes = true) :
    1 ≤ (readU32Be (bytes.drop 8)).toNat := by
  simp only [validHeader, Bool.and_eq_true, decide_eq_true_eq] at h
  simpa [UInt32.le_iff_toNat_le] using h.1.2

theorem process_short (memory : InputMemory) (hlength : p.buffer.bytes.length ≤ frameHeaderBytes)
    (hshort : search magic p.buffer.bytes = 0 → p.buffer.bytes.length < frameHeaderBytes) :
    (p.process memory).1.Quiet ∧ Silent (p.process memory).2 := by
  cases h : p.closed with
  | true =>
    rw [process_closed h]
    exact ⟨.inl h, silent_nil⟩
  | false =>
    obtain ⟨hstop, hquiet, hsilent⟩ := turn_short memory h hlength hshort
    rw [process_stop h hstop]
    exact ⟨hquiet, hsilent⟩

theorem process_empty (memory : InputMemory) (hempty : p.buffer.bytes = []) :
    (p.process memory).1.Quiet ∧ (p.process memory).2 = [] := by
  refine ⟨(process_short memory (by simp [hempty]) fun _ => by simp [hempty, frameHeaderBytes]).1,
    ?_⟩
  cases h : p.closed with
  | true => rw [process_closed h]
  | false =>
    have hturn : p.turn memory =
      { parser := { p with partialFrame := false }, again := false } := by
      simp [turn, readFrame, hempty, search, FrameBuffer.size, frameHeaderBytes]
    rw [process_stop h (by rw [hturn]), hturn]

/-- A header that is complete is refused, or its frame goes on. -/
theorem process_header (h : p.closed = false)
    (hlength : p.buffer.bytes.length = frameHeaderBytes) (hfront : search magic p.buffer.bytes = 0)
      :
    (p.process memory).1.Quiet ∧ Silent (p.process memory).2 := by
  have hturn : p.turn memory = p.readFrame memory := by rw [turn, if_pos hfront]
  cases hvalid : validHeader p.buffer.bytes with
  | true =>
    have hmore : p.buffer.bytes.length < frameLength p.buffer.bytes := by
      have hone := validHeader_positive hvalid
      unfold frameLength
      omega
    have hread := readFrame_more memory (by omega) hvalid hmore
    rw [process_stop h (by rw [hturn, hread]), hturn, hread]
    exact ⟨.inr (.inr ⟨hfront, hvalid, Nat.le_of_eq hlength.symm, hmore⟩), silent_nil⟩
  | false =>
    have hread : (p.readFrame memory).again = true ∧
        (p.readFrame memory).parser.buffer.bytes.length < frameHeaderBytes ∧
        Silent (p.readFrame memory).events := by
      unfold readFrame
      simp only [FrameBuffer.size, hlength, Nat.lt_irrefl, if_false, hvalid, Bool.not_false,
        if_true]
      obtain ⟨-, hended, hevents⟩ | ⟨-, heq⟩ := invalidFrame_cases h
      · rw [if_pos hended.closed]
        exact ⟨rfl, by simp [hended.bytes, frameHeaderBytes], by simp [hevents, Silent]⟩
      · rw [heq, if_neg (by simp [h])]
        obtain ⟨-, -, hended, hevents⟩ | ⟨-, hdiscard⟩ := discardPrefix_cases 1
          (p := { p with consecutiveInvalidFrames := p.consecutiveInvalidFrames + 1 }) h
        · exact ⟨rfl, by simp [hended.bytes, frameHeaderBytes], by simp [hevents, Silent]⟩
        · rw [hdiscard]
          refine ⟨rfl, ?_, by simp [Silent]⟩
          simp only [FrameBuffer.discard, List.length_drop, hlength]
          decide
    rw [process_again h (by rw [hturn]; exact hread.1), hturn]
    obtain ⟨hquiet, hsilent⟩ := process_short memory (Nat.le_of_lt hread.2.1) fun _ =>
      hread.2.1
    exact ⟨hquiet, hread.2.2.append hsilent⟩

/-- A frame that is complete is refused or delivered, and leaves no byte. -/
theorem process_whole (h : p.closed = false) (hfront : search magic p.buffer.bytes = 0)
    (hvalid : validHeader p.buffer.bytes = true)
    (hlength : p.buffer.bytes.length = frameLength p.buffer.bytes) :
    (p.process memory).1.Quiet ∧ OnePayload (p.process memory).2 := by
  have hturn : p.turn memory = p.readFrame memory := by rw [turn, if_pos hfront]
  have hone := validHeader_positive hvalid
  have hheader : ¬ p.buffer.bytes.length < frameHeaderBytes := by
    rw [hlength, frameLength]
    omega
  have hread : (p.readFrame memory).again = true ∧
      (p.readFrame memory).parser.buffer.bytes = [] ∧ OnePayload (p.readFrame memory).events := by
    unfold readFrame
    simp only [FrameBuffer.size, hheader, if_false, hvalid, Bool.not_true, Bool.false_eq_true]
    rw [if_neg (by rw [hlength, frameLength]; exact Nat.lt_irrefl _)]
    split
    · obtain ⟨-, hended, hevents⟩ | ⟨-, heq⟩ := invalidFrame_cases h
      · rw [if_pos hended.closed]
        exact ⟨rfl, hended.bytes, .inr (by simp [hevents, Silent])⟩
      · rw [heq, if_neg (by simp [h])]
        refine ⟨rfl, ?_, .inr (by simp [Silent])⟩
        exact List.drop_eq_nil_of_le (Nat.le_of_eq hlength)
    · unfold deliver
      simp only [FrameBuffer.size]
      rw [if_pos (by rw [hlength]; rfl)]
      refine ⟨rfl, rfl, .inl ⟨_, ?_, rfl⟩⟩
      intro hnil
      have hzero := congrArg List.length hnil
      rw [List.length_take, List.length_drop, hlength, frameLength, List.length_nil] at hzero
      omega
  obtain ⟨hquiet, hevents⟩ := process_empty memory hread.2.1
  rw [process_again h (by rw [hturn]; exact hread.1), hturn, hevents, List.append_nil]
  exact ⟨hquiet, hread.2.2⟩

theorem process_fits (h : p.Fits) :
    (p.process memory).1.Quiet ∧ OnePayload (p.process memory).2 := by
  cases hopen : p.closed with
  | true =>
    rw [process_closed hopen]
    exact ⟨.inl hopen, .inr silent_nil⟩
  | false =>
    by_cases hshort : search magic p.buffer.bytes = 0 →
        p.buffer.bytes.length < frameHeaderBytes
    · refine (process_short memory ?_ hshort).imp_right .inr
      obtain hlength | ⟨hfront, -⟩ := h
      · exact hlength
      · exact Nat.le_of_lt (hshort hfront)
    · simp only [Classical.not_imp] at hshort
      obtain ⟨hfront, hheader⟩ := hshort
      obtain hlength | ⟨-, hvalid, hframe⟩ := h
      · exact (process_header hopen (Nat.le_antisymm hlength (Nat.le_of_not_lt hheader))
          hfront).imp_right .inr
      · rcases Nat.lt_or_eq_of_le hframe with hmore | hwhole
        · have hread : p.turn memory = p.readFrame memory := by rw [turn, if_pos hfront]
          rw [readFrame_more memory hheader hvalid hmore] at hread
          rw [process_stop hopen (by rw [hread]), hread]
          exact ⟨.inr (.inr ⟨hfront, hvalid, Nat.le_of_not_lt hheader, hmore⟩), .inr silent_nil⟩
        · exact process_whole hopen hfront hvalid hwhole

/-! ## Feeding -/

theorem Waits.fits {b : UInt8} {q : FrameParser} (h : p.Waits)
    (hbytes : q.buffer.bytes = p.buffer.bytes ++ [b]) : q.Fits := by
  unfold Fits
  rw [hbytes, List.length_append, List.length_singleton]
  obtain hshort | ⟨hfront, hvalid, hheader, hmore⟩ := h
  · exact .inl (by omega)
  · have hpos : search magic p.buffer.bytes < p.buffer.bytes.length := by
      rw [hfront]
      exact Nat.lt_of_lt_of_le (by decide) hheader
    have hdrop : 8 + 4 ≤ p.buffer.bytes.length := Nat.le_trans (by decide) hheader
    refine .inr ⟨by rw [search_append_found _ hpos, hfront],
      by rw [validHeader_append _ hheader]; exact hvalid, ?_⟩
    rw [frameLength, readU32Be_drop_append _ hdrop]
    exact hmore

theorem grow_bytes {q : FrameParser} {count : Nat} (h : p.grow memory count = some q) :
    q.buffer.bytes = p.buffer.bytes := by
  unfold grow at h
  split at h
  · obtain ⟨capacity, h⟩ : ∃ capacity, (p.buffer.reserve memory capacity).map (fun buffer =>
        { p with buffer := buffer }) = some q := by
      simp only [Option.ite_none_left_eq_some] at h
      exact ⟨_, h.2⟩
    obtain ⟨buffer, hbuffer, rfl⟩ := Option.map_eq_some_iff.mp h
    unfold FrameBuffer.reserve at hbuffer
    split at hbuffer
    · cases hbuffer
      rfl
    · split at hbuffer
      · cases hbuffer
      · split at hbuffer
        · cases hbuffer
          rfl
        · cases hbuffer
  · cases h
    rfl

theorem feedChunks_byte (h : p.closed = false) (byte : UInt8) (nowMs : UInt64) :
    feedChunks memory nowMs p [byte] =
      match p.grow memory 1 with
      | none => p.close
      | some q => process memory
        { q with buffer := q.buffer.append [byte], lastProgressMs := nowMs } := by
  rw [feedChunks, if_neg (by simp [h])]
  have hone : min chunkBytes [byte].length = 1 := rfl
  have hbyte : [byte].take chunkBytes = [byte] := rfl
  have hrest : [byte].drop chunkBytes = [] := rfl
  simp only [hone, hbyte, hrest]
  cases p.grow memory 1 with
  | none => rfl
  | some q => simp [feedChunks]

theorem feed_byte (h : p.Quiet) (memory : InputMemory) (byte : UInt8) (nowMs : UInt64) :
    (p.feed memory [byte] nowMs).1.Quiet ∧ OnePayload (p.feed memory [byte] nowMs).2 := by
  cases hopen : p.closed with
  | true =>
    rw [feed, if_pos hopen]
    exact ⟨.inl hopen, .inr silent_nil⟩
  | false =>
    have hwaits : p.Waits := by
      obtain hclosed | hwaits := h
      · exact absurd (hclosed.symm.trans hopen) Bool.noConfusion
      · exact hwaits
    have hfeed : p.feed memory [byte] nowMs = feedChunks memory nowMs p [byte] := by
      simp [feed, hopen]
    rw [hfeed, feedChunks_byte hopen]
    split
    · obtain ⟨hended, hevents⟩ := close_ends hopen
      exact ⟨.inl hended.closed, .inr (by simp [hevents, Silent])⟩
    · rename_i q hgrow
      refine process_fits (hwaits.fits (b := byte) ?_)
      simp [FrameBuffer.append, grow_bytes hgrow]

theorem checkTimeout_quiet (h : p.Quiet) (nowMs : UInt64) :
    (p.checkTimeout nowMs).1.Quiet ∧ Silent (p.checkTimeout nowMs).2 := by
  unfold checkTimeout
  split
  · unfold close
    split
    · exact ⟨h, silent_nil⟩
    · exact ⟨.inl rfl, by simp [Silent]⟩
  · exact ⟨h, silent_nil⟩

end FrameParser

end WsprryPico.Wtp
