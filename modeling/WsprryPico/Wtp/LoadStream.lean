import WsprryPico.Wtp.ResponseWindows

/-!
# The stream of a LOAD reply

The stream keeps one page of the reply and the piece it is in. A page holds what follows the
one before; the transport may ask for any place of the page or for the next page.
-/

namespace WsprryPico.Wtp

open Lib Json

variable {r : Codec.Request} {s : Response} {document : Bytes} {t : LoadResponseStream}

theorem crc32c_parts (parts : List Bytes) (sum : UInt32) :
    parts.foldl (fun sum part => crc32c part sum) sum = crc32c parts.flatten sum := by
  induction parts generalizing sum with
  | nil =>
    have hnil : crc32c [] sum = sum := by
      simp only [crc32c, List.foldl_nil]
      rw [UInt32.xor_assoc, UInt32.xor_self, UInt32.xor_zero]
    exact hnil.symm
  | cons part parts ih => rw [List.foldl_cons, ih, List.flatten_cons, crc32c_append]

namespace LoadResponseStream

/-- What is still to come behind the page. -/
def rest (t : LoadResponseStream) : Bytes :=
  t.piece.drop t.pieceOffset ++
    ((partsFrom t.nextAdjustment (t.adjustments.drop t.nextAdjustment)).flatten ++
      if t.closing then [] else loadEnd)

/-- The stream stands in the document behind its page. -/
structure Streams (document : Bytes) (t : LoadResponseStream) : Prop where
  whole : ∃ before, before.length = t.pageStart ∧ document = before ++ (t.page ++ t.rest)
  piece : t.pieceOffset ≤ t.piece.length
  size : t.size = document.length

/-- A refill keeps the page and what is to come, and leaves a piece while anything is. -/
structure Refilled (t t' : LoadResponseStream) : Prop where
  page : t'.page = t.page
  pageStart : t'.pageStart = t.pageStart
  size : t'.size = t.size
  rest : t'.rest = t.rest
  piece : t'.pieceOffset ≤ t'.piece.length
  more : t'.pieceOffset = t'.piece.length → t.rest = []

theorem adjustmentPart_ne_nil (index : Nat) (a : FrequencyAdjustment) :
    0 < (adjustmentPart index a).length := by
  have hpunctuation : 0 < punctuation.length := by decide
  rw [adjustmentPart_length, adjustmentBytes]
  omega

theorem refill_spec (h : t.pieceOffset ≤ t.piece.length) : Refilled t t.refill := by
  unfold refill
  by_cases hmore : t.pieceOffset = t.piece.length
  swap
  · rw [if_pos hmore]
    exact ⟨rfl, rfl, rfl, rfl, h, fun hend => absurd hend hmore⟩
  rw [if_neg (not_not_intro hmore)]
  have hdone : t.piece.drop t.pieceOffset = [] := by rw [hmore, List.drop_length]
  dsimp only
  cases hnext : t.adjustments[t.nextAdjustment]? with
  | some a =>
    have hdrop : t.adjustments.drop t.nextAdjustment =
        a :: t.adjustments.drop (t.nextAdjustment + 1) := by
      obtain ⟨hlt, ha⟩ := List.getElem?_eq_some_iff.mp hnext
      rw [List.drop_eq_getElem_cons hlt, ha]
    refine ⟨rfl, rfl, rfl, ?_, Nat.zero_le _, ?_⟩
    · rw [rest, rest, hdone, hdrop, partsFrom, List.flatten_cons]
      simp
    · intro hend
      have hpart := adjustmentPart_ne_nil t.nextAdjustment a
      dsimp only at hend
      omega
  | none =>
    have hdrop : t.adjustments.drop t.nextAdjustment = [] :=
      List.drop_of_length_le (List.getElem?_eq_none_iff.mp hnext)
    dsimp only
    split_ifs with hclosing
    · refine ⟨rfl, rfl, rfl, ?_, Nat.zero_le _, ?_⟩
      · simp [rest, hdone, hdrop, hclosing]
      · intro _
        simp [rest, hdone, hdrop, hclosing, partsFrom]
    · refine ⟨rfl, rfl, rfl, ?_, Nat.zero_le _, ?_⟩
      · simp [rest, hdone, hdrop, hclosing, partsFrom]
      · intro hend
        have hempty : 0 = loadEnd.length := hend
        cases hempty

/-- A page is filled, or nothing is left to put on it. -/
theorem fill_spec (fuel : Nat) (h : t.Streams document) (hfuel : pageBytes < t.page.length + fuel) :
    (fill fuel t).Streams document ∧ (fill fuel t).pageStart = t.pageStart ∧
      (pageBytes ≤ (fill fuel t).page.length ∨ (fill fuel t).rest = []) := by
  induction fuel generalizing t with
  | zero => exact ⟨h, rfl, .inl (by simpa [fill] using Nat.le_of_lt hfuel)⟩
  | succ fuel ih =>
    unfold fill
    by_cases hroom : t.page.length < pageBytes
    swap
    · rw [if_neg hroom]
      exact ⟨h, rfl, .inl (Nat.le_of_not_lt hroom)⟩
    rw [if_pos hroom]
    have hrefill := refill_spec h.piece
    obtain ⟨before, hbefore, hwhole⟩ := h.whole
    have hpiece := hrefill.piece
    generalize t.refill = u at hrefill hpiece ⊢
    dsimp only
    split_ifs with hend
    · refine ⟨⟨⟨before, ?_, ?_⟩, hpiece, hrefill.size.trans h.size⟩, hrefill.pageStart, .inr ?_⟩
      · rw [hbefore, hrefill.pageStart]
      · rw [hwhole, hrefill.page, hrefill.rest]
      · rw [hrefill.rest, hrefill.more hend]
    · have hpage := hrefill.page
      set count := min (pageBytes - u.page.length) (u.piece.length - u.pieceOffset) with hcount
      have hcounted : 0 < count := by
        rw [hcount, hpage]
        omega
      have hsplit : (u.piece.drop u.pieceOffset).take count ++ u.piece.drop (u.pieceOffset + count) =
          u.piece.drop u.pieceOffset := by
        rw [← List.drop_drop, List.take_append_drop]
      have hlength : ((u.piece.drop u.pieceOffset).take count).length = count := by
        rw [List.length_take, List.length_drop]
        omega
      have hnext := ih (t := { u with
        page := u.page ++ (u.piece.drop u.pieceOffset).take count
        pieceOffset := u.pieceOffset + count }) ⟨⟨before, ?_, ?_⟩, ?_, ?_⟩ ?_
      · exact ⟨hnext.1, hnext.2.1.trans hrefill.pageStart, hnext.2.2⟩
      · rw [hbefore, ← hrefill.pageStart]
      · have hrest : u.rest = (u.piece.drop u.pieceOffset).take count ++ rest { u with
            page := u.page ++ (u.piece.drop u.pieceOffset).take count
            pieceOffset := u.pieceOffset + count } := by
          rw [rest, rest]
          rw [← List.append_assoc (List.take count _), hsplit]
        rw [hwhole, ← hpage, ← hrefill.rest, hrest]
        rw [List.append_assoc]
      · dsimp only
        omega
      · exact hrefill.size.trans h.size
      · dsimp only
        rw [List.length_append, hlength, hpage]
        omega

theorem Streams.turn (h : t.Streams document) {offset : Nat}
    (hend : offset = t.pageStart + t.page.length) :
    ({ t with pageStart := offset, page := [] } : LoadResponseStream).Streams document := by
  obtain ⟨before, hbefore, hwhole⟩ := h.whole
  refine ⟨⟨before ++ t.page, ?_, ?_⟩, h.piece, h.size⟩
  · rw [List.length_append, hbefore, hend]
  · rw [hwhole, List.append_assoc]
    rfl

theorem Streams.view (h : t.Streams document) {offset : Nat} (hpage : t.pageStart ≤ offset) :
    t.page.drop (offset - t.pageStart) =
      slice document offset (t.page.length - (offset - t.pageStart)) := by
  obtain ⟨before, hbefore, rfl⟩ := h.whole
  rw [slice_right (by omega), hbefore]
  by_cases hinside : offset - t.pageStart ≤ t.page.length
  · rw [slice_left (by omega), slice, List.take_of_length_le (Nat.le_of_eq List.length_drop)]
  · have hzero : t.page.length - (offset - t.pageStart) = 0 := by omega
    rw [List.drop_of_length_le (by omega), hzero, slice_none]

theorem Streams.window (h : t.Streams document) (offset : Nat) :
    (∃ count, (t.window offset).1 = slice document offset count) ∧
      (t.window offset).2.Streams document ∧
      (t.pageStart ≤ offset → offset ≤ t.pageStart + t.page.length → offset < document.length →
        (t.window offset).1 ≠ []) := by
  have hnone : ∃ count, ([] : Bytes) = slice document offset count := ⟨0, slice_none.symm⟩
  have hsize := h.size
  unfold LoadResponseStream.window
  by_cases hpast : offset ≥ t.size ∨ offset < t.pageStart
  · rw [if_pos hpast]
    exact ⟨hnone, h, fun _ _ _ => by omega⟩
  rw [if_neg hpast]
  by_cases hnext : offset ≥ t.pageStart + t.page.length
  swap
  · rw [if_neg hnext]
    refine ⟨⟨_, h.view (by omega)⟩, h, ?_⟩
    intro _ _ _ hempty
    have hlength := congrArg List.length hempty
    rw [List.length_drop, List.length_nil] at hlength
    omega
  rw [if_pos hnext]
  by_cases hskip : offset ≠ t.pageStart + t.page.length
  · rw [if_pos hskip]
    exact ⟨hnone, h, fun _ _ _ => by omega⟩
  rw [if_neg hskip]
  rw [ne_eq, not_not] at hskip
  obtain ⟨hfilled, hstart, hfull⟩ := fill_spec (pageBytes + 1) (h.turn hskip) (by simp [pageBytes])
  generalize fill (pageBytes + 1) { t with pageStart := offset, page := [] } = u at hfilled hstart hfull
  dsimp only at hstart ⊢
  refine ⟨⟨_, hfilled.view (by omega)⟩, hfilled, ?_⟩
  intro _ _ hinside hempty
  rw [hstart, Nat.sub_self, List.drop_zero] at hempty
  obtain ⟨before', hbefore', hwhole'⟩ := hfilled.whole
  rcases hfull with hfull | hfull
  · rw [hempty] at hfull
    exact absurd hfull (by decide)
  · rw [hempty, hfull] at hwhole'
    rw [hwhole', List.append_nil, List.append_nil, hbefore', hstart] at hinside
    omega

theorem Streams.serves (document : Bytes) :
    Serves LoadResponseStream.window (fun (i : Empty) _ => nomatch i) (Streams document)
      document where
  view := fun _ ht offset => (ht.window offset).1
  served := fun _ ht offset => (ht.window offset).2.1
  acted := fun _ _ i => nomatch i

/-- A reader of the stream, who starts at its beginning. -/
def readStream (t : LoadResponseStream) (reads : List (Read Empty)) :
    Reading LoadResponseStream UInt8 :=
  reads.foldl (Reading.step LoadResponseStream.window fun i _ => nomatch i) { server := t }

theorem Streams.reads (h : t.Streams document) (reads : List (Read Empty)) :
    (readStream t reads).Keeps (Streams document) document :=
  (Streams.serves document).run ⟨h, Nat.zero_le _, rfl⟩ reads

/-- An answer leaves its place, and what it gave, on the page. -/
theorem Streams.place (h : t.Streams document) {offset : Nat} (hpage : t.pageStart ≤ offset)
    (hreach : offset ≤ t.pageStart + t.page.length) :
    (t.window offset).2.pageStart ≤ offset ∧ offset + (t.window offset).1.length ≤
      (t.window offset).2.pageStart + (t.window offset).2.page.length := by
  unfold LoadResponseStream.window
  split_ifs with hpast hnext hskip
  · exact ⟨hpage, hreach⟩
  · exact ⟨hpage, hreach⟩
  · rw [ne_eq, not_not] at hskip
    obtain ⟨-, hstart, -⟩ := fill_spec (pageBytes + 1) (h.turn hskip) (by simp [pageBytes])
    dsimp only at hstart ⊢
    rw [hstart, Nat.sub_self, List.drop_zero]
    exact ⟨Nat.le_refl _, Nat.le_refl _⟩
  · dsimp only
    rw [List.length_drop]
    omega

/-- A reader who only goes on from its place always finds it on the page or behind it. -/
theorem Streams.advances (h : t.Streams document) (hstart : t.pageStart = 0)
    (counts : List Nat) :
    (readStream t (counts.map .advance)).server.pageStart ≤
        (readStream t (counts.map .advance)).position ∧
      (readStream t (counts.map .advance)).position ≤
        (readStream t (counts.map .advance)).server.pageStart +
          (readStream t (counts.map .advance)).server.page.length := by
  induction counts using List.reverseRecOn with
  | nil => exact ⟨Nat.le_of_eq hstart, Nat.zero_le _⟩
  | append_singleton counts count ih =>
    have hreads := h.reads (counts.map .advance)
    have hstep : readStream t ((counts ++ [count]).map .advance) =
        Reading.step LoadResponseStream.window (fun (i : Empty) _ => nomatch i)
          (readStream t (counts.map .advance)) (.advance count) := by
      rw [List.map_append, readStream, List.foldl_append]
      rfl
    rw [hstep]
    obtain ⟨hbefore, hafter⟩ := hreads.server.place ih.1 ih.2
    dsimp only [Reading.step]
    rw [List.length_take]
    omega

/-- A fresh stream stands at the beginning of its reply. -/
theorem make_streams {g : Grants} (hg : loadEncodable g r s = true)
    (hsize : loadResponseBytes (loadFront r s).length s ≤ 65536) (hreserved : g.reserved = true) :
    (make g r s).Streams (loadFront r s ++ (loadParts s).flatten) ∧
      (make g r s).checksum = crc32c (loadFront r s ++ (loadParts s).flatten) := by
  have hmake : make g r s =
      { adjustments := s.adjustments
        piece := loadFront r s
        size := loadResponseBytes (loadFront r s).length s
        checksum := (loadParts s).foldl (fun sum part => crc32c part sum)
          (crc32c (loadFront r s)) } := by
    unfold make
    rw [if_neg (not_not_intro hg)]
    rw [if_neg (by simp [hreserved]; omega)]
  rw [hmake]
  refine ⟨⟨⟨[], rfl, ?_⟩, Nat.zero_le _, loadResponseBytes_length _ s⟩, ?_⟩
  · rw [loadParts_eq]
    simp [rest]
  · dsimp only
    rw [crc32c_parts, crc32c_append]

end LoadResponseStream

/-! ## The encoders -/

/-- What bounds a reply that is encoded in pieces. -/
def Admits (g : Grants) (s : Response) (document : Bytes) : Prop :=
  s.adjustments.length ≤ 512 ∧ document.length ≤ 65536 ∧ g.memory = true ∧ g.reserved = true

instance (g : Grants) (s : Response) (document : Bytes) : Decidable (Admits g s document) :=
  inferInstanceAs (Decidable (_ ∧ _ ∧ _ ∧ _))

theorem encodeLoadResponseBuffer_eq (g : Grants) (r : Codec.Request) (s : Response)
    (hok : s.ok = true) (hload : r.operation = ascii "LOAD") (browser : Bool) :
    encodeLoadResponseBuffer g r s browser =
      if Admits g s ((if browser then browserFront r s else loadFront r s) ++
          (loadParts s).flatten)
      then (if browser then browserFront r s else loadFront r s) ++ (loadParts s).flatten
      else [] := by
  unfold encodeLoadResponseBuffer
  dsimp only
  generalize (if browser = true then browserFront r s else loadFront r s) = front
  rw [loadResponseBytes_length]
  by_cases hlist : s.adjustments.length > 512
  · rw [if_pos (.inr (.inr hlist)), if_neg fun hadmits => Nat.not_le_of_lt hlist hadmits.1]
  · rw [if_neg (by simp [hok, hload]; omega)]
    by_cases hrest : (front ++ (loadParts s).flatten).length > 65536 ∨ ¬ g.memory = true ∨
        ¬ g.reserved = true
    · rw [if_pos hrest, if_neg]
      rintro ⟨-, hsize, hmemory, hreserved⟩
      rcases hrest with hrest | hrest | hrest
      · omega
      · exact hrest hmemory
      · exact hrest hreserved
    · have hwithin := hrest
      simp only [not_or, not_not, Nat.not_lt] at hwithin
      rw [if_neg hrest, if_neg (not_not_intro rfl),
        if_pos ⟨by omega, hwithin.1, hwithin.2.1, hwithin.2.2⟩]

theorem loadEncodable_iff {g : Grants} (hok : s.ok = true) (hload : r.operation = ascii "LOAD") :
    loadEncodable g r s = true ↔ s.adjustments.length ≤ 512 ∧ g.memory = true := by
  simp [loadEncodable, hok, hload]

/-- What a stream gives of a document: its size and checksum, the bytes up to the reader's place
in every order of retries, and more as long as there is more. -/
structure StreamOf (document : Bytes) (t : LoadResponseStream) : Prop where
  size : t.size = document.length
  checksum : t.checksum = crc32c document
  received : ∀ reads, (t.readStream reads).received = document.take (t.readStream reads).position
  bound : ∀ reads, (t.readStream reads).position ≤ document.length
  view : ∀ reads offset, ∃ count, ((t.readStream reads).server.window offset).1 =
    (document.drop offset).take count
  more : ∀ counts : List Nat,
    (t.readStream (counts.map .advance)).position < document.length →
      ((t.readStream (counts.map .advance)).server.window
        (t.readStream (counts.map .advance)).position).1 ≠ []

theorem make_streamOf {g : Grants} (hok : s.ok = true) (hload : r.operation = ascii "LOAD")
    (h : Admits g s (loadFront r s ++ (loadParts s).flatten)) :
    StreamOf (loadFront r s ++ (loadParts s).flatten) (.make g r s) := by
  obtain ⟨hlist, hsize, hmemory, hreserved⟩ := h
  have hencodable : loadEncodable g r s = true := (loadEncodable_iff hok hload).mpr ⟨hlist, hmemory⟩
  have hbytes : loadResponseBytes (loadFront r s).length s ≤ 65536 := by
    rw [loadResponseBytes_length]
    exact hsize
  obtain ⟨hstreams, hchecksum⟩ := LoadResponseStream.make_streams hencodable hbytes hreserved
  have hstart : (LoadResponseStream.make g r s).pageStart = 0 := by
    unfold LoadResponseStream.make
    dsimp only
    split_ifs <;> rfl
  refine ⟨hstreams.size, hchecksum, fun reads => (hstreams.reads reads).received,
    fun reads => (hstreams.reads reads).bound, ?_, ?_⟩
  · intro reads offset
    exact ((hstreams.reads reads).server.window offset).1
  · intro counts hinside
    have hplace := hstreams.advances hstart counts
    exact ((hstreams.reads (counts.map .advance)).server.window _).2.2 hplace.1 hplace.2 hinside

theorem make_refused {g : Grants} (hload : r.operation = ascii "LOAD")
    (h : s.ok = true → ¬ Admits g s (loadFront r s ++ (loadParts s).flatten)) :
    (LoadResponseStream.make g r s).size = 0 := by
  unfold LoadResponseStream.make
  dsimp only
  rw [loadResponseBytes_length]
  by_cases hencodable : loadEncodable g r s = true
  · rw [if_neg (not_not_intro hencodable)]
    have hok : s.ok = true := by
      by_contra hno
      simp [loadEncodable, hno] at hencodable
    obtain ⟨hlist, hmemory⟩ := (loadEncodable_iff hok hload).mp hencodable
    rw [if_pos]
    by_contra hno
    rw [not_or, not_not, Nat.not_lt] at hno
    exact h hok ⟨hlist, hno.1, hmemory, hno.2⟩
  · rw [if_pos hencodable]

/-- What the browser's source gives of a document. -/
structure SourceOf (document : Bytes) (b : BrowserLoadSource) : Prop where
  size : b.size = document.length
  copy : ∀ offset out, b.copy offset out = (document.drop offset).take out
  received : ∀ reads, (readWindows b.source reads).received =
    document.take (readWindows b.source reads).position

theorem make_sourceOf (r : Codec.Request) (hindexed : Indexed s.adjustments) :
    SourceOf (browserFront r s ++ (loadParts s).flatten) (.make r s) := by
  have hplaced := BrowserLoadSource.make_placed r hindexed
  have hlawful : Lawful (BrowserLoadSource.make r s).document.length 0 _ _ :=
    hplaced.lawful Nat.lt_two_pow_self
  rw [← BrowserLoadSource.make_document]
  exact ⟨hplaced.size_eq, hplaced.copy, fun reads => (hlawful.reads reads).received⟩

/-- The encoders of a LOAD reply. The buffer and the stream give the text of `encode_response`,
the browser's buffer and source another envelope of the same fields, each within its bounds. -/
theorem load_encoders (g : Grants) (r : Codec.Request) (s : Response) (config : ServiceConfig)
    (device firmware : Bytes) (hload : r.operation = ascii "LOAD")
    (hindexed : Indexed s.adjustments) :
    let reply := encodeResponse r s config device firmware
    let browser := browserFront r s ++ (loadParts s).flatten
    (s.ok = true → ∃ fields,
      reply = responsePrefix r s ++ (ascii ",\"body\":" ++ fields) ∧
      browser = ascii "\x7b\"ok\":true,\"request_id\":" ++ quote r.requestId ++
        ascii ",\"result\":" ++ fields) ∧
    (encodeLoadResponseBuffer g r s = if s.ok ∧ Admits g s reply then reply else []) ∧
    (if s.ok ∧ Admits g s reply then StreamOf reply (.make g r s)
      else (LoadResponseStream.make g r s).size = 0) ∧
    (encodeLoadResponseBuffer g r s true = if s.ok ∧ Admits g s browser then browser else []) ∧
    (if s.ok ∧ Admits g s browser then
        loadResponseSource g r s = some (.make r s) ∧ SourceOf browser (.make r s)
      else loadResponseSource g r s = none) := by
  dsimp only
  by_cases hok : s.ok = true
  swap
  · have hrefused : ∀ browser, encodeLoadResponseBuffer g r s browser = [] :=
      fun browser => if_pos (.inl hok)
    have hsource : loadResponseSource g r s = none := by
      unfold loadResponseSource
      rw [if_pos (by simp [loadEncodable, hok])]
    simp only [hok, Bool.false_eq_true, false_and, if_false, hrefused, hsource, true_and, and_true]
    exact ⟨fun h => absurd h id, make_refused hload fun h => absurd h hok⟩
  have hreply := encodeResponse_load hok hload config device firmware
  rw [hreply]
  simp only [hok, true_and]
  refine ⟨fun _ => ⟨loadFields s ++ (loadParts s).flatten, ?_, ?_⟩, ?_, ?_, ?_, ?_⟩
  · rw [loadFront]
    simp only [List.append_assoc]
  · rw [browserFront]
    simp only [List.append_assoc]
  · exact encodeLoadResponseBuffer_eq g r s hok hload false
  · split_ifs with hadmits
    · exact make_streamOf hok hload hadmits
    · exact make_refused hload fun _ => hadmits
  · exact encodeLoadResponseBuffer_eq g r s hok hload true
  · have hsource := make_sourceOf r hindexed
    have hencodable := loadEncodable_iff (g := g) hok hload
    unfold loadResponseSource
    dsimp only
    rw [hsource.size]
    by_cases hadmits : Admits g s (browserFront r s ++ (loadParts s).flatten)
    · obtain ⟨hlist, hsize, hmemory, hreserved⟩ := hadmits
      rw [if_pos ⟨hlist, hsize, hmemory, hreserved⟩, if_neg (not_not_intro
        (hencodable.mpr ⟨hlist, hmemory⟩)), if_neg]
      · exact ⟨rfl, hsource⟩
      · rw [not_or, not_not, Nat.not_lt]
        exact ⟨hreserved, hsize⟩
    · rw [if_neg hadmits]
      by_cases hsome : loadEncodable g r s = true
      · obtain ⟨hlist, hmemory⟩ := hencodable.mp hsome
        rw [if_neg (not_not_intro hsome), if_pos]
        by_contra hno
        rw [not_or, not_not, Nat.not_lt] at hno
        exact hadmits ⟨hlist, hno.2, hmemory, hno.1⟩
      · rw [if_pos hsome]

/-- A reply with two adjustments, streamed. -/
theorem load_encoders_two :
    let s : Response := { ok := true, jobId := "j", adjustments := [⟨0, 7, 8⟩, ⟨11, 9, 10⟩] }
    let r : Codec.Request := ⟨ascii "WTP/1", ascii "s", ascii "r", ascii "p", ascii "LOAD", .zero,
      .monostate, true⟩
    encodeLoadResponseBuffer {} r s = encodeResponse r s {} [] [] := by
  intro s r
  have hindexed : Indexed s.adjustments := by
    intro a ha
    rcases List.mem_cons.mp ha with rfl | ha
    · decide
    · obtain rfl := List.mem_singleton.mp ha
      decide
  have hencoders := load_encoders {} r s {} [] [] rfl hindexed
  have hbuffer := hencoders.2.1
  rw [if_pos ⟨rfl, by decide, by decide +kernel, rfl, rfl⟩] at hbuffer
  exact hbuffer

/-- The browser's envelope is another than that of the reply. -/
theorem browser_envelope_differs : ¬ ∀ (g : Grants) (r : Codec.Request) (s : Response)
    (config : ServiceConfig) (device firmware : Bytes) (b : BrowserLoadSource),
    r.operation = ascii "LOAD" → s.ok = true → loadResponseSource g r s = some b →
      b.copy 0 b.size = encodeResponse r s config device firmware := by
  intro h
  let r : Codec.Request := ⟨ascii "WTP/1", [], [], [], ascii "LOAD", .zero, .monostate, true⟩
  have hsource : loadResponseSource {} r { ok := true } = some (.make r { ok := true }) := by
    unfold loadResponseSource
    rw [if_neg (by decide +kernel)]
    exact if_neg (by decide +kernel)
  have hsame := h {} r { ok := true } {} [] [] _ rfl rfl hsource
  have hbyte := congrArg (fun document => document.getD 2 0) hsame
  exact absurd hbyte (by decide +kernel)

end WsprryPico.Wtp
