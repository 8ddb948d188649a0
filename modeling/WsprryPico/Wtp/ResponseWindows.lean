import WsprryPico.Wtp.BrowserLoad
import WsprryPico.Wtp.Escaped
import WsprryPico.Wtp.Json.Quote

/-!
# Windows of a response

`ResponseSource::at` keeps the last window it copied and answers from it while it can. So
whatever parts a source is built from, a transport that retries and advances as it likes puts
its document together.
-/

namespace WsprryPico.Wtp

open Lib Json

structure Window where
  /-- The window of 1024 bytes is allocated. -/
  reserved : Bool := false
  start : Nat := 0
  bytes : Bytes := []

inductive WindowAct where
  | prepareOutput (granted : Bool)
  | releaseOutput

def Window.act : WindowAct → Window → Window
  | .prepareOutput granted, w => { w with reserved := w.reserved || granted }
  | .releaseOutput, w => { w with reserved := false, bytes := [] }

/-- `at`. -/
def ResponseSource.window (source : ResponseSource) (w : Window) (offset : Nat) :
    Bytes × Window :=
  if offset ≥ source.size then ([], w)
  else if w.bytes.length = 0 ∨ offset < w.start ∨ offset ≥ w.start + w.bytes.length then
    if ¬ w.reserved then ([], w)
    else
      let w := { w with bytes := source.copy offset windowBytes, start := offset }
      (w.bytes.drop (offset - w.start), w)
  else (w.bytes.drop (offset - w.start), w)

/-- The sources a response is built from, with their documents, and how far past its offset
each of them reads. -/
inductive Built (bits : Nat) : Nat → ResponseSource → Bytes → Prop where
  | body {source : ResponseSource} {document : Bytes} :
    Lawful bits 0 source document → Built bits 0 source document
  | joined {shift : Nat} {body : ResponseSource} {document : Bytes} (front back : Bytes)
    (json : Bool) : Built bits shift body document →
    (front ++ (document ++ back)).length < 2 ^ bits →
    Built bits 0 (joinedSource front body back json) (front ++ (document ++ back))
  | sliced {shift : Nat} {source : ResponseSource} {document : Bytes} (start : Nat) :
    Built bits shift source document →
    Built bits (start + shift) (slicedSource bits source start) (document.drop start)
  /-- An escaped source that is counted, at once or in steps. -/
  | escaped {shift : Nat} {body : ResponseSource} {document : Bytes} (incremental : Bool)
    (steps : Nat) : Built bits shift body document →
    (Nat.iterate EscapedSource.countStep steps (.make body incremental)).ready = true →
    (escapes document).length < 2 ^ bits →
    Built bits 0 (Nat.iterate EscapedSource.countStep steps (.make body incremental)).source
      (escapes document)
  | browserLoad (r : Codec.Request) (s : Response) : Indexed s.adjustments →
    (browserFront r s ++ (loadParts s).flatten).length < 2 ^ bits →
    Built bits 0 (BrowserLoadSource.make r s).source (browserFront r s ++ (loadParts s).flatten)

variable {bits shift : Nat} {source body : ResponseSource} {document : Bytes}

namespace EscapedSource

theorem iterate_counting {s : EscapedSource} (h : s.Counting document)
    (hbody : Lawful bits shift s.body document) (steps : Nat) :
    (Nat.iterate countStep steps s).Counting document ∧ (Nat.iterate countStep steps s).body = s.body := by
  induction steps generalizing s with
  | zero => exact ⟨h, rfl⟩
  | succ steps ih =>
    have hstep := h.step hbody
    rw [← countStep_body s] at hbody
    obtain ⟨hcounting, hsame⟩ := ih hstep hbody
    exact ⟨hcounting, hsame.trans (countStep_body s)⟩

end EscapedSource

theorem Built.lawful (h : Built bits shift source document) :
    Lawful bits shift source document := by
  induction h with
  | body h => exact h
  | joined front back json _ hcounted ih => exact joinedSource_lawful ih hcounted
  | sliced start _ ih => exact slicedSource_lawful ih start
  | escaped incremental steps _ hready hcounted ih =>
    obtain ⟨hcounting, hbody⟩ := EscapedSource.make_counting ih incremental
    rw [← hbody] at ih
    obtain ⟨hdone, hsame⟩ := EscapedSource.iterate_counting hcounting ih steps
    rw [← hsame] at ih
    exact hdone.lawful ih hready hcounted
  | browserLoad r s hindexed hcounted =>
    rw [← BrowserLoadSource.make_document] at hcounted ⊢
    exact (BrowserLoadSource.make_placed r hindexed).lawful hcounted

/-! ## Windows -/

/-- The window holds a slice of the document. -/
def Window.Of (document : Bytes) (w : Window) : Prop :=
  ∃ count, w.bytes = slice document w.start count

theorem Lawful.window (h : Lawful bits shift source document) {w : Window}
    (hw : w.Of document) (offset : Nat) :
    (∃ count, (source.window w offset).1 = slice document offset count) ∧
      (source.window w offset).2.Of document ∧
      (w.reserved = true → offset < document.length → (source.window w offset).1 ≠ []) := by
  have hnone : ∃ count, ([] : Bytes) = slice document offset count := ⟨0, slice_none.symm⟩
  unfold ResponseSource.window
  rw [h.size]
  by_cases hpast : offset ≥ document.length
  · rw [if_pos hpast]
    exact ⟨hnone, hw, fun _ hinside => by omega⟩
  · rw [if_neg hpast]
    by_cases hmiss : w.bytes.length = 0 ∨ offset < w.start ∨ offset ≥ w.start + w.bytes.length
    · rw [if_pos hmiss]
      by_cases hreserved : w.reserved = true
      · rw [if_neg (not_not_intro hreserved)]
        have hcopy := h.copy offset ResponseSource.windowBytes (h.counts _ (by omega))
        dsimp only
        rw [Nat.sub_self, List.drop_zero, hcopy]
        refine ⟨⟨_, rfl⟩, ⟨_, rfl⟩, ?_⟩
        intro _ hinside hempty
        have hlength := congrArg List.length hempty
        rw [slice_length, List.length_nil] at hlength
        have hwindow : 0 < ResponseSource.windowBytes := by decide
        omega
      · rw [if_pos hreserved]
        exact ⟨hnone, hw, fun hgranted => absurd hgranted hreserved⟩
    · rw [if_neg hmiss]
      obtain ⟨count, hbytes⟩ := hw
      refine ⟨⟨count - (offset - w.start), ?_⟩, ⟨count, hbytes⟩, ?_⟩
      · dsimp only
        rw [hbytes, drop_slice]
        congr 1
        omega
      · intro _ _ hempty
        have hlength := congrArg List.length hempty
        rw [List.length_drop, List.length_nil] at hlength
        omega

theorem Lawful.serves (h : Lawful bits shift source document) :
    Serves source.window Window.act (Window.Of document) document where
  view := fun _ hw offset => (h.window hw offset).1
  served := fun _ hw offset => (h.window hw offset).2.1
  acted := by
    rintro w ⟨count, hbytes⟩ (granted | -)
    · exact ⟨count, hbytes⟩
    · exact ⟨0, slice_none.symm⟩

/-- A reader of a response, who starts at its beginning without a window. -/
def readWindows (source : ResponseSource) (reads : List (Read WindowAct)) :
    Reading Window UInt8 :=
  reads.foldl (Reading.step source.window Window.act) { server := {} }

theorem Lawful.reads (h : Lawful bits shift source document) (reads : List (Read WindowAct)) :
    (readWindows source reads).Keeps (Window.Of document) document :=
  h.serves.run ⟨⟨0, slice_none.symm⟩, Nat.zero_le _, rfl⟩ reads

/-- Every built source stands for one document: copies are its slices, and so is what a reader
gets, in any order of retries; the escaped form is that of JSON strings, and a body is refused
for its windows alone. -/
theorem windows_of_document (h : Built bits shift source document) :
    (source.size = document.length ∧ ∀ offset out, offset + shift < 2 ^ bits →
      source.copy offset out = (document.drop offset).take out) ∧
    (∀ reads, (readWindows source reads).received =
        document.take (readWindows source reads).position ∧
      (readWindows source reads).position ≤ document.length ∧
      ∀ offset, (∃ count, (source.window (readWindows source reads).server offset).1 =
          (document.drop offset).take count) ∧
        ((readWindows source reads).server.reserved = true → offset < document.length →
          (source.window (readWindows source reads).server offset).1 ≠ [])) ∧
    (∀ rest, stringToken (34 :: escapes document ++ 34 :: rest) = some (document, rest)) ∧
    (source.replayable = true →
      ((EscapedSource.make source).ready = true ↔ document.length ≤ 65536) ∧
      ((EscapedSource.make source).valid = true ↔ document.length ≤ 65536)) := by
  have hlawful := h.lawful
  refine ⟨⟨hlawful.size, hlawful.copy⟩, ?_, ?_, ?_⟩
  · intro reads
    have hreads := hlawful.reads reads
    refine ⟨hreads.received, hreads.bound, ?_⟩
    intro offset
    obtain ⟨hview, -, hsome⟩ := hlawful.window hreads.server offset
    exact ⟨hview, hsome⟩
  · intro rest
    have hquote := stringToken_quote document rest
    rw [escapes_quote] at hquote
    simpa using hquote
  · intro hreplayable
    exact EscapedSource.make_ready hlawful hreplayable

/-- A slice of a joined source, read over the seam. -/
theorem windows_of_document_seam :
    (slicedSource 32 (joinedSource (ascii "\x7b") (textSource [34, 10]) (ascii "\x7d")) 1).copy
      1 2 = [10, 125] := by
  have hbody : Built 32 0 (textSource [34, 10]) [34, 10] :=
    .body (textSource_lawful (by decide))
  have hbuilt := Built.sliced 1 (.joined (ascii "\x7b") (ascii "\x7d") false hbody (by decide))
  exact (windows_of_document hbuilt).1.2 1 2 (by decide)

theorem escapes_ne_nil (h : document ≠ []) : ((escapes document).drop 0).take 1 ≠ [] := by
  obtain ⟨c, rest, rfl⟩ := List.exists_cons_of_ne_nil h
  have hlength := quoteByte_length c
  intro hempty
  have hzero := congrArg List.length hempty
  rw [escapes_cons, responseEscape_quote, List.drop_zero, List.length_take, List.length_append,
    List.length_nil] at hzero
  omega

theorem long_body_copies (h : Lawful bits shift body document) (hreplayable : body.replayable = true)
    (hlong : 65536 < document.length) (offset out : Nat) :
    (EscapedSource.make body).source.copy offset out = [] := by
  have hready : ¬ (EscapedSource.make body).ready = true := by
    rw [(EscapedSource.make_ready h hreplayable).1]
    exact Nat.not_le_of_lt hlong
  exact if_pos (.inl hready)

theorem long_body_refused : ¬ ∀ (bits : Nat) (body : ResponseSource) (document : Bytes),
    Lawful bits 0 body document → body.replayable = true →
      (EscapedSource.make body).source.copy 0 1 = ((escapes document).drop 0).take 1 := by
  intro h
  have hlength : (List.replicate 65537 (97 : UInt8)).length = 65537 := List.length_replicate
  generalize List.replicate 65537 (97 : UInt8) = document at hlength
  have hbody : Lawful 32 0 (textSource document) document :=
    textSource_lawful (by rw [hlength]; decide)
  have hcopy := h 32 _ _ hbody rfl
  rw [long_body_copies hbody rfl (by omega)] at hcopy
  refine escapes_ne_nil ?_ hcopy.symm
  intro hnil
  rw [hnil] at hlength
  cases hlength

end WsprryPico.Wtp
