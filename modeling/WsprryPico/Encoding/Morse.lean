import WsprryPico.Time.UtcBound
import WsprryPico.Wtp.Authority
import WsprryPico.Wtp.Codec

/-!
# Morse messages

`encoding/morse.hpp`: `measure_message` adds up what a message will take, and
`compile_message` emits its events. The visit both functions write out is the
list of what it emits. The allocator is what it answers for each page of events.
-/

namespace WsprryPico.Encoding.Morse

open Lib Wtp

def maxMessageCharacters : Nat := 32
def maxMessageDurationNs : UInt64 := 3600000000000
def messageTailNs : UInt64 := 1000

/-! ## The alphabet -/

def morseAlphabet : List UInt8 := ascii "ABCDEFGHIJKLMNOPQRSTUVWXYZ0123456789/?.,-+="

def morseCodes : List String := [
  ".-", "-...", "-.-.", "-..", ".", "..-.", "--.", "....", "..",
  ".---", "-.-", ".-..", "--", "-.", "---", ".--.", "--.-", ".-.",
  "...", "-", "..-", "...-", ".--", "-..-", "-.--", "--..", "-----",
  ".----", "..---", "...--", "....-", ".....", "-....", "--...", "---..", "----.",
  "-..-.", "..--..", ".-.-.-", "--..--", "-....-", ".-.-.", "-...-"]

def messageSpace (c : UInt8) : Bool :=
  c == 32 || c == 9 || c == 10 || c == 13 || c == 12 || c == 11

def upperCase (c : UInt8) : UInt8 := if 97 ≤ c ∧ c ≤ 122 then c - 32 else c

/-- The elements of a character; a character outside the alphabet has none. -/
def morseCode (c : UInt8) : List Char :=
  match morseAlphabet.idxOf? (upperCase c) with
  | none => []
  | some index => (morseCodes.getD index "").toList

/-! ## Messages -/

structure MorseMessage where
  jobId : String := ""
  mode : String := ""
  text : List UInt8 := []
  markFrequencyNhz : UInt64 := 0
  spaceFrequencyNhz : UInt64 := 0
  dotNs : UInt64 := 0
  dashNs : UInt64 := 0
  intraGapNs : UInt64 := 0
  characterGapNs : UInt64 := 0
  wordGapNs : UInt64 := 0
  repeatCount : UInt32 := 1
  repeatGapNs : UInt64 := 0
  allowFrequencyAdjustment : Bool := false
  deriving DecidableEq

structure MorseResult where
  job : Option Job := none
  error : String := ""
  calculatedDurationNs : UInt64 := 0
  calculatedEvents : Nat := 0
  deriving DecidableEq

/-- The callsign placeholder stands in the text as a word. -/
def namesPlaceholder (text : List UInt8) : Bool :=
  let upper := text.map upperCase
  let alnum (c : UInt8) : Bool := (65 ≤ c && c ≤ 90) || (48 ≤ c && c ≤ 57)
  (List.range upper.length).any fun start =>
    (upper.drop start).take 6 == ascii "N0CALL" &&
      (start == 0 || !alnum (upper.getD (start - 1) 0)) &&
      (start + 6 == upper.length || !alnum (upper.getD (start + 6) 0))

/-- The checks of `measure_message` that read the inputs one by one. -/
def refusal (input : MorseMessage) : Option String :=
  if input.text.isEmpty ∨ input.text.length > maxMessageCharacters then
    some "message_length_limit_32"
  else if namesPlaceholder input.text then some "replace_placeholder_callsign"
  else if input.mode ≠ "qrss" ∧ input.mode ≠ "fskcw" ∧ input.mode ≠ "dfcw" then
    some "unsupported_message_mode"
  else if input.markFrequencyNhz = 0 ∨
      (input.mode ≠ "qrss" ∧
        (input.spaceFrequencyNhz = 0 ∨ input.markFrequencyNhz = input.spaceFrequencyNhz ∨
          (input.mode = "fskcw" ∧ input.markFrequencyNhz < input.spaceFrequencyNhz))) then
    some "invalid_message_frequency"
  else if input.dotNs = 0 ∨ input.dashNs = 0 ∨ input.intraGapNs = 0 ∨
      input.characterGapNs = 0 ∨ input.wordGapNs = 0 ∨ input.repeatCount = 0 ∨
      input.repeatCount > 512 ∨ (input.repeatCount > 1 ∧ input.repeatGapNs = 0) then
    some "invalid_message_timing_or_repetition"
  else if input.text.any fun c => !messageSpace c && (morseCode c).isEmpty then
    some "unsupported_message_character"
  else none

/-! ## The visit -/

/-- One call of the callback: how long, whether the output is on, and at what frequency. -/
structure Emission where
  duration : UInt64
  on : Bool
  frequency : UInt64
  deriving DecidableEq

def element (input : MorseMessage) (code : Char) : Emission where
  duration := if input.mode = "dfcw" ∨ code = '.' then input.dotNs else input.dashNs
  on := true
  frequency :=
    if input.mode = "dfcw" ∧ code = '-' then input.spaceFrequencyNhz else input.markFrequencyNhz

/-- A pause, which `fskcw` fills with the space frequency. -/
def pause (input : MorseMessage) (duration : UInt64) : Emission :=
  ⟨duration, input.mode = "fskcw", input.spaceFrequencyNhz⟩

def visitCode (input : MorseMessage) : List Char → List Emission
  | [] => []
  | code :: rest =>
    element input code ::
      ((if rest.isEmpty then [] else [pause input input.intraGapNs]) ++ visitCode input rest)

/-- What follows a character: nothing after the last, one gap for any run of spaces. -/
def separator (input : MorseMessage) (rest : List UInt8) : List Emission :=
  if (rest.dropWhile messageSpace).isEmpty then []
  else [pause input (if (rest.takeWhile messageSpace).isEmpty then input.characterGapNs
    else input.wordGapNs)]

def visit (input : MorseMessage) : List UInt8 → List Emission
  | [] => []
  | c :: rest =>
    if messageSpace c then visit input rest
    else visitCode input (morseCode c) ++ separator input rest ++ visit input rest

/-! ## Measuring -/

structure Tally where
  overflow : Bool := false
  patternDuration : UInt64 := 0
  patternEvents : Nat := 0

/-- The callback of `measure_message`. -/
def Tally.add (t : Tally) (e : Emission) : Tally :=
  if e.duration > u64Max - t.patternDuration then
    { t with overflow := true, patternEvents := t.patternEvents + 1 }
  else
    { t with
      patternDuration := t.patternDuration + e.duration
      patternEvents := t.patternEvents + 1 }

def measurePattern (input : MorseMessage) (pattern : Tally) (eventLimit : Nat)
    (durationLimit : UInt64) : MorseResult :=
  let count := input.repeatCount.toUInt64
  if pattern.patternEvents = 0 then { error := "message_has_no_marks" }
  else if pattern.overflow ∨ pattern.patternDuration > u64Max / count ∨
      (input.repeatCount > 1 ∧ input.repeatGapNs > u64Max / (count - 1)) then
    { error := "message_duration_overflow" }
  else
    let repeated := pattern.patternDuration * count
    let gaps := input.repeatGapNs * (count - 1)
    if gaps > u64Max - repeated ∨ messageTailNs > u64Max - repeated - gaps then
      { error := "message_duration_overflow" }
    else
      let result : MorseResult :=
        { calculatedDurationNs := repeated + gaps + messageTailNs
          calculatedEvents :=
            pattern.patternEvents * input.repeatCount.toNat + input.repeatCount.toNat }
      if result.calculatedDurationNs > min durationLimit maxMessageDurationNs then
        { result with error := "message_duration_limit_exceeded" }
      else if result.calculatedEvents > min eventLimit 512 then
        { result with error := "message_event_limit_exceeded" }
      else result

def measureMessage (input : MorseMessage) (eventLimit : Nat) (durationLimit : UInt64) :
    MorseResult :=
  match refusal input with
  | some reason => { error := reason }
  | none =>
    measurePattern input ((visit input input.text).foldl Tally.add {}) eventLimit durationLimit

/-! ## Compiling -/

structure Emitter where
  stored : Bool := true
  offset : UInt64 := 0
  events : EventList := {}

/-- The callback of `compile_message`. -/
def Emitter.emit (allocate : Nat → Bool) (m : Emitter) (e : Emission) : Emitter :=
  let event : RfEvent := ⟨m.offset, e.duration, e.on, if e.on then some e.frequency else none⟩
  let pushed := if m.stored then Codec.pushBack allocate m.events event else (m.events, false)
  ⟨pushed.2, m.offset + e.duration, pushed.1⟩

/-- What one repetition emits; the last has no gap after it. -/
def repetition (input : MorseMessage) (round : Nat) : List Emission :=
  visit input input.text ++
    if round + 1 < input.repeatCount.toNat then [⟨input.repeatGapNs, false, 0⟩] else []

/-- Everything `compile_message` emits, the tail last. -/
def emissions (input : MorseMessage) : List Emission :=
  (List.range input.repeatCount.toNat).flatMap (repetition input) ++ [⟨messageTailNs, false, 0⟩]

def compileMessage (allocate : Nat → Bool) (input : MorseMessage) (eventLimit : Nat)
    (durationLimit : UInt64) : MorseResult :=
  let result := measureMessage input eventLimit durationLimit
  if result.error ≠ "" then result
  else
    let reserved := Codec.reserve allocate {} result.calculatedEvents
    if !reserved.2 then { result with job := none, error := "resource_exhausted" }
    else
      let emitted := (emissions input).foldl (Emitter.emit allocate) { events := reserved.1 }
      if !emitted.stored then { result with job := none, error := "resource_exhausted" }
      else
        let job : Job :=
          { jobId := input.jobId
            mode := input.mode
            totalDurationNs := result.calculatedDurationNs
            events := emitted.events
            allowFrequencyAdjustment := input.allowFrequencyAdjustment }
        { result with job := some job }

end WsprryPico.Encoding.Morse
