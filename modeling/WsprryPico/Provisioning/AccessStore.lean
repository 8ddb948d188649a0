import WsprryPico.Provisioning.Access
import WsprryPico.Provisioning.Page

/-!
# The access store

`AccessStore` of `provisioning/access.cpp`: two slots of flash, each with a payload
page, a header and a commit page. Its media may lose the power and may fail to read.
-/

namespace WsprryPico.Provisioning

open Lib Standalone Wtp

structure AccessMedia where
  flash : Nor
  /-- The pages that fail to read. -/
  unreadable : Nat → Bool := fun _ => false

namespace AccessMedia

def read (base : Nat) (m : AccessMedia) : Option (List UInt8) :=
  if m.unreadable base then none else m.flash.read base accessPageSize

def erase (base : Nat) (m : AccessMedia) : Bool × AccessMedia :=
  ((m.flash.erase base accessSlotSize).1, { m with flash := (m.flash.erase base accessSlotSize).2 })

def program (base : Nat) (page : List UInt8) (m : AccessMedia) : Bool × AccessMedia :=
  ((m.flash.program base page).1, { m with flash := (m.flash.program base page).2 })

end AccessMedia

def accessHeaderMagic : Nat := 0x3248434341505357
def accessCommitMagic : Nat := 0x3254434341505357
def payloadOffset : Nat := accessPageSize
def commitOffset : Nat := accessSlotSize - accessPageSize

inductive Candidate where
  | empty
  | pending
  | valid (sequence : Nat) (record : AccessRecord)
  | invalid
  deriving DecidableEq

/-- The pages between the payload and the commit page: `none` when a read fails before
one that is not erased. -/
def laterPagesErased (m : AccessMedia) (base : Nat) : List Nat → Option Bool
  | [] => some true
  | page :: rest =>
    match m.read (base + page * accessPageSize) with
    | none => none
    | some bytes => if erased bytes then laterPagesErased m base rest else some false

/-- The pages of a slot, none of header and commit erased. -/
def classifyPages (header payload commit : List UInt8) : Candidate :=
  let sequence := get (subspan 8 8 header)
  let digest := sha256 payload
  if get (subspan 0 8 header) = accessHeaderMagic ∧ sequence ≠ 0 ∧
      get (subspan 16 4 header) = accessPageSize ∧ get (subspan 20 4 header) = 2 ∧
      crcMatches header = true ∧ subspan 24 32 header = digest.bytes ∧
      get (subspan 0 8 commit) = accessCommitMagic ∧ get (subspan 8 8 commit) = sequence ∧
      crcMatches commit = true ∧ subspan 16 32 commit = digest.bytes then
    match deserialize payload with
    | some record => .valid sequence record
    | none => .invalid
  else .invalid

def scan (m : AccessMedia) (slot : Nat) : Candidate :=
  let base := slot * accessSlotSize
  match m.read base, m.read (base + payloadOffset), m.read (base + commitOffset) with
  | some header, some payload, some commit =>
    if erased header && erased commit && erased payload then
      -- an interrupted write can leave only a later page programmed
      match laterPagesErased m base (List.range' 2 13) with
      | none => .invalid
      | some true => .empty
      | some false => .pending
    else if erased header || erased commit then .pending
    else classifyPages header payload commit
  | _, _, _ => .invalid

inductive AccessStoreState where
  | unloaded | erased | healthy | fault
  deriving DecidableEq

/-- What `scrub` leaves of a record. -/
def scrubbed : AccessRecord := { defaultPassword := false, bleDisabled := true }

structure AccessStore where
  state : AccessStoreState := .unloaded
  sequence : Nat := 0
  activeSlot : Nat := 0
  record : AccessRecord := {}
  deriving DecidableEq

namespace AccessStore

def healthy (store : AccessStore) : Bool := store.state = .healthy

def selected (sequence slot : Nat) (record : AccessRecord) : AccessStore :=
  { state := .healthy, sequence := sequence, activeSlot := slot, record := record }

def faulted : AccessStore := { state := .fault, record := scrubbed }

/-- A torn alternate slot does not strand a durable reset: only a pending intent is
admitted beside it. -/
def loadPending (first second : Candidate) : Bool × AccessStore :=
  match first, second with
  | .valid sequence record, second =>
    if record.reset.pending then (true, selected sequence 0 record)
    else
      match second with
      | .valid sequence record =>
        if record.reset.pending then (true, selected sequence 1 record) else (false, faulted)
      | _ => (false, faulted)
  | _, .valid sequence record =>
    if record.reset.pending then (true, selected sequence 1 record) else (false, faulted)
  | _, _ => (false, faulted)

/-- The valid candidate of the greater sequence number. -/
def loadBest (first second : Candidate) : Bool × AccessStore :=
  match first, second with
  | .valid s record, .valid s' record' =>
    if s' = s then (false, faulted)
    else if s' > s then (true, selected s' 1 record') else (true, selected s 0 record)
  | .valid s record, _ => (true, selected s 0 record)
  | _, .valid s' record' => (true, selected s' 1 record')
  | _, _ => (false, faulted)

def load (m : AccessMedia) : Bool × AccessStore :=
  let first := scan m 0
  let second := scan m 1
  if first = .invalid ∨ second = .invalid then loadPending first second
  else if first = .empty ∧ second = .empty then (true, { faulted with state := .erased })
  else loadBest first second

def maxSequence : Nat := 2 ^ 64 - 1

def headerPage (sequence : Nat) (record : AccessRecord) : List UInt8 :=
  sealedPage (headerFields accessHeaderMagic sequence accessPageSize (sha256 (serialize record)))

def commitPage (sequence : Nat) (record : AccessRecord) : List UInt8 :=
  sealedPage (commitFields accessCommitMagic sequence (sha256 (serialize record)))

/-- The pages of `commit`, in the order they are programmed. -/
def slotPages (base sequence : Nat) (record : AccessRecord) : List (Nat × List UInt8) :=
  [(base + payloadOffset, serialize record), (base, headerPage sequence record),
    (base + commitOffset, commitPage sequence record)]

def programAll : List (Nat × List UInt8) → AccessMedia → Bool × AccessMedia
  | [], m => (true, m)
  | (base, page) :: rest, m =>
    match m.program base page with
    | (false, m) => (false, m)
    | (true, m) => programAll rest m

def target (store : AccessStore) : Nat := if store.sequence = 0 then 0 else 1 - store.activeSlot

def commit (record : AccessRecord) (store : AccessStore) (m : AccessMedia) :
    Bool × AccessStore × AccessMedia :=
  if !validRecord record || store.sequence = maxSequence then (false, store, m)
  else
    let base := store.target * accessSlotSize
    match m.erase base with
    | (false, m) => (false, { store with state := .fault }, m)
    | (true, m) =>
      match programAll (slotPages base (store.sequence + 1) record) m with
      | (false, m) => (false, { store with state := .fault }, m)
      | (true, m) =>
        if scan m store.target = .valid (store.sequence + 1) record then
          (true, selected (store.sequence + 1) store.target record, m)
        else (false, { store with state := .fault }, m)

def initializeStore (record : AccessRecord) (store : AccessStore) (m : AccessMedia) :
    Bool × AccessStore × AccessMedia :=
  if store.state ≠ .erased ∨ record.epoch ≠ 1 ∨ !record.defaultPassword ∨ record.fieldMode ∨
      record.bleDisabled ∨ record.bondCount ≠ 0 ∨ record.reset.pending then (false, store, m)
  else store.commit record m

def replace (record : AccessRecord) (store : AccessStore) (m : AccessMedia) :
    Bool × AccessStore × AccessMedia :=
  if !store.healthy || record.epoch < store.record.epoch then (false, store, m)
  else if record = store.record then (true, store, m)
  else store.commit record m

end AccessStore

end WsprryPico.Provisioning
