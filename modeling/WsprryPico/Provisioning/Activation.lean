import WsprryPico.Provisioning.Profile
import WsprryPico.Provisioning.LocalAccess

/-!
# The activation of a committed profile

`ActivationCoordinator` of `provisioning/activation.cpp`: it holds one committed profile
until the reply of its apply is delivered, and then installs it in four steps. What it
asks of the platform is kept, in order, with the answers.
-/

namespace WsprryPico.Provisioning

open Lib
open Wtp.Json (Bytes)

def activationDeliveryTimeoutMs : UInt64 := 5000

inductive ActivationState where
  | idle | pendingDelivery | complete | fault
  deriving DecidableEq

inductive ActivationFault where
  | none | stage | prepare | activityChanged | quiesce | install | restart
  deriving DecidableEq

inductive ActivationRelease where
  | executed | fault | alreadyTerminal | stale

/-- What the platform answers during one operation, which asks each question once at most. -/
structure PlatformAnswers where
  closeAdmission : Bool := true
  prepare : Bool := true
  activity : Activity := {}
  quiesce : Bool := true
  install : Bool := true
  restart : Bool := true
  failClosed : Bool := true

inductive PlatformCall where
  | closeAdmission (generation : Nat) (ok : Bool)
  | prepare (profile : Profile) (generation : Nat) (ok : Bool)
  | activity (idle : Bool)
  | quiesce (ok : Bool)
  | install (profile : Profile) (generation : Nat) (ok : Bool)
  | restart (ok : Bool)
  | failClosed (generation : Nat) (ok : Bool)
  deriving DecidableEq

structure ActivationCoordinator where
  /-- `platform_`, by what it has been asked. -/
  platform : List PlatformCall := []
  profile : Profile := {}
  hasProfile : Bool := false
  requestId : Bytes := []
  generation : Nat := 0
  stagedMs : UInt64 := 0
  state : ActivationState := .idle
  fault : ActivationFault := .none
  failClosedConfirmed : Bool := false
  deriving DecidableEq

namespace ActivationCoordinator

variable (a : PlatformAnswers)

def ask (call : PlatformCall) (c : ActivationCoordinator) : ActivationCoordinator :=
  { c with platform := c.platform ++ [call] }

def blocksAdmission (c : ActivationCoordinator) : Bool :=
  c.state = .pendingDelivery || c.state = .fault

def terminalMatches (requestId : Bytes) (generation : Nat) (c : ActivationCoordinator) : Bool :=
  generation ≠ 0 && generation = c.generation && requestId = c.requestId

def protectsReplay (requestId : Bytes) (generation : Nat) (c : ActivationCoordinator) : Bool :=
  c.blocksAdmission && c.terminalMatches requestId generation

def clearProfile (c : ActivationCoordinator) : ActivationCoordinator :=
  if c.hasProfile then { c with profile := scrub c.profile, hasProfile := false } else c

/-- The fields that `stage` copies. -/
def held (c : ActivationCoordinator) (p : Profile) : Profile :=
  { c.profile with
    deviceId := p.deviceId, ssid := p.ssid, password := p.password, timeServer := p.timeServer,
    hostname := p.hostname, port := p.port, serverCertificate := p.serverCertificate,
    serverPrivateKey := p.serverPrivateKey, clientCa := p.clientCa }

def stage (requestId : Bytes) (profile : Profile) (generation : Nat) (now : UInt64)
    (c : ActivationCoordinator) : Bool × ActivationCoordinator :=
  if requestId.isEmpty ∨ generation = 0 ∨ c.blocksAdmission then (false, c)
  else
    let c := c.ask (.closeAdmission generation a.closeAdmission)
    if !a.closeAdmission then (false, c)
    else
      let c := c.clearProfile
      (true,
        { c with
          hasProfile := true, profile := c.held profile, requestId, generation, stagedMs := now,
          state := .pendingDelivery, fault := .none, failClosedConfirmed := false })

def retryFailClosed (c : ActivationCoordinator) : ActivationCoordinator :=
  if c.failClosedConfirmed then c
  else
    { c.ask (.failClosed c.generation a.failClosed) with failClosedConfirmed := a.failClosed }

def latch (fault : ActivationFault) (c : ActivationCoordinator) :
    ActivationRelease × ActivationCoordinator :=
  (.fault, ({ c with fault, state := .fault }.clearProfile).retryFailClosed a)

def execute (c : ActivationCoordinator) : ActivationRelease × ActivationCoordinator :=
  if !c.hasProfile then c.latch a .stage
  else
    let c := c.ask (.prepare c.profile c.generation a.prepare)
    if !a.prepare then c.latch a .prepare
    else
      let c := c.ask (.activity (idleForAccess a.activity))
      if !idleForAccess a.activity then c.latch a .activityChanged
      else
        let c := c.ask (.quiesce a.quiesce)
        if !a.quiesce then c.latch a .quiesce
        else
          let c := c.ask (.install c.profile c.generation a.install)
          if !a.install then c.latch a .install
          else
            let c := c.ask (.restart a.restart)
            if !a.restart then c.latch a .restart
            else
              (.executed,
                { c.clearProfile with state := .complete, fault := .none,
                                      failClosedConfirmed := false })

def release (requestId : Bytes) (generation : Nat) (c : ActivationCoordinator) :
    ActivationRelease × ActivationCoordinator :=
  if !c.terminalMatches requestId generation then (.stale, c)
  else if c.state = .pendingDelivery then c.execute a
  else if c.state = .fault ∧ !c.failClosedConfirmed then (.fault, c.retryFailClosed a)
  else (.alreadyTerminal, c)

def poll (now : UInt64) (c : ActivationCoordinator) : ActivationCoordinator :=
  if c.state = .pendingDelivery ∧ elapsed now c.stagedMs activationDeliveryTimeoutMs then
    (c.execute a).2
  else if c.state = .fault ∧ !c.failClosedConfirmed then c.retryFailClosed a
  else c

def committedFault (requestId : Bytes) (generation : Nat) (fault : ActivationFault)
    (c : ActivationCoordinator) : ActivationCoordinator :=
  ({ c with requestId, generation, stagedMs := 0 }.latch a
    (if fault = ActivationFault.none then ActivationFault.stage else fault)).2

end ActivationCoordinator

end WsprryPico.Provisioning
