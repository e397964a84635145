import Krill.Ca.Signing

namespace Krill.Ca

open EventSourcing (Time)
open Rpki KrillSigner

variable [Rpki]

namespace CertifiedKey

def create (incomingCert : ReceivedCert) : CertifiedKey :=
  { keyId := incomingCert.keyIdentifier, incomingCert, request := none, oldRepo := none }

def setIncomingCert (self : CertifiedKey) (incomingCert : ReceivedCert) : CertifiedKey :=
  { self with request := none, incomingCert }

def addRequest (self : CertifiedKey) (request : IssuanceRequest) : CertifiedKey :=
  { self with request := some request }

def setOldRepo (self : CertifiedKey) (repo : RepoInfo) : CertifiedKey :=
  { self with oldRepo := some repo }

/-- Whether to ask for a new certificate: the resources changed, or the remaining time
changed by more than ten percent. Remaining times are far too small for the floating point
quotients of the source to differ from these comparisons. -/
def wantsUpdate (self : CertifiedKey) (env : Surroundings) (newResources : ResourceSet)
    (newNotAfter : Time) : Bool :=
  if !differenceIsEmpty newResources self.incomingCert.resources then true
  else
    let remainingOnCurrent := self.incomingCert.validity.notAfter - env.now
    let remainingOnEligible := newNotAfter - env.now
    if remainingOnEligible ≤ 0 then false
    else if remainingOnCurrent = remainingOnEligible then false
    else if remainingOnCurrent > 0 ∧ remainingOnEligible * 10 < remainingOnCurrent * 9 then true
    else if remainingOnCurrent ≤ 0 ∨ remainingOnEligible * 10 > remainingOnCurrent * 11 then true
    else false

end CertifiedKey

abbrev NewKey := CertifiedKey
abbrev CurrentKey := CertifiedKey

structure PendingKey where
  keyId : KeyIdentifier
  request : Option IssuanceRequest
  deriving DecidableEq

namespace PendingKey

def new (keyId : KeyIdentifier) : PendingKey := { keyId, request := none }

def addRequest (self : PendingKey) (request : IssuanceRequest) : PendingKey :=
  { self with request := some request }

end PendingKey

structure OldKey where
  key : CertifiedKey
  revokeReq : RevocationRequest
  deriving DecidableEq

namespace OldKey

def keyId (self : OldKey) : KeyIdentifier := self.key.keyId

def addRequest (self : OldKey) (request : IssuanceRequest) : OldKey :=
  { self with key := self.key.addRequest request }

def setIncomingCert (self : OldKey) (incomingCert : ReceivedCert) : OldKey :=
  { self with key := self.key.setIncomingCert incomingCert }

end OldKey

inductive KeyState where
  | pending (waiting : PendingKey)
  | active (current : CurrentKey)
  | rollPending (waiting : PendingKey) (current : CurrentKey)
  | rollNew (new : NewKey) (current : CurrentKey)
  | rollOld (current : CurrentKey) (old : OldKey)
  deriving DecidableEq

namespace KeyState

def create (pendingKey : KeyIdentifier) : KeyState := .pending (.new pendingKey)

def addRequest (self : KeyState) (keyId : KeyIdentifier) (request : IssuanceRequest) : KeyState :=
  match self with
  | .pending waiting => .pending (waiting.addRequest request)
  | .active current => .active (current.addRequest request)
  | .rollPending waiting current =>
    if waiting.keyId = keyId then .rollPending (waiting.addRequest request) current
    else .rollPending waiting (current.addRequest request)
  | .rollNew new current =>
    if new.keyId = keyId then .rollNew (new.addRequest request) current
    else .rollNew new (current.addRequest request)
  | .rollOld current old =>
    if current.keyId = keyId then .rollOld (current.addRequest request) old
    else .rollOld current (old.addRequest request)

def currentKey : KeyState → Option CurrentKey
  | .active current => some current
  | .rollPending _ current => some current
  | .rollNew _ current => some current
  | .rollOld current _ => some current
  | .pending _ => none

def newKey : KeyState → Option NewKey
  | .rollNew new _ => some new
  | _ => none

def knowsKey (self : KeyState) (keyId : KeyIdentifier) : Bool :=
  match self with
  | .pending waiting => waiting.keyId = keyId
  | .active current => current.keyId = keyId
  | .rollPending waiting current => waiting.keyId = keyId || current.keyId = keyId
  | .rollNew new current => new.keyId = keyId || current.keyId = keyId
  | .rollOld current old => current.keyId = keyId || old.keyId = keyId

def certRequests : KeyState → List IssuanceRequest
  | .pending waiting => waiting.request.toList
  | .active current => current.request.toList
  | .rollPending waiting current => waiting.request.toList ++ current.request.toList
  | .rollNew new current => new.request.toList ++ current.request.toList
  | .rollOld current old => current.request.toList ++ old.key.request.toList

def revokeRequest : KeyState → Option RevocationRequest
  | .rollOld _ old => some old.revokeReq
  | _ => none

/-- Remember the old repository for the current key, so that a key roll can introduce the
new one. -/
def setOldRepoIfInActiveState (self : KeyState) (repo : RepoInfo) : KeyState :=
  match self with
  | .active current => .active (current.setOldRepo repo)
  | other => other

variable [KrillSigner]

def revokeKey (className : ResourceClassName) (keyId : KeyIdentifier) :
    SignM RevocationRequest := do
  let info ← signing (getKeyInfo keyId)
  return { className, key := keyIdentifier info }

def revoke (self : KeyState) (className : ResourceClassName) : SignM (List RevocationRequest) :=
  match self with
  | .pending _ => return []
  | .active current | .rollPending _ current => do
    return [← revokeKey className current.keyId]
  | .rollNew new current => do
    let revokeNew ← revokeKey className new.keyId
    let revokeCurrent ← revokeKey className current.keyId
    return [revokeNew, revokeCurrent]
  | .rollOld current old => do
    let revokeCurrent ← revokeKey className current.keyId
    return [revokeCurrent, old.revokeReq]

def createIssuanceReq (baseRepo : RepoInfo) (nameSpace : String) (className : ResourceClassName)
    (key : KeyIdentifier) : SignM IssuanceRequest := do
  let csr ← signCsr baseRepo nameSpace key
  return { className, limit := noLimit, csr }

end KeyState

end Krill.Ca
