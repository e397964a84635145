import Krill.Ca.Signing

namespace Krill.Ca

open Rpki

variable [Rpki]

/-- A key may not be used in another class, or again after it was revoked. -/
inductive UsedKeyState where
  | current (rcn : ResourceClassName)
  | revoked
  deriving DecidableEq

inductive ChildState where
  | active
  | suspended
  deriving DecidableEq

structure ChildDetails where
  state : ChildState
  idCert : IdCertInfo
  resources : ResourceSet
  usedKeys : HashMap KeyIdentifier UsedKeyState

namespace ChildDetails

def new (idCert : IdCertInfo) (resources : ResourceSet) : ChildDetails :=
  { state := .active, idCert, resources, usedKeys := .empty }

def isSuspended (self : ChildDetails) : Bool := self.state == .suspended

def suspend (self : ChildDetails) : ChildDetails := { self with state := .suspended }

def unsuspend (self : ChildDetails) : ChildDetails := { self with state := .active }

def issued (self : ChildDetails) (order : IterOrder) (rcn : ResourceClassName) :
    List KeyIdentifier :=
  (self.usedKeys.iter order).filterMap fun entry =>
    if entry.2 = .current rcn then some entry.1 else none

def isIssued (self : ChildDetails) (key : KeyIdentifier) : Bool :=
  match self.usedKeys.get key with
  | some (.current _) => true
  | _ => false

def addIssueResponse (self : ChildDetails) (rcn : ResourceClassName) (key : KeyIdentifier) :
    ChildDetails :=
  { self with usedKeys := self.usedKeys.insert key (.current rcn) }

def addRevokeResponse (self : ChildDetails) (key : KeyIdentifier) : ChildDetails :=
  { self with usedKeys := self.usedKeys.insert key .revoked }

/-- Whether a key may be certified in a class. No command asks for this. -/
def verifyKeyAllowed (self : ChildDetails) (key : KeyIdentifier) (rcn : ResourceClassName) :
    Except Error Unit :=
  match self.usedKeys.get key with
  | none => .ok ()
  | some .revoked => .error .keyUseAttemptReuse
  | some (.current found) => if found = rcn then .ok () else .error .keyUseAttemptReuse

def loseKey (self : ChildDetails) (key : KeyIdentifier) : ChildDetails :=
  if self.isIssued key then self.addRevokeResponse key else self

end ChildDetails

structure ChildCertificateUpdates where
  issued : List IssuedCertificate
  removed : List KeyIdentifier
  suspended : List SuspendedCert
  unsuspended : List UnsuspendedCert
  deriving DecidableEq

namespace ChildCertificateUpdates

def default : ChildCertificateUpdates :=
  { issued := [], removed := [], suspended := [], unsuspended := [] }

def isEmpty (self : ChildCertificateUpdates) : Bool :=
  self.issued.isEmpty && self.removed.isEmpty && self.suspended.isEmpty &&
    self.unsuspended.isEmpty

def issue (self : ChildCertificateUpdates) (new : IssuedCertificate) :
    ChildCertificateUpdates :=
  { self with issued := self.issued ++ [new] }

def remove (self : ChildCertificateUpdates) (key : KeyIdentifier) : ChildCertificateUpdates :=
  { self with removed := self.removed ++ [key] }

def suspend (self : ChildCertificateUpdates) (cert : SuspendedCert) :
    ChildCertificateUpdates :=
  { self with suspended := self.suspended ++ [cert] }

def unsuspend (self : ChildCertificateUpdates) (cert : UnsuspendedCert) :
    ChildCertificateUpdates :=
  { self with unsuspended := self.unsuspended ++ [cert] }

end ChildCertificateUpdates

def IssuedCertificate.key (self : IssuedCertificate) : KeyIdentifier :=
  self.toCertInfo.keyIdentifier

structure ChildCertificates where
  issued : Keyed IssuedCertificate.key
  suspended : Keyed IssuedCertificate.key

namespace ChildCertificates

def default : ChildCertificates := { issued := .empty, suspended := .empty }

def certificateIssued (self : ChildCertificates) (issued : IssuedCertificate) :
    ChildCertificates :=
  { self with issued := self.issued.insert issued }

def certificateUnsuspended (self : ChildCertificates) (unsuspended : UnsuspendedCert) :
    ChildCertificates where
  suspended := self.suspended.remove unsuspended.key
  issued := self.issued.insert unsuspended

def certificateSuspended (self : ChildCertificates) (suspended : SuspendedCert) :
    ChildCertificates where
  issued := self.issued.remove suspended.key
  suspended := self.suspended.insert suspended

def keyRevoked (self : ChildCertificates) (key : KeyIdentifier) : ChildCertificates where
  issued := self.issued.remove key
  suspended := self.suspended.remove key

def getIssued (self : ChildCertificates) (key : KeyIdentifier) : Option IssuedCertificate :=
  self.issued.get key

def getSuspended (self : ChildCertificates) (key : KeyIdentifier) : Option SuspendedCert :=
  self.suspended.get key

variable [KrillSigner]

def reIssue (env : Surroundings) (previous : IssuedCertificate)
    (updatedResources : Option ResourceSet) (signingKey : CertifiedKey)
    (timing : IssuanceTimingConfig) : SignM IssuedCertificate :=
  makeIssuedCert env previous.csrInfo (updatedResources.getD previous.resources)
    previous.limit signingKey timing

/-- Issue everything again under a new key. Suspended certificates stay suspended. -/
def activateKey (self : ChildCertificates) (env : Surroundings) (newKey : CertifiedKey)
    (timing : IssuanceTimingConfig) : SignM ChildCertificateUpdates := do
  let issued ← (self.issued.values env.order).mapM fun issued =>
    reIssue env issued none newKey timing
  let suspended ← (self.suspended.values env.order).mapM fun suspended =>
    reIssue env suspended none newKey timing
  return { issued, removed := [], suspended, unsuspended := [] }

inductive Shrunk where
  | kept
  | revoked (key : KeyIdentifier)
  | reissued (cert : IssuedCertificate)
  deriving DecidableEq

def Shrunk.revokedKey : Shrunk → Option KeyIdentifier
  | .revoked key => some key
  | _ => none

def Shrunk.reissuedCert : Shrunk → Option IssuedCertificate
  | .reissued cert => some cert
  | _ => none

/-- A certificate that overclaims is revoked if nothing remains, or else issued again with
what remains. -/
def shrink (env : Surroundings) (updatedKey : CertifiedKey) (timing : IssuanceTimingConfig)
    (cert : IssuedCertificate) : SignM Shrunk :=
  match cert.reducedApplicableResources updatedKey.incomingCert.resources with
  | none => return .kept
  | some reducedSet => do
    if isEmpty reducedSet then return .revoked cert.key
    return .reissued (← reIssue env cert (some reducedSet) updatedKey timing)

/-- Shrink issued certificates, and suspended ones in case they would come back. -/
def shrinkOverclaiming (self : ChildCertificates) (env : Surroundings)
    (updatedKey : CertifiedKey) (timing : IssuanceTimingConfig) :
    SignM ChildCertificateUpdates := do
  let issued ← (self.issued.values env.order).mapM (shrink env updatedKey timing)
  let suspended ← (self.suspended.values env.order).mapM (shrink env updatedKey timing)
  return { issued := issued.filterMap Shrunk.reissuedCert
           removed := issued.filterMap Shrunk.revokedKey ++
             suspended.filterMap Shrunk.revokedKey
           suspended := suspended.filterMap Shrunk.reissuedCert
           unsuspended := [] }

end ChildCertificates

end Krill.Ca
