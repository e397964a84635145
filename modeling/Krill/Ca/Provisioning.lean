import Krill.Ca.ProcessCommand

namespace Krill.Ca

open EventSourcing (Time)
open Rpki

variable [Rpki]

namespace IssuanceTimingConfig

def newChildCertNotAfter (self : IssuanceTimingConfig) (env : Surroundings) : Time :=
  env.now + weeks self.timingChildCertificateValidWeeks

def newChildCertIssuanceThreshold (self : IssuanceTimingConfig) (env : Surroundings) : Time :=
  env.now + weeks self.timingChildCertificateReissueWeeksBefore

end IssuanceTimingConfig

structure EntitlementClass where
  className : ResourceClassName
  resourceSet : ResourceSet
  notAfter : Time
  issuedCerts : List IssuedCertificate
  signingCert : ReceivedCert

structure IssuanceResponse where
  className : ResourceClassName
  signingCert : ReceivedCert
  resourceSet : ResourceSet
  notAfter : Time
  issued : IssuedCertificate

def EntitlementClass.intoIssuanceResponse (self : EntitlementClass) (pubKey : PublicKey) :
    Option IssuanceResponse :=
  (self.issuedCerts.find? fun issued => issued.csrInfo.key = pubKey).map fun issued =>
    { className := self.className, signingCert := self.signingCert,
      resourceSet := self.resourceSet, notAfter := self.notAfter, issued }

namespace CertAuth

/-- A certificate that is not about to expire sets the time that the child is told, so that
the child does not ask for a new one all the time. -/
def eligibleNotAfter (env : Surroundings) (timing : IssuanceTimingConfig)
    (issuedCerts : List IssuedCertificate) : Time :=
  issuedCerts.foldl (fun notAfter issued =>
    if issued.validity.notAfter > timing.newChildCertIssuanceThreshold env then
      issued.validity.notAfter
    else notAfter) (timing.newChildCertNotAfter env)

/-- What a child is entitled to under a class. There is none for a class without a current
key, or if there are no resources that the class and the child have in common. -/
def entitlementClass (self : CertAuth) (env : Surroundings) (childHandle : ChildHandle)
    (rcn : ResourceClassName) (timing : IssuanceTimingConfig) : Option EntitlementClass := do
  let myRc ← self.resources.get rcn
  let myCurrentKey ← myRc.currentKey
  let myRcvdCert := myCurrentKey.incomingCert
  let child ← self.children.get childHandle
  let childResources := intersection myRcvdCert.resources child.resources
  if isEmpty childResources then none
  else
    let issuedCerts := (child.issued env.order rcn).filterMap myRc.issued
    some
      { className := rcn, resourceSet := childResources,
        notAfter := eligibleNotAfter env timing issuedCerts, issuedCerts,
        signingCert := myRcvdCert }

def list (self : CertAuth) (env : Surroundings) (childHandle : ChildHandle)
    (timing : IssuanceTimingConfig) : List EntitlementClass :=
  ((self.resources.iter env.order).map Prod.fst).filterMap fun rcn =>
    self.entitlementClass env childHandle rcn timing

def issuanceResponse (self : CertAuth) (env : Surroundings) (childHandle : ChildHandle)
    (className : ResourceClassName) (pubKey : PublicKey) (timing : IssuanceTimingConfig) :
    Except Error IssuanceResponse :=
  match self.entitlementClass env childHandle className timing with
  | none => .error .keyUseNoIssuedCert
  | some entitlement =>
    match entitlement.intoIssuanceResponse pubKey with
    | none => .error .keyUseNoIssuedCert
    | some response => .ok response

end CertAuth

end Krill.Ca
