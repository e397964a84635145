import Krill.Ca.Events

namespace Krill.Ca

open EventSourcing (Time)
open Rpki KrillSigner

variable [Rpki]

structure ResourceClass where
  name : ResourceClassName
  nameSpace : String
  parentHandle : ParentHandle
  parentRcName : ResourceClassName
  roas : Roas
  aspas : AspaObjects
  bgpsecCertificates : BgpSecCertificates
  certificates : ChildCertificates
  lastKeyChange : Time
  keyState : KeyState

def RoaUpdates.events (self : RoaUpdates) (rcn : ResourceClassName) : List CaEvtDet :=
  if self.containsChanges then [.roasUpdated rcn self] else []

def AspaObjectsUpdates.events (self : AspaObjectsUpdates) (rcn : ResourceClassName) :
    List CaEvtDet :=
  if self.containsChanges then [.aspaObjectsUpdated rcn self] else []

def BgpSecCertificateUpdates.events (self : BgpSecCertificateUpdates)
    (rcn : ResourceClassName) : List CaEvtDet :=
  if self.containsChanges then [.bgpSecCertificatesUpdated rcn self] else []

def ChildCertificateUpdates.events (self : ChildCertificateUpdates)
    (rcn : ResourceClassName) : List CaEvtDet :=
  if self.isEmpty then [] else [.childCertificatesUpdated rcn self]

namespace KeyState

/-- The keys that need a certificate, each with the repository to use. A key keeps its old
repository if it has one. -/
def keysForRequests (self : KeyState) (env : Surroundings)
    (entitlement : ResourceClassEntitlements) (baseRepo : RepoInfo) :
    List (RepoInfo × KeyIdentifier) :=
  let wants (key : CertifiedKey) : Bool :=
    key.wantsUpdate env entitlement.resourceSet entitlement.notAfter
  let repo (key : CertifiedKey) : RepoInfo := key.oldRepo.getD baseRepo
  let update (key : CertifiedKey) : List (RepoInfo × KeyIdentifier) :=
    if wants key then [(repo key, key.keyId)] else []
  match self with
  | .pending waiting => [(baseRepo, waiting.keyId)]
  | .active current => update current
  | .rollPending waiting current => (baseRepo, waiting.keyId) :: update current
  | .rollNew new current => update new ++ update current
  | .rollOld current old =>
    -- the request that the old key wants names the current key
    update current ++ if wants old.key then [(repo old.key, current.keyId)] else []

variable [KrillSigner]

def makeEntitlementEvents (self : KeyState) (env : Surroundings) (rcn : ResourceClassName)
    (entitlement : ResourceClassEntitlements) (baseRepo : RepoInfo) (nameSpace : String) :
    SignM (List CaEvtDet) := do
  let requested ← (self.keysForRequests env entitlement baseRepo).mapM fun (repo, keyId) => do
    let request ← createIssuanceReq repo nameSpace entitlement.className keyId
    return CaEvtDet.certificateRequested rcn request keyId
  let unexpected := (entitlement.issuedKeys.filter fun key => !self.knowsKey key).map fun key =>
    CaEvtDet.unexpectedKeyFound rcn { className := entitlement.className, key }
  return requested ++ unexpected

def keyrollInitiate (self : KeyState) (rcn parentRcn : ResourceClassName)
    (baseRepo : RepoInfo) (nameSpace : String) : SignM (List CaEvtDet) :=
  match self with
  | .active _ => do
    let pendingKey ← signing createKey
    let request ← createIssuanceReq baseRepo nameSpace parentRcn pendingKey
    return [.keyRollPendingKeyAdded rcn pendingKey,
      .certificateRequested rcn request pendingKey]
  | _ => return []

def keyrollActivate (self : KeyState) (rcn parentRcn : ResourceClassName) : SignM CaEvtDet :=
  match self with
  | .rollNew _ current => do
    let revokeReq ← revokeKey parentRcn current.keyId
    return .keyRollActivated rcn revokeReq
  | _ => throw .keyUseNoNewKey

end KeyState

namespace ResourceClass

def create (now : Time) (name : ResourceClassName) (nameSpace : String)
    (parentHandle : ParentHandle) (parentRcName : ResourceClassName)
    (pendingKey : KeyIdentifier) : ResourceClass where
  name := name
  nameSpace := nameSpace
  parentHandle := parentHandle
  parentRcName := parentRcName
  roas := .default
  aspas := .default
  bgpsecCertificates := .default
  certificates := .default
  lastKeyChange := now
  keyState := .create pendingKey

def taHandle : ParentHandle := "ta"

def forTa (now : Time) (parentRcName : ResourceClassName) (pendingKey : KeyIdentifier) :
    ResourceClass :=
  create now parentRcName parentRcName taHandle parentRcName pendingKey

def addRequest (self : ResourceClass) (keyId : KeyIdentifier) (request : IssuanceRequest) :
    ResourceClass :=
  { self with keyState := self.keyState.addRequest keyId request }

def currentKey (self : ResourceClass) : Option CurrentKey := self.keyState.currentKey

def currentResources (self : ResourceClass) : Option ResourceSet :=
  self.currentKey.map fun key => key.incomingCert.resources

def getCurrentKey (self : ResourceClass) : Except Error CurrentKey :=
  match self.currentKey with
  | some key => .ok key
  | none => .error .keyUseNoCurrentKey

def keyRollPossible (self : ResourceClass) : Bool :=
  match self.keyState with
  | .active _ => true
  | _ => false

def setOldRepo (self : ResourceClass) (repo : RepoInfo) : ResourceClass :=
  { self with keyState := self.keyState.setOldRepoIfInActiveState repo }

def receivedCert (self : ResourceClass) (keyId : KeyIdentifier) (cert : ReceivedCert) :
    Option ResourceClass :=
  match self.keyState with
  | .pending _ => none
  | .active current => some { self with keyState := .active (current.setIncomingCert cert) }
  | .rollPending waiting current =>
    some { self with keyState := .rollPending waiting (current.setIncomingCert cert) }
  | .rollNew new current =>
    if new.keyId = keyId then
      some { self with keyState := .rollNew (new.setIncomingCert cert) current }
    else some { self with keyState := .rollNew new (current.setIncomingCert cert) }
  | .rollOld current old =>
    if current.keyId = keyId then
      some { self with keyState := .rollOld (current.setIncomingCert cert) old }
    else some { self with keyState := .rollOld current (old.setIncomingCert cert) }

def pendingKeyIdAdded (self : ResourceClass) (keyId : KeyIdentifier) : Option ResourceClass :=
  match self.keyState with
  | .active current => some { self with keyState := .rollPending (.new keyId) current }
  | _ => none

def pendingKeyToNew (self : ResourceClass) (new : CertifiedKey) : Option ResourceClass :=
  match self.keyState with
  | .rollPending _ current => some { self with keyState := .rollNew new current }
  | _ => none

def pendingKeyToActive (self : ResourceClass) (new : CertifiedKey) : Option ResourceClass :=
  match self.keyState with
  | .pending _ => some { self with keyState := .active new }
  | _ => none

def newKeyActivated (self : ResourceClass) (revokeReq : RevocationRequest) :
    Option ResourceClass :=
  match self.keyState with
  | .rollNew new current =>
    some { self with keyState := .rollOld new { key := current, revokeReq } }
  | _ => none

def oldKeyRemoved (self : ResourceClass) : Option ResourceClass :=
  match self.keyState with
  | .rollOld current _ => some { self with keyState := .active current }
  | _ => none

def certificateIssued (self : ResourceClass) (issued : IssuedCertificate) : ResourceClass :=
  { self with certificates := self.certificates.certificateIssued issued }

def certificateUnsuspended (self : ResourceClass) (unsuspended : UnsuspendedCert) :
    ResourceClass :=
  { self with certificates := self.certificates.certificateUnsuspended unsuspended }

def certificateSuspended (self : ResourceClass) (suspended : SuspendedCert) : ResourceClass :=
  { self with certificates := self.certificates.certificateSuspended suspended }

def keyRevoked (self : ResourceClass) (key : KeyIdentifier) : ResourceClass :=
  { self with certificates := self.certificates.keyRevoked key }

def issued (self : ResourceClass) (key : KeyIdentifier) : Option IssuedCertificate :=
  self.certificates.getIssued key

def suspended (self : ResourceClass) (key : KeyIdentifier) : Option SuspendedCert :=
  self.certificates.getSuspended key

def roasUpdated (self : ResourceClass) (order : IterOrder) (updates : RoaUpdates) :
    ResourceClass :=
  { self with roas := self.roas.updated order updates }

def aspaObjectsUpdated (self : ResourceClass) (updates : AspaObjectsUpdates) : ResourceClass :=
  { self with aspas := self.aspas.updated updates }

def bgpsecCertificatesUpdated (self : ResourceClass) (updates : BgpSecCertificateUpdates) :
    ResourceClass :=
  { self with bgpsecCertificates := self.bgpsecCertificates.updated updates }

variable [KrillSigner]

/-- A certificate for the current key: certificates, ROAs, ASPA objects and BGPsec
certificates are brought in line if the resources changed. -/
def updateRcvdCertCurrent (self : ResourceClass) (env : Surroundings) (currentKey : CurrentKey)
    (rcvdCert : ReceivedCert) (allRoutes : Routes) (allAspas : AspaDefinitions)
    (allBgpsecs : BgpSecDefinitions) (config : Config) : SignM (List CaEvtDet) := do
  let keyId := rcvdCert.keyIdentifier
  let received := CaEvtDet.certificateReceived self.name rcvdCert keyId
  if keyId ≠ currentKey.keyId then throw (.keyUseNoMatch keyId)
  else if differenceIsEmpty rcvdCert.resources currentKey.incomingCert.resources then
    return [received]
  else
    let updatedKey := CertifiedKey.create rcvdCert
    let certs ← self.certificates.shrinkOverclaiming env updatedKey config.issuanceTiming
    let roas ← self.roas.update env allRoutes updatedKey config
    let aspas ← self.aspas.update env allAspas updatedKey config
    let bgpsecs ← self.bgpsecCertificates.update env allBgpsecs updatedKey config
    return received :: (certs.events self.name ++ roas.events self.name ++
      aspas.events self.name ++ bgpsecs.events self.name)

/-- A received certificate promotes a pending key, or is for a key that is certified
already. -/
def updateReceivedCert (self : ResourceClass) (env : Surroundings) (rcvdCert : ReceivedCert)
    (allRoutes : Routes) (allAspas : AspaDefinitions) (allBgpsecs : BgpSecDefinitions)
    (config : Config) : SignM (List CaEvtDet) :=
  let rcvdCertKey := rcvdCert.keyIdentifier
  let forCurrent (current : CurrentKey) : SignM (List CaEvtDet) :=
    self.updateRcvdCertCurrent env current rcvdCert allRoutes allAspas allBgpsecs config
  match self.keyState with
  | .pending waiting => do
    if rcvdCertKey ≠ waiting.keyId then throw (.keyUseNoMatch rcvdCertKey)
    else
      let currentKey := CertifiedKey.create rcvdCert
      let roas ← self.roas.update env allRoutes currentKey config
      let aspas ← self.aspas.update env allAspas currentKey config
      let bgpsecs ← self.bgpsecCertificates.update env allBgpsecs currentKey config
      return .keyPendingToActive self.name currentKey :: (roas.events self.name ++
        aspas.events self.name ++ bgpsecs.events self.name)
  | .active current => forCurrent current
  | .rollPending waiting current =>
    if rcvdCertKey = waiting.keyId then
      return [.keyPendingToNew self.name (CertifiedKey.create rcvdCert)]
    else forCurrent current
  | .rollNew new current =>
    if rcvdCertKey = new.keyId then
      return [.certificateReceived self.name rcvdCert rcvdCertKey]
    else forCurrent current
  | .rollOld current _ => forCurrent current

def makeEntitlementEvents (self : ResourceClass) (env : Surroundings)
    (entitlement : ResourceClassEntitlements) (baseRepo : RepoInfo) : SignM (List CaEvtDet) :=
  self.keyState.makeEntitlementEvents env self.name entitlement baseRepo self.nameSpace

def revoke (self : ResourceClass) : SignM (List RevocationRequest) :=
  self.keyState.revoke self.parentRcName

def keyrollInitiate (self : ResourceClass) (env : Surroundings) (baseRepo : RepoInfo)
    (duration : Int) : SignM (List CaEvtDet) :=
  if duration > 0 ∧ self.lastKeyChange + duration > env.now then return []
  else self.keyState.keyrollInitiate self.name self.parentRcName baseRepo self.nameSpace

def keyrollActivate (self : ResourceClass) (env : Surroundings) (stagingTime : Int)
    (timing : IssuanceTimingConfig) : SignM (List CaEvtDet) :=
  match self.keyState.newKey with
  | none => return []
  | some newKey =>
    if stagingTime > 0 ∧ self.lastKeyChange + stagingTime > env.now then return []
    else do
      let activated ← self.keyState.keyrollActivate self.name self.parentRcName
      let roas ← self.roas.renew env true newKey timing
      let aspas ← self.aspas.renew env newKey none timing
      let certs ← self.certificates.activateKey env newKey timing
      let bgpsecs ← self.bgpsecCertificates.renew env newKey none timing
      return activated :: (roas.events self.name ++ aspas.events self.name ++
        certs.events self.name ++ bgpsecs.events self.name)

def keyrollFinish (self : ResourceClass) : Except Error CaEvtDet :=
  match self.keyState with
  | .rollOld _ _ => .ok (.keyRollFinished self.name)
  | _ => .error .keyUseNoOldKey

def issueCert (self : ResourceClass) (env : Surroundings) (csr : CsrInfo)
    (childResources : ResourceSet) (limit : RequestResourceLimit)
    (timing : IssuanceTimingConfig) : SignM IssuedCertificate := do
  let signingKey ← liftExcept self.getCurrentKey
  let resources := intersection signingKey.incomingCert.resources childResources
  makeIssuedCert env csr resources limit signingKey timing

def renewRoas (self : ResourceClass) (env : Surroundings) (force : Bool)
    (timing : IssuanceTimingConfig) : SignM RoaUpdates :=
  match self.currentKey with
  | some key => self.roas.renew env force key timing
  | none => return .default

def updateRoas (self : ResourceClass) (env : Surroundings) (routes : Routes) (config : Config) :
    SignM RoaUpdates :=
  match self.currentKey with
  | some key => self.roas.update env (routes.filter key.incomingCert.resources) key config
  | none => return .default

def renewAspas (self : ResourceClass) (env : Surroundings) (timing : IssuanceTimingConfig) :
    SignM AspaObjectsUpdates :=
  match self.currentKey with
  | some key => self.aspas.renew env key (some (timing.newAspaIssuanceThreshold env)) timing
  | none => return .default

def updateAspas (self : ResourceClass) (env : Surroundings) (allAspas : AspaDefinitions)
    (config : Config) : SignM AspaObjectsUpdates :=
  match self.currentKey with
  | some key => self.aspas.update env allAspas key config
  | none => return .default

def updateBgpsecCerts (self : ResourceClass) (env : Surroundings)
    (definitions : BgpSecDefinitions) (config : Config) : SignM BgpSecCertificateUpdates :=
  match self.currentKey with
  | some key => self.bgpsecCertificates.update env definitions key config
  | none => return .default

def renewBgpsecCerts (self : ResourceClass) (env : Surroundings)
    (timing : IssuanceTimingConfig) : SignM BgpSecCertificateUpdates :=
  match self.currentKey with
  | some key =>
    self.bgpsecCertificates.renew env key (some (timing.newBgpsecIssuanceThreshold env))
      timing
  | none => return .default

def createRtaEe (self : ResourceClass) (resources : ResourceSet) (validity : Validity)
    (key : KeyIdentifier) : SignM (TbsCert × Base64) := do
  let some current := self.currentKey | throw (.custom "No current key to sign RTA with")
  unless contains current.incomingCert.resources resources do
    throw (.custom "Resources for RTA not held")
  let publicKey ← signing (getKeyInfo key)
  let serial ← signing randomSerial
  let signingCert := current.incomingCert
  let tbs : TbsCert :=
    { serial, issuer := signingCert.subject, validity,
      subject := some (subjectName publicKey), publicKey, keyUsage := .ee, resources,
      authorityKeyIdentifier := some signingCert.keyIdentifier,
      caIssuer := some signingCert.uri, crlUri := some signingCert.crlUri }
  let base64 ← signing (sign (.cert tbs) current.keyId)
  return (tbs, base64)

end ResourceClass

end Krill.Ca
