import Krill.Ca.Rta

namespace Krill.Ca

open Rpki KrillSigner

variable [Rpki] [KrillSigner]

namespace CertAuth

def forEachClass (self : CertAuth) (env : Surroundings)
    (events : ResourceClassName → ResourceClass → SignM (List CaEvtDet)) :
    SignM (List CaEvtDet) := do
  let found ← (self.resources.iter env.order).mapM fun (rcn, rc) => events rcn rc
  return found.flatten

def trustAnchorMake (self : CertAuth) (env : Surroundings) (uris : List Https)
    (rsyncUri : Rsync) : SignM (List CaEvt) :=
  if !self.resources.isEmpty then throw (.custom "Cannot turn CA with resources into TA")
  else do
    let contact ← liftExcept self.repositoryContact
    let key ← signing createKey
    let serial ← signing randomSerial
    let pubKey ← signing (getKeyInfo key)
    let nameSpace := ResourceClassName.ofNumber 0
    let name := subjectName pubKey
    let validity : Validity :=
      { notBefore := fiveMinutesAgo env, notAfter := yearsFrom env.now 100 }
    let csrInfo : CsrInfo :=
      { caRepository := caRepository contact.repoInfo nameSpace
        rpkiManifest := resolve contact.repoInfo nameSpace
          (ObjectName.mftForKey (keyIdentifier pubKey))
        rpkiNotify := rpkiNotify contact.repoInfo
        key := pubKey }
    let tbs : TbsCert :=
      { serial, issuer := name, validity, subject := some name, publicKey := pubKey,
        keyUsage := .ca, resources := Rpki.allResources, sia := some csrInfo }
    let base64 ← signing (sign (.cert tbs) key)
    match cerFileName rsyncUri with
    | none => throw (.custom "invalid certificate URI")
    | some fileName =>
      let cert : ReceivedCert :=
        { uri := rsyncUri, name := fileName, resources := Rpki.allResources, limit := noLimit,
          subject := name, validity, serial, csrInfo, base64, hash := toHash base64 }
      let tal : TrustAnchorLocator := { uris, rsyncUri, encodedSki := encodedSki pubKey }
      return self.eventsFromDetails [.trustAnchorMade { cert, tal }]

def issueChildCertificate (self : CertAuth) (env : Surroundings) (child : ChildHandle)
    (rcn : ResourceClassName) (csrInfo : CsrInfo) (limit : RequestResourceLimit)
    (timing : IssuanceTimingConfig) : SignM IssuedCertificate := do
  let myRc ← liftExcept (self.getClass rcn)
  let details ← liftExcept (self.getChild child)
  myRc.issueCert env csrInfo details.resources limit timing

def childCertify (self : CertAuth) (env : Surroundings) (child : ChildHandle)
    (request : IssuanceRequest) (config : Config) : SignM (List CaEvt) := do
  let rcn := request.className
  let csrInfo ← liftExcept (CsrInfo.ofCsr request.csr)
  if !csrInfo.globalUris && !env.testMode then
    throw (.invalidCsr "MUST use hostnames in URIs for certificate requests.")
  else
    let issued ← self.issueChildCertificate env child rcn csrInfo request.limit
      config.issuanceTiming
    return [
      { handle := self.handle, version := self.version,
        details := .childCertificateIssued child rcn issued.key },
      { handle := self.handle, version := self.version + 1,
        details := .childCertificatesUpdated rcn (ChildCertificateUpdates.default.issue issued) }]

def generateNewIdKey (self : CertAuth) : SignM (List CaEvt) := do
  let cert ← signing createSelfSignedIdCert
  return self.eventsFromDetails [.idUpdated { cert }]

def makeRequestEvents (self : CertAuth) (env : Surroundings)
    (entitlement : ResourceClassEntitlements) (rc : ResourceClass) : SignM (List CaEvtDet) := do
  let repo ← liftExcept self.repositoryContact
  rc.makeEntitlementEvents env entitlement repo.repoInfo

def removeLostClasses (self : CertAuth) (env : Surroundings) (parent : ParentHandle)
    (entitledClasses : List ResourceClassName) : SignM (List CaEvtDet) :=
  let lost := (self.resources.iter env.order).filter fun entry =>
    entry.2.parentHandle == parent && !entitledClasses.contains entry.2.parentRcName
  lost.mapM fun (rcn, rc) => do
    let revokeRequests ← rc.revoke
    return .resourceClassRemoved rcn parent revokeRequests

/-- Request certificates in the class for every entitlement. A new class is made, with a
pending key, where there is none. -/
def requestForEntitlements (self : CertAuth) (env : Surroundings) (parent : ParentHandle) :
    Nat → ResourceClassListResponse → SignM (List CaEvtDet)
  | _, [] => return []
  | nextClassName, entitlement :: rest =>
    match self.findParentRc env.order parent entitlement.className with
    | some rc => do
      let requests ← self.makeRequestEvents env entitlement rc
      let others ← self.requestForEntitlements env parent nextClassName rest
      return requests ++ others
    | none => do
      let pendingKey ← signing createKey
      let rcn := ResourceClassName.ofNumber nextClassName
      let rc := ResourceClass.create env.now rcn rcn parent entitlement.className pendingKey
      let requests ← self.makeRequestEvents env entitlement rc
      let others ← self.requestForEntitlements env parent (nextClassName + 1) rest
      return .resourceClassAdded rcn parent entitlement.className pendingKey ::
        (requests ++ others)

def updateEntitlements (self : CertAuth) (env : Surroundings) (parent : ParentHandle)
    (entitlements : ResourceClassListResponse) : SignM (List CaEvt) := do
  let removed ← self.removeLostClasses env parent (entitlements.map fun ent => ent.className)
  let requests ← self.requestForEntitlements env parent self.nextClassName entitlements
  return self.eventsFromDetails (removed ++ requests)

def updateReceivedCert (self : CertAuth) (env : Surroundings) (rcn : ResourceClassName)
    (rcvdCert : ReceivedCert) (config : Config) : SignM (List CaEvt) := do
  let rc ← liftExcept (self.getClass rcn)
  let details ← rc.updateReceivedCert env rcvdCert self.routes self.aspas self.bgpsecDefs config
  return self.eventsFromDetails details

def dropResourceClass (self : CertAuth) (rcn : ResourceClassName) (_reason : String) :
    SignM (List CaEvt) := do
  let rc ← liftExcept (self.getClass rcn)
  let revokeRequests ← rc.revoke
  return self.eventsFromDetails [.resourceClassRemoved rcn rc.parentHandle revokeRequests]

def keyrollInitiate (self : CertAuth) (env : Surroundings) (duration : Int) :
    SignM (List CaEvt) :=
  if self.isTa then return []
  else do
    let details ← self.forEachClass env fun _ rc => do
      let repo ← liftExcept self.repositoryContact
      rc.keyrollInitiate env repo.repoInfo duration
    return self.eventsFromDetails details

def keyrollActivate (self : CertAuth) (env : Surroundings) (stagingTime : Int)
    (config : Config) : SignM (List CaEvt) :=
  if self.isTa then return []
  else do
    let details ← self.forEachClass env fun _ rc =>
      rc.keyrollActivate env stagingTime config.issuanceTiming
    return self.eventsFromDetails details

def keyrollFinish (self : CertAuth) (rcn : ResourceClassName) : Except Error (List CaEvt) :=
  if self.isTa then return []
  else do
    let myRc ← self.getClass rcn
    let details ← myRc.keyrollFinish
    return self.eventsFromDetails [details]

/-- A CA that has a repository starts a key roll in every class, so that the new keys use
the new repository. -/
def rollsForRepo (self : CertAuth) (env : Surroundings) (contact : RepositoryContact) :
    SignM (List CaEvtDet) :=
  match self.repository with
  | none => return []
  | some existing =>
    if existing = contact then throw (.caRepoInUse self.handle)
    else self.forEachClass env fun _ rc =>
      if !rc.keyRollPossible then throw .keyRollNotAllowed
      else rc.keyrollInitiate env contact.repoInfo 0

def updateRepo (self : CertAuth) (env : Surroundings) (contact : RepositoryContact) :
    SignM (List CaEvt) := do
  let rolls ← self.rollsForRepo env contact
  return self.eventsFromDetails (rolls ++ [.repoUpdated contact])

def routeAuthorizationsUpdate (self : CertAuth) (env : Surroundings)
    (updates : RoaConfigurationUpdates) (config : Config) : SignM (List CaEvt) := do
  let (routes, changes) ←
    liftExcept (self.updateAuthorizations env updates.intoExplicitMaxLength)
  let objects ← self.forEachClass env fun rcn rc => do
    let updates ← rc.updateRoas env routes config
    return updates.events rcn
  return self.eventsFromDetails (changes ++ objects)

def routeAuthorizationsRenew (self : CertAuth) (env : Surroundings) (force : Bool)
    (config : Config) : SignM (List CaEvt) := do
  let objects ← self.forEachClass env fun rcn rc => do
    let updates ← rc.renewRoas env force config.issuanceTiming
    return updates.events rcn
  return self.eventsFromDetails objects

def createUpdatedAspaObjects (self : CertAuth) (env : Surroundings)
    (allAspas : AspaDefinitions) (config : Config) : SignM (List CaEvtDet) :=
  self.forEachClass env fun rcn rc => do
    let updates ← rc.updateAspas env allAspas config
    return updates.events rcn

def aspasDefinitionsUpdate (self : CertAuth) (env : Surroundings)
    (updates : AspaDefinitionUpdates) (config : Config) : SignM (List CaEvt) := do
  let (allAspas, removals) ← liftExcept (self.removeAspas updates.remove self.aspas)
  let (allAspas, additions) ←
    liftExcept (self.addOrReplaceAspas env updates.addOrReplace allAspas)
  let objects ← self.createUpdatedAspaObjects env allAspas config
  return self.eventsFromDetails (removals ++ additions ++ objects)

def aspasUpdate (self : CertAuth) (env : Surroundings) (customer : AspaCustomer)
    (update : AspaProvidersUpdate) (config : Config) : SignM (List CaEvt) := do
  liftExcept (self.verifyAspaUpdate env customer update)
  -- the customer was just found
  let allAspas := (self.aspas.applyUpdate customer update).getD self.aspas
  let objects ← self.createUpdatedAspaObjects env allAspas config
  return self.eventsFromDetails (objects ++ [.aspaConfigUpdated customer update])

def aspasRenew (self : CertAuth) (env : Surroundings) (config : Config) :
    SignM (List CaEvt) := do
  let objects ← self.forEachClass env fun rcn rc => do
    let updates ← rc.renewAspas env config.issuanceTiming
    return updates.events rcn
  return self.eventsFromDetails objects

def bgpsecDefinitionsUpdate (self : CertAuth) (env : Surroundings)
    (updates : BgpSecDefinitionUpdates) (config : Config) : SignM (List CaEvt) := do
  let (definitions, removals) ← liftExcept (self.removeBgpsecs updates.remove self.bgpsecDefs)
  let (definitions, additions) ← liftExcept (self.addBgpsecs env updates.add definitions)
  let objects ← self.forEachClass env fun rcn rc => do
    let updates ← rc.updateBgpsecCerts env definitions config
    return updates.events rcn
  return self.eventsFromDetails (removals ++ additions ++ objects)

def bgpsecRenew (self : CertAuth) (env : Surroundings) (config : Config) :
    SignM (List CaEvt) := do
  let objects ← self.forEachClass env fun rcn rc => do
    let updates ← rc.renewBgpsecCerts env config.issuanceTiming
    return updates.events rcn
  return self.eventsFromDetails objects

def processCommand (self : CertAuth) (env : Surroundings) : CmdDet → SignM (List CaEvt)
  | .makeTrustAnchor uris rsyncUri => self.trustAnchorMake env uris rsyncUri
  | .childAdd child idCert resources => liftExcept (self.childAdd env child idCert resources)
  | .childUpdateResources child resources =>
    liftExcept (self.childUpdateResources env child resources)
  | .childUpdateId child idCert => liftExcept (self.childUpdateIdCert child idCert)
  | .childCertify child request config => self.childCertify env child request config
  | .childRevokeKey child request => liftExcept (self.childRevokeKey child request)
  | .childRemove child => liftExcept (self.childRemove env child)
  | .childSuspendInactive child => liftExcept (self.childSuspendInactive env child)
  | .childUnsuspend child => liftExcept (self.childUnsuspend env child)
  | .generateNewIdKey => self.generateNewIdKey
  | .addParent parent info => liftExcept (self.addParent env parent info)
  | .updateParentContact parent info => liftExcept (self.updateParent parent info)
  | .removeParent parent => liftExcept (self.removeParent env parent)
  | .updateEntitlements parent entitlements => self.updateEntitlements env parent entitlements
  | .updateRcvdCert rcn cert config => self.updateReceivedCert env rcn cert config
  | .dropResourceClass rcn reason => self.dropResourceClass rcn reason
  | .keyRollInitiate duration => self.keyrollInitiate env duration
  | .keyRollActivate stagingTime config => self.keyrollActivate env stagingTime config
  | .keyRollFinish rcn => liftExcept (self.keyrollFinish rcn)
  | .routeAuthorizationsUpdate updates config =>
    self.routeAuthorizationsUpdate env updates config
  | .routeAuthorizationsRenew config => self.routeAuthorizationsRenew env false config
  | .routeAuthorizationsForceRenew config => self.routeAuthorizationsRenew env true config
  | .aspasUpdate updates config => self.aspasDefinitionsUpdate env updates config
  | .aspasUpdateExisting customer update config => self.aspasUpdate env customer update config
  | .aspasRenew config => self.aspasRenew env config
  | .bgpSecUpdateDefinitions updates config => self.bgpsecDefinitionsUpdate env updates config
  | .bgpSecRenew config => self.bgpsecRenew env config
  | .repoUpdate contact => self.updateRepo env contact
  | .rtaMultiPrepare name request => self.rtaMultiPrep env name request
  | .rtaCoSign name rta => self.rtaCosign env name rta
  | .rtaSign name request => self.rtaSign env name request

end CertAuth

end Krill.Ca
