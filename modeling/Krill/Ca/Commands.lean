import Krill.Ca.CertAuth

namespace Krill.Ca

open Rpki

variable [Rpki]

inductive CmdDet where
  -- being a trust anchor
  | makeTrustAnchor (uris : List Https) (rsyncUri : Rsync)
  -- being a parent
  | childAdd (child : ChildHandle) (idCert : IdCertInfo) (resources : ResourceSet)
  | childUpdateResources (child : ChildHandle) (resources : ResourceSet)
  | childUpdateId (child : ChildHandle) (idCert : IdCertInfo)
  | childCertify (child : ChildHandle) (request : IssuanceRequest) (config : Config)
  | childRevokeKey (child : ChildHandle) (request : RevocationRequest)
  | childRemove (child : ChildHandle)
  | childSuspendInactive (child : ChildHandle)
  | childUnsuspend (child : ChildHandle)
  -- being a child
  | generateNewIdKey
  | addParent (parent : ParentHandle) (info : ParentCaContact)
  | updateParentContact (parent : ParentHandle) (info : ParentCaContact)
  | removeParent (parent : ParentHandle)
  | updateEntitlements (parent : ParentHandle) (entitlements : ResourceClassListResponse)
  | updateRcvdCert (rcn : ResourceClassName) (cert : ReceivedCert) (config : Config)
  | dropResourceClass (rcn : ResourceClassName) (reason : String)
  -- key rolls
  | keyRollInitiate (duration : Int)
  | keyRollActivate (stagingTime : Int) (config : Config)
  | keyRollFinish (rcn : ResourceClassName)
  -- route authorizations
  | routeAuthorizationsUpdate (updates : RoaConfigurationUpdates) (config : Config)
  | routeAuthorizationsRenew (config : Config)
  | routeAuthorizationsForceRenew (config : Config)
  -- ASPA
  | aspasUpdate (updates : AspaDefinitionUpdates) (config : Config)
  | aspasUpdateExisting (customer : AspaCustomer) (update : AspaProvidersUpdate) (config : Config)
  | aspasRenew (config : Config)
  -- BGPsec
  | bgpSecUpdateDefinitions (updates : BgpSecDefinitionUpdates) (config : Config)
  | bgpSecRenew (config : Config)
  -- publication
  | repoUpdate (contact : RepositoryContact)
  -- resource tagged attestations
  | rtaMultiPrepare (name : RtaName) (request : RtaPrepareRequest)
  | rtaCoSign (name : RtaName) (rta : Rta)
  | rtaSign (name : RtaName) (request : RtaContentRequest)

namespace CertAuth

def eventsFromDetails (self : CertAuth) (details : List CaEvtDet) : List CaEvt :=
  details.zipIdx.map fun (detail, index) =>
    { handle := self.handle, version := self.version + index, details := detail }

def allResources (self : CertAuth) (order : IterOrder) : ResourceSet :=
  (self.resources.intoValues order).foldl (fun resources rc =>
    match rc.currentResources with
    | some rcResources => union resources rcResources
    | none => resources) noResources

def repositoryContact (self : CertAuth) : Except Error RepositoryContact :=
  match self.repository with
  | some contact => .ok contact
  | none => .error .repoNotSet

def getClass (self : CertAuth) (rcn : ResourceClassName) : Except Error ResourceClass :=
  match self.resources.get rcn with
  | some rc => .ok rc
  | none => .error (.resourceClassUnknown rcn)

def getChild (self : CertAuth) (child : ChildHandle) : Except Error ChildDetails :=
  match self.children.get child with
  | some details => .ok details
  | none => .error (.caChildUnknown self.handle child)

def hasChild (self : CertAuth) (child : ChildHandle) : Bool := self.children.containsKey child

def parentKnown (self : CertAuth) (parent : ParentHandle) : Bool :=
  self.parents.containsKey parent

def parentForInfo (self : CertAuth) (order : IterOrder) (info : ParentCaContact) :
    Option ParentHandle :=
  ((self.parents.iter order).find? fun entry => entry.2 = info).map Prod.fst

def isTa (self : CertAuth) : Bool :=
  self.parents.values.any fun contact =>
    match contact with
    | .ta _ => true
    | .rfc6492 _ => false

def childAdd (self : CertAuth) (env : Surroundings) (child : ChildHandle)
    (idCert : IdCertInfo) (resources : ResourceSet) : Except Error (List CaEvt) :=
  if isEmpty resources then .error (.caChildMustHaveResources self.handle child)
  else if !contains (self.allResources env.order) resources then
    .error (.caChildExtraResources self.handle child)
  else if self.hasChild child then .error (.caChildDuplicate self.handle child)
  else .ok (self.eventsFromDetails [.childAdded child idCert resources])

/-- Updating the entitlements of a child does not yet revoke or issue anything. -/
def childUpdateResources (self : CertAuth) (env : Surroundings) (childHandle : ChildHandle)
    (resources : ResourceSet) : Except Error (List CaEvt) :=
  if !contains (self.allResources env.order) resources then
    .error (.caChildExtraResources self.handle childHandle)
  else do
    let child ← self.getChild childHandle
    if differenceIsEmpty resources child.resources then return []
    else return self.eventsFromDetails [.childUpdatedResources childHandle resources]

def childUpdateIdCert (self : CertAuth) (childHandle : ChildHandle) (idCert : IdCertInfo) :
    Except Error (List CaEvt) := do
  let child ← self.getChild childHandle
  if idCert = child.idCert then return []
  else return self.eventsFromDetails [.childUpdatedIdCert childHandle idCert]

/-- Revoke a key of a child. The class is taken from the request as it is. -/
def childRevokeKey (self : CertAuth) (childHandle : ChildHandle) (request : RevocationRequest) :
    Except Error (List CaEvt) := do
  let child ← self.getChild childHandle
  if !child.isIssued request.key then throw .keyUseNoIssuedCert
  else
    let updates := ChildCertificateUpdates.default.remove request.key
    return [
      { handle := self.handle, version := self.version,
        details := .childKeyRevoked childHandle request.className request.key },
      { handle := self.handle, version := self.version + 1,
        details := .childCertificatesUpdated request.className updates }]

def forChildKeys (self : CertAuth) (env : Surroundings) (child : ChildDetails)
    (updates : ResourceClass → List KeyIdentifier → ChildCertificateUpdates) : List CaEvtDet :=
  (self.resources.iter env.order).filterMap fun (rcn, rc) =>
    let certifiedKeys := child.issued env.order rcn
    if certifiedKeys.isEmpty then none
    else some (.childCertificatesUpdated rcn (updates rc certifiedKeys))

/-- Remove a child, and the certificates that are issued to it and not suspended. -/
def childRemove (self : CertAuth) (env : Surroundings) (childHandle : ChildHandle) :
    Except Error (List CaEvt) := do
  let child ← self.getChild childHandle
  let removed := self.forChildKeys env child fun rc keys =>
    (keys.filterMap rc.issued).foldl (fun updates issued => updates.remove issued.key) .default
  return self.eventsFromDetails (removed ++ [.childRemoved childHandle])

def childSuspendInactive (self : CertAuth) (env : Surroundings) (childHandle : ChildHandle) :
    Except Error (List CaEvt) := do
  let child ← self.getChild childHandle
  if child.isSuspended then return []
  else
    let suspended := self.forChildKeys env child fun rc keys =>
      (keys.filterMap rc.issued).foldl ChildCertificateUpdates.suspend .default
    if suspended.isEmpty then return []
    else return self.eventsFromDetails (suspended ++ [.childSuspended childHandle])

/-- Bring back the suspended certificates of a child that are still fit for publication,
and remove the others. -/
def childUnsuspend (self : CertAuth) (env : Surroundings) (childHandle : ChildHandle) :
    Except Error (List CaEvt) := do
  let child ← self.getChild childHandle
  if !child.isSuspended then return []
  else
    let unsuspended := self.forChildKeys env child fun rc keys =>
      (keys.filterMap rc.suspended).foldl (fun updates cert =>
        if cert.validity.notAfter > env.now + days 1 ∧ contains child.resources cert.resources then
          updates.unsuspend cert
        else updates.remove cert.key) .default
    return self.eventsFromDetails (unsuspended ++ [.childUnsuspended childHandle])

def addParent (self : CertAuth) (env : Surroundings) (parent : ParentHandle)
    (info : ParentCaContact) : Except Error (List CaEvt) :=
  if self.parentKnown parent then .error (.caParentDuplicateName self.handle parent)
  else
    match self.parentForInfo env.order info with
    | some other => .error (.caParentDuplicateInfo self.handle other)
    | none =>
      if self.isTa then .error .taNotAllowed
      else .ok (self.eventsFromDetails [.parentAdded parent info])

def updateParent (self : CertAuth) (parent : ParentHandle) (info : ParentCaContact) :
    Except Error (List CaEvt) :=
  if !self.parentKnown parent then .error (.caParentUnknown self.handle parent)
  else if self.isTa then .error .taNotAllowed
  else .ok (self.eventsFromDetails [.parentUpdated parent info])

def removeParent (self : CertAuth) (env : Surroundings) (parent : ParentHandle) :
    Except Error (List CaEvt) :=
  if !self.parentKnown parent then .error (.caParentUnknown self.handle parent)
  else
    let removed := ((self.resources.iter env.order).filter fun entry =>
      entry.2.parentHandle == parent).map fun entry =>
        CaEvtDet.resourceClassRemoved entry.1 parent []
    .ok (self.eventsFromDetails (removed ++ [.parentRemoved parent]))

def findParentRc (self : CertAuth) (order : IterOrder) (parent : ParentHandle)
    (parentRcn : ResourceClassName) : Option ResourceClass :=
  (self.resources.intoValues order).find? fun rc =>
    rc.parentHandle == parent && rc.parentRcName == parentRcn

/-- The routes wanted so far, the events for them, and the errors found. -/
structure AuthorizationsUpdate where
  desiredRoutes : Routes
  events : List CaEvtDet
  deltaErrors : RoaDeltaError

def removeAuthorization (state : AuthorizationsUpdate) (auth : RoaPayload) :
    AuthorizationsUpdate :=
  if state.desiredRoutes.has auth then
    { state with
      desiredRoutes := state.desiredRoutes.remove auth
      events := state.events ++ [.routeAuthorizationRemoved auth] }
  else { state with deltaErrors := state.deltaErrors.addUnknown auth }

def addAuthorization (env : Surroundings) (allResources : ResourceSet)
    (state : AuthorizationsUpdate) (configuration : RoaConfiguration) : AuthorizationsUpdate :=
  let auth := configuration.payload
  let comment := configuration.comment
  if !auth.maxLengthValid then
    { state with deltaErrors := state.deltaErrors.addInvalidLength configuration }
  else if !containsRoaAddress allResources auth.asRoaIpAddress then
    { state with deltaErrors := state.deltaErrors.addNotheld configuration }
  else
    match state.desiredRoutes.info auth with
    | some info =>
      if info.comment ≠ comment then
        -- the wanted routes keep the comment they have
        { state with events := state.events ++ [.routeAuthorizationComment auth comment] }
      else { state with deltaErrors := state.deltaErrors.addDuplicate configuration }
    | none =>
      let routes := state.desiredRoutes.add env.now auth
      if comment.isSome then
        { state with
          desiredRoutes := routes.comment auth comment
          events := state.events ++
            [.routeAuthorizationAdded auth, .routeAuthorizationComment auth comment] }
      else
        { state with
          desiredRoutes := routes
          events := state.events ++ [.routeAuthorizationAdded auth] }

def updateAuthorizations (self : CertAuth) (env : Surroundings)
    (updates : RoaConfigurationUpdates) : Except Error (Routes × List CaEvtDet) :=
  let start : AuthorizationsUpdate :=
    { desiredRoutes := self.routes, events := [], deltaErrors := {} }
  let removed := updates.removed.foldl removeAuthorization start
  let result := updates.added.foldl (addAuthorization env (self.allResources env.order)) removed
  if result.deltaErrors.isEmpty then .ok (result.desiredRoutes, result.events)
  else .error (.roaDeltaError self.handle result.deltaErrors)

def removeAspas (self : CertAuth) : List AspaCustomer → AspaDefinitions →
    Except Error (AspaDefinitions × List CaEvtDet)
  | [], allAspas => .ok (allAspas, [])
  | customer :: rest, allAspas =>
    if !allAspas.has customer then .error (.aspaCustomerUnknown self.handle customer)
    else do
      let (allAspas, events) ← self.removeAspas rest (allAspas.remove customer)
      return (allAspas, .aspaConfigRemoved customer :: events)

def providersUpdate (existing aspaConfig : AspaDefinition) : AspaProvidersUpdate where
  added := aspaConfig.providers.filter fun new => !existing.providers.contains new
  removed := existing.providers.filter fun old => !aspaConfig.providers.contains old

/-- The event for a new definition. It is compared with the definition the CA has now. -/
def aspaConfigEvents (self : CertAuth) (aspaConfig : AspaDefinition) : List CaEvtDet :=
  match self.aspas.get aspaConfig.customer with
  | none => [.aspaConfigAdded aspaConfig]
  | some existing =>
    let update := providersUpdate existing aspaConfig
    if update.containsChanges then [.aspaConfigUpdated aspaConfig.customer update] else []

def addOrReplaceAspas (self : CertAuth) (env : Surroundings) : List AspaDefinition →
    AspaDefinitions → Except Error (AspaDefinitions × List CaEvtDet)
  | [], allAspas => .ok (allAspas, [])
  | aspaConfig :: rest, allAspas =>
    if !containsAsn (self.allResources env.order) aspaConfig.customer then
      .error (.aspaCustomerAsNotEntitled self.handle aspaConfig.customer)
    else do
      let (allAspas, events) ←
        self.addOrReplaceAspas env rest (allAspas.addOrReplace aspaConfig)
      return (allAspas, self.aspaConfigEvents aspaConfig ++ events)

def verifyAspaUpdate (self : CertAuth) (env : Surroundings) (customer : AspaCustomer)
    (update : AspaProvidersUpdate) : Except Error Unit :=
  if update.isEmpty then .error (.aspaProvidersUpdateEmpty self.handle customer)
  else if !containsAsn (self.allResources env.order) customer then
    .error (.aspaCustomerAsNotEntitled self.handle customer)
  else
    match self.aspas.get customer with
    | none => .error (.aspaCustomerUnknown self.handle customer)
    | some current =>
      match current.verifyUpdate update with
      | .ok () => .ok ()
      | .error conflict => .error (.aspaProvidersUpdateConflict self.handle conflict)

def removeBgpsecs (self : CertAuth) : List BgpSecAsnKey → BgpSecDefinitions →
    Except Error (BgpSecDefinitions × List CaEvtDet)
  | [], definitions => .ok (definitions, [])
  | key :: rest, definitions =>
    if !definitions.has key then .error (.bgpSecDefinitionUnknown self.handle key)
    else do
      let (definitions, events) ← self.removeBgpsecs rest (definitions.remove key)
      return (definitions, .bgpSecDefinitionRemoved key :: events)

def addBgpsec (definitions : BgpSecDefinitions) (key : BgpSecAsnKey) (csr : StoredBgpSecCsr) :
    BgpSecDefinitions × List CaEvtDet :=
  match definitions.getStoredCsr key with
  | some storedCsr =>
    if storedCsr ≠ csr then
      (definitions.addOrReplace key csr, [.bgpSecDefinitionUpdated key csr])
    else (definitions, [])
  | none => (definitions.addOrReplace key csr, [.bgpSecDefinitionAdded key csr])

def addBgpsecs (self : CertAuth) (env : Surroundings) : List BgpSecDefinition →
    BgpSecDefinitions → Except Error (BgpSecDefinitions × List CaEvtDet)
  | [], definitions => .ok (definitions, [])
  | definition :: rest, definitions =>
    let key := BgpSecAsnKey.ofDefinition definition
    let csr := StoredBgpSecCsr.ofCsr env.now definition.csr
    if !definition.csr.validlySigned then
      .error (.bgpSecDefinitionInvalidlySigned self.handle definition)
    else if !containsAsn (self.allResources env.order) key.asn then
      .error (.bgpSecDefinitionNotEntitled self.handle key)
    else do
      let added := addBgpsec definitions key csr
      let (result, events) ← self.addBgpsecs env rest added.1
      return (result, added.2 ++ events)

end CertAuth

end Krill.Ca
