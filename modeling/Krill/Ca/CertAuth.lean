import Krill.Ca.ResourceClass

namespace Krill.Ca

open Rpki

variable [Rpki]

inductive RtaState where
  | prepared (prepared : PreparedRta)
  | signed (signed : SignedRta)

structure Rtas where
  map : HashMap RtaName RtaState

namespace Rtas

def default : Rtas := { map := .empty }

def has (self : Rtas) (name : RtaName) : Bool := self.map.containsKey name

def preparedRta (self : Rtas) (name : RtaName) : Except Error PreparedRta :=
  match self.map.get name with
  | none => .error (.custom "Unknown RTA")
  | some (.signed _) => .error (.custom "RTA was already signed")
  | some (.prepared prepared) => .ok prepared

def addPrepared (self : Rtas) (name : RtaName) (prepared : PreparedRta) : Rtas where
  map := self.map.insert name (.prepared prepared)

def addSigned (self : Rtas) (name : RtaName) (signed : SignedRta) : Rtas where
  map := self.map.insert name (.signed signed)

end Rtas

structure CertAuth where
  handle : CaHandle
  version : Nat
  id : Rfc8183Id
  repository : Option RepositoryContact
  parents : HashMap ParentHandle ParentCaContact
  nextClassName : Nat
  resources : HashMap ResourceClassName ResourceClass
  children : HashMap ChildHandle ChildDetails
  routes : Routes
  rtas : Rtas
  aspas : AspaDefinitions
  bgpsecDefs : BgpSecDefinitions

namespace CertAuth

def init (handle : CaHandle) (id : Rfc8183Id) : CertAuth where
  handle := handle
  version := 1
  id := id
  repository := none
  parents := .empty
  nextClassName := 0
  resources := .empty
  children := .empty
  routes := .default
  rtas := .default
  aspas := .default
  bgpsecDefs := .default

def updateClass (self : CertAuth) (rcn : ResourceClassName)
    (change : ResourceClass → Option ResourceClass) : Option CertAuth :=
  match (self.resources.get rcn).bind change with
  | none => none
  | some rc => some { self with resources := self.resources.insert rcn rc }

def updateChild (self : CertAuth) (child : ChildHandle)
    (change : ChildDetails → ChildDetails) : Option CertAuth :=
  match self.children.get child with
  | none => none
  | some details => some { self with children := self.children.insert child (change details) }

/-- Certificates are issued, brought back, revoked and suspended, in this order. -/
def certificatesUpdated (rc : ResourceClass) (updates : ChildCertificateUpdates) :
    ResourceClass :=
  let rc := updates.issued.foldl ResourceClass.certificateIssued rc
  let rc := updates.unsuspended.foldl ResourceClass.certificateUnsuspended rc
  let rc := updates.removed.foldl ResourceClass.keyRevoked rc
  updates.suspended.foldl ResourceClass.certificateSuspended rc

def revokeResponses (children : HashMap ChildHandle ChildDetails)
    (removed : List KeyIdentifier) : HashMap ChildHandle ChildDetails :=
  removed.foldl (fun children key => children.mapValues fun child => child.loseKey key) children

/-- The change made by an event, apart from the version. There is no value where the
source panics: a class, child or definition is missing, or the key state is wrong. -/
def applyDetails (self : CertAuth) (env : Surroundings) : CaEvtDet → Option CertAuth
  -- being a trust anchor
  | .trustAnchorMade taCertDetails =>
    let rcn := ResourceClassName.ofNumber self.nextClassName
    let rc := ResourceClass.forTa env.now rcn taCertDetails.cert.keyIdentifier
    some { self with
      parents := self.parents.insert ResourceClass.taHandle (.ta taCertDetails)
      nextClassName := self.nextClassName + 1
      resources := self.resources.insert rcn rc }
  -- being a parent
  | .childAdded child idCert resources =>
    some { self with children := self.children.insert child (.new idCert resources) }
  | .childCertificateIssued child rcn key =>
    self.updateChild child fun details => details.addIssueResponse rcn key
  | .childKeyRevoked child rcn key =>
    (self.updateClass rcn fun rc => some (rc.keyRevoked key)).bind fun self =>
      self.updateChild child fun details => details.addRevokeResponse key
  | .childCertificatesUpdated rcn updates =>
    (self.updateClass rcn fun rc => some (certificatesUpdated rc updates)).map fun self =>
      { self with children := revokeResponses self.children updates.removed }
  | .childUpdatedIdCert child idCert =>
    self.updateChild child fun details => { details with idCert }
  | .childUpdatedResources child resources =>
    self.updateChild child fun details => { details with resources }
  | .childRemoved child => some { self with children := self.children.remove child }
  | .childSuspended child => self.updateChild child ChildDetails.suspend
  | .childUnsuspended child => self.updateChild child ChildDetails.unsuspend
  -- being a child
  | .idUpdated id => some { self with id }
  | .parentAdded parent contact | .parentUpdated parent contact =>
    some { self with parents := self.parents.insert parent contact }
  | .parentRemoved parent =>
    some { self with
      parents := self.parents.remove parent
      resources := self.resources.filter fun _ rc => rc.parentHandle != parent }
  | .resourceClassAdded rcn parent parentRcn pendingKey =>
    let rc := ResourceClass.create env.now rcn rcn parent parentRcn pendingKey
    some { self with
      nextClassName := self.nextClassName + 1
      resources := self.resources.insert rcn rc }
  | .resourceClassRemoved rcn _ _ => some { self with resources := self.resources.remove rcn }
  | .certificateRequested rcn request key =>
    self.updateClass rcn fun rc => some (rc.addRequest key request)
  | .certificateReceived rcn cert key => self.updateClass rcn fun rc => rc.receivedCert key cert
  -- key life cycle
  | .keyRollPendingKeyAdded rcn pendingKey =>
    self.updateClass rcn fun rc => rc.pendingKeyIdAdded pendingKey
  | .keyPendingToNew rcn newKey => self.updateClass rcn fun rc => rc.pendingKeyToNew newKey
  | .keyPendingToActive rcn currentKey =>
    self.updateClass rcn fun rc => rc.pendingKeyToActive currentKey
  | .keyRollActivated rcn revokeReq => self.updateClass rcn fun rc => rc.newKeyActivated revokeReq
  | .keyRollFinished rcn => self.updateClass rcn ResourceClass.oldKeyRemoved
  | .unexpectedKeyFound _ _ => some self
  -- route authorizations
  | .routeAuthorizationAdded auth => some { self with routes := self.routes.add env.now auth }
  | .routeAuthorizationComment auth comment =>
    some { self with routes := self.routes.comment auth comment }
  | .routeAuthorizationRemoved auth => some { self with routes := self.routes.remove auth }
  | .roasUpdated rcn updates =>
    self.updateClass rcn fun rc => some (rc.roasUpdated env.order updates)
  -- ASPA
  | .aspaConfigAdded aspaConfig => some { self with aspas := self.aspas.addOrReplace aspaConfig }
  | .aspaConfigUpdated customer update =>
    (self.aspas.applyUpdate customer update).map fun aspas => { self with aspas }
  | .aspaConfigRemoved customer => some { self with aspas := self.aspas.remove customer }
  | .aspaObjectsUpdated rcn updates =>
    self.updateClass rcn fun rc => some (rc.aspaObjectsUpdated updates)
  -- BGPsec
  | .bgpSecDefinitionAdded key csr | .bgpSecDefinitionUpdated key csr =>
    some { self with bgpsecDefs := self.bgpsecDefs.addOrReplace key csr }
  | .bgpSecDefinitionRemoved key => some { self with bgpsecDefs := self.bgpsecDefs.remove key }
  | .bgpSecCertificatesUpdated rcn updates =>
    self.updateClass rcn fun rc => some (rc.bgpsecCertificatesUpdated updates)
  -- publication
  | .repoUpdated contact =>
    let resources := match self.repository with
      | some current => self.resources.mapValues fun rc => rc.setOldRepo current.repoInfo
      | none => self.resources
    some { self with resources, repository := some contact }
  -- resource tagged attestations
  | .rtaPrepared name prepared => some { self with rtas := self.rtas.addPrepared name prepared }
  | .rtaSigned name rta => some { self with rtas := self.rtas.addSigned name rta }

def apply (env : Surroundings) (self : CertAuth) (event : CaEvt) : Option CertAuth :=
  applyDetails { self with version := self.version + 1 } env event.details

def applyAll (env : Surroundings) (self : CertAuth) (events : List CaEvt) : Option CertAuth :=
  events.foldlM (apply env) self

end CertAuth

end Krill.Ca
