import Krill.Ca.Keys
import Krill.Ca.Routes
import Krill.Ca.Aspa
import Krill.Ca.BgpSec
import Krill.Ca.Child

namespace Krill.Ca

open EventSourcing (Time)
open Rpki

variable [Rpki]

structure Rfc8183Id where
  cert : IdCertInfo
  deriving DecidableEq

structure TrustAnchorLocator where
  uris : List Https
  rsyncUri : Rsync
  encodedSki : Base64
  deriving DecidableEq

structure TaCertDetails where
  cert : ReceivedCert
  tal : TrustAnchorLocator
  deriving DecidableEq

inductive ParentCaContact where
  | ta (details : TaCertDetails)
  | rfc6492 (info : ParentServerInfo)
  deriving DecidableEq

structure Revocation where
  serial : Serial
  revocationDate : Time
  expires : Time
  deriving DecidableEq

structure PreparedRta where
  resources : ResourceSet
  validity : Validity
  keys : HashMap ResourceClassName KeyIdentifier

structure SignedRta where
  resources : ResourceSet
  revocationInfo : HashMap ResourceClassName Revocation
  rta : Rta

inductive CaEvtDet where
  -- being a trust anchor
  | trustAnchorMade (taCertDetails : TaCertDetails)
  -- being a parent
  | childAdded (child : ChildHandle) (idCert : IdCertInfo) (resources : ResourceSet)
  | childCertificateIssued (child : ChildHandle) (rcn : ResourceClassName) (key : KeyIdentifier)
  | childKeyRevoked (child : ChildHandle) (rcn : ResourceClassName) (key : KeyIdentifier)
  | childCertificatesUpdated (rcn : ResourceClassName) (updates : ChildCertificateUpdates)
  | childUpdatedIdCert (child : ChildHandle) (idCert : IdCertInfo)
  | childUpdatedResources (child : ChildHandle) (resources : ResourceSet)
  | childRemoved (child : ChildHandle)
  | childSuspended (child : ChildHandle)
  | childUnsuspended (child : ChildHandle)
  -- being a child
  | idUpdated (id : Rfc8183Id)
  | parentAdded (parent : ParentHandle) (contact : ParentCaContact)
  | parentUpdated (parent : ParentHandle) (contact : ParentCaContact)
  | parentRemoved (parent : ParentHandle)
  | resourceClassAdded (rcn : ResourceClassName) (parent : ParentHandle)
      (parentRcn : ResourceClassName) (pendingKey : KeyIdentifier)
  | resourceClassRemoved (rcn : ResourceClassName) (parent : ParentHandle)
      (revokeRequests : List RevocationRequest)
  | certificateRequested (rcn : ResourceClassName) (request : IssuanceRequest)
      (key : KeyIdentifier)
  | certificateReceived (rcn : ResourceClassName) (cert : ReceivedCert) (key : KeyIdentifier)
  -- key life cycle
  | keyRollPendingKeyAdded (rcn : ResourceClassName) (pendingKey : KeyIdentifier)
  | keyPendingToNew (rcn : ResourceClassName) (newKey : CertifiedKey)
  | keyPendingToActive (rcn : ResourceClassName) (currentKey : CertifiedKey)
  | keyRollActivated (rcn : ResourceClassName) (revokeReq : RevocationRequest)
  | keyRollFinished (rcn : ResourceClassName)
  | unexpectedKeyFound (rcn : ResourceClassName) (revokeReq : RevocationRequest)
  -- route authorizations
  | routeAuthorizationAdded (auth : RoaPayloadJsonMapKey)
  | routeAuthorizationComment (auth : RoaPayloadJsonMapKey) (comment : Option String)
  | routeAuthorizationRemoved (auth : RoaPayloadJsonMapKey)
  | roasUpdated (rcn : ResourceClassName) (updates : RoaUpdates)
  -- ASPA
  | aspaConfigAdded (aspaConfig : AspaDefinition)
  | aspaConfigUpdated (customer : AspaCustomer) (update : AspaProvidersUpdate)
  | aspaConfigRemoved (customer : AspaCustomer)
  | aspaObjectsUpdated (rcn : ResourceClassName) (updates : AspaObjectsUpdates)
  -- BGPsec
  | bgpSecDefinitionAdded (key : BgpSecAsnKey) (csr : StoredBgpSecCsr)
  | bgpSecDefinitionUpdated (key : BgpSecAsnKey) (csr : StoredBgpSecCsr)
  | bgpSecDefinitionRemoved (key : BgpSecAsnKey)
  | bgpSecCertificatesUpdated (rcn : ResourceClassName) (updates : BgpSecCertificateUpdates)
  -- publication
  | repoUpdated (contact : RepositoryContact)
  -- resource tagged attestations
  | rtaSigned (name : RtaName) (rta : SignedRta)
  | rtaPrepared (name : RtaName) (prepared : PreparedRta)

structure StoredEvent where
  handle : CaHandle
  version : Nat
  details : CaEvtDet

abbrev CaEvt := StoredEvent

end Krill.Ca
