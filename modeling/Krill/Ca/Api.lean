import Krill.Ca.ObjectName
import Mathlib.Data.List.Sort

namespace Krill.Ca

open EventSourcing (Time)
open Rpki

variable [Rpki]

structure RoaConfiguration where
  payload : RoaPayload
  comment : Option String
  deriving DecidableEq

namespace RoaConfiguration

def intoExplicitMaxLength (self : RoaConfiguration) : RoaConfiguration :=
  { self with payload := self.payload.intoExplicitMaxLength }

end RoaConfiguration

structure RoaConfigurationUpdates where
  added : List RoaConfiguration
  removed : List RoaPayload
  deriving DecidableEq

namespace RoaConfigurationUpdates

def intoExplicitMaxLength (self : RoaConfigurationUpdates) : RoaConfigurationUpdates where
  added := self.added.map RoaConfiguration.intoExplicitMaxLength
  removed := self.removed.map RoaPayload.intoExplicitMaxLength

end RoaConfigurationUpdates

structure RoaDeltaError where
  duplicates : List RoaConfiguration := []
  notheld : List RoaConfiguration := []
  unknowns : List RoaPayload := []
  invalidLength : List RoaConfiguration := []
  deriving DecidableEq

namespace RoaDeltaError

def addDuplicate (self : RoaDeltaError) (addition : RoaConfiguration) : RoaDeltaError :=
  { self with duplicates := self.duplicates ++ [addition] }

def addNotheld (self : RoaDeltaError) (addition : RoaConfiguration) : RoaDeltaError :=
  { self with notheld := self.notheld ++ [addition] }

def addUnknown (self : RoaDeltaError) (removal : RoaPayload) : RoaDeltaError :=
  { self with unknowns := self.unknowns ++ [removal] }

def addInvalidLength (self : RoaDeltaError) (invalid : RoaConfiguration) : RoaDeltaError :=
  { self with invalidLength := self.invalidLength ++ [invalid] }

def isEmpty (self : RoaDeltaError) : Bool :=
  self.duplicates.isEmpty && self.notheld.isEmpty && self.unknowns.isEmpty &&
    self.invalidLength.isEmpty

end RoaDeltaError

abbrev AspaCustomer := Asn

structure AspaProvidersUpdate where
  added : List ProviderAs
  removed : List ProviderAs
  deriving DecidableEq

namespace AspaProvidersUpdate

def isEmpty (self : AspaProvidersUpdate) : Bool :=
  self.added.isEmpty && self.removed.isEmpty

def containsChanges (self : AspaProvidersUpdate) : Bool := !self.isEmpty

end AspaProvidersUpdate

structure AspaProvidersUpdateConflict where
  duplicates : List ProviderAs := []
  unknowns : List ProviderAs := []
  deriving DecidableEq

namespace AspaProvidersUpdateConflict

def isEmpty (self : AspaProvidersUpdateConflict) : Bool :=
  self.duplicates.isEmpty && self.unknowns.isEmpty

end AspaProvidersUpdateConflict

structure AspaDefinition where
  customer : AspaCustomer
  providers : List ProviderAs
  deriving DecidableEq

namespace AspaDefinition

def verifyUpdate (self : AspaDefinition) (update : AspaProvidersUpdate) :
    Except AspaProvidersUpdateConflict Unit :=
  let conflict : AspaProvidersUpdateConflict :=
    { unknowns := update.removed.filter fun removed => !self.providers.contains removed
      duplicates := update.added.filter fun added =>
        self.providers.any fun existing => existing.provider == added.provider }
  if conflict.isEmpty then .ok () else .error conflict

def applyUpdate (self : AspaDefinition) (update : AspaProvidersUpdate) : AspaDefinition :=
  let remaining := update.removed.foldl
    (fun providers removed => providers.filter fun provider => provider != removed)
    self.providers
  { self with
    providers := (remaining ++ update.added).insertionSort
      fun left right => left.provider ≤ right.provider }

end AspaDefinition

structure AspaDefinitionUpdates where
  addOrReplace : List AspaDefinition
  remove : List AspaCustomer
  deriving DecidableEq

structure BgpSecDefinition where
  asn : Asn
  csr : BgpsecCsr
  deriving DecidableEq

def BgpSecAsnKey.ofDefinition (definition : BgpSecDefinition) : BgpSecAsnKey where
  asn := definition.asn
  key := keyIdentifier definition.csr.publicKey

structure BgpSecDefinitionUpdates where
  add : List BgpSecDefinition
  remove : List BgpSecAsnKey
  deriving DecidableEq

structure RepositoryContact where
  repoInfo : RepoInfo
  serverInfo : PublicationServerInfo
  deriving DecidableEq

structure IssuanceRequest where
  className : ResourceClassName
  limit : RequestResourceLimit
  csr : RpkiCaCsr
  deriving DecidableEq

def IssuanceRequest.key (self : IssuanceRequest) : KeyIdentifier :=
  keyIdentifier self.csr.publicKey

structure RevocationRequest where
  className : ResourceClassName
  key : KeyIdentifier
  deriving DecidableEq

/-- What a parent lists for one resource class. Of the certificates it issued only the
keys are used. -/
structure ResourceClassEntitlements where
  className : ResourceClassName
  resourceSet : ResourceSet
  notAfter : Time
  issuedKeys : List KeyIdentifier
  deriving DecidableEq

abbrev ResourceClassListResponse := List ResourceClassEntitlements

abbrev RtaName := String

structure RtaContentRequest where
  resources : ResourceSet
  validity : Validity
  subjectKeys : List KeyIdentifier
  content : Base64
  deriving DecidableEq

structure RtaPrepareRequest where
  resources : ResourceSet
  validity : Validity
  deriving DecidableEq

inductive Error where
  | signer (message : String)
  | custom (message : String)
  | repoNotSet
  | caChildUnknown (ca : CaHandle) (child : ChildHandle)
  | caChildMustHaveResources (ca : CaHandle) (child : ChildHandle)
  | caChildExtraResources (ca : CaHandle) (child : ChildHandle)
  | caChildDuplicate (ca : CaHandle) (child : ChildHandle)
  | caParentUnknown (ca : CaHandle) (parent : ParentHandle)
  | caParentDuplicateName (ca : CaHandle) (parent : ParentHandle)
  | caParentDuplicateInfo (ca : CaHandle) (parent : ParentHandle)
  | taNotAllowed
  | invalidCsr (message : String)
  | resourceSetError
  | missingResources
  | resourceClassUnknown (rcn : ResourceClassName)
  | keyUseNoCurrentKey
  | keyUseNoNewKey
  | keyUseNoOldKey
  | keyUseNoMatch (key : KeyIdentifier)
  | keyUseNoIssuedCert
  | keyUseAttemptReuse
  | keyRollNotAllowed
  | caRepoInUse (ca : CaHandle)
  | roaDeltaError (ca : CaHandle) (errors : RoaDeltaError)
  | aspaCustomerUnknown (ca : CaHandle) (customer : AspaCustomer)
  | aspaCustomerAsNotEntitled (ca : CaHandle) (customer : AspaCustomer)
  | aspaProvidersUpdateEmpty (ca : CaHandle) (customer : AspaCustomer)
  | aspaProvidersUpdateConflict (ca : CaHandle) (conflict : AspaProvidersUpdateConflict)
  | bgpSecDefinitionUnknown (ca : CaHandle) (key : BgpSecAsnKey)
  | bgpSecDefinitionInvalidlySigned (ca : CaHandle) (definition : BgpSecDefinition)
  | bgpSecDefinitionNotEntitled (ca : CaHandle) (key : BgpSecAsnKey)
  | rtaResourcesNotHeld
  | publishing (message : String)
  deriving DecidableEq

end Krill.Ca
