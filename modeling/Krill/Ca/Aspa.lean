import Krill.Ca.Signing

namespace Krill.Ca

open EventSourcing (Time)
open Rpki KrillSigner

variable [Rpki]

structure AspaDefinitions where
  attestations : Keyed AspaDefinition.customer

namespace AspaDefinitions

def default : AspaDefinitions := { attestations := .empty }

def addOrReplace (self : AspaDefinitions) (definition : AspaDefinition) : AspaDefinitions where
  attestations := self.attestations.insert definition

def remove (self : AspaDefinitions) (customer : AspaCustomer) : AspaDefinitions where
  attestations := self.attestations.remove customer

def get (self : AspaDefinitions) (customer : AspaCustomer) : Option AspaDefinition :=
  self.attestations.get customer

def has (self : AspaDefinitions) (customer : AspaCustomer) : Bool :=
  self.attestations.containsKey customer

def all (self : AspaDefinitions) (order : IterOrder) : List AspaDefinition :=
  self.attestations.values order

/-- Apply an update, assuming that it was verified beforehand: there is no value if the
customer is not defined. -/
def applyUpdate (self : AspaDefinitions) (customer : AspaCustomer)
    (update : AspaProvidersUpdate) : Option AspaDefinitions :=
  (self.get customer).map fun current => self.addOrReplace (current.applyUpdate update)

end AspaDefinitions

structure AspaInfo where
  definition : AspaDefinition
  validity : Validity
  serial : Serial
  uri : Rsync
  base64 : Base64
  hash : Hash
  deriving DecidableEq

namespace AspaInfo

def customer (self : AspaInfo) : AspaCustomer := self.definition.customer

def expires (self : AspaInfo) : Time := self.validity.notAfter

end AspaInfo

structure AspaObjectsUpdates where
  updated : List AspaInfo
  removed : List AspaCustomer
  deriving DecidableEq

namespace AspaObjectsUpdates

def default : AspaObjectsUpdates := { updated := [], removed := [] }

def isEmpty (self : AspaObjectsUpdates) : Bool := self.updated.isEmpty && self.removed.isEmpty

def containsChanges (self : AspaObjectsUpdates) : Bool := !self.isEmpty

end AspaObjectsUpdates

structure AspaObjects where
  objects : Keyed AspaInfo.customer

namespace AspaObjects

def default : AspaObjects := { objects := .empty }

def updated (self : AspaObjects) (updates : AspaObjectsUpdates) : AspaObjects where
  objects := updates.removed.foldl Keyed.remove (updates.updated.foldl Keyed.insert self.objects)

variable [KrillSigner]

def makeAspa (env : Surroundings) (definition : AspaDefinition) (certifiedKey : CertifiedKey)
    (timing : IssuanceTimingConfig) : SignM AspaInfo := do
  let incomingCert := certifiedKey.incomingCert
  let validity := timing.newAspaValidity env
  let uri := incomingCert.uriForName (.aspa definition.customer)
  if let .error message := aspaBuilder definition.customer definition.providers then
    throw (.custom ("Cannot use aspa config: " ++ message))
  let serial ← signing randomSerial
  let object : SignedObjectBuilder :=
    { serial, validity, crlUri := incomingCert.crlUri, caIssuer := incomingCert.uri,
      signedObject := uri, issuer := incomingCert.subject, signingTime := env.now }
  let base64 ← signing (sign (.aspa definition object) certifiedKey.keyId)
  return { definition, validity, serial, uri, base64, hash := toHash base64 }

/-- New and changed objects for the definitions in scope, and the removal of objects for
which there is no definition or the AS is not held. -/
def update (self : AspaObjects) (env : Surroundings) (allAspaDefs : AspaDefinitions)
    (certifiedKey : CertifiedKey) (config : Config) : SignM AspaObjectsUpdates := do
  let resources := certifiedKey.incomingCert.resources
  let relevant := (allAspaDefs.all env.order).filter fun aspa =>
    containsAsn resources aspa.customer
  let needed := relevant.filter fun aspa =>
    match self.objects.get aspa.customer with
    | some existing => existing.definition != aspa
    | none => true
  let updated ← needed.mapM fun aspa => makeAspa env aspa certifiedKey config.issuanceTiming
  let removed := (self.objects.keys env.order).filter fun customer =>
    !allAspaDefs.has customer || !containsAsn resources customer
  return { updated, removed }

def renew (self : AspaObjects) (env : Surroundings) (certifiedKey : CertifiedKey)
    (renewThreshold : Option Time) (timing : IssuanceTimingConfig) :
    SignM AspaObjectsUpdates := do
  let due := (self.objects.values env.order).filter fun aspa =>
    match renewThreshold with
    | some threshold => decide (aspa.expires < threshold)
    | none => true
  let updated ← due.mapM fun aspa => makeAspa env aspa.definition certifiedKey timing
  return { updated, removed := [] }

end AspaObjects

end Krill.Ca
