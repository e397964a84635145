import Krill.Ca.Events

namespace Krill.Ca

open EventSourcing (Time)
open Rpki KrillSigner

variable [Rpki]

/-! The objects that a CA publishes. They are kept in a store of their own, which listens to
the events of the CA before they are saved. -/

abbrev Revocations := List Revocation

namespace Revocations

def toCrlEntries (self : Revocations) : List (Serial × Time) :=
  self.map fun revocation => (revocation.serial, revocation.revocationDate)

def purge (self : Revocations) (now : Time) : Revocations :=
  self.filter fun revocation => revocation.expires > now

def add (self : Revocations) (revocation : Revocation) : Revocations := self ++ [revocation]

def remove (self : Revocations) (revocation : Revocation) : Revocations :=
  self.filter fun existing => existing ≠ revocation

end Revocations

def Revocation.new (now : Time) (serial : Serial) (expires : Time) : Revocation where
  serial := serial
  revocationDate := now
  expires := expires

structure PublishedItem where
  name : ObjectName
  base64 : Base64
  hash : Hash
  serial : Serial
  expires : Time
  deriving DecidableEq

abbrev PublishedManifest := PublishedItem
abbrev PublishedCrl := PublishedItem
abbrev PublishedObject := PublishedItem

namespace PublishedItem

def new (name : ObjectName) (base64 : Base64) (serial : Serial) (expires : Time) :
    PublishedItem :=
  { name, base64, hash := toHash base64, serial, expires }

def revoke (self : PublishedItem) (now : Time) : Revocation :=
  .new now self.serial self.expires

def forRoa (name : ObjectName) (roaInfo : RoaInfo) : PublishedObject :=
  .new name roaInfo.base64 roaInfo.serial roaInfo.expires

def forAspa (name : ObjectName) (aspaInfo : AspaInfo) : PublishedObject :=
  .new name aspaInfo.base64 aspaInfo.serial aspaInfo.expires

def forCertInfo (cert : IssuedCertificate) : PublishedObject :=
  .new cert.name cert.base64 cert.serial cert.expires

def forBgpsecCertInfo (cert : BgpSecCertInfo) : PublishedObject :=
  .new cert.name cert.base64 cert.serial cert.expires

end PublishedItem

structure ObjectSetRevision where
  number : Nat
  thisUpdate : Time
  nextUpdate : Time
  deriving DecidableEq

namespace ObjectSetRevision

def create (env : Surroundings) (timing : IssuanceTimingConfig) : ObjectSetRevision where
  number := 1
  thisUpdate := fiveMinutesAgo env
  nextUpdate := timing.publishNext env

def next (self : ObjectSetRevision) (env : Surroundings) (timing : IssuanceTimingConfig) :
    ObjectSetRevision where
  number := self.number + 1
  thisUpdate := fiveMinutesAgo env
  nextUpdate := timing.publishNext env

end ObjectSetRevision

structure KeyObjectSet where
  signingCert : ReceivedCert
  revision : ObjectSetRevision
  revocations : Revocations
  manifest : PublishedManifest
  crl : PublishedCrl
  publishedObjects : HashMap ObjectName PublishedObject
  oldRepo : Option RepositoryContact

namespace KeyObjectSet

def nextUpdate (self : KeyObjectSet) : Time := self.revision.nextUpdate

def requiresReissuance (self : KeyObjectSet) (now : Time) (hoursBefore : Nat) : Bool :=
  now > self.nextUpdate - hours hoursBefore

def updateSigningCert (self : KeyObjectSet) (cert : ReceivedCert) : Except Error KeyObjectSet :=
  if self.signingCert.keyIdentifier = cert.keyIdentifier then
    .ok { self with signingCert := cert }
  else
    .error (.publishing ("received new cert for unknown key id: " ++ keyText cert.keyIdentifier))

def revokeOld (self : KeyObjectSet) (now : Time) : Option PublishedObject → KeyObjectSet
  | none => self
  | some old => { self with revocations := self.revocations.add (old.revoke now) }

def insertObject (self : KeyObjectSet) (now : Time) (name : ObjectName)
    (object : PublishedObject) : KeyObjectSet :=
  revokeOld { self with publishedObjects := self.publishedObjects.insert name object } now
    (self.publishedObjects.get name)

def removeObject (self : KeyObjectSet) (now : Time) (name : ObjectName) : KeyObjectSet :=
  revokeOld { self with publishedObjects := self.publishedObjects.remove name } now
    (self.publishedObjects.get name)

def updateRoas (self : KeyObjectSet) (env : Surroundings) (roaUpdates : RoaUpdates) :
    KeyObjectSet :=
  let added := ((roaUpdates.addedRoas env.order).iter env.order).foldl
    (fun set (name, roaInfo) => set.insertObject env.now name (.forRoa name roaInfo)) self
  roaUpdates.removedRoas.foldl (fun set name => set.removeObject env.now name) added

def updateAspas (self : KeyObjectSet) (env : Surroundings) (updates : AspaObjectsUpdates) :
    KeyObjectSet :=
  let updated := updates.updated.foldl (fun set aspaInfo =>
    let name := ObjectName.aspa aspaInfo.customer
    set.insertObject env.now name (.forAspa name aspaInfo)) self
  updates.removed.foldl (fun set customer => set.removeObject env.now (ObjectName.aspa customer))
    updated

def updateBgpsecCerts (self : KeyObjectSet) (env : Surroundings)
    (updates : BgpSecCertificateUpdates) : KeyObjectSet :=
  let updated := updates.updated.foldl (fun set cert =>
    set.insertObject env.now cert.name (.forBgpsecCertInfo cert)) self
  updates.removed.foldl (fun set key =>
    set.removeObject env.now (ObjectName.ofBgpSecAsnKey key)) updated

/-- A certificate that comes back is taken off the revocations first. -/
def publishUnsuspended (self : KeyObjectSet) (now : Time) (cert : UnsuspendedCert) :
    KeyObjectSet :=
  let revocation := Revocation.new now cert.serial cert.validity.notAfter
  insertObject { self with revocations := self.revocations.remove revocation } now cert.name
    (.forCertInfo cert)

/-- Certificates are removed, issued, brought back and suspended, in this order. -/
def updateCerts (self : KeyObjectSet) (env : Surroundings) (updates : ChildCertificateUpdates) :
    KeyObjectSet :=
  let removed := updates.removed.foldl (fun set key =>
    set.removeObject env.now (ObjectName.cerForKey key)) self
  let issued := updates.issued.foldl (fun set cert =>
    set.insertObject env.now cert.name (.forCertInfo cert)) removed
  let unsuspended := updates.unsuspended.foldl (fun set cert =>
    set.publishUnsuspended env.now cert) issued
  updates.suspended.foldl (fun set cert => set.removeObject env.now cert.name) unsuspended

def retire (self : KeyObjectSet) (env : Surroundings) : KeyObjectSet :=
  let revoked := (self.publishedObjects.intoValues env.order).foldl
    (fun revocations object => Revocations.add revocations (object.revoke env.now))
    self.revocations
  { self with
    revocations := Revocations.purge revoked env.now
    publishedObjects := .empty }

def setOldRepo (self : KeyObjectSet) (repo : RepositoryContact) : KeyObjectSet :=
  { self with oldRepo := some repo }

variable [KrillSigner]

def buildCrl (aki : KeyIdentifier) (issuer : Name) (revocations : Revocations)
    (revision : ObjectSetRevision) : SignM PublishedCrl := do
  let number := serialFrom revision.number
  let base64 ← signing (sign (.crl issuer revision.thisUpdate revision.nextUpdate
    revocations.toCrlEntries aki number) aki)
  return .new (.crlForKey aki) base64 number revision.nextUpdate

def manifestEntries (crl : PublishedCrl) (order : IterOrder)
    (publishedObjects : HashMap ObjectName PublishedObject) : HashMap ObjectName Hash :=
  let objects := (publishedObjects.iter order).map fun (name, object) => (name, object.hash)
  (HashMap.empty.insert crl.name crl.hash).insertAll objects

def buildNewMft (env : Surroundings) (revision : ObjectSetRevision)
    (entries : HashMap ObjectName Hash) (signingCert : ReceivedCert) :
    SignM PublishedManifest := do
  let aki := signingCert.keyIdentifier
  let serial ← signing randomSerial
  let object : SignedObjectBuilder :=
    { serial, validity := { notBefore := revision.thisUpdate, notAfter := revision.nextUpdate },
      crlUri := signingCert.crlUri, caIssuer := signingCert.uri,
      signedObject := signingCert.mftUri, issuer := signingCert.subject,
      signingTime := env.now }
  let base64 ← signing (sign (.manifest (serialFrom revision.number) revision.thisUpdate
    revision.nextUpdate (entries.iter env.order) object) aki)
  return .new (.mftForKey aki) base64 serial revision.nextUpdate

def create (env : Surroundings) (key : CertifiedKey) (timing : IssuanceTimingConfig) :
    SignM KeyObjectSet := do
  let signingCert := key.incomingCert
  let revision := ObjectSetRevision.create env timing
  let crl ← buildCrl signingCert.keyIdentifier signingCert.subject [] revision
  let manifest ← buildNewMft env revision (manifestEntries crl env.order .empty) signingCert
  return { signingCert, revision, revocations := [], manifest, crl,
           publishedObjects := .empty, oldRepo := none }

def reissue (self : KeyObjectSet) (env : Surroundings) (timing : IssuanceTimingConfig) :
    SignM KeyObjectSet := do
  let revision := self.revision.next env timing
  let revocations := Revocations.purge self.revocations env.now
  let signingCert := self.signingCert
  let crl ← buildCrl signingCert.keyIdentifier signingCert.subject revocations revision
  let entries := manifestEntries crl env.order self.publishedObjects
  let manifest ← buildNewMft env revision entries signingCert
  return { self with revision, revocations, crl, manifest }

end KeyObjectSet

inductive ResourceClassKeyState where
  | current (currentSet : KeyObjectSet)
  | staging (stagingSet currentSet : KeyObjectSet)
  | old (currentSet oldSet : KeyObjectSet)

structure ResourceClassObjects where
  keys : ResourceClassKeyState

def wrongKeyState : Error := .publishing "published resource class in the wrong key state"

namespace ResourceClassKeyState

def currentSet : ResourceClassKeyState → KeyObjectSet
  | .current currentSet | .staging _ currentSet | .old currentSet _ => currentSet

def updateCurrent (self : ResourceClassKeyState) (change : KeyObjectSet → KeyObjectSet) :
    ResourceClassKeyState :=
  match self with
  | .current currentSet => .current (change currentSet)
  | .staging stagingSet currentSet => .staging stagingSet (change currentSet)
  | .old currentSet oldSet => .old (change currentSet) oldSet

def anySet (self : ResourceClassKeyState) (condition : KeyObjectSet → Bool) : Bool :=
  match self with
  | .current currentSet => condition currentSet
  | .staging stagingSet currentSet => condition stagingSet || condition currentSet
  | .old currentSet oldSet => condition oldSet || condition currentSet

def updateReceivedCert (self : ResourceClassKeyState) (cert : ReceivedCert) :
    Except Error ResourceClassKeyState :=
  match self with
  | .current currentSet => do return .current (← currentSet.updateSigningCert cert)
  | .staging stagingSet currentSet =>
    match stagingSet.updateSigningCert cert with
    | .ok stagingSet => .ok (.staging stagingSet currentSet)
    | .error _ => do return .staging stagingSet (← currentSet.updateSigningCert cert)
  | .old currentSet oldSet =>
    match oldSet.updateSigningCert cert with
    | .ok oldSet => .ok (.old currentSet oldSet)
    | .error _ => do return .old (← currentSet.updateSigningCert cert) oldSet

def setOldRepo (self : ResourceClassKeyState) (repo : RepositoryContact) :
    ResourceClassKeyState :=
  match self with
  | .current currentSet => .current (currentSet.setOldRepo repo)
  | .staging stagingSet currentSet =>
    .staging (stagingSet.setOldRepo repo) (currentSet.setOldRepo repo)
  | .old currentSet oldSet => .old (currentSet.setOldRepo repo) (oldSet.setOldRepo repo)

def oldRepo : ResourceClassKeyState → Option RepositoryContact
  | .current currentSet => currentSet.oldRepo
  | .staging stagingSet currentSet => stagingSet.oldRepo.or currentSet.oldRepo
  | .old currentSet oldSet => oldSet.oldRepo.or currentSet.oldRepo

end ResourceClassKeyState

namespace ResourceClassObjects

def updateRoas (self : ResourceClassObjects) (env : Surroundings) (updates : RoaUpdates) :
    ResourceClassObjects where
  keys := self.keys.updateCurrent fun set => set.updateRoas env updates

def updateAspas (self : ResourceClassObjects) (env : Surroundings)
    (updates : AspaObjectsUpdates) : ResourceClassObjects where
  keys := self.keys.updateCurrent fun set => set.updateAspas env updates

def updateBgpsecCerts (self : ResourceClassObjects) (env : Surroundings)
    (updates : BgpSecCertificateUpdates) : ResourceClassObjects where
  keys := self.keys.updateCurrent fun set => set.updateBgpsecCerts env updates

def updateCerts (self : ResourceClassObjects) (env : Surroundings)
    (updates : ChildCertificateUpdates) : ResourceClassObjects where
  keys := self.keys.updateCurrent fun set => set.updateCerts env updates

def updateReceivedCert (self : ResourceClassObjects) (cert : ReceivedCert) :
    Except Error ResourceClassObjects := do
  return { keys := ← self.keys.updateReceivedCert cert }

def keyrollActivate (self : ResourceClassObjects) (env : Surroundings) :
    Except Error ResourceClassObjects :=
  match self.keys with
  | .staging stagingSet currentSet => .ok { keys := .old stagingSet (currentSet.retire env) }
  | _ => .error wrongKeyState

def keyrollFinish (self : ResourceClassObjects) :
    Except Error (ResourceClassObjects × Option RepositoryContact) :=
  match self.keys with
  | .old currentSet oldSet => .ok ({ keys := .current currentSet }, oldSet.oldRepo)
  | _ => .error wrongKeyState

def requiresReIssuance (self : ResourceClassObjects) (now : Time) (hoursBefore : Nat) : Bool :=
  self.keys.anySet fun set => set.requiresReissuance now hoursBefore

def nextUpdateTime (self : ResourceClassObjects) : Time := self.keys.currentSet.nextUpdate

def setOldRepo (self : ResourceClassObjects) (repo : RepositoryContact) :
    ResourceClassObjects where
  keys := self.keys.setOldRepo repo

def hasOldRepo (self : ResourceClassObjects) (repo : RepositoryContact) : Bool :=
  self.keys.anySet fun set => set.oldRepo = some repo

def oldRepo (self : ResourceClassObjects) : Option RepositoryContact := self.keys.oldRepo

variable [KrillSigner]

def create (env : Surroundings) (key : CertifiedKey) (timing : IssuanceTimingConfig) :
    SignM ResourceClassObjects := do
  let currentSet ← KeyObjectSet.create env key timing
  return { keys := .current currentSet }

def keyrollStage (self : ResourceClassObjects) (env : Surroundings) (key : CertifiedKey)
    (timing : IssuanceTimingConfig) : SignM ResourceClassObjects :=
  match self.keys with
  | .current currentSet => do
    let stagingSet ← KeyObjectSet.create env key timing
    return { keys := .staging stagingSet currentSet }
  | _ => throw wrongKeyState

def reissue (self : ResourceClassObjects) (env : Surroundings) (timing : IssuanceTimingConfig) :
    SignM ResourceClassObjects :=
  match self.keys with
  | .current currentSet => do
    let currentSet ← currentSet.reissue env timing
    return { keys := .current currentSet }
  | .staging stagingSet currentSet => do
    let stagingSet ← stagingSet.reissue env timing
    let currentSet ← currentSet.reissue env timing
    return { keys := .staging stagingSet currentSet }
  | .old currentSet oldSet => do
    let oldSet ← oldSet.reissue env timing
    let currentSet ← currentSet.reissue env timing
    return { keys := .old currentSet oldSet }

end ResourceClassObjects

end Krill.Ca
