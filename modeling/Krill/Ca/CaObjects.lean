import Krill.Ca.Publishing
import Krill.Ca.CertAuth

namespace Krill.Ca

variable [Rpki]

structure DeprecatedRepository where
  contact : RepositoryContact
  cleanAttempts : Nat
  deriving DecidableEq

def DeprecatedRepository.incCleanAttempts (self : DeprecatedRepository) :
    DeprecatedRepository :=
  { self with cleanAttempts := self.cleanAttempts + 1 }

structure CaObjects where
  ca : CaHandle
  repo : Option RepositoryContact
  classes : HashMap ResourceClassName ResourceClassObjects
  deprecatedRepos : List DeprecatedRepository

namespace CaObjects

def new (ca : CaHandle) : CaObjects :=
  { ca, repo := none, classes := .empty, deprecatedRepos := [] }

def hasOldRepo (self : CaObjects) (oldRepo : RepositoryContact) : Bool :=
  self.classes.values.any fun rco => rco.hasOldRepo oldRepo

def deprecateRepoIfNoLongerUsed (self : CaObjects) : Option RepositoryContact → CaObjects
  | none => self
  | some oldRepo =>
    if self.hasOldRepo oldRepo then self
    else
      { self with deprecatedRepos :=
          self.deprecatedRepos ++ [{ contact := oldRepo, cleanAttempts := 0 }] }

def getClass (self : CaObjects) (rcn : ResourceClassName) : Except Error ResourceClassObjects :=
  match self.classes.get rcn with
  | some rco => .ok rco
  | none => .error (.publishing "Missing resource class")

def setClass (self : CaObjects) (rcn : ResourceClassName) (rco : ResourceClassObjects) :
    CaObjects :=
  { self with classes := self.classes.insert rcn rco }

def updateClass (self : CaObjects) (rcn : ResourceClassName)
    (change : ResourceClassObjects → Except Error ResourceClassObjects) :
    Except Error CaObjects := do
  let rco ← self.getClass rcn
  return self.setClass rcn (← change rco)

def removeClass (self : CaObjects) (rcn : ResourceClassName) : CaObjects :=
  deprecateRepoIfNoLongerUsed { self with classes := self.classes.remove rcn }
    ((self.classes.get rcn).bind ResourceClassObjects.oldRepo)

def keyrollActivate (self : CaObjects) (env : Surroundings) (rcn : ResourceClassName) :
    Except Error CaObjects :=
  self.updateClass rcn fun rco => rco.keyrollActivate env

def keyrollFinish (self : CaObjects) (rcn : ResourceClassName) : Except Error CaObjects := do
  let rco ← self.getClass rcn
  let (finished, oldRepo) ← rco.keyrollFinish
  return (self.setClass rcn finished).deprecateRepoIfNoLongerUsed oldRepo

def updateRoas (self : CaObjects) (env : Surroundings) (rcn : ResourceClassName)
    (updates : RoaUpdates) : Except Error CaObjects :=
  self.updateClass rcn fun rco => .ok (rco.updateRoas env updates)

def updateAspas (self : CaObjects) (env : Surroundings) (rcn : ResourceClassName)
    (updates : AspaObjectsUpdates) : Except Error CaObjects :=
  self.updateClass rcn fun rco => .ok (rco.updateAspas env updates)

def updateBgpsecCerts (self : CaObjects) (env : Surroundings) (rcn : ResourceClassName)
    (updates : BgpSecCertificateUpdates) : Except Error CaObjects :=
  self.updateClass rcn fun rco => .ok (rco.updateBgpsecCerts env updates)

def updateCerts (self : CaObjects) (env : Surroundings) (rcn : ResourceClassName)
    (updates : ChildCertificateUpdates) : Except Error CaObjects :=
  self.updateClass rcn fun rco => .ok (rco.updateCerts env updates)

def updateReceivedCert (self : CaObjects) (rcn : ResourceClassName) (cert : ReceivedCert) :
    Except Error CaObjects :=
  self.updateClass rcn fun rco => rco.updateReceivedCert cert

def updateRepo (self : CaObjects) (repo : RepositoryContact) : CaObjects :=
  let classes := match self.repo with
    | some old => self.classes.mapValues fun rco => rco.setOldRepo old
    | none => self.classes
  { self with classes, repo := some repo }

/-- Forget a repository that was cleaned, or for which cleaning was given up. -/
def deprecatedRepoRemove (self : CaObjects) (toRemove : RepositoryContact) : CaObjects :=
  { self with deprecatedRepos :=
      self.deprecatedRepos.filter fun current => current.contact != toRemove }

def deprecatedRepoIncCleanAttempts (self : CaObjects) (contact : RepositoryContact) :
    CaObjects :=
  { self with deprecatedRepos := self.deprecatedRepos.map fun current =>
      if current.contact == contact then current.incCleanAttempts else current }

variable [KrillSigner]

def addClass (self : CaObjects) (env : Surroundings) (rcn : ResourceClassName)
    (key : CertifiedKey) (timing : IssuanceTimingConfig) : SignM CaObjects :=
  if self.classes.containsKey rcn then throw (.publishing "Duplicate resource class")
  else do
    let rco ← ResourceClassObjects.create env key timing
    return self.setClass rcn rco

def keyrollStage (self : CaObjects) (env : Surroundings) (rcn : ResourceClassName)
    (key : CertifiedKey) (timing : IssuanceTimingConfig) : SignM CaObjects := do
  let rco ← liftExcept (self.getClass rcn)
  let staged ← rco.keyrollStage env key timing
  return self.setClass rcn staged

def reIssue (self : CaObjects) (env : Surroundings) (force : Bool)
    (timing : IssuanceTimingConfig) : SignM CaObjects := do
  let hoursBefore := timing.timingPublishHoursBeforeNext
  let reissued ← (self.classes.iter env.order).mapM fun (rcn, rco) => do
    if force || rco.requiresReIssuance env.now hoursBefore then
      return (rcn, ← rco.reissue env timing)
    else return (rcn, rco)
  return { self with classes := self.classes.insertAll reissued }

/-- What one event changes, and whether it forces new manifests and CRLs. -/
def listenEvent (self : CaObjects) (env : Surroundings) (timing : IssuanceTimingConfig) :
    CaEvtDet → SignM (CaObjects × Bool)
  | .roasUpdated rcn updates => do return (← liftExcept (self.updateRoas env rcn updates), true)
  | .aspaObjectsUpdated rcn updates => do
    return (← liftExcept (self.updateAspas env rcn updates), true)
  | .bgpSecCertificatesUpdated rcn updates => do
    return (← liftExcept (self.updateBgpsecCerts env rcn updates), true)
  | .childCertificatesUpdated rcn updates => do
    return (← liftExcept (self.updateCerts env rcn updates), true)
  | .keyPendingToActive rcn currentKey => do
    return (← self.addClass env rcn currentKey timing, false)
  | .keyPendingToNew rcn newKey => do
    return (← self.keyrollStage env rcn newKey timing, false)
  | .keyRollActivated rcn _ => do return (← liftExcept (self.keyrollActivate env rcn), true)
  | .keyRollFinished rcn => do return (← liftExcept (self.keyrollFinish rcn), false)
  | .certificateReceived rcn cert _ => do
    return (← liftExcept (self.updateReceivedCert rcn cert), false)
  | .resourceClassRemoved rcn _ _ => return (self.removeClass rcn, true)
  | .repoUpdated contact => return (self.updateRepo contact, true)
  | _ => return (self, false)

def listenEvents (env : Surroundings) (timing : IssuanceTimingConfig) :
    List CaEvt → CaObjects → Bool → SignM (CaObjects × Bool)
  | [], objects, forceReissue => return (objects, forceReissue)
  | event :: rest, objects, forceReissue => do
    let (objects, forced) ← objects.listenEvent env timing event.details
    listenEvents env timing rest objects (forceReissue || forced)

def listen (self : CaObjects) (env : Surroundings) (timing : IssuanceTimingConfig)
    (events : List CaEvt) : SignM CaObjects := do
  let (objects, forceReissue) ← listenEvents env timing events self false
  objects.reIssue env forceReissue timing

end CaObjects

structure CaObjectsStore where
  store : HashMap CaHandle CaObjects
  issuanceTiming : IssuanceTimingConfig

namespace CaObjectsStore

def caObjects (self : CaObjectsStore) (ca : CaHandle) : CaObjects :=
  (self.store.get ca).getD (.new ca)

def putCaObjects (self : CaObjectsStore) (ca : CaHandle) (objects : CaObjects) :
    CaObjectsStore :=
  { self with store := self.store.insert ca objects }

variable [KrillSigner]

def withCaObjects (self : CaObjectsStore) (ca : CaHandle) (op : CaObjects → SignM CaObjects) :
    SignM CaObjectsStore := do
  let objects ← op (self.caObjects ca)
  return { self with store := self.store.insert ca objects }

def listen (self : CaObjectsStore) (env : Surroundings) (ca : CertAuth) (events : List CaEvt) :
    SignM CaObjectsStore :=
  self.withCaObjects ca.handle fun objects => objects.listen env self.issuanceTiming events

/-- New manifests and CRLs for the CAs that are stored, one CA after the other. -/
def reissueAll (self : CaObjectsStore) (env : Surroundings) (force : Bool) :
    SignM CaObjectsStore :=
  ((self.store.iter env.order).map Prod.fst).foldlM (fun store ca =>
    store.withCaObjects ca fun objects =>
      objects.reIssue env force store.issuanceTiming) self

end CaObjectsStore

end Krill.Ca
