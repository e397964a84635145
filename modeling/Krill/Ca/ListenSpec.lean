import Krill.Ca.CaObjects
import Krill.Ca.EventSpec

namespace Krill.Ca

open EventSourcing (Time)
open Rpki KrillSigner
open Stateful (Triple)

variable [Rpki]

def Error.IsSigner : Error → Prop
  | .signer _ => True
  | _ => False

def CaEvtDet.onSet (env : Surroundings) (event : CaEvtDet) (set : KeyObjectSet) :
    KeyObjectSet :=
  match event with
  | .roasUpdated _ updates => set.updateRoas env updates
  | .aspaObjectsUpdated _ updates => set.updateAspas env updates
  | .bgpSecCertificatesUpdated _ updates => set.updateBgpsecCerts env updates
  | .childCertificatesUpdated _ updates => set.updateCerts env updates
  | _ => set

def CaEvtDet.isObjects : CaEvtDet → Bool
  | .roasUpdated _ _
  | .aspaObjectsUpdated _ _
  | .bgpSecCertificatesUpdated _ _
  | .childCertificatesUpdated _ _ => true
  | _ => false

structure KeyObjectSet.IsNew (set : KeyObjectSet) (key : CertifiedKey) : Prop where
  signingCert : set.signingCert = key.incomingCert
  revocations : set.revocations = []
  publishedObjects : set.publishedObjects = .empty
  oldRepo : set.oldRepo = none

/-- Sets that differ at most in their revision, manifest and CRL, and in revocations that
have expired. -/
structure KeyObjectSet.Renewed (now : Time) (before after : KeyObjectSet) : Prop where
  signingCert : after.signingCert = before.signingCert
  revocations : after.revocations = before.revocations ∨
    after.revocations = Revocations.purge before.revocations now
  publishedObjects : after.publishedObjects = before.publishedObjects
  oldRepo : after.oldRepo = before.oldRepo

theorem KeyObjectSet.Renewed.refl (now : Time) (set : KeyObjectSet) : Renewed now set set :=
  ⟨rfl, .inl rfl, rfl, rfl⟩

namespace ResourceClassObjects

inductive EachSet (related : KeyObjectSet → KeyObjectSet → Prop) :
    ResourceClassObjects → ResourceClassObjects → Prop
  | current {set : KeyObjectSet} (same : related set set') :
      EachSet related ⟨.current set⟩ ⟨.current set'⟩
  | staging {set : KeyObjectSet} (sameNew : related new new') (same : related set set') :
      EachSet related ⟨.staging new set⟩ ⟨.staging new' set'⟩
  | old {set : KeyObjectSet} (same : related set set') (sameOld : related old old') :
      EachSet related ⟨.old set old⟩ ⟨.old set' old'⟩

theorem EachSet.refl (same : ∀ set, related set set) (rco : ResourceClassObjects) :
    EachSet related rco rco := by
  obtain ⟨set | ⟨new, set⟩ | ⟨set, old⟩⟩ := rco
  · exact .current (same set)
  · exact .staging (same new) (same set)
  · exact .old (same set) (same old)

theorem setOldRepo_eachSet (rco : ResourceClassObjects) (repo : RepositoryContact) :
    EachSet (fun before after => after = before.setOldRepo repo) rco (rco.setOldRepo repo) := by
  obtain ⟨set | ⟨new, set⟩ | ⟨set, old⟩⟩ := rco
  · exact .current rfl
  · exact .staging rfl rfl
  · exact .old rfl rfl

end ResourceClassObjects

/-- What becomes of the objects of a class when an event about the class is followed. -/
inductive Follows (env : Surroundings) :
    CaEvtDet → Option ResourceClassObjects → Option ResourceClassObjects → Prop
  | updated (objects : event.isObjects) :
      Follows env event (some ⟨keys⟩) (some ⟨keys.updateCurrent (event.onSet env)⟩)
  | added {set : KeyObjectSet} (isNew : set.IsNew key) :
      Follows env (.keyPendingToActive rcn key) none (some ⟨.current set⟩)
  | staged {set : KeyObjectSet} (isNew : new.IsNew key) :
      Follows env (.keyPendingToNew rcn key) (some ⟨.current set⟩) (some ⟨.staging new set⟩)
  | activated {set : KeyObjectSet} :
      Follows env (.keyRollActivated rcn revokeReq) (some ⟨.staging new set⟩)
        (some ⟨.old new (set.retire env)⟩)
  | finished {set : KeyObjectSet} :
      Follows env (.keyRollFinished rcn) (some ⟨.old set old⟩) (some ⟨.current set⟩)
  | received (done : rco.updateReceivedCert cert = .ok changed) :
      Follows env (.certificateReceived rcn cert key) (some rco) (some changed)

theorem Follows.isPublished (follows : Follows env event entry entry') : event.isPublished := by
  cases follows with
  | updated objects => cases event <;> first | rfl | cases objects
  | _ => rfl

namespace CaEvtDet

/-- When the objects of a class can follow an event about the class. -/
def Accepts (event : CaEvtDet) (entry : Option ResourceClassObjects) : Prop :=
  match event with
  | .keyPendingToActive _ _ => entry = none
  | .keyPendingToNew _ _ => ∃ set, entry = some ⟨.current set⟩
  | .keyRollActivated _ _ => ∃ new set, entry = some ⟨.staging new set⟩
  | .keyRollFinished _ => ∃ set old, entry = some ⟨.old set old⟩
  | .certificateReceived _ cert _ => ∃ rco changed, entry = some rco ∧
      rco.updateReceivedCert cert = .ok changed
  | .roasUpdated _ _
  | .aspaObjectsUpdated _ _
  | .bgpSecCertificatesUpdated _ _
  | .childCertificatesUpdated _ _ => entry.isSome
  | _ => True

/-- The repository that goes with the old key when a key roll is finished. -/
def released (event : CaEvtDet) (entry : Option ResourceClassObjects) :
    Option RepositoryContact :=
  match event, entry with
  | .keyRollFinished _, some ⟨.old _ oldSet⟩ => oldSet.oldRepo
  | _, _ => none

end CaEvtDet

namespace CaObjects

def Accepts (self : CaObjects) (event : CaEvtDet) : Prop :=
  ∀ rcn, event.target = some rcn → event.Accepts (self.classes.get rcn)

inductive Listened (env : Surroundings) (objects : CaObjects) : CaEvtDet → CaObjects → Prop
  | followed (targeted : event.target = some rcn)
      (follows : Follows env event (objects.classes.get rcn) (some changed)) :
      Listened env objects event ((objects.setClass rcn changed).deprecateRepoIfNoLongerUsed
        (event.released (objects.classes.get rcn)))
  | removed :
      Listened env objects (.resourceClassRemoved rcn parent requests) (objects.removeClass rcn)
  | moved : Listened env objects (.repoUpdated contact) (objects.updateRepo contact)
  | ignored (unpublished : event.isPublished = false) : Listened env objects event objects

inductive ListenedAll (env : Surroundings) : List CaEvtDet → CaObjects → CaObjects → Prop
  | nil (objects : CaObjects) : ListenedAll env [] objects objects
  | cons (first : Listened env objects event next) (others : ListenedAll env rest next last) :
      ListenedAll env (event :: rest) objects last

def AcceptsAll (env : Surroundings) : List CaEvtDet → CaObjects → Prop
  | [], _ => True
  | event :: rest, objects => objects.Accepts event ∧
      ∀ next, Listened env objects event next → AcceptsAll env rest next

/-- Objects under new manifests and CRLs, where it was time for them. -/
structure Renewed (now : Time) (before after : CaObjects) : Prop where
  repo : after.repo = before.repo
  deprecatedRepos : after.deprecatedRepos = before.deprecatedRepos
  classes : ∀ rcn, Option.Rel (ResourceClassObjects.EachSet (KeyObjectSet.Renewed now))
    (before.classes.get rcn) (after.classes.get rcn)

@[simp] theorem classes_deprecate (objects : CaObjects) (repo : Option RepositoryContact) :
    (objects.deprecateRepoIfNoLongerUsed repo).classes = objects.classes := by
  cases repo with
  | none => rfl
  | some repo =>
    unfold deprecateRepoIfNoLongerUsed
    dsimp only
    split <;> rfl

@[simp] theorem repo_deprecate (objects : CaObjects) (repo : Option RepositoryContact) :
    (objects.deprecateRepoIfNoLongerUsed repo).repo = objects.repo := by
  cases repo with
  | none => rfl
  | some repo =>
    unfold deprecateRepoIfNoLongerUsed
    dsimp only
    split <;> rfl

theorem get_setClass (objects : CaObjects) (rcn other : ResourceClassName)
    (rco : ResourceClassObjects) : (objects.setClass rcn rco).classes.get other =
      if other = rcn then some rco else objects.classes.get other :=
  HashMap.get_insert _ _ _ _

theorem get_removeClass (objects : CaObjects) (rcn other : ResourceClassName) :
    (objects.removeClass rcn).classes.get other =
      if other = rcn then none else objects.classes.get other := by
  rw [removeClass, classes_deprecate]
  exact HashMap.get_remove _ _ _

theorem get_updateRepo (objects : CaObjects) (contact : RepositoryContact)
    (rcn : ResourceClassName) :
    (objects.updateRepo contact).classes.get rcn = (objects.classes.get rcn).map fun rco =>
      match objects.repo with
      | some old => rco.setOldRepo old
      | none => rco := by
  unfold updateRepo
  cases objects.repo with
  | none => exact Option.map_id'.symm
  | some old => exact HashMap.get_mapValues _ _ _

variable {objects : CaObjects}

theorem updateClass_of_get (found : objects.classes.get rcn = some rco)
    (done : change rco = .ok changed) :
    objects.updateClass rcn change = .ok (objects.setClass rcn changed) := by
  unfold updateClass getClass
  rw [found]
  change (do return objects.setClass rcn (← change rco)) = Except.ok _
  rw [done]
  rfl

theorem updateClass_eq_ok (updated : objects.updateClass rcn change = .ok next) :
    ∃ rco changed, objects.classes.get rcn = some rco ∧ change rco = .ok changed ∧
      next = objects.setClass rcn changed := by
  unfold updateClass getClass at updated
  cases found : objects.classes.get rcn with
  | none => rw [found] at updated; cases updated
  | some rco =>
    rw [found] at updated
    change (do return objects.setClass rcn (← change rco)) = Except.ok next at updated
    cases done : change rco with
    | error => rw [done] at updated; cases updated
    | ok changed =>
      rw [done] at updated
      cases updated
      exact ⟨rco, changed, rfl, done, rfl⟩

theorem Listened.eq_of_unpublished (unpublished : event.isPublished = false)
    (listened : Listened env objects event next) : next = objects := by
  cases listened with
  | followed targeted follows => cases follows.isPublished.symm.trans unpublished
  | removed | moved => cases unpublished
  | ignored => rfl

theorem ListenedAll.eq_of_unpublished (unpublished : ∀ event ∈ events, event.isPublished = false)
    (listened : ListenedAll env events objects last) : last = objects := by
  induction listened with
  | nil => rfl
  | @cons objects event next rest last first _ induction =>
    obtain ⟨here, later⟩ := List.forall_mem_cons.mp unpublished
    rw [induction later]
    exact first.eq_of_unpublished here

theorem listenedAll_append (listened : ListenedAll env (first ++ second) objects last) :
    ∃ middle, ListenedAll env first objects middle ∧ ListenedAll env second middle last := by
  induction first generalizing objects with
  | nil => exact ⟨objects, .nil objects, listened⟩
  | cons event rest induction =>
    cases listened with
    | cons done others =>
      obtain ⟨middle, early, late⟩ := induction others
      exact ⟨middle, .cons done early, late⟩

theorem ListenedAll.append (early : ListenedAll env first objects middle)
    (late : ListenedAll env second middle last) :
    ListenedAll env (first ++ second) objects last := by
  induction early with
  | nil => exact late
  | cons done _ induction => exact .cons done (induction late)

theorem Listened.repo (listened : Listened env objects event next) :
    next.repo = event.newRepository.or objects.repo := by
  cases listened with
  | followed targeted follows =>
    rw [repo_deprecate]
    cases event <;> first | rfl | cases targeted
  | removed => exact repo_deprecate _ _
  | moved => rfl
  | ignored unpublished => cases event <;> first | rfl | cases unpublished

end CaObjects

section Signing

variable [KrillSigner]

structure KeptBySigning (kept : Signer → Prop) : Prop where
  randomSerial : ∀ {before after serial}, kept before →
    randomSerial before = .ok serial after → kept after
  sign : ∀ {object key before after base64}, kept before →
    sign object key before = .ok base64 after → kept after

theorem signing_triple {action : EStateM String Signer A}
    (keeps : ∀ {before after value}, kept before → action before = .ok value after →
      kept after) : Triple kept (signing action) (fun _ => True) Error.IsSigner := by
  intro before holds
  unfold signing EStateM.adaptExcept
  cases ran : action before with
  | ok value after => exact ⟨keeps holds ran, trivial⟩
  | error failure after => exact trivial

variable {kept : Signer → Prop} (signs : KeptBySigning kept)

include signs

namespace KeyObjectSet

theorem buildCrl_triple (aki : KeyIdentifier) (revocations : Revocations)
    (revision : ObjectSetRevision) :
    Triple kept (buildCrl aki issuer revocations revision) (fun _ => True) Error.IsSigner :=
  .bind (signing_triple signs.sign) fun _ _ => .pure trivial

theorem buildNewMft_triple (env : Surroundings) (revision : ObjectSetRevision)
    (signingCert : ReceivedCert) :
    Triple kept (buildNewMft env revision entries signingCert) (fun _ => True) Error.IsSigner :=
  .bind (signing_triple signs.randomSerial) fun _ _ =>
    .bind (signing_triple signs.sign) fun _ _ => .pure trivial

theorem create_triple (env : Surroundings) (key : CertifiedKey) (timing : IssuanceTimingConfig) :
    Triple kept (create env key timing) (fun set => set.IsNew key) Error.IsSigner :=
  .bind (buildCrl_triple signs _ _ _) fun _ _ => .bind (buildNewMft_triple signs _ _ _) fun _ _ =>
    .pure ⟨rfl, rfl, rfl, rfl⟩

theorem reissue_triple (set : KeyObjectSet) (env : Surroundings) (timing : IssuanceTimingConfig) :
    Triple kept (set.reissue env timing) (fun after => set.Renewed env.now after) Error.IsSigner :=
  .bind (buildCrl_triple signs _ _ _) fun _ _ => .bind (buildNewMft_triple signs _ _ _) fun _ _ =>
    .pure ⟨rfl, .inr rfl, rfl, rfl⟩

end KeyObjectSet

theorem ResourceClassObjects.reissue_triple (rco : ResourceClassObjects) (env : Surroundings)
    (timing : IssuanceTimingConfig) :
    Triple kept (rco.reissue env timing)
      (fun after => rco.EachSet (KeyObjectSet.Renewed env.now) after) Error.IsSigner := by
  obtain ⟨set | ⟨new, set⟩ | ⟨set, old⟩⟩ := rco
  · exact .bind (set.reissue_triple signs env timing) fun _ same => .pure (.current same)
  · exact .bind (new.reissue_triple signs env timing) fun _ sameNew =>
      .bind (set.reissue_triple signs env timing) fun _ same => .pure (.staging sameNew same)
  · exact .bind (old.reissue_triple signs env timing) fun _ sameOld =>
      .bind (set.reissue_triple signs env timing) fun _ same => .pure (.old same sameOld)

namespace CaObjects

theorem reIssue_triple (objects : CaObjects) (env : Surroundings) (force : Bool)
    (timing : IssuanceTimingConfig) :
    Triple kept (objects.reIssue env force timing)
      (fun after => objects.Renewed env.now after) Error.IsSigner := by
  let renewed (entry result : ResourceClassName × ResourceClassObjects) : Prop :=
    result.1 = entry.1 ∧ entry.2.EachSet (KeyObjectSet.Renewed env.now) result.2
  have each : ∀ entry : ResourceClassName × ResourceClassObjects, Triple kept
      (if force || entry.2.requiresReIssuance env.now timing.timingPublishHoursBeforeNext then do
        return (entry.1, ← entry.2.reissue env timing)
      else return entry) (renewed entry) Error.IsSigner := by
    intro entry
    split
    · exact .bind (entry.2.reissue_triple signs env timing) fun _ same => .pure ⟨rfl, same⟩
    · exact .pure ⟨rfl, .refl (.refl env.now) _⟩
  refine .bind (.mapM fun entry _ => each entry) fun reissued paired => ?_
  exact .pure ⟨rfl, rfl, HashMap.rel_insertAll paired⟩

variable {objects : CaObjects}

omit signs in
theorem updateClass_triple (targeted : event.target = some rcn)
    (keepsRepo : event.released (objects.classes.get rcn) = none)
    (follows : ∀ {rco changed}, change rco = .ok changed →
      Follows env event (some rco) (some changed))
    (accepted : event.Accepts (objects.classes.get rcn) →
      ∃ rco changed, objects.classes.get rcn = some rco ∧ change rco = .ok changed) :
    Triple kept (do return (← liftExcept (objects.updateClass rcn change), forced) :
        SignM (CaObjects × Bool))
      (fun result => Listened env objects event result.1)
      (fun failure => objects.Accepts event → failure.IsSigner) := by
  have listens : ∀ next, objects.updateClass rcn change = .ok next →
      Listened env objects event next := by
    intro next updated
    obtain ⟨rco, changed, found, done, rfl⟩ := updateClass_eq_ok updated
    have listened : Listened env objects event _ :=
      .followed targeted (found ▸ follows done)
    rwa [keepsRepo] at listened
  refine .bind (.liftExcept listens fun failure failed accepts => ?_) fun next listened =>
    .pure listened
  obtain ⟨rco, changed, found, done⟩ := accepted (accepts rcn targeted)
  rw [updateClass_of_get found done] at failed
  cases failed

omit signs in
theorem updateObjects_triple {change : ResourceClassObjects → ResourceClassObjects}
    (targeted : event.target = some rcn) (isObjects : event.isObjects)
    (changes : ∀ keys, change ⟨keys⟩ = ⟨keys.updateCurrent (event.onSet env)⟩) :
    Triple kept
      (do return (← liftExcept (objects.updateClass rcn fun rco => .ok (change rco)), forced) :
        SignM (CaObjects × Bool))
      (fun result => Listened env objects event result.1)
      (fun failure => objects.Accepts event → failure.IsSigner) := by
  refine updateClass_triple targeted ?_ (fun {rco _} done => ?_) (fun accepted => ?_)
  · cases event <;> first | rfl | cases isObjects
  · obtain ⟨keys⟩ := rco
    cases done
    rw [changes]
    exact .updated isObjects
  · have present : (objects.classes.get rcn).isSome := by
      cases event <;> first | exact accepted | cases isObjects
    obtain ⟨rco, found⟩ := Option.isSome_iff_exists.mp present
    exact ⟨rco, _, found, rfl⟩

omit signs in
theorem throw_triple {failure : Error} (targeted : event.target = some rcn)
    (wrong : ¬event.Accepts (objects.classes.get rcn)) :
    Triple kept (throw failure : SignM A) returns
      (fun failure => objects.Accepts event → failure.IsSigner) :=
  .throw fun accepts => absurd (accepts rcn targeted) wrong

theorem addClass_triple (key : CertifiedKey) : Triple kept (objects.addClass env rcn key timing)
      (fun next => Listened env objects (.keyPendingToActive rcn key) next)
      (fun failure => objects.Accepts (.keyPendingToActive rcn key) → failure.IsSigner) := by
  unfold addClass
  cases found : objects.classes.get rcn with
  | some rco =>
    have present : objects.classes.containsKey rcn := Option.isSome_of_eq_some found
    rw [if_pos present]
    exact throw_triple rfl fun absent => by cases found.symm.trans absent
  | none =>
    rw [if_neg (by rw [HashMap.containsKey, found]; exact Bool.false_ne_true)]
    have created : Triple kept (ResourceClassObjects.create env key timing)
        (fun rco => Follows env (.keyPendingToActive rcn key) none (some rco))
        (fun failure => objects.Accepts (.keyPendingToActive rcn key) → failure.IsSigner) :=
      .bind ((KeyObjectSet.create_triple signs env key timing).weaken fun _ signer _ => signer)
        fun _ isNew => .pure (.added isNew)
    exact .bind created fun rco follows => .pure (.followed rfl (found ▸ follows))

theorem keyrollStage_triple (key : CertifiedKey) :
    Triple kept (objects.keyrollStage env rcn key timing)
      (fun next => Listened env objects (.keyPendingToNew rcn key) next)
      (fun failure => objects.Accepts (.keyPendingToNew rcn key) → failure.IsSigner) := by
  unfold keyrollStage getClass
  cases found : objects.classes.get rcn with
  | none =>
    refine throw_triple rfl ?_
    rintro ⟨_, present⟩
    cases found.symm.trans present
  | some rco =>
    obtain ⟨set | ⟨new, set⟩ | ⟨set, old⟩⟩ := rco
    case current =>
      have staged : Triple kept (ResourceClassObjects.keyrollStage ⟨.current set⟩ env key timing)
          (fun rco => Follows env (.keyPendingToNew rcn key) (some ⟨.current set⟩) (some rco))
          (fun failure => objects.Accepts (.keyPendingToNew rcn key) → failure.IsSigner) :=
        .bind ((KeyObjectSet.create_triple signs env key timing).weaken fun _ signer _ => signer)
          fun _ isNew => .pure (.staged isNew)
      change Triple _ (do
        let staged ← ResourceClassObjects.keyrollStage ⟨.current set⟩ env key timing
        return objects.setClass rcn staged) _ _
      exact .bind staged fun rco follows => .pure (.followed rfl (found ▸ follows))
    all_goals
      refine throw_triple rfl ?_
      rintro ⟨_, present⟩
      cases found.symm.trans present

omit signs in
theorem keyrollFinish_triple : Triple kept
    (do return (← liftExcept (objects.keyrollFinish rcn), false) : SignM (CaObjects × Bool))
    (fun result => Listened env objects (.keyRollFinished rcn) result.1)
    (fun failure => objects.Accepts (.keyRollFinished rcn) → failure.IsSigner) := by
  unfold keyrollFinish getClass
  cases found : objects.classes.get rcn with
  | none =>
    refine throw_triple rfl ?_
    rintro ⟨_, _, present⟩
    cases found.symm.trans present
  | some rco =>
    obtain ⟨set | ⟨new, set⟩ | ⟨set, old⟩⟩ := rco
    case old =>
      have follows : Follows env (.keyRollFinished rcn) (objects.classes.get rcn)
          (some ⟨.current set⟩) := found ▸ .finished
      have listened := Listened.followed rfl follows
      rw [found] at listened
      exact .pure listened
    all_goals
      refine throw_triple rfl ?_
      rintro ⟨_, _, present⟩
      cases found.symm.trans present

theorem listenEvent_triple : Triple kept (objects.listenEvent env timing event)
    (fun result => Listened env objects event result.1)
    (fun failure => objects.Accepts event → failure.IsSigner) := by
  cases event with
  | roasUpdated | aspaObjectsUpdated | bgpSecCertificatesUpdated | childCertificatesUpdated =>
    exact updateObjects_triple rfl rfl (fun _ => rfl)
  | keyPendingToActive rcn key =>
    exact .bind (addClass_triple signs key) fun _ listened => .pure listened
  | keyPendingToNew rcn key =>
    exact .bind (keyrollStage_triple signs key) fun _ listened => .pure listened
  | keyRollActivated rcn revokeReq =>
    refine updateClass_triple rfl rfl (fun {rco _} done => ?_) (fun accepted => ?_)
    · obtain ⟨set | ⟨new, set⟩ | ⟨set, old⟩⟩ := rco <;> cases done
      exact .activated
    · obtain ⟨new, set, found⟩ := accepted
      exact ⟨_, _, found, rfl⟩
  | keyRollFinished rcn => exact keyrollFinish_triple
  | certificateReceived rcn cert key =>
    exact updateClass_triple rfl rfl .received id
  | resourceClassRemoved rcn parent requests => exact .pure .removed
  | repoUpdated contact => exact .pure .moved
  | _ => exact .pure (.ignored rfl)

theorem listenEvents_triple (events : List CaEvt) (forced : Bool) :
    Triple kept (listenEvents env timing events objects forced)
      (fun result => ListenedAll env (events.map StoredEvent.details) objects result.1)
      (fun failure => AcceptsAll env (events.map StoredEvent.details) objects →
        failure.IsSigner) := by
  induction events generalizing objects forced with
  | nil => exact .pure (.nil objects)
  | cons event rest induction =>
    intro before holds
    unfold listenEvents
    cases ran : objects.listenEvent env timing event.details before with
    | error failure after =>
      rw [Stateful.bind_of_error ran]
      exact fun accepts => (listenEvent_triple signs).failed holds ran accepts.1
    | ok result after =>
      rw [Stateful.bind_of_ok ran]
      obtain ⟨next, forced'⟩ := result
      have first : Listened env objects event.details next :=
        (listenEvent_triple signs).returned holds ran
      have others : Triple kept (listenEvents env timing rest next (forced || forced'))
          (fun result => ListenedAll env ((event :: rest).map StoredEvent.details) objects
            result.1) _ := (induction _).mono fun _ listened => .cons first listened
      exact (others.weaken fun _ fails accepts => fails (accepts.2 next first)) after
        ((listenEvent_triple signs).kept holds ran)

theorem listen_triple (events : List CaEvt) : Triple kept (objects.listen env timing events)
    (fun after => ∃ middle, ListenedAll env (events.map StoredEvent.details) objects middle ∧
      middle.Renewed env.now after)
    (fun failure => AcceptsAll env (events.map StoredEvent.details) objects →
      failure.IsSigner) := by
  refine .bind (listenEvents_triple signs events false) fun result listened => ?_
  have renewed := (result.1.reIssue_triple signs env result.2 timing).weaken
    fun failure isSigner (_ : AcceptsAll env (events.map StoredEvent.details) objects) =>
      isSigner
  exact renewed.mono fun after same => ⟨result.1, listened, same⟩

end CaObjects

end Signing

end Krill.Ca
