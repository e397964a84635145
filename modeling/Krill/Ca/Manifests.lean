import Krill.Ca.ObjectNames
import Krill.Ca.SetEdits

namespace Krill.Ca

open EventSourcing (Time)
open Rpki KrillSigner
open Stateful (Yields)

variable [Rpki]

namespace ObjectName

theorem crlForKey_ne_name (id : ObjectId) : crlForKey key ≠ id.name := by
  intro same
  obtain ⟨-, extensions⟩ : PublishedId.crl.stem key = (PublishedId.object id).stem key ∧
      PublishedId.crl.extension = (PublishedId.object id).extension :=
    PublishedId.stem_extension same
  cases id <;> simp only [PublishedId.extension, ObjectId.extension] at extensions <;>
    exact absurd extensions (by decide)

end ObjectName

namespace KeyObjectSet

/-- Objects are kept under their names, with the hashes of their contents. -/
structure Named (set : KeyObjectSet) : Prop where
  crl : ∃ key, set.crl.name = .crlForKey key
  objects : ∀ {name object}, set.publishedObjects.get name = some object →
    (∃ id : ObjectId, name = id.name) ∧ object.name = name ∧ object.hash = toHash object.base64

structure Lists (set : KeyObjectSet) (entries : List (ObjectName × Hash)) : Prop where
  distinct : (entries.map Prod.fst).Nodup
  exactly : ∀ name hash, (name, hash) ∈ entries ↔ name = set.crl.name ∧ hash = set.crl.hash ∨
    ∃ object, set.publishedObjects.get name = some object ∧ hash = object.hash

structure Issued (decode : Base64 → Option ToBeSigned) (set : KeyObjectSet) : Prop where
  crl : ∃ issuer aki, decode set.crl.base64 = some (.crl issuer set.revision.thisUpdate
    set.revision.nextUpdate set.revocations.toCrlEntries aki (serialFrom set.revision.number))
  crlHash : set.crl.hash = toHash set.crl.base64
  unexpired : ∀ revocation ∈ set.revocations,
    revocation.expires > set.revision.thisUpdate + minutes 5
  manifest : ∃ entries object, decode set.manifest.base64 = some (.manifest
    (serialFrom set.revision.number) set.revision.thisUpdate set.revision.nextUpdate entries
    object) ∧ set.Lists entries
  expires : set.manifest.expires = set.revision.nextUpdate

theorem get_manifestEntries (crl : PublishedCrl) (objects : HashMap ObjectName PublishedObject) :
    (manifestEntries crl order objects).get name = ((objects.get name).map PublishedItem.hash).or
        (if name = crl.name then some crl.hash else none) := by
  have keys : ((objects.iter order).map fun entry => (entry.1, entry.2.hash)).map Prod.fst =
      (objects.iter order).map Prod.fst := by
    rw [List.map_map]
    rfl
  have crlOnly : (HashMap.empty.insert crl.name crl.hash).get name =
      if name = crl.name then some crl.hash else none := by
    rw [HashMap.get_insert, HashMap.get_empty]
  unfold manifestEntries
  cases found : objects.get name with
  | some object =>
    refine HashMap.get_insertAll_of_mem ?_ ?_
    · rw [keys]
      exact objects.iter_keys_nodup order
    · exact List.mem_map.mpr ⟨(name, object), HashMap.mem_iter.mpr found, rfl⟩
  | none =>
    rw [HashMap.get_insertAll_of_notMem, crlOnly]
    · rfl
    · rw [keys]
      intro listed
      obtain ⟨⟨_, object⟩, member, rfl⟩ := List.mem_map.mp listed
      cases found.symm.trans (HashMap.mem_iter.mp member)

theorem manifestEntries_lists {set : KeyObjectSet} (named : set.Named) :
    set.Lists ((manifestEntries set.crl order set.publishedObjects).iter listing) := by
  refine ⟨HashMap.iter_keys_nodup _ _, fun name hash => ?_⟩
  rw [HashMap.mem_iter, get_manifestEntries]
  cases found : set.publishedObjects.get name with
  | none =>
    rw [Option.map_none, Option.none_or]
    constructor
    · intro listed
      obtain ⟨same, listed⟩ := Option.ite_none_right_eq_some.mp listed
      cases listed
      exact .inl ⟨same, rfl⟩
    · rintro (⟨rfl, rfl⟩ | ⟨_, impossible, _⟩)
      · exact if_pos rfl
      · cases impossible
  | some object =>
    rw [Option.map_some, Option.some_or, Option.some.injEq]
    constructor
    · intro same
      exact .inr ⟨object, rfl, same.symm⟩
    · rintro (⟨rfl, rfl⟩ | ⟨_, same, rfl⟩)
      · -- the CRL has a name of its own
        obtain ⟨key, isCrl⟩ := named.crl
        obtain ⟨⟨id, isObject⟩, _⟩ := named.objects found
        exact absurd (isCrl.symm.trans isObject) (ObjectName.crlForKey_ne_name id)
      · cases same
        rfl

def NamedObject (name : ObjectName) (object : PublishedObject) : Prop :=
  (∃ id : ObjectId, name = id.name) ∧ object.name = name ∧ object.hash = toHash object.base64

end KeyObjectSet

def SetEdit.Named : SetEdit → Prop
  | .insert name object => KeyObjectSet.NamedObject name object
  | .remove _ => True
  | .restore _ => True

theorem PublishedItem.forCertInfo_named : KeyObjectSet.NamedObject cert.name (.forCertInfo cert) :=
  ⟨⟨.cer cert.keyIdentifier, cert.named⟩, rfl, rfl⟩

theorem RoaUpdates.get_addedRoas {updates : RoaUpdates}
    (found : (updates.addedRoas order).get name = some info) : ∃ id : ObjectId, name = id.name := by
  unfold addedRoas at found
  rcases HashMap.get_insertAll_eq_some found with aggregate | ⟨_, found⟩
  · obtain ⟨⟨key, _⟩, _, same⟩ := List.mem_map.mp aggregate
    cases same
    exact ⟨.aggregate key, rfl⟩
  rcases HashMap.get_insertAll_eq_some found with simple | ⟨_, nothing⟩
  · obtain ⟨⟨auth, _⟩, _, same⟩ := List.mem_map.mp simple
    cases same
    exact ⟨.roa auth, rfl⟩
  · cases nothing

theorem CaEvtDet.edits_named (order : IterOrder) (event : CaEvtDet) :
    ∀ edit ∈ event.edits order, edit.Named := by
  intro edit member
  cases event with
  | roasUpdated rcn updates =>
    rcases List.mem_append.mp member with added | removed
    · obtain ⟨⟨name, info⟩, listed, rfl⟩ := List.mem_map.mp added
      exact ⟨RoaUpdates.get_addedRoas (HashMap.mem_iter.mp listed), rfl, rfl⟩
    · obtain ⟨name, _, rfl⟩ := List.mem_map.mp removed
      exact trivial
  | aspaObjectsUpdated rcn updates =>
    rcases List.mem_append.mp member with updated | removed
    · obtain ⟨info, _, rfl⟩ := List.mem_map.mp updated
      exact ⟨⟨.aspa info.customer, rfl⟩, rfl, rfl⟩
    · obtain ⟨customer, _, rfl⟩ := List.mem_map.mp removed
      exact trivial
  | bgpSecCertificatesUpdated rcn updates =>
    rcases List.mem_append.mp member with updated | removed
    · obtain ⟨cert, _, rfl⟩ := List.mem_map.mp updated
      exact ⟨⟨.bgpsec cert.asnKey, rfl⟩, rfl, rfl⟩
    · obtain ⟨key, _, rfl⟩ := List.mem_map.mp removed
      exact trivial
  | childCertificatesUpdated rcn updates =>
    rcases List.mem_append.mp member with removed | member
    · obtain ⟨key, _, rfl⟩ := List.mem_map.mp removed
      exact trivial
    rcases List.mem_append.mp member with issued | member
    · obtain ⟨cert, _, rfl⟩ := List.mem_map.mp issued
      exact PublishedItem.forCertInfo_named
    rcases List.mem_append.mp member with unsuspended | suspended
    · obtain ⟨cert, _, rfl⟩ := List.mem_map.mp unsuspended
      exact trivial
    · obtain ⟨cert, _, rfl⟩ := List.mem_map.mp suspended
      exact trivial
  | _ => exact absurd member List.not_mem_nil

namespace KeyObjectSet

variable {set : KeyObjectSet}

theorem Named.revokeOld (named : set.Named) (now : Time) (old : Option PublishedObject) :
    (set.revokeOld now old).Named := by
  cases old with
  | none => exact named
  | some object => exact ⟨named.crl, named.objects⟩

theorem Named.insertObject (named : set.Named) (now : Time) (fits : NamedObject name object) :
    (set.insertObject now name object).Named := by
  have inserted : Named { set with publishedObjects := set.publishedObjects.insert name object } := by
    refine ⟨named.crl, fun present => ?_⟩
    rcases HashMap.get_insert_eq_some present with ⟨rfl, rfl⟩ | before
    · exact fits
    · exact named.objects before
  exact inserted.revokeOld now _

theorem Named.edit (named : set.Named) (now : Time) {edit : SetEdit} (fits : edit.Named) :
    (set.edit now edit).Named := by
  cases edit with
  | insert name object => exact named.insertObject now fits
  | remove name =>
    have removed : Named { set with publishedObjects := set.publishedObjects.remove name } :=
      ⟨named.crl, fun present => named.objects (HashMap.get_of_remove present)⟩
    exact removed.revokeOld now _
  | restore cert =>
    refine Named.insertObject ?_ now (PublishedItem.forCertInfo_named)
    exact ⟨named.crl, named.objects⟩

theorem Named.onSet (named : set.Named) (env : Surroundings) (event : CaEvtDet) :
    (event.onSet env set).Named := by
  rw [CaEvtDet.onSet_eq]
  have fits := event.edits_named env.order
  generalize event.edits env.order = edits at fits
  induction edits generalizing set with
  | nil => exact named
  | cons first rest induction =>
    obtain ⟨here, later⟩ := List.forall_mem_cons.mp fits
    exact induction (named.edit env.now here) later

theorem Named.retire (named : set.Named) (env : Surroundings) : (set.retire env).Named :=
  ⟨named.crl, fun found => by cases found⟩

end KeyObjectSet

namespace CaObjects

def EverySet (objects : CaObjects) (holds : ResourceClassName → KeyObjectSet → Prop) : Prop :=
  ∀ ⦃rcn rco⦄, objects.classes.get rcn = some rco → ∀ set ∈ rco.sets, holds rcn set

variable {objects : CaObjects}

theorem EverySet.setClass (every : objects.EverySet holds)
    (these : ∀ set ∈ rco.sets, holds rcn set) : (objects.setClass rcn rco).EverySet holds := by
  intro other found present
  rw [get_setClass] at present
  by_cases same : other = rcn
  · rw [if_pos same] at present
    cases present
    rw [same]
    exact these
  · rw [if_neg same] at present
    exact every present

end CaObjects

theorem CaObjects.EverySet.listened (every : objects.EverySet holds)
    (listened : Listened env objects event next)
    (kept : ∀ {rcn set set'}, set.Touched env event set' → holds rcn set → holds rcn set')
    (created : ∀ {rcn key set}, event.newKey = some (rcn, key) → set.IsNew key →
      holds rcn set) : next.EverySet holds := by
  intro rcn rco found set' member
  cases listened.origin found member with
  | new made isNew => exact created made isNew
  | touched present listed touched => exact kept touched (every present _ listed)

variable [KrillSigner]

def Decodes (decode : Base64 → Option ToBeSigned) : Prop :=
  ∀ {object key before after base64}, sign object key before = .ok base64 after →
    decode base64 = some object

namespace KeyObjectSet

variable {decode : Base64 → Option ToBeSigned} (decodes : Decodes decode)

include decodes

variable {revision : ObjectSetRevision}

theorem yields_buildCrl {revocations : Revocations} {crl : PublishedCrl}
    (yields : Yields (buildCrl aki issuer revocations revision) crl) :
    crl.name = .crlForKey aki ∧ crl.hash = toHash crl.base64 ∧
      decode crl.base64 = some (.crl issuer revision.thisUpdate revision.nextUpdate
        revocations.toCrlEntries aki (serialFrom revision.number)) := by
  obtain ⟨base64, signed, returned⟩ := yields.bind
  obtain ⟨before, after, signed⟩ := yields_of_signing signed
  cases returned.pure
  exact ⟨rfl, rfl, decodes signed⟩

theorem yields_buildNewMft {signingCert : ReceivedCert}
    (yields : Yields (buildNewMft env revision entries signingCert) mft) :
    mft.expires = revision.nextUpdate ∧ ∃ object, decode mft.base64 = some (.manifest
      (serialFrom revision.number) revision.thisUpdate revision.nextUpdate
      (entries.iter env.order) object) := by
  obtain ⟨serial, _, yields⟩ := yields.bind
  obtain ⟨base64, signed, returned⟩ := yields.bind
  obtain ⟨before, after, signed⟩ := yields_of_signing signed
  cases returned.pure
  exact ⟨rfl, _, decodes signed⟩

theorem create_issued {set : KeyObjectSet} (yields : Yields (create env key timing) set) :
    set.Named ∧ set.Issued decode := by
  obtain ⟨crl, madeCrl, yields⟩ := yields.bind
  obtain ⟨manifest, madeMft, returned⟩ := yields.bind
  have made := returned.pure
  obtain ⟨crlName, crlHash, crlContent⟩ := yields_buildCrl decodes madeCrl
  obtain ⟨expires, object, mftContent⟩ := yields_buildNewMft decodes madeMft
  have named : set.Named := by
    rw [made]
    exact ⟨⟨_, crlName⟩, fun found => by cases found⟩
  subst made
  exact ⟨named, ⟨_, _, crlContent⟩, crlHash, List.forall_mem_nil _,
    ⟨_, object, mftContent, manifestEntries_lists named⟩, expires⟩

theorem reissue_issued {set : KeyObjectSet} (named : set.Named)
    (yields : Yields (set.reissue env timing) after) : after.Named ∧ after.Issued decode := by
  obtain ⟨crl, madeCrl, yields⟩ := yields.bind
  obtain ⟨manifest, madeMft, returned⟩ := yields.bind
  have made := returned.pure
  obtain ⟨crlName, crlHash, crlContent⟩ := yields_buildCrl decodes madeCrl
  obtain ⟨expires, object, mftContent⟩ := yields_buildNewMft decodes madeMft
  have stillNamed : after.Named := by
    rw [made]
    exact ⟨⟨_, crlName⟩, named.objects⟩
  subst made
  refine ⟨stillNamed, ⟨_, _, crlContent⟩, crlHash, ?_,
    ⟨_, object, mftContent, manifestEntries_lists stillNamed⟩, expires⟩
  intro revocation member
  have unexpired := of_decide_eq_true (List.mem_filter.mp member).2
  change revocation.expires > env.now - minutes 5 + minutes 5
  rw [Int.sub_add_cancel]
  exact unexpired

end KeyObjectSet

def CaEvtDet.forces : CaEvtDet → Bool
  | .roasUpdated _ _ => true
  | .aspaObjectsUpdated _ _ => true
  | .bgpSecCertificatesUpdated _ _ => true
  | .childCertificatesUpdated _ _ => true
  | .keyRollActivated _ _ => true
  | .resourceClassRemoved _ _ _ => true
  | .repoUpdated _ => true
  | _ => false

namespace KeyObjectSet

omit [KrillSigner] in
theorem Named.touched {set : KeyObjectSet} (named : set.Named)
    (touched : set.Touched env event set') : set'.Named := by
  cases touched with
  | kept => exact named
  | received awaits => exact ⟨named.crl, named.objects⟩
  | updated objects => exact named.onSet env event
  | retired activates => exact named.retire env
  | moved moves => exact ⟨named.crl, named.objects⟩

omit [KrillSigner] in
theorem Issued.elsewhere {set : KeyObjectSet} (issued : set.Issued decode)
    (signingCert : ReceivedCert) (oldRepo : Option RepositoryContact) :
    { set with signingCert, oldRepo }.Issued decode where
  crl := issued.crl
  crlHash := issued.crlHash
  unexpired := issued.unexpired
  manifest := by
    obtain ⟨entries, object, decoded, lists⟩ := issued.manifest
    exact ⟨entries, object, decoded, lists.distinct, lists.exactly⟩
  expires := issued.expires

omit [KrillSigner] in
theorem Issued.touched {set : KeyObjectSet} (issued : set.Issued decode)
    (touched : set.Touched env event set') (unforced : event.forces = false) :
    set'.Issued decode := by
  cases touched with
  | kept => exact issued
  | received awaits => exact issued.elsewhere _ _
  | updated objects => cases event <;> cases objects <;> cases unforced
  | retired activates =>
    subst activates
    cases unforced
  | moved moves => exact issued.elsewhere _ _

end KeyObjectSet

namespace CaObjects

variable {objects : CaObjects}

theorem yields_listened (yields : Yields (objects.listenEvent env timing event) result) :
    Listened env objects event result.1 := by
  obtain ⟨before, after, ran⟩ := yields
  have signs : KeptBySigning fun _ : Signer => True := ⟨fun _ _ => trivial, fun _ _ => trivial⟩
  exact (listenEvent_triple signs).returned trivial ran

theorem yields_forces (yields : Yields (objects.listenEvent env timing event) result) :
    result.2 = event.forces := by
  cases event with
  | roasUpdated | aspaObjectsUpdated | bgpSecCertificatesUpdated | childCertificatesUpdated
  | keyRollActivated | keyPendingToActive | keyPendingToNew | keyRollFinished
  | certificateReceived =>
    obtain ⟨_, _, returned⟩ := yields.bind
    rw [returned.pure]
    rfl
  | _ =>
    rw [yields.pure]
    rfl

theorem yields_addClass (yields : Yields (objects.addClass env rcn key timing) next) :
    ∃ set, Yields (KeyObjectSet.create env key timing) set ∧
      next = objects.setClass rcn ⟨.current set⟩ := by
  obtain ⟨_, yields⟩ := Yields.guarded yields
  obtain ⟨rco, created, returned⟩ := yields.bind
  obtain ⟨set, made, isCurrent⟩ := created.bind
  cases isCurrent.pure
  exact ⟨set, made, returned.pure⟩

omit [KrillSigner] in
theorem getClass_eq_ok (found : objects.getClass rcn = .ok rco) :
    objects.classes.get rcn = some rco := by
  unfold getClass at found
  cases present : objects.classes.get rcn with
  | none => rw [present] at found; cases found
  | some held => rw [present] at found; cases found; rfl

theorem yields_keyrollStage (yields : Yields (objects.keyrollStage env rcn key timing) next) :
    ∃ new set, Yields (KeyObjectSet.create env key timing) new ∧
      objects.classes.get rcn = some ⟨.current set⟩ ∧
      next = objects.setClass rcn ⟨.staging new set⟩ := by
  obtain ⟨rco, found, yields⟩ := yields.bind
  obtain ⟨staged, staging, returned⟩ := yields.bind
  have found := getClass_eq_ok found.liftExcept
  obtain ⟨set | ⟨new, set⟩ | ⟨set, old⟩⟩ := rco
  · obtain ⟨new, created, made⟩ := staging.bind
    cases made.pure
    exact ⟨new, set, created, found, returned.pure⟩
  · exact staging.throw.elim
  · exact staging.throw.elim

theorem EverySet.listenEvent (every : objects.EverySet fun _ => holds)
    (yields : Yields (objects.listenEvent env timing event) result)
    (kept : ∀ {set set'}, set.Touched env event set' → holds set → holds set')
    (created : ∀ {key set}, Yields (KeyObjectSet.create env key timing) set → holds set) :
    result.1.EverySet fun _ => holds := by
  have listened := yields_listened yields
  cases event with
  | keyPendingToActive rcn key =>
    obtain ⟨next, added, returned⟩ := yields.bind
    obtain ⟨set, made, rfl⟩ := yields_addClass added
    rw [returned.pure]
    refine every.setClass fun other member => ?_
    cases List.mem_singleton.mp member
    exact created made
  | keyPendingToNew rcn key =>
    obtain ⟨next, staged, returned⟩ := yields.bind
    obtain ⟨new, set, made, found, rfl⟩ := yields_keyrollStage staged
    rw [returned.pure]
    refine every.setClass fun other member => ?_
    obtain rfl | rfl := List.mem_pair.mp member
    · exact created made
    · exact every found _ (List.mem_singleton_self _)
  | _ => exact every.listened listened kept nofun

theorem EverySet.listenEvents (decodes : Decodes decode)
    (named : objects.EverySet fun _ => KeyObjectSet.Named)
    (issued : forced = false → objects.EverySet fun _ set => set.Named ∧ set.Issued decode)
    (yields : Yields (CaObjects.listenEvents env timing events objects forced) result) :
    (result.1.EverySet fun _ => KeyObjectSet.Named) ∧
      (result.2 = false → result.1.EverySet fun _ set => set.Named ∧ set.Issued decode) := by
  induction events generalizing objects forced with
  | nil =>
    rw [yields.pure]
    exact ⟨named, issued⟩
  | cons event rest induction =>
    obtain ⟨⟨next, forces⟩, here, others⟩ := yields.bind
    have same : forces = event.details.forces := yields_forces here
    refine induction ?_ ?_ others
    · exact named.listenEvent here (fun touched named => named.touched touched)
        fun made => (KeyObjectSet.create_issued decodes made).1
    · intro unforced
      obtain ⟨before, now⟩ := Bool.or_eq_false_iff.mp unforced
      exact (issued before).listenEvent here
        (fun touched held => ⟨held.1.touched touched, held.2.touched touched (same ▸ now)⟩)
        (KeyObjectSet.create_issued decodes)

end CaObjects

/-- The sets of a class under new manifests and CRLs, if they are forced or if it is time. -/
def ResourceClassObjects.Reissued (env : Surroundings) (force : Bool)
    (timing : IssuanceTimingConfig) (before after : ResourceClassObjects) : Prop :=
  if force || before.requiresReIssuance env.now timing.timingPublishHoursBeforeNext then
    before.EachSet (fun set set' => Yields (set.reissue env timing) set') after
  else after = before

theorem ResourceClassObjects.yields_reissue {rco : ResourceClassObjects}
    (yields : Yields (rco.reissue env timing) after) :
    rco.EachSet (fun set set' => Yields (set.reissue env timing) set') after := by
  obtain ⟨set | ⟨new, set⟩ | ⟨set, old⟩⟩ := rco
  · obtain ⟨set', made, returned⟩ := yields.bind
    cases returned.pure
    exact .current made
  · obtain ⟨new', madeNew, yields⟩ := yields.bind
    obtain ⟨set', made, returned⟩ := yields.bind
    cases returned.pure
    exact .staging madeNew made
  · obtain ⟨old', madeOld, yields⟩ := yields.bind
    obtain ⟨set', made, returned⟩ := yields.bind
    cases returned.pure
    exact .old made madeOld

namespace CaObjects

variable {objects : CaObjects}

theorem yields_reIssue (yields : Yields (objects.reIssue env force timing) after) :
    ∀ rcn, Option.Rel (ResourceClassObjects.Reissued env force timing)
      (objects.classes.get rcn) (after.classes.get rcn) := by
  obtain ⟨results, looped, returned⟩ := yields.bind
  rw [returned.pure]
  refine HashMap.rel_insertAll (looped.mapM.imp fun entry result yields => ?_)
  unfold ResourceClassObjects.Reissued
  dsimp only at yields
  split at yields
  case isTrue due =>
    obtain ⟨reissued, made, returned⟩ := yields.bind
    cases returned.pure
    rw [if_pos due]
    exact ⟨rfl, ResourceClassObjects.yields_reissue made⟩
  case isFalse early =>
    cases yields.pure
    rw [if_neg early]
    exact ⟨rfl, rfl⟩

theorem EverySet.reIssue (decodes : Decodes decode)
    (named : objects.EverySet fun _ => KeyObjectSet.Named)
    (issued : force = false → objects.EverySet fun _ set => set.Named ∧ set.Issued decode)
    (yields : Yields (objects.reIssue env force timing) after) :
    after.EverySet fun _ set => set.Named ∧ set.Issued decode := by
  intro rcn rco present set member
  have reissued := yields_reIssue yields rcn
  rw [present] at reissued
  generalize found : objects.classes.get rcn = entry at reissued
  cases reissued with
  | @some before _ reissued =>
    unfold ResourceClassObjects.Reissued at reissued
    split at reissued
    case isTrue due =>
      obtain ⟨earlier, listed, made⟩ := reissued.exists_before member
      exact KeyObjectSet.reissue_issued decodes (named found earlier listed) made
    case isFalse early =>
      subst reissued
      have unforced := Bool.or_eq_false_iff.mp (Bool.eq_false_of_not_eq_true early)
      exact issued unforced.1 found set member

theorem yields_listenEvents
    (yields : Yields (listenEvents env timing events objects forced) result) :
    ListenedAll env (events.map StoredEvent.details) objects result.1 ∧
      result.2 = (forced || (events.map StoredEvent.details).any CaEvtDet.forces) := by
  induction events generalizing objects forced with
  | nil =>
    rw [yields.pure]
    exact ⟨.nil objects, (Bool.or_false forced).symm⟩
  | cons event rest induction =>
    obtain ⟨⟨next, forces⟩, here, others⟩ := yields.bind
    obtain ⟨listened, same⟩ := induction others
    refine ⟨.cons (yields_listened here) listened, ?_⟩
    have forced : forces = event.details.forces := yields_forces here
    rw [same, forced, Bool.or_assoc, List.map_cons, List.any_cons]

theorem yields_listen (yields : Yields (objects.listen env timing events) after) :
    ∃ middle, ListenedAll env (events.map StoredEvent.details) objects middle ∧
      Yields (middle.reIssue env ((events.map StoredEvent.details).any CaEvtDet.forces) timing)
        after := by
  obtain ⟨⟨middle, forced⟩, followed, reissued⟩ := yields.bind
  obtain ⟨listened, same⟩ := yields_listenEvents followed
  rw [Bool.false_or] at same
  dsimp only at same listened reissued
  rw [same] at reissued
  exact ⟨middle, listened, reissued⟩

theorem renewed_of_reIssue (yields : Yields (objects.reIssue env force timing) after) :
    objects.Renewed env.now after := by
  obtain ⟨before, last, ran⟩ := yields
  have signs : KeptBySigning fun _ : Signer => True := ⟨fun _ _ => trivial, fun _ _ => trivial⟩
  exact (reIssue_triple signs _ _ _ _).returned trivial ran

theorem EverySet.listen (decodes : Decodes decode)
    (issued : objects.EverySet fun _ set => set.Named ∧ set.Issued decode)
    (yields : Yields (objects.listen env timing events) after) :
    after.EverySet fun _ set => set.Named ∧ set.Issued decode := by
  obtain ⟨⟨middle, forced⟩, followed, reissued⟩ := yields.bind
  have named : objects.EverySet fun _ => KeyObjectSet.Named :=
    fun _ _ found set member => (issued found set member).1
  obtain ⟨stillNamed, stillIssued⟩ :=
    EverySet.listenEvents decodes named (fun _ => issued) followed
  exact EverySet.reIssue decodes stillNamed stillIssued reissued

end CaObjects

end Krill.Ca
