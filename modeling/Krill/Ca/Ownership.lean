import Krill.Ca.ChildKeys
import Krill.Ca.Issuance

namespace Krill.Ca

open Rpki KrillSigner
open Stateful (Yields)
open ChildCertificates
open CaEvtDet

variable [Rpki]

namespace ChildCertificates

def Has (certs : ChildCertificates) (key : KeyIdentifier) : Prop :=
  (∃ cert, certs.issued.get key = some cert) ∨ ∃ cert, certs.suspended.get key = some cert

def Apart (certs : ChildCertificates) : Prop :=
  ∀ key issued suspended, certs.issued.get key = some issued →
    certs.suspended.get key ≠ some suspended

/-- An update that is about the certificates that are there, or adds some. -/
structure Concerns (updates : ChildCertificateUpdates) (certs : ChildCertificates)
    (added : KeyIdentifier → Prop) : Prop where
  issued : ∀ cert ∈ updates.issued,
    added cert.key ∨ ∃ before, certs.issued.get cert.key = some before
  unsuspended : ∀ cert ∈ updates.unsuspended, certs.Has cert.key
  suspended : ∀ cert ∈ updates.suspended, certs.Has cert.key ∧ cert.key ∉ updates.removed

structure ConcernsHeld (updates : ChildCertificateUpdates) (certs : ChildCertificates)
    (added : KeyIdentifier → Prop) : Prop extends Concerns updates certs added where
  removed : ∀ key ∈ updates.removed, certs.Has key

theorem not_has_default : ¬default.Has key := by
  rintro (⟨cert, found⟩ | ⟨cert, found⟩) <;>
    exact nomatch (Keyed.get_empty key).symm.trans found

theorem apart_default : default.Apart :=
  fun _ _ _ found => nomatch (Keyed.get_empty _).symm.trans found

theorem Concerns.has (concerns : Concerns updates certs added)
    (has : (certs.updated updates).Has key) :
    key ∉ updates.removed ∧ (added key ∨ certs.Has key) := by
  obtain ⟨cert, found⟩ | ⟨cert, found⟩ := has
  · have keyOf : cert.key = key := Keyed.key_of_get found
    obtain ⟨_, notRemoved, back | ⟨_, issued | ⟨_, before⟩⟩⟩ := get_updated_issued found
    · exact ⟨notRemoved, .inr (keyOf ▸ concerns.unsuspended cert back)⟩
    · refine ⟨notRemoved, (concerns.issued cert issued).imp (keyOf ▸ ·) ?_⟩
      rintro ⟨before, present⟩
      exact .inl ⟨before, keyOf ▸ present⟩
    · exact ⟨notRemoved, .inr (.inl ⟨cert, before⟩)⟩
  · have keyOf : cert.key = key := Keyed.key_of_get found
    obtain suspended | ⟨_, notRemoved, _, before⟩ := get_updated_suspended found
    · obtain ⟨has, notRemoved⟩ := concerns.suspended cert suspended
      exact ⟨keyOf ▸ notRemoved, .inr (keyOf ▸ has)⟩
    · exact ⟨notRemoved, .inr (.inr ⟨cert, before⟩)⟩

theorem Concerns.apart (concerns : Concerns updates certs added) (apart : certs.Apart)
    (notSuspended : ∀ key, added key → certs.suspended.get key = none) :
    (certs.updated updates).Apart := by
  intro key cert other issued suspended
  have keyOf : cert.key = key := Keyed.key_of_get issued
  have keyOfOther : other.key = key := Keyed.key_of_get suspended
  obtain ⟨notSuspending, _, back | ⟨_, origin⟩⟩ := get_updated_issued issued
  · obtain suspending | ⟨_, _, notBack, _⟩ := get_updated_suspended suspended
    · exact notSuspending (List.mem_map.mpr ⟨other, suspending, keyOfOther⟩)
    · exact notBack (List.mem_map.mpr ⟨cert, back, keyOf⟩)
  · obtain suspending | ⟨_, _, _, before⟩ := get_updated_suspended suspended
    · exact notSuspending (List.mem_map.mpr ⟨other, suspending, keyOfOther⟩)
    · obtain issuing | ⟨_, present⟩ := origin
      · subst keyOf
        obtain isAdded | ⟨existing, present⟩ := concerns.issued cert issuing
        · cases (notSuspended _ isAdded).symm.trans before
        · exact apart _ _ _ present before
      · exact apart _ _ _ present before

section Making

variable [KrillSigner]

theorem exists_of_reIssued {map : Keyed IssuedCertificate.key}
    (looped : Yields ((map.values env.order).mapM fun cert =>
      reIssue env cert none signingKey timing) remade) (member : cert ∈ remade) :
    ∃ before, map.get cert.key = some before := by
  obtain ⟨previous, listed, made⟩ := looped.exists_item member
  rw [(reIssue_yields made).1]
  exact ⟨previous, Keyed.mem_values.mp listed⟩

theorem concerns_of_activateKey
    (yields : Yields (certs.activateKey env signingKey timing) updates) :
    ConcernsHeld updates certs added := by
  obtain ⟨issued, suspended, removed, unsuspended⟩ := activateKey_yields yields
  refine ⟨⟨?_, ?_, ?_⟩, ?_⟩
  · exact fun cert member => .inr (exists_of_reIssued issued member)
  · rw [unsuspended]
    exact List.forall_mem_nil _
  · rw [removed]
    exact fun cert member => ⟨.inr (exists_of_reIssued suspended member), List.not_mem_nil⟩
  · rw [removed]
    exact List.forall_mem_nil _

variable {map : Keyed IssuedCertificate.key}

theorem exists_of_shrunk
    (looped : Yields ((map.values env.order).mapM (shrink env signingKey timing)) results) :
    (∀ cert ∈ results.filterMap Shrunk.reissuedCert, ∃ before, map.get cert.key = some before ∧
      isEmpty (intersection signingKey.incomingCert.resources before.resources) = false) ∧
    ∀ key ∈ results.filterMap Shrunk.revokedKey, ∃ before, map.get key = some before ∧
      isEmpty (intersection signingKey.incomingCert.resources before.resources) = true := by
  refine ⟨fun cert member => ?_, fun key member => ?_⟩
  · obtain ⟨result, listed, selected⟩ := List.mem_filterMap.mp member
    obtain ⟨previous, inMap, shrunk⟩ := looped.exists_item listed
    obtain ⟨rfl, _⟩ | ⟨rfl, _⟩ | ⟨remade, rfl, left, made⟩ := shrink_yields shrunk
    · cases selected
    · cases selected
    · cases selected
      rw [(reIssue_yields made).1]
      exact ⟨previous, Keyed.mem_values.mp inMap, left⟩
  · obtain ⟨result, listed, selected⟩ := List.mem_filterMap.mp member
    obtain ⟨previous, inMap, shrunk⟩ := looped.exists_item listed
    obtain ⟨rfl, _⟩ | ⟨rfl, nothing⟩ | ⟨remade, rfl, _, _⟩ := shrink_yields shrunk
    · cases selected
    · cases selected
      exact ⟨previous, Keyed.mem_values.mp inMap, nothing⟩
    · cases selected

theorem concerns_of_shrinkOverclaiming (apart : certs.Apart)
    (yields : Yields (certs.shrinkOverclaiming env signingKey timing) updates) :
    ConcernsHeld updates certs added := by
  obtain ⟨issued, suspended, issuedLooped, suspendedLooped, rfl⟩ :=
    shrinkOverclaiming_yields yields
  obtain ⟨issuedAgain, issuedRevoked⟩ := exists_of_shrunk issuedLooped
  obtain ⟨suspendedAgain, suspendedRevoked⟩ := exists_of_shrunk suspendedLooped
  refine ⟨⟨?_, ?_, ?_⟩, ?_⟩
  · intro cert member
    obtain ⟨before, present, _⟩ := issuedAgain cert member
    exact .inr ⟨before, present⟩
  · exact List.forall_mem_nil _
  · intro cert member
    obtain ⟨before, present, left⟩ := suspendedAgain cert member
    refine ⟨.inr ⟨before, present⟩, fun removed => ?_⟩
    obtain revoked | revoked := List.mem_append.mp removed
    · obtain ⟨other, issued, _⟩ := issuedRevoked _ revoked
      exact apart _ _ _ issued present
    · obtain ⟨other, same, nothing⟩ := suspendedRevoked _ revoked
      cases present.symm.trans same
      cases left.symm.trans nothing
  · intro key removed
    obtain revoked | revoked := List.mem_append.mp removed
    · obtain ⟨before, present, _⟩ := issuedRevoked key revoked
      exact .inl ⟨before, present⟩
    · obtain ⟨before, present, _⟩ := suspendedRevoked key revoked
      exact .inr ⟨before, present⟩

end Making

end ChildCertificates

def CmdDet.Certifies (cmd : CmdDet) (rcn : ResourceClassName) (key : KeyIdentifier) : Prop :=
  match cmd with
  | .childCertify _ request _ => request.className = rcn ∧ key = request.key
  | _ => False

section Updates

variable [KrillSigner] {rc : ResourceClass}

theorem concerns_of_update (apart : rc.certificates.Apart)
    (update : CertUpdate ca env rcn rc cmd updates) :
    ChildCertificates.ConcernsHeld updates rc.certificates (cmd.Certifies rcn) := by
  cases update with
  | nothing => exact ⟨⟨List.forall_mem_nil _, List.forall_mem_nil _, List.forall_mem_nil _⟩,
      List.forall_mem_nil _⟩
  | certified named known decoded made =>
    refine ⟨⟨List.forall_mem_singleton.mpr (.inl
      ⟨named, CertAuth.key_of_issueCert decoded made⟩), ?_, ?_⟩, ?_⟩
    all_goals exact List.forall_mem_nil _
  | shifted _ shifted =>
    refine ⟨⟨?_, fun cert member => .inr ⟨cert, shifted.unsuspended cert member⟩,
      fun cert member => ?_⟩, shifted.removed⟩
    · rw [shifted.issued]
      exact List.forall_mem_nil _
    · obtain ⟨_, issued, none⟩ := shifted.suspended cert member
      exact ⟨.inl ⟨cert, issued⟩, none ▸ List.not_mem_nil⟩
  | shrunk shrunk => exact concerns_of_shrinkOverclaiming apart shrunk
  | activated activated => exact concerns_of_activateKey activated

omit [KrillSigner] in
theorem certificates_of_keys (aboutKeys : ∀ event ∈ own, event.isAboutKeys = true)
    (done : onClassAll later own rc = some after) :
    after.certificates = rc.certificates := by
  induction own generalizing rc with
  | nil => cases done; rfl
  | cons event rest induction =>
    obtain ⟨changed, first, rested⟩ := onClassAll_cons.mp done
    rw [induction (fun other member => aboutKeys other (List.mem_cons_of_mem _ member)) rested,
      onClass_keys (aboutKeys event List.mem_cons_self) first]

theorem isAboutKeys_of_requested (requested : rc.Requested ca env own) :
    ∀ event ∈ own, event.isAboutKeys = true := by
  intro event member
  obtain ⟨_, _, _, _, _, rfl, _⟩ := requested event member
  rfl

omit [KrillSigner] in
theorem ChildCertificates.has_of_revoked {certs : ChildCertificates} (apart : certs.Apart) :
    ((certs.keyRevoked revoked).updated (ChildCertificateUpdates.default.remove revoked)).Apart ∧
    ∀ {key}, ((certs.keyRevoked revoked).updated
      (ChildCertificateUpdates.default.remove revoked)).Has key → key ≠ revoked ∧ certs.Has key := by
  have concerns (certs : ChildCertificates) : Concerns
      (ChildCertificateUpdates.default.remove revoked) certs fun _ => False :=
    ⟨List.forall_mem_nil _, List.forall_mem_nil _, List.forall_mem_nil _⟩
  refine ⟨(concerns _).apart ((concerns certs).apart apart fun _ => False.elim) fun _ =>
    False.elim, fun has => ?_⟩
  obtain ⟨kept, has⟩ := (concerns _).has has
  obtain ⟨_, has⟩ := (concerns certs).has (has.resolve_left id)
  exact ⟨List.ne_of_not_mem_cons kept, has.resolve_left id⟩

/-- Certificates for keys that had some before, or are certified now. -/
def Stems (cmd : CmdDet) (rcn : ResourceClassName) (before : Option ResourceClass)
    (certs : ChildCertificates) : Prop :=
  certs.Apart ∧ ∀ key, certs.Has key →
    cmd.Certifies rcn key ∨ ∃ rc, before = some rc ∧ rc.certificates.Has key

theorem certificates_of_change {before : Option ResourceClass}
    (apart : ∀ rc, before = some rc → rc.certificates.Apart)
    (notSuspended : ∀ rc key, before = some rc → cmd.Certifies rcn key →
      rc.certificates.suspended.get key = none)
    (change : ClassChange ca env later rcn cmd before after) :
    Stems cmd rcn before after.certificates := by
  have ofGroup {rc after : ResourceClass} {own : List CaEvtDet} (is : before = some rc)
      (group : Group ca env rcn rc cmd own)
      (done : onClassAll later own rc = some after) :
      Stems cmd rcn before after.certificates := by
    obtain ⟨updates, update, certificates, _⟩ := certUpdated_of_group group done
    have concerns := concerns_of_update (apart rc is) update
    rw [certificates]
    refine ⟨concerns.apart (apart rc is) fun key certified => notSuspended rc key is certified,
      fun key has => (concerns.has has).2.imp_right fun present => ⟨rc, is, present⟩⟩
  have nothing {after : ResourceClass} (same : after.certificates = .default) :
      Stems cmd rcn before after.certificates := by
    rw [same]
    exact ⟨apart_default, fun key has =>
      (not_has_default has).elim⟩
  cases change with
  | grouped group done => exact ofGroup rfl group done
  | @requested _ rc _ _ _ requested done =>
    rw [certificates_of_keys (isAboutKeys_of_requested requested) done]
    exact ⟨apart rc rfl, fun key has => .inr ⟨rc, rfl, has⟩⟩
  | created requested done =>
    exact nothing (certificates_of_keys (isAboutKeys_of_requested requested) done)
  | trustAnchorMade => exact nothing rfl
  | moved group done =>
    have afterRolls := ofGroup rfl group done
    cases ca.repository <;> exact afterRolls
  | @keyRevoked _ request rc =>
    obtain ⟨stillApart, had⟩ := has_of_revoked (apart rc rfl)
    exact ⟨stillApart, fun key has => .inr ⟨rc, rfl, (had has).2⟩⟩

end Updates

/-- Keys are certified for one child and one class only, and not while they are suspended.
They are revoked in the class in which they are used, and a child is only removed when none
of its certificates is suspended. -/
def CmdDet.KeepsOwners (cmd : CmdDet) (ca : CertAuth) : Prop :=
  match cmd with
  | .childCertify child request _ =>
    (∀ other, other ≠ child → ca.keyUse other request.key = none) ∧
    (∀ rcn, ca.keyUse child request.key = some (.current rcn) → rcn = request.className) ∧
    ∀ rc, ca.resources.get request.className = some rc →
      rc.certificates.suspended.get request.key = none
  | .childRevokeKey child request =>
    ∀ rcn, ca.keyUse child request.key = some (.current rcn) → rcn = request.className
  | .childRemove child => ∀ rcn rc key, ca.resources.get rcn = some rc →
      ca.keyUse child key = some (.current rcn) → rc.certificates.suspended.get key = none
  | _ => True

namespace CertAuth

/-- The certificates under all classes have owners, and a key is used by one child only. -/
structure Owned (ca : CertAuth) : Prop where
  apart : ∀ {rcn rc}, ca.resources.get rcn = some rc → rc.certificates.Apart
  owner : ∀ {rcn rc key}, ca.resources.get rcn = some rc → rc.certificates.Has key →
    ∃ child, ca.keyUse child key = some (.current rcn)
  distinct : ∀ {key child other}, ca.keyUse child key ≠ none → ca.keyUse other key ≠ none →
    child = other

theorem keyUse_ne_none {ca : CertAuth} (used : ca.keyUse child key = some use) :
    ca.keyUse child key ≠ none :=
  used ▸ nofun

theorem init_owned (handle : CaHandle) (id : Rfc8183Id) : (init handle id).Owned where
  apart := fun found => nomatch (HashMap.get_empty _).symm.trans found
  owner := fun found => nomatch (HashMap.get_empty _).symm.trans found
  distinct := fun used => absurd rfl used

variable [KrillSigner] {ca : CertAuth}

theorem Owned.not_withdrawn (owned : ca.Owned) (used : ca.keyUse child key = some (.current rcn))
    (found : last.resources.get rcn = some after) (has : after.certificates.Has key) :
    ¬Withdrawn ca env last cmd key := by
  rintro ⟨other, rc, changed, updates, present, foundChanged, update, certificates, removed⟩
  have concerns := concerns_of_update (owned.apart present) update
  obtain ⟨owner, usedByOwner⟩ := owned.owner present (concerns.removed key removed)
  have same := owned.distinct (keyUse_ne_none used) (keyUse_ne_none usedByOwner)
  subst same
  cases used.symm.trans usedByOwner
  cases found.symm.trans foundChanged
  rw [certificates] at has
  exact (concerns.has has).1 removed

theorem childRemove_class (consistent : ca.Consistent)
    (accepted : ca.childRemove env removed = .ok events)
    (applied : ca.applyNextAll later (events.map StoredEvent.details) = some last)
    (known : ca.children.get removed = some details) (present : ca.resources.get rcn = some rc)
    (found : last.resources.get rcn = some after)
    (used : details.usedKeys.get key = some (.current rcn)) :
    after.certificates = rc.certificates.updated (rc.removals (details.issued env.order rcn)) := by
  have grouped := (childRemove_shift accepted).ordered consistent rfl
  obtain ⟨_, same, accepted⟩ := Fallible.bind_eq_ok.mp accepted
  cases known.symm.trans (getChild_eq_ok same)
  cases accepted
  rw [details_eventsFromDetails] at applied grouped
  have run := classRun_of_plain grouped.plain applied rcn
  have listed : key ∈ details.issued env.order rcn := ChildDetails.mem_issued.mpr used
  have someKeys : ¬(details.issued env.order rcn).isEmpty = true := fun empty => by
    rw [List.isEmpty_iff.mp empty] at listed
    exact absurd listed List.not_mem_nil
  rw [about_append, about_forChildKeys present, if_neg someKeys, found, present] at run
  cases run with
  | changed done =>
    change onClassAll later [.childCertificatesUpdated rcn
      (rc.removals (details.issued env.order rcn))] rc = some after at done
    rw [onClassAll_singleton, onClass_childCertificatesUpdated] at done
    cases done
    rfl

theorem not_has_of_removed (consistent : ca.Consistent)
    (keeps : (CmdDet.childRemove removed).KeepsOwners ca)
    (accepted : ca.childRemove env removed = .ok events)
    (applied : ca.applyNextAll later (events.map StoredEvent.details) = some last)
    (present : ca.resources.get rcn = some rc)
    (used : ca.keyUse removed key = some (.current rcn))
    (found : last.resources.get rcn = some after) : ¬after.certificates.Has key := by
  intro has
  obtain ⟨details, known, usedKey⟩ := Option.bind_eq_some_iff.mp used
  have concerns (keys : List KeyIdentifier) : ChildCertificates.Concerns (rc.removals keys)
      rc.certificates fun _ => False := by
    rw [ResourceClass.removals_eq]
    exact ⟨List.forall_mem_nil _, List.forall_mem_nil _, List.forall_mem_nil _⟩
  rw [childRemove_class consistent accepted applied known present found usedKey] at has
  obtain ⟨notRemoved, certified | ⟨cert, issued⟩ | ⟨cert, suspended⟩⟩ := (concerns _).has has
  · exact certified
  · refine notRemoved ?_
    rw [ResourceClass.removals_eq]
    refine List.mem_map.mpr ⟨cert, List.mem_filterMap.mpr ⟨key, ?_, issued⟩,
      Keyed.key_of_get issued⟩
    exact ChildDetails.mem_issued.mpr usedKey
  · cases (keeps rcn rc key present used).symm.trans suspended

theorem Owned.kept (owned : ca.Owned) (consistent : ca.Consistent) (keeps : cmd.KeepsOwners ca)
    (yields : Yields (ca.processCommand env cmd) events)
    (applied : ca.applyNextAll later (events.map StoredEvent.details) = some last)
    (present : ca.resources.get rcn = some rc) (found : last.resources.get rcn = some after)
    (has : after.certificates.Has key) (used : ca.keyUse child key = some (.current rcn)) :
    last.keyUse child key = some (.current rcn) := by
  cases about : cmd.isAboutChild with
  | false =>
    obtain same | ⟨withdrawn, _⟩ :=
      (keyUse_of_unrelated consistent about yields applied).2 child key
    · exact same.trans used
    · exact absurd withdrawn (owned.not_withdrawn used found has)
  | true =>
    cases cmd with
    | childAdd added =>
      have different : child ≠ added := by
        rintro rfl
        unfold keyUse at used
        rw [(childAdd_eq_ok yields.liftExcept).1] at used
        cases used
      rw [childAdd_keyUse yields.liftExcept applied, if_neg different, used]
    | childCertify certified request =>
      rw [childCertify_keyUse yields applied]
      split
      · next same =>
        obtain ⟨rfl, rfl⟩ := same
        rw [keeps.2.1 rcn used]
      · exact used
    | childRevokeKey revoked request =>
      obtain ⟨⟨_, usedBefore⟩, use⟩ : _ ∧ last.keyUse child key = _ :=
        childRevokeKey_keyUse yields.liftExcept applied
      rw [use]
      split
      · next same =>
        subst same
        have sameChild := owned.distinct (keyUse_ne_none used) (keyUse_ne_none usedBefore)
        subst sameChild
        have named := keeps rcn used
        subst named
        obtain ⟨_, before, classes⟩ := childRevokeKey_classes yields.liftExcept applied
        rw [classes, if_pos rfl] at found
        cases found
        exact absurd rfl ((has_of_revoked (owned.apart before)).2 has).1
      · exact used
    | childRemove removed =>
      have accepted := yields.liftExcept
      by_cases same : child = removed
      · subst same
        exact absurd has (not_has_of_removed consistent keeps accepted applied present used found)
      · obtain kept | ⟨withdrawn, _⟩ := childRemove_keyUse consistent accepted applied same
        · exact kept.trans used
        · exact absurd withdrawn (owned.not_withdrawn used found has)
    | _ => cases about

theorem keyUse_origin (consistent : ca.Consistent)
    (yields : Yields (ca.processCommand env cmd) events)
    (applied : ca.applyNextAll later (events.map StoredEvent.details) = some last)
    (used : last.keyUse child key ≠ none) :
    ca.keyUse child key ≠ none ∨
      ∃ request config, cmd = .childCertify child request config ∧ key = request.key := by
  have ofMap {use : Option UsedKeyState} (is : last.keyUse child key =
      use.map fun _ => UsedKeyState.revoked) : use ≠ none := fun none => used (by rw [is, none]; rfl)
  cases about : cmd.isAboutChild with
  | false =>
    obtain same | ⟨_, revoked⟩ :=
      (keyUse_of_unrelated consistent about yields applied).2 child key
    · exact .inl (same ▸ used)
    · exact .inl (ofMap revoked)
  | true =>
    cases cmd with
    | childAdd added =>
      rw [childAdd_keyUse yields.liftExcept applied] at used
      split at used
      · exact absurd rfl used
      · exact .inl used
    | childCertify certified request config =>
      rw [childCertify_keyUse yields applied] at used
      split at used
      · next same =>
        obtain ⟨rfl, rfl⟩ := same
        exact .inr ⟨request, config, rfl, rfl⟩
      · exact .inl used
    | childRevokeKey revoked request =>
      have use : last.keyUse child key = _ :=
        (childRevokeKey_keyUse yields.liftExcept applied).2
      split at use
      · exact .inl (ofMap use)
      · exact .inl (use ▸ used)
    | childRemove removed =>
      have accepted := yields.liftExcept
      by_cases same : child = removed
      · subst same
        exact absurd (childRemove_keyUse_self accepted applied) used
      · obtain kept | ⟨_, revoked⟩ := childRemove_keyUse consistent accepted applied same
        · exact .inl (kept ▸ used)
        · exact .inl (ofMap revoked)
    | _ => cases about

theorem Owned.step (owned : ca.Owned) (consistent : ca.Consistent) (keeps : cmd.KeepsOwners ca)
    (yields : Yields (ca.processCommand env cmd) events)
    (applied : ca.applyNextAll later (events.map StoredEvent.details) = some last) :
    last.Owned := by
  have notSuspended {rcn : ResourceClassName} (rc : ResourceClass) (key : KeyIdentifier)
      (present : ca.resources.get rcn = some rc) (certifies : cmd.Certifies rcn key) :
      rc.certificates.suspended.get key = none := by
    cases cmd with
    | childCertify certified request =>
      obtain ⟨rfl, rfl⟩ := certifies
      exact keeps.2.2 rc present
    | _ => exact certifies.elim
  have change {rcn : ResourceClassName} {after : ResourceClass}
      (found : last.resources.get rcn = some after) :=
    certificates_of_change (fun _ => owned.apart) notSuspended
      (processCommand_change consistent yields applied found)
  constructor
  · intro rcn after found
    exact (change found).1
  · intro rcn after key found has
    obtain certifies | ⟨rc, present, before⟩ := (change found).2 key has
    · cases cmd with
      | childCertify certified request =>
        obtain ⟨rfl, rfl⟩ := certifies
        exact ⟨certified, (childCertify_keyUse yields applied).trans (if_pos ⟨rfl, rfl⟩)⟩
      | _ => exact certifies.elim
    · obtain ⟨child, used⟩ := owned.owner present before
      exact ⟨child, owned.kept consistent keeps yields applied present found has used⟩
  · intro key child other used usedByOther
    obtain before | ⟨request, config, rfl, rfl⟩ := keyUse_origin consistent yields applied used
    · obtain otherBefore | ⟨request, config, rfl, rfl⟩ :=
        keyUse_origin consistent yields applied usedByOther
      · exact owned.distinct before otherBefore
      · by_contra different
        exact before (keeps.1 child different)
    · obtain otherBefore | ⟨_, _, same, _⟩ :=
        keyUse_origin consistent yields applied usedByOther
      · by_contra different
        exact otherBefore (keeps.1 other (Ne.symm different))
      · cases same
        rfl

theorem ReachableWhen.owned
    (reachable : ReachableWhen (fun ca _ cmd => cmd.KeepsOwners ca) ca) : ca.Owned := by
  induction reachable with
  | init handle id => exact init_owned handle id
  | step reachable keeps accepted applied induction =>
    rw [applyAll_eq] at applied
    exact induction.step reachable.reachable.consistent keeps ⟨_, _, accepted⟩ applied

/-- Certificates under a class belong to one child each, which uses the key in that class,
and there are none for keys that a child has revoked. -/
structure OwnedCertificates (ca : CertAuth) : Prop where
  apart : ∀ {rcn rc key}, ca.resources.get rcn = some rc →
    ¬(rc.certificates.issued.containsKey key ∧ rc.certificates.suspended.containsKey key)
  owner : ∀ {rcn rc key}, ca.resources.get rcn = some rc → rc.certificates.Has key →
    ∃! child, ∃ details, ca.children.get child = some details ∧
      details.usedKeys.get key = some (.current rcn)
  revoked : ∀ {child details key rcn rc}, ca.children.get child = some details →
    details.usedKeys.get key = some .revoked → ca.resources.get rcn = some rc →
    ¬rc.certificates.Has key

omit [KrillSigner] in
theorem Owned.certificates (owned : ca.Owned) : ca.OwnedCertificates where
  apart := fun found both => by
    obtain ⟨cert, issued⟩ := Option.isSome_iff_exists.mp both.1
    obtain ⟨other, suspended⟩ := Option.isSome_iff_exists.mp both.2
    exact owned.apart found _ _ _ issued suspended
  owner := fun found has => by
    obtain ⟨child, used⟩ := owned.owner found has
    refine ⟨child, Option.bind_eq_some_iff.mp used, fun other usedByOther => ?_⟩
    exact owned.distinct (keyUse_ne_none (Option.bind_eq_some_iff.mpr usedByOther))
      (keyUse_ne_none used)
  revoked := fun {child details key rcn rc} known revoked found has => by
    obtain ⟨owner, used⟩ := owned.owner found has
    have usedByChild : ca.keyUse child key = some .revoked :=
      Option.bind_eq_some_iff.mpr ⟨details, known, revoked⟩
    cases owned.distinct (keyUse_ne_none usedByChild) (keyUse_ne_none used)
    cases usedByChild.symm.trans used

/-- If keys are not shared, revoked elsewhere or certified while suspended, and if children
are not removed while they are suspended, then all certificates have an owner. With a child
all its certificates go. -/
theorem certificates_have_owners
    (reachable : ReachableWhen (fun ca _ cmd => cmd.KeepsOwners ca) ca) :
    ca.OwnedCertificates ∧
    ∀ {env later : Surroundings} {child : ChildHandle} {details : ChildDetails}
      {signer used : Signer} {events : List CaEvt} {last : CertAuth},
      (CmdDet.childRemove child).KeepsOwners ca →
      ca.processCommand env (.childRemove child) signer = .ok events used →
      ca.applyAll later events = some last → ca.children.get child = some details →
      ∀ {rcn rc key}, details.usedKeys.get key = some (.current rcn) →
        last.resources.get rcn = some rc → ¬rc.certificates.Has key := by
  have owned := reachable.owned
  refine ⟨owned.certificates, ?_⟩
  intro env later child details signer used events last keeps accepted applied known rcn rc key
    usedKey found has
  have ownedAfter := (reachable.step keeps accepted applied).owned
  obtain ⟨owner, usedAfter⟩ := ownedAfter.owner found has
  rw [applyAll_eq] at applied
  obtain before | ⟨_, _, same, _⟩ := keyUse_origin reachable.reachable.consistent
    ⟨_, _, accepted⟩ applied (keyUse_ne_none usedAfter)
  · have usedByChild := keyUse_ne_none (Option.bind_eq_some_iff.mpr ⟨_, known, usedKey⟩)
    cases owned.distinct before usedByChild
    have removed : Yields (ca.processCommand env (.childRemove _)) events :=
      ⟨_, _, accepted⟩
    cases (childRemove_keyUse_self removed.liftExcept applied).symm.trans usedAfter
  · cases same

end CertAuth

end Krill.Ca

namespace Krill.Ca.Numbered

open CertAuth

def issuing : CmdDet := .childCertify "child" (request "0" 50) config

def issuedOnce : CertAuth × Nat := (offered.1.replay env offered.2 [issuing]).get (by decide)

theorem certified_certificate_has_owner :
    ∃ rc : ResourceClass, issuedOnce.1.resources.get "0" = some rc ∧
      rc.certificates.Has (50 : Nat) ∧ issuedOnce.1.OwnedCertificates := by
  have reachable : ReachableWhen (fun ca _ cmd => cmd.KeepsOwners ca) offered.1 := by
    refine (ReachableWhen.init _ _).replay (fun cmd member before => ?_)
      (Option.some_get (by decide)).symm
    simp only [offer, List.mem_cons, List.not_mem_nil, or_false] at member
    rcases member with rfl | rfl | rfl | rfl | rfl <;> trivial
  have keeps : issuing.KeepsOwners offered.1 := by
    refine ⟨fun other _ => ?_, nofun, fun rc found => ?_⟩
    · refine Option.eq_none_iff_forall_ne_some.mpr fun use used => ?_
      obtain ⟨details, known, usedKey⟩ := Option.bind_eq_some_iff.mp used
      have listed := HashMap.mem_entries.mpr known
      change (other, details) ∈ [("child", _)] at listed
      cases List.mem_singleton.mp listed
      cases usedKey
    · cases found
      rfl
  have replayed : offered.1.replay env offered.2 [issuing] = some issuedOnce :=
    (Option.some_get _).symm
  exact ⟨_, rfl, .inl ⟨_, rfl⟩,
    (certificates_have_owners (reachable.replayOne keeps replayed)).1⟩

def removed : CertAuth × Nat :=
  (start.replay env (0 : Nat) (offer 3 ++
    [issuing, .childSuspendInactive "child", .childRemove "child"])).get (by decide)

theorem suspended_certificate_outlives_child :
    ∃ (ca : CertAuth) (rc : ResourceClass) (cert : SuspendedCert), Reachable ca ∧
      ca.resources.get "0" = some rc ∧ rc.certificates.suspended.get (50 : Nat) = some cert ∧
      ∀ child, ca.children.get child = none :=
  ⟨removed.1, _, _, (Reachable.init _ _).replay (Option.some_get (by decide)).symm, rfl, rfl,
    HashMap.isEmpty_iff.mp rfl⟩

end Krill.Ca.Numbered
