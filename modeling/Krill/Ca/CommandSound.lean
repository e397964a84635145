import Krill.Ca.ClassCommands
import Krill.Data.Fallible

namespace Krill.Ca

open Rpki
open Stateful (Yields)
open HashMap

variable [Rpki]

namespace CertAuth

variable {ca : CertAuth} {rc : ResourceClass}

theorem getClass_eq_ok (found : ca.getClass rcn = .ok rc) : ca.resources.get rcn = some rc := by
  unfold getClass at found
  split at found
  · next present => cases found; exact present
  · cases found

theorem getChild_eq_ok (found : ca.getChild child = .ok details) :
    ca.children.get child = some details := by
  unfold getChild at found
  split at found
  · next present => cases found; exact present
  · cases found

theorem hasChild_of_getChild (found : ca.getChild child = .ok details) : ca.hasChild child :=
  Option.isSome_iff_exists.mpr ⟨details, getChild_eq_ok found⟩

theorem hasCurrentKey_of_issued (consistent : ca.Consistent)
    (known : ca.children.get child = some details) (issued : details.issued order rcn ≠ [])
    (found : ca.resources.get rcn = some rc) : ca.HasCurrentKey rcn := by
  obtain ⟨key, member⟩ := List.exists_mem_of_ne_nil _ issued
  unfold ChildDetails.issued at member
  obtain ⟨⟨used, state⟩, listed, selected⟩ := List.mem_filterMap.mp member
  have current : state = .current rcn := by
    by_contra other
    rw [if_neg other] at selected
    cases selected
  have usedKey := mem_iter.mp listed
  rw [current] at usedKey
  exact ⟨rc, found, consistent.usedCertified known usedKey found⟩

section Commands

theorem childRevokeKey_eq_ok (accepted : ca.childRevokeKey child request = .ok events) :
    ca.hasChild child ∧ events.map StoredEvent.details =
      [.childKeyRevoked child request.className request.key,
        .childCertificatesUpdated request.className
          (ChildCertificateUpdates.default.remove request.key)] := by
  obtain ⟨details, known, accepted⟩ := Fallible.bind_eq_ok.mp accepted
  obtain ⟨_, accepted⟩ := Fallible.ite_error_eq_ok.mp accepted
  cases accepted
  exact ⟨hasChild_of_getChild known, rfl⟩

variable {details : List CaEvtDet}

theorem keeps_of_removals (removals : ∀ event ∈ details, ∃ rcn parent requests,
      event = .resourceClassRemoved rcn parent requests ∧ touched rcn)
    (applied : ca.applyNextAll later details = some last) : Keeps touched ca last := by
  refine holds_of_applied (Keeps touched ca) (.refl _ _) (fun event member _ _ kept done => ?_)
    applied
  obtain ⟨rcn, parent, requests, rfl, inside⟩ := removals event member
  cases done
  refine kept.trans ⟨fun {named} other => ?_, rfl, fun known => known, rfl⟩
  refine (get_remove _ _ _).trans (if_neg ?_)
  rintro rfl
  exact other inside

theorem soundAll_removals (removals : ∀ event ∈ details, ∃ rcn parent requests,
      event = .resourceClassRemoved rcn parent requests) : SoundAll later ca details := by
  refine soundAll_of_stable (fun _ => True) trivial (fun event member next _ => ?_)
    fun _ _ _ _ _ _ => trivial
  obtain ⟨rcn, parent, requests, rfl⟩ := removals event member
  exact fun _ targeted => nomatch targeted

theorem get_of_removals (removals : ∀ event ∈ details, ∃ rcn parent requests,
      event = .resourceClassRemoved rcn parent requests)
    (applied : ca.applyNextAll later details = some last)
    (found : last.resources.get rcn = some rc) :
    ca.resources.get rcn = some rc ∧
      ∀ parent requests, .resourceClassRemoved rcn parent requests ∉ details := by
  induction details generalizing ca with
  | nil =>
    cases applied
    exact ⟨found, fun _ _ => List.not_mem_nil⟩
  | cons event rest induction =>
    obtain ⟨next, done, finished⟩ := applyNextAll_cons.mp applied
    obtain ⟨removed, parent, requests, rfl⟩ := removals event List.mem_cons_self
    cases done
    obtain ⟨present, absent⟩ :=
      induction (fun event member => removals event (List.mem_cons_of_mem _ member)) finished
    have other : rcn ≠ removed := by
      rintro rfl
      change (ca.resources.remove rcn).get rcn = some rc at present
      rw [get_remove, if_pos rfl] at present
      cases present
    refine ⟨get_of_remove present, fun parent' requests' member => ?_⟩
    obtain same | member := List.mem_cons.mp member
    · cases same
      exact other rfl
    · exact absent _ _ member

theorem removeParent_sound (accepted : ca.removeParent env parent = .ok events)
    (later : Surroundings) : SoundAll later ca (events.map StoredEvent.details) := by
  obtain ⟨_, accepted⟩ := Fallible.ite_error_eq_ok.mp accepted
  cases accepted
  rw [details_eventsFromDetails]
  have removals : ∀ event ∈ ((ca.resources.iter env.order).filter fun entry =>
      entry.2.parentHandle == parent).map fun entry =>
        CaEvtDet.resourceClassRemoved entry.1 parent [], ∃ rcn parent requests,
      event = .resourceClassRemoved rcn parent requests := by
    intro event member
    obtain ⟨entry, _, rfl⟩ := List.mem_map.mp member
    exact ⟨_, _, _, rfl⟩
  refine soundAll_append (soundAll_removals removals) fun next applied => soundAll_singleton ?_
  -- all classes of the parent are gone when the parent is removed
  intro rcn rc found same
  obtain ⟨present, absent⟩ := get_of_removals removals applied found
  refine absent parent [] (List.mem_map.mpr ⟨(rcn, rc), List.mem_filter.mpr ⟨?_, ?_⟩, rfl⟩)
  · exact mem_iter.mpr present
  · exact beq_iff_eq.mpr same

theorem present_of_request (request : event.IsRequest rcn)
    (applied : ca.applyNext later event = some last) (present : (ca.resources.get named).isSome) :
    (last.resources.get named).isSome := by
  obtain ⟨request, key, rfl⟩ | ⟨revokeReq, rfl⟩ := request
  · obtain ⟨rc, changed, found, _, rfl⟩ := (applyDetails_target_eq_some rfl).mp applied
    exact isSome_get_insert.mpr (.inr present)
  · cases applied
    exact present

theorem present_of_requests (requests : ∀ event ∈ details, event.IsRequest rcn)
    (applied : ca.applyNextAll later details = some last)
    (present : (ca.resources.get named).isSome) : (last.resources.get named).isSome :=
  holds_of_applied (fun next => (next.resources.get named).isSome) present
    (fun event member _ _ held done => present_of_request (requests event member) done held)
    applied

theorem numbered_of_requests (requests : ∀ event ∈ details, event.IsRequest rcn)
    (applied : ca.applyNextAll later details = some last) :
    last.nextClassName = ca.nextClassName := by
  refine holds_of_applied (fun next => next.nextClassName = ca.nextClassName) rfl
    (fun event member _ _ held done => ?_) applied
  obtain ⟨request, key, rfl⟩ | ⟨revokeReq, rfl⟩ := requests event member
  · exact (Keeps.ofTarget rfl done).numbered.trans held
  · cases done
    exact held

theorem soundAll_requests (requests : ∀ event ∈ details, event.IsRequest rcn)
    (present : (ca.resources.get rcn).isSome) : SoundAll later ca details := by
  refine soundAll_of_stable (fun next => (next.resources.get rcn).isSome) present ?_ ?_
  · intro event member next holds
    obtain ⟨request, key, rfl⟩ | ⟨revokeReq, rfl⟩ := requests event member
    · obtain ⟨rc, found⟩ := Option.isSome_iff_exists.mp holds
      exact sound_of_target rfl found trivial
    · exact fun _ targeted => nomatch targeted
  · exact fun event member _ _ holds done => present_of_request (requests event member) done holds

end Commands

section Signing

variable [KrillSigner]

theorem makeRequestEvents_yields
    (yields : Yields (ca.makeRequestEvents env entitlement rc) details) :
    ∀ event ∈ details, event.IsRequest rc.name := by
  obtain ⟨contact, _, yields⟩ := yields.bind
  intro event member
  obtain ⟨repo, key, request, rfl, _⟩ | unexpected :=
    ResourceClass.makeEntitlementEvents_yields yields event member
  · exact .inl ⟨request, key, rfl⟩
  · exact .inr unexpected

theorem requestForEntitlements_sound
    (yields : Yields (ca.requestForEntitlements env parent number entitlements) details)
    (numbered : next.nextClassName = number) (present : ∀ entitlement ∈ entitlements, ∀ rc,
      ca.findParentRc env.order parent entitlement.className = some rc →
      (next.resources.get rc.name).isSome) : SoundAll later next details := by
  induction entitlements generalizing number details next with
  | nil => cases yields.pure; trivial
  | cons entitlement rest induction =>
    have presentRest {last : CertAuth} (keeps : ∀ named, (next.resources.get named).isSome →
          (last.resources.get named).isSome) :
        ∀ entitlement ∈ rest, ∀ rc,
          ca.findParentRc env.order parent entitlement.className = some rc →
          (last.resources.get rc.name).isSome := fun other member rc found =>
      keeps _ (present other (List.mem_cons_of_mem _ member) rc found)
    unfold requestForEntitlements at yields
    cases found : ca.findParentRc env.order parent entitlement.className with
    | some rc =>
      rw [found] at yields
      obtain ⟨requests, requested, yields⟩ := yields.bind
      obtain ⟨others, continued, yields⟩ := yields.bind
      cases yields.pure
      have areRequests := makeRequestEvents_yields requested
      refine soundAll_append (soundAll_requests areRequests
        (present entitlement List.mem_cons_self rc found)) fun last applied => ?_
      exact induction continued ((numbered_of_requests areRequests applied).trans numbered)
        (presentRest fun _ => present_of_requests areRequests applied)
    | none =>
      rw [found] at yields
      obtain ⟨pendingKey, _, yields⟩ := yields.bind
      obtain ⟨requests, requested, yields⟩ := yields.bind
      obtain ⟨others, continued, yields⟩ := yields.bind
      cases yields.pure
      have areRequests := makeRequestEvents_yields requested
      refine ⟨congrArg ResourceClassName.ofNumber numbered.symm, fun added done => ?_⟩
      cases done
      refine soundAll_append (soundAll_requests areRequests ?_) fun last applied => ?_
      · exact Option.isSome_of_eq_some ((get_insert _ _ _ _).trans (if_pos rfl))
      · refine induction continued ((numbered_of_requests areRequests applied).trans
          (congrArg (· + 1) numbered)) (presentRest fun named there => ?_)
        refine present_of_requests areRequests applied ?_
        change ((next.resources.insert _ _).get named).isSome
        rw [get_insert]
        split
        · rfl
        · exact there

theorem updateEntitlements_sound (consistent : ca.Consistent)
    (yields : Yields (ca.updateEntitlements env parent entitlements) events)
    (later : Surroundings) : SoundAll later ca (events.map StoredEvent.details) := by
  obtain ⟨removed, removals, yields⟩ := yields.bind
  obtain ⟨requests, requested, yields⟩ := yields.bind
  cases yields.pure
  rw [details_eventsFromDetails]
  have areRemovals : ∀ event ∈ removed, ∃ rcn parent requests,
      event = .resourceClassRemoved rcn parent requests ∧ ∃ rc, ca.resources.get rcn = some rc ∧
        rc.parentRcName ∉ entitlements.map fun ent => ent.className := by
    intro event member
    obtain ⟨⟨rcn, rc⟩, listed, yielded⟩ := removals.exists_item member
    obtain ⟨revokeRequests, _, yielded⟩ := yielded.bind
    obtain ⟨listed, lost⟩ := List.mem_filter.mp listed
    refine ⟨rcn, parent, revokeRequests, yielded.pure, rc, mem_iter.mp listed, ?_⟩
    simpa using (Bool.and_eq_true_iff.mp lost).2
  refine soundAll_append (soundAll_removals fun event member => ?_) fun next applied => ?_
  · obtain ⟨rcn, parent, requests, rfl, _⟩ := areRemovals event member
    exact ⟨_, _, _, rfl⟩
  · have kept := keeps_of_removals areRemovals applied
    refine requestForEntitlements_sound requested kept.numbered ?_
    intro entitlement member rc found
    have listed := mem_intoValues.mp (List.mem_of_find?_eq_some found)
    obtain ⟨named, present⟩ := listed
    have matching := List.find?_some found
    have sameClass : rc.parentRcName = entitlement.className := by
      simpa using (Bool.and_eq_true_iff.mp matching).2
    have name := consistent.named present
    subst name
    rw [kept.classes, present]
    · rfl
    · rintro ⟨other, there, lost⟩
      cases present.symm.trans there
      exact lost (sameClass ▸ List.mem_map_of_mem member)

theorem trustAnchorMake_yields (yields : Yields (ca.trustAnchorMake env uris rsyncUri) events) :
    ca.resources.isEmpty ∧ ∃ taCertDetails,
      events.map StoredEvent.details = [.trustAnchorMade taCertDetails] := by
  obtain ⟨nothing, yields⟩ := Yields.guarded yields
  obtain ⟨contact, _, yields⟩ := yields.bind
  obtain ⟨key, _, yields⟩ := yields.bind
  obtain ⟨serial, _, yields⟩ := yields.bind
  obtain ⟨pubKey, _, yields⟩ := yields.bind
  obtain ⟨base64, _, yields⟩ := yields.bind
  split at yields
  · exact yields.throw.elim
  · cases yields.pure
    exact ⟨by simpa using nothing, _, details_eventsFromDetails _ _⟩

omit [KrillSigner] in
theorem key_of_ofCsr (decoded : CsrInfo.ofCsr csr = .ok info) : info.key = csr.publicKey := by
  obtain ⟨signed, caRepository, rpkiManifest, rpkiNotify, publicKey⟩ := csr
  cases signed with
  | false => cases decoded
  | true =>
    cases caRepository with
    | none => cases decoded
    | some =>
      cases rpkiManifest with
      | none => cases decoded
      | some => cases decoded; rfl

theorem issueCert_yields {resources : ResourceSet}
    (yields : Yields (rc.issueCert env csr resources limit timing) issued) :
    ∃ key, rc.currentKey = some key ∧
      Yields (makeIssuedCert env csr (intersection key.incomingCert.resources resources) limit
        key timing) issued := by
  obtain ⟨key, found, yields⟩ := yields.bind
  have current := found.liftExcept
  unfold ResourceClass.getCurrentKey at current
  cases present : rc.currentKey with
  | some => rw [present] at current; cases current; exact ⟨key, rfl, yields⟩
  | none => rw [present] at current; cases current

theorem childCertify_yields (yields : Yields (ca.childCertify env child request config) events) :
    ∃ rc details csrInfo issued, ca.resources.get request.className = some rc ∧
      ca.children.get child = some details ∧ CsrInfo.ofCsr request.csr = .ok csrInfo ∧
      Yields (rc.issueCert env csrInfo details.resources request.limit
        config.issuanceTiming) issued ∧
      events.map StoredEvent.details = [.childCertificateIssued child request.className issued.key,
          .childCertificatesUpdated request.className
            (ChildCertificateUpdates.default.issue issued)] := by
  obtain ⟨csrInfo, decoded, yields⟩ := yields.bind
  obtain ⟨_, yields⟩ := Yields.guarded yields
  obtain ⟨issued, made, yields⟩ := yields.bind
  obtain ⟨rc, foundClass, made⟩ := made.bind
  obtain ⟨details, foundChild, made⟩ := made.bind
  cases yields.pure
  exact ⟨rc, details, csrInfo, issued, getClass_eq_ok foundClass.liftExcept,
    getChild_eq_ok foundChild.liftExcept, decoded.liftExcept, made, rfl⟩

theorem dropResourceClass_sound (yields : Yields (ca.dropResourceClass rcn reason) events)
    (later : Surroundings) : SoundAll later ca (events.map StoredEvent.details) := by
  obtain ⟨rc, foundClass, yields⟩ := yields.bind
  obtain ⟨revokeRequests, _, yields⟩ := yields.bind
  cases yields.pure
  rw [details_eventsFromDetails]
  exact soundAll_singleton fun _ targeted => nomatch targeted

end Signing

end CertAuth

end Krill.Ca
