import Krill.Ca.ClassChange
import Krill.Ca.ObjectUpdates

namespace Krill.Ca

open Rpki
open Stateful (Yields)
open CaEvtDet

variable [Rpki]

namespace CaEvtDet

def onKeyUseAll (child : ChildHandle) (key : KeyIdentifier) (events : List CaEvtDet)
    (before : Option UsedKeyState) : Option UsedKeyState :=
  events.foldl (fun use event => event.onKeyUse child key use) before

theorem onKeyUseAll_of_unrelated (unrelated : ∀ event ∈ events, event.isAboutChild = false) :
    onKeyUseAll child key events before =
      if key ∈ events.flatMap revokedKeys then before.map fun _ => .revoked else before := by
  induction events generalizing before with
  | nil => rfl
  | cons event rest induction =>
    have unrelatedRest := fun other member => unrelated other (List.mem_cons_of_mem _ member)
    change onKeyUseAll child key rest (event.onKeyUse child key before) = _
    rw [induction unrelatedRest, onKeyUse_of_unrelated (unrelated event List.mem_cons_self),
      List.flatMap_cons]
    by_cases inFirst : key ∈ event.revokedKeys <;>
      by_cases inRest : key ∈ rest.flatMap revokedKeys <;>
      simp [inFirst, inRest, Function.comp_def]

end CaEvtDet

namespace CertAuth

variable {ca : CertAuth}

theorem keyUse_of_applyNext (applied : ca.applyNext env event = some next) :
    next.keyUse child key = event.onKeyUse child key (ca.keyUse child key) :=
  (keyUse_of_apply applied).trans rfl

theorem keyUse_of_applyAll (applied : ca.applyNextAll later events = some last) :
    last.keyUse child key = onKeyUseAll child key events (ca.keyUse child key) := by
  induction events generalizing ca with
  | nil => cases applied; rfl
  | cons event rest induction =>
    obtain ⟨next, done, finished⟩ := applyNextAll_cons.mp applied
    rw [induction finished, keyUse_of_applyNext done]
    rfl

end CertAuth

namespace CaEvtDet

@[simp]
theorem revokedKeys_roaEvents (updates : RoaUpdates) (rcn : ResourceClassName) :
    (updates.events rcn).flatMap revokedKeys = [] := by
  unfold RoaUpdates.events
  split <;> rfl

@[simp]
theorem revokedKeys_aspaEvents (updates : AspaObjectsUpdates) (rcn : ResourceClassName) :
    (updates.events rcn).flatMap revokedKeys = [] := by
  unfold AspaObjectsUpdates.events
  split <;> rfl

@[simp]
theorem revokedKeys_bgpsecEvents (updates : BgpSecCertificateUpdates)
    (rcn : ResourceClassName) : (updates.events rcn).flatMap revokedKeys = [] := by
  unfold BgpSecCertificateUpdates.events
  split <;> rfl

@[simp]
theorem revokedKeys_certEvents (updates : ChildCertificateUpdates) (rcn : ResourceClassName) :
    (updates.events rcn).flatMap revokedKeys = updates.removed := by
  unfold ChildCertificateUpdates.events
  split
  · next unchanged =>
    unfold ChildCertificateUpdates.isEmpty at unchanged
    simp only [Bool.and_eq_true, List.isEmpty_iff] at unchanged
    rw [unchanged.1.1.2]
    rfl
  · exact List.append_nil _

end CaEvtDet

section Certificates

variable [KrillSigner]

inductive CertUpdate (ca : CertAuth) (env : Surroundings) (rcn : ResourceClassName)
    (rc : ResourceClass) : CmdDet → ChildCertificateUpdates → Prop
  | nothing (cmd : CmdDet) : CertUpdate ca env rcn rc cmd .default
  | certified {details : ChildDetails} (named : request.className = rcn)
      (known : ca.children.get child = some details)
      (decoded : CsrInfo.ofCsr request.csr = .ok csrInfo)
      (made : Yields (rc.issueCert env csrInfo details.resources request.limit
        config.issuanceTiming) issued) :
      CertUpdate ca env rcn rc (.childCertify child request config)
        (ChildCertificateUpdates.default.issue issued)
  | shifted (shifts : cmd.shifts = true) (shifted : rc.Shifted cmd updates) :
      CertUpdate ca env rcn rc cmd updates
  | shrunk (shrunk : Yields (rc.certificates.shrinkOverclaiming env (.create cert)
        config.issuanceTiming) updates) :
      CertUpdate ca env rcn rc (.updateRcvdCert rcn cert config) updates
  | activated (activated : Yields (rc.certificates.activateKey env new config.issuanceTiming)
        updates) : CertUpdate ca env rcn rc (.keyRollActivate stagingTime config) updates

/-- An update of the certificates, and the keys that children lose by it. -/
structure CertUpdated (ca : CertAuth) (env : Surroundings) (rcn : ResourceClassName)
    (rc : ResourceClass) (cmd : CmdDet) (own : List CaEvtDet) (after : ResourceClass)
    (updates : ChildCertificateUpdates) : Prop where
  update : CertUpdate ca env rcn rc cmd updates
  certificates : after.certificates = rc.certificates.updated updates
  revoked : own.flatMap revokedKeys = updates.removed

variable {ca : CertAuth} {rc : ResourceClass}

theorem certUpdated_of_same (certificates : after.certificates = rc.certificates)
    (revoked : own.flatMap revokedKeys = []) :
    CertUpdated ca env rcn rc cmd own after .default :=
  ⟨.nothing cmd, certificates.trans (ChildCertificates.updated_of_isEmpty rfl).symm, revoked⟩

theorem certUpdated_of_single (update : CertUpdate ca env rcn rc cmd updates)
    (done : onClassAll later [.childCertificatesUpdated rcn updates] rc = some after) :
    CertUpdated ca env rcn rc cmd [.childCertificatesUpdated rcn updates] after updates := by
  rw [onClassAll_singleton, onClass_childCertificatesUpdated] at done
  cases done
  exact ⟨update, rfl, List.append_nil _⟩

theorem certUpdated_of_received
    (received : rc.Received env cert ca.routes ca.aspas ca.bgpsecDefs config own)
    (done : onClassAll later own rc = some after) :
    ∃ updates, CertUpdated ca env rcn rc (.updateRcvdCert rcn cert config) own after updates := by
  have keysOnly {event : CaEvtDet} (aboutKeys : event.isAboutKeys = true)
      (done : onClassAll later [event] rc = some after)
      (revoked : event.revokedKeys = []) :
      CertUpdated ca env rcn rc (.updateRcvdCert rcn cert config) [event] after .default := by
    rw [onClassAll_singleton] at done
    refine certUpdated_of_same ?_ ?_
    · rw [onClass_keys aboutKeys done]
    · rw [List.flatMap_singleton, revoked]
  cases received with
  | activated _ _ updates =>
    obtain ⟨changed, first, rest⟩ := onClassAll_cons.mp done
    rw [onClassAll_started] at rest
    cases rest
    refine ⟨_, certUpdated_of_same ?_ ?_⟩
    · change changed.certificates.updated .default = _
      rw [ChildCertificates.updated_of_isEmpty rfl, onClass_keys rfl first]
    · simp [revokedKeys]
  | staged | forNew | renewed => exact ⟨_, keysOnly rfl done rfl⟩
  | changed _ _ _ _ certs updates shrunk =>
    obtain ⟨changed, first, rest⟩ := onClassAll_cons.mp done
    rw [onClassAll_changed] at rest
    cases rest
    refine ⟨certs, .shrunk shrunk, ?_, ?_⟩
    · change changed.certificates.updated certs = _
      rw [onClass_keys rfl first]
    · simp [revokedKeys]

theorem certUpdated_of_group (group : Group ca env rcn rc cmd own)
    (done : onClassAll later own rc = some after) :
    ∃ updates, CertUpdated ca env rcn rc cmd own after updates := by
  cases group with
  | nothing =>
    cases done
    exact ⟨_, certUpdated_of_same rfl rfl⟩
  | certified named known decoded made =>
    exact ⟨_, certUpdated_of_single (.certified named known decoded made) done⟩
  | shifted shifts shifted => exact ⟨_, certUpdated_of_single (.shifted shifts shifted) done⟩
  | received received => exact certUpdated_of_received received done
  | initiated =>
    obtain ⟨changed, first, rest⟩ := onClassAll_cons.mp done
    rw [onClassAll_singleton] at rest
    refine ⟨_, certUpdated_of_same ?_ rfl⟩
    rw [onClass_keys rfl rest, onClass_keys rfl first]
  | activated _ _ _ reissued =>
    obtain ⟨changed, first, rest⟩ := onClassAll_cons.mp done
    unfold ResourceClass.Reissued.events at rest
    rw [onClassAll_reissued] at rest
    cases rest
    refine ⟨reissued.certs, .activated reissued.certsYielded, ?_, ?_⟩
    · change changed.certificates.updated reissued.certs = _
      rw [onClass_keys rfl first]
    · simp [ResourceClass.Reissued.events, revokedKeys]
  | finished =>
    rw [onClassAll_singleton] at done
    refine ⟨_, certUpdated_of_same ?_ rfl⟩
    rw [onClass_keys rfl done]
  | roasUpdated | roasRenewed =>
    rw [onClassAll_roaUpdates] at done
    cases done
    exact ⟨_, certUpdated_of_same rfl (revokedKeys_roaEvents _ _)⟩
  | aspasUpdated | aspaUpdated | aspasRenewed =>
    rw [onClassAll_aspaUpdates] at done
    cases done
    exact ⟨_, certUpdated_of_same rfl (revokedKeys_aspaEvents _ _)⟩
  | bgpsecsUpdated | bgpsecsRenewed =>
    rw [onClassAll_bgpsecUpdates] at done
    cases done
    exact ⟨_, certUpdated_of_same rfl (revokedKeys_bgpsecEvents _ _)⟩

namespace CertAuth

omit [KrillSigner] in
theorem exists_class_of_target (plain : ∀ event ∈ details, event.isPlain)
    (applied : ca.applyNextAll later details = some last) (member : event ∈ details)
    (targeted : event.target = some rcn) : ∃ rc, ca.resources.get rcn = some rc := by
  obtain ⟨first, rest, rfl⟩ := List.append_of_mem member
  obtain ⟨middle, started, applied⟩ := applyNextAll_append.mp applied
  obtain ⟨_, done, _⟩ := applyNextAll_cons.mp applied
  obtain ⟨rc, _, found, _, _⟩ := (applyDetails_target_eq_some targeted).mp done
  have run := classRun_of_plain (fun other inFirst =>
    plain other (List.mem_append_left _ inFirst)) started rcn
  change middle.resources.get rcn = some rc at found
  rw [found] at run
  exact Option.ne_none_iff_exists'.mp fun absent => by
    rw [absent] at run
    cases run.eq_none

def Withdrawn (ca : CertAuth) (env : Surroundings) (last : CertAuth) (cmd : CmdDet)
    (key : KeyIdentifier) : Prop :=
  ∃ rcn rc after updates, ca.resources.get rcn = some rc ∧
    last.resources.get rcn = some after ∧ CertUpdate ca env rcn rc cmd updates ∧
    after.certificates = rc.certificates.updated updates ∧ key ∈ updates.removed

theorem withdrawn_of_revoked (grouped : Grouped ca env cmd details)
    (applied : ca.applyNextAll later details = some last)
    (revoked : key ∈ details.flatMap revokedKeys) :
    Withdrawn ca env last cmd key := by
  obtain ⟨event, member, inEvent⟩ := List.mem_flatMap.mp revoked
  obtain ⟨rcn, targeted⟩ : ∃ rcn, event.target = some rcn := by
    cases event <;> first | exact ⟨_, rfl⟩ | exact absurd inEvent List.not_mem_nil
  obtain ⟨rc, found⟩ := exists_class_of_target grouped.plain applied member targeted
  have run := classRun_of_plain grouped.plain applied rcn
  rw [found] at run
  generalize entry : last.resources.get rcn = foundAfter at run
  cases run with
  | @changed after _ done =>
    obtain ⟨updates, updated⟩ := certUpdated_of_group (grouped.group found) done
    refine ⟨rcn, rc, after, updates, found, entry, updated.update, updated.certificates, ?_⟩
    rw [← updated.revoked]
    exact List.mem_flatMap.mpr
      ⟨event, List.mem_filter.mpr ⟨member, decide_eq_true targeted⟩, inEvent⟩

def LeavesChildren (details : List CaEvtDet) : Prop :=
  ∀ event ∈ details, event.isAboutChild = false ∧ event.revokedKeys = []

omit [KrillSigner] in
theorem LeavesChildren.keyUse (leaves : LeavesChildren details)
    (applied : ca.applyNextAll later details = some last) :
    last.keyUse child key = ca.keyUse child key := by
  rw [keyUse_of_applyAll applied,
    onKeyUseAll_of_unrelated fun event member => (leaves event member).1]
  refine if_neg fun revoked => ?_
  obtain ⟨event, member, inEvent⟩ := List.mem_flatMap.mp revoked
  rw [(leaves event member).2] at inEvent
  exact absurd inEvent List.not_mem_nil

theorem updateRepo_leaves (consistent : ca.Consistent)
    (yields : Yields (ca.updateRepo env contact) events)
    (applied : ca.applyNextAll later (events.map StoredEvent.details) = some last) :
    LeavesChildren (events.map StoredEvent.details) := by
  obtain ⟨rolls, rolled, yields⟩ := yields.bind
  cases yields.pure
  rw [details_eventsFromDetails] at applied ⊢
  obtain ⟨middle, rolling, applied⟩ := applyNextAll_append.mp applied
  have grouped := (rollsForRepo_ordered consistent rolled).toGrouped
  refine List.forall_mem_append.mpr ⟨fun event member => ⟨grouped.unrelated rfl event member, ?_⟩,
    List.forall_mem_singleton.mpr ⟨rfl, rfl⟩⟩
  refine List.eq_nil_iff_forall_not_mem.mpr fun key revoked => ?_
  obtain ⟨rcn, rc, after, updates, _, _, update, _, removed⟩ := withdrawn_of_revoked grouped
    rolling (List.mem_flatMap.mpr ⟨event, member, revoked⟩)
  cases update with
  | nothing => exact absurd removed List.not_mem_nil
  | shifted shifts => cases shifts

theorem keyUse_of_unrelated (consistent : ca.Consistent)
    (unrelated : cmd.isAboutChild = false) (yields : Yields (ca.processCommand env cmd) events)
    (applied : ca.applyNextAll later (events.map StoredEvent.details) = some last) :
    (∀ event ∈ events.map StoredEvent.details, event.isAboutChild = false) ∧
    ∀ child key, last.keyUse child key = ca.keyUse child key ∨ Withdrawn ca env last cmd key ∧
        last.keyUse child key = (ca.keyUse child key).map fun _ => .revoked := by
  by_cases plain : cmd.isPlain
  · have grouped := (processCommand_ordered consistent plain yields).toGrouped
    refine ⟨grouped.unrelated unrelated, fun child key => ?_⟩
    rw [keyUse_of_applyAll applied, onKeyUseAll_of_unrelated (grouped.unrelated unrelated)]
    split
    · next revoked => exact .inr ⟨withdrawn_of_revoked grouped applied revoked, rfl⟩
    · exact .inl rfl
  · have leaves : LeavesChildren (events.map StoredEvent.details) := by
      by_cases moves : ∃ contact, cmd = .repoUpdate contact
      · obtain ⟨contact, rfl⟩ := moves
        exact updateRepo_leaves consistent yields applied
      · intro event member
        have parental := isParental_of_command yields (eq_false_of_ne_true plain)
          (by rintro _ _ rfl; cases unrelated) (fun contact same => moves ⟨contact, same⟩) event member
        cases event <;> first | exact ⟨rfl, rfl⟩ | cases parental
    exact ⟨fun event member => (leaves event member).1,
      fun child key => .inl (leaves.keyUse applied)⟩

variable {resources : ResourceSet}

omit [KrillSigner] in
theorem childAdd_eq_ok (accepted : ca.childAdd env added idCert resources = .ok events) :
    ca.children.get added = none ∧
      events.map StoredEvent.details = [.childAdded added idCert resources] := by
  obtain ⟨_, accepted⟩ := Fallible.ite_error_eq_ok.mp accepted
  obtain ⟨_, accepted⟩ := Fallible.ite_error_eq_ok.mp accepted
  obtain ⟨unknown, accepted⟩ := Fallible.ite_error_eq_ok.mp accepted
  cases accepted
  exact ⟨HashMap.containsKey_eq_false.mp (Bool.eq_false_of_not_eq_true unknown),
    details_eventsFromDetails _ _⟩

omit [KrillSigner] in
theorem childAdd_keyUse (accepted : ca.childAdd env added idCert resources = .ok events)
    (applied : ca.applyNextAll later (events.map StoredEvent.details) = some last) :
    last.keyUse child key = if child = added then none else ca.keyUse child key := by
  rw [(childAdd_eq_ok accepted).2] at applied
  exact keyUse_of_applyAll applied

variable {request : IssuanceRequest}

theorem key_of_issueCert (decoded : CsrInfo.ofCsr request.csr = .ok csrInfo)
    (made : Yields (rc.issueCert env csrInfo resources request.limit timing) issued) :
    issued.key = request.key := by
  obtain ⟨_, _, made⟩ := issueCert_yields made
  exact congrArg Rpki.keyIdentifier ((congrArg CsrInfo.key (makeIssuedCert_yields made).1).trans
    (key_of_ofCsr decoded))

theorem childCertify_keyUse (yields : Yields (ca.childCertify env certified request config) events)
    (applied : ca.applyNextAll later (events.map StoredEvent.details) = some last) :
    last.keyUse child key = if child = certified ∧ key = request.key then
        some (.current request.className)
      else ca.keyUse child key := by
  obtain ⟨rc, details, csrInfo, issued, _, _, decoded, made, same⟩ := childCertify_yields yields
  rw [same, key_of_issueCert decoded made] at applied
  exact keyUse_of_applyAll applied

omit [KrillSigner] in
theorem childRevokeKey_keyUse {request : RevocationRequest}
    (accepted : ca.childRevokeKey revoked request = .ok events)
    (applied : ca.applyNextAll later (events.map StoredEvent.details) = some last) :
    (∃ rcn, ca.keyUse revoked request.key = some (.current rcn)) ∧
      last.keyUse child key = if key = request.key then
          (ca.keyUse child key).map fun _ => .revoked
        else ca.keyUse child key := by
  have used : ∃ rcn, ca.keyUse revoked request.key = some (.current rcn) := by
    obtain ⟨details, known, accepted⟩ := Fallible.bind_eq_ok.mp accepted
    obtain ⟨isIssued, _⟩ := Fallible.ite_error_eq_ok.mp accepted
    unfold keyUse
    rw [getChild_eq_ok known]
    unfold ChildDetails.isIssued at isIssued
    change ∃ rcn, details.usedKeys.get request.key = some (.current rcn)
    split at isIssued
    · next rcn found => exact ⟨rcn, found⟩
    · exact absurd rfl isIssued
  refine ⟨used, ?_⟩
  obtain ⟨rcn, current⟩ := used
  obtain ⟨_, same⟩ := childRevokeKey_eq_ok accepted
  rw [same] at applied
  rw [keyUse_of_applyAll applied]
  change (if key ∈ [request.key] then _ else _) = _
  by_cases sameKey : key = request.key
  · by_cases sameChild : child = revoked <;> simp [onKeyUse, sameKey, sameChild, current]
  · simp [onKeyUse, sameKey]

omit [KrillSigner] in
theorem childRemove_keyUse_self (accepted : ca.childRemove env removed = .ok events)
    (applied : ca.applyNextAll later (events.map StoredEvent.details) = some last) :
    last.keyUse removed key = none := by
  obtain ⟨details, known, accepted⟩ := Fallible.bind_eq_ok.mp accepted
  cases accepted
  rw [details_eventsFromDetails] at applied
  obtain ⟨middle, _, ending⟩ := applyNextAll_append.mp applied
  have gone : last.keyUse removed key =
      if removed = removed then none else middle.keyUse removed key := keyUse_of_applyAll ending
  exact gone.trans (if_pos rfl)

theorem childRemove_keyUse (consistent : ca.Consistent)
    (accepted : ca.childRemove env removed = .ok events)
    (applied : ca.applyNextAll later (events.map StoredEvent.details) = some last)
    (different : child ≠ removed) :
    last.keyUse child key = ca.keyUse child key ∨ Withdrawn ca env last (.childRemove removed) key ∧
        last.keyUse child key = (ca.keyUse child key).map fun _ => .revoked := by
  have grouped := ((childRemove_shift accepted).ordered consistent rfl).toGrouped
  obtain ⟨details, known, accepted⟩ := Fallible.bind_eq_ok.mp accepted
  cases accepted
  rw [details_eventsFromDetails] at applied grouped
  obtain ⟨middle, withdrawing, ending⟩ := applyNextAll_append.mp applied
  have others : last.keyUse child key =
      if child = removed then none else middle.keyUse child key := keyUse_of_applyAll ending
  rw [others, if_neg different, keyUse_of_applyAll withdrawing,
    onKeyUseAll_of_unrelated fun event member =>
      isAboutChild_of_target (forChildKeys_targeted event member).choose_spec.1]
  split
  · next revoked =>
    refine .inr ⟨withdrawn_of_revoked grouped applied ?_, rfl⟩
    rw [List.flatMap_append]
    exact List.mem_append_left _ revoked
  · exact .inl rfl

end CertAuth

end Certificates

end Krill.Ca
