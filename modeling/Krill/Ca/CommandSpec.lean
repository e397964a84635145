import Krill.Ca.DefinitionSound
import Krill.Ca.ClassRuns

namespace Krill.Ca

open Rpki
open Stateful (Yields)
open CaEvtDet
open Fallible (bind_eq_ok ite_error_eq_ok)

variable [Rpki]

namespace ResourceClass

def removals (self : ResourceClass) (keys : List KeyIdentifier) : ChildCertificateUpdates :=
  (keys.filterMap self.issued).foldl (fun updates issued => updates.remove issued.key) .default

variable {rc : ResourceClass} {keys : List KeyIdentifier}

theorem removals_eq : rc.removals keys = { ChildCertificateUpdates.default with
      removed := (keys.filterMap rc.issued).map IssuedCertificate.key } := by
  have folded (certs : List IssuedCertificate) (updates : ChildCertificateUpdates) :
      certs.foldl (fun updates issued => updates.remove issued.key) updates =
        { updates with removed := updates.removed ++ certs.map IssuedCertificate.key } := by
    induction certs generalizing updates with
    | nil => rw [List.foldl_nil, List.map_nil, List.append_nil]
    | cons cert rest induction =>
      rw [List.foldl_cons, induction, List.map_cons]
      simp [ChildCertificateUpdates.remove]
  exact folded _ _

/-- Certificates of a class are removed, suspended or brought back, and none is issued. -/
structure Shifted (rc : ResourceClass) (cmd : CmdDet) (updates : ChildCertificateUpdates) :
    Prop where
  issued : updates.issued = []
  removed : ∀ key ∈ updates.removed,
    (∃ cert, rc.issued key = some cert) ∨ ∃ cert, rc.suspended key = some cert
  suspended : ∀ cert ∈ updates.suspended, (∃ child, cmd = .childSuspendInactive child) ∧
    rc.issued cert.key = some cert ∧ updates.removed = []
  unsuspended : ∀ cert ∈ updates.unsuspended, rc.suspended cert.key = some cert

theorem shifted_default (cmd : CmdDet) : rc.Shifted cmd .default :=
  ⟨rfl, List.forall_mem_nil _, List.forall_mem_nil _, List.forall_mem_nil _⟩

theorem issued_of_mem (member : cert ∈ keys.filterMap rc.issued) :
    rc.issued cert.key = some cert := by
  obtain ⟨key, _, found⟩ := List.mem_filterMap.mp member
  have keyOf : cert.key = key := Keyed.key_of_get found
  exact keyOf ▸ found

theorem suspended_of_mem (member : cert ∈ keys.filterMap rc.suspended) :
    rc.suspended cert.key = some cert := by
  obtain ⟨key, _, found⟩ := List.mem_filterMap.mp member
  have keyOf : cert.key = key := Keyed.key_of_get found
  exact keyOf ▸ found

end ResourceClass

def CmdDet.shifts : CmdDet → Bool
  | .childRemove _ | .childSuspendInactive _ | .childUnsuspend _ => true
  | _ => false

variable [KrillSigner]

/-- The events that a command makes about a class that is there, and where they come from. -/
inductive Group (ca : CertAuth) (env : Surroundings) (rcn : ResourceClassName)
    (rc : ResourceClass) : CmdDet → List CaEvtDet → Prop
  | nothing (cmd : CmdDet) : Group ca env rcn rc cmd []
  | certified {details : ChildDetails} (named : request.className = rcn)
      (known : ca.children.get child = some details)
      (decoded : CsrInfo.ofCsr request.csr = .ok csrInfo)
      (made : Yields (rc.issueCert env csrInfo details.resources request.limit
        config.issuanceTiming) issued) :
      Group ca env rcn rc (.childCertify child request config)
        [.childCertificatesUpdated rcn (ChildCertificateUpdates.default.issue issued)]
  | shifted (shifts : cmd.shifts = true) (shifted : rc.Shifted cmd updates) :
      Group ca env rcn rc cmd [.childCertificatesUpdated rcn updates]
  | received (received : rc.Received env cert ca.routes ca.aspas ca.bgpsecDefs config own) :
      Group ca env rcn rc (.updateRcvdCert rcn cert config) own
  | initiated (command : (∃ duration, cmd = .keyRollInitiate duration) ∨
        ∃ contact, cmd = .repoUpdate contact) (state : rc.keyState = .active current)
      (made : ∃ repo, Yields
        (KeyState.createIssuanceReq repo rc.nameSpace rc.parentRcName key) request) :
      Group ca env rcn rc cmd
        [.keyRollPendingKeyAdded rcn key, .certificateRequested rcn request key]
  | activated (notTa : ca.isTa = false) (state : rc.keyState = .rollNew new current)
      (waited : ¬(stagingTime > 0 ∧ rc.lastKeyChange + stagingTime > env.now))
      (reissued : rc.Reissued env new config.issuanceTiming) :
      Group ca env rcn rc (.keyRollActivate stagingTime config)
        (.keyRollActivated rcn revokeReq :: reissued.events)
  | finished (state : rc.keyState = .rollOld current old) :
      Group ca env rcn rc (.keyRollFinish rcn) [.keyRollFinished rcn]
  | roasUpdated (current : rc.currentKey = some key)
      (accepted : ca.updateAuthorizations env updates.intoExplicitMaxLength =
        .ok (routes, changes))
      (made : Yields (rc.roas.update env (routes.filter key.incomingCert.resources) key config)
        roas) : Group ca env rcn rc (.routeAuthorizationsUpdate updates config) (roas.events rcn)
  | roasRenewed (command : cmd = .routeAuthorizationsRenew config ∧ force = false ∨
        cmd = .routeAuthorizationsForceRenew config ∧ force = true)
      (current : rc.currentKey = some key)
      (made : Yields (rc.roas.renew env force key config.issuanceTiming) roas) :
      Group ca env rcn rc cmd (roas.events rcn)
  | aspasUpdated (current : rc.currentKey = some key)
      (withoutRemoved : ca.removeAspas updates.remove ca.aspas = .ok (removed, removals))
      (withAdded : ca.addOrReplaceAspas env updates.addOrReplace removed =
        .ok (definitions, additions))
      (made : Yields (rc.aspas.update env definitions key config) aspas) :
      Group ca env rcn rc (.aspasUpdate updates config) (aspas.events rcn)
  | aspaUpdated (current : rc.currentKey = some key) (made : Yields (rc.aspas.update env
        ((ca.aspas.applyUpdate customer update).getD ca.aspas) key config) aspas) :
      Group ca env rcn rc (.aspasUpdateExisting customer update config) (aspas.events rcn)
  | aspasRenewed (current : rc.currentKey = some key) (made : Yields (rc.aspas.renew env key
        (some (config.issuanceTiming.newAspaIssuanceThreshold env)) config.issuanceTiming)
        aspas) : Group ca env rcn rc (.aspasRenew config) (aspas.events rcn)
  | bgpsecsUpdated (current : rc.currentKey = some key)
      (withoutRemoved : ca.removeBgpsecs updates.remove ca.bgpsecDefs = .ok (removed, removals))
      (withAdded : ca.addBgpsecs env updates.add removed = .ok (definitions, additions))
      (made : Yields (rc.bgpsecCertificates.update env definitions key config) bgpsecs) :
      Group ca env rcn rc (.bgpSecUpdateDefinitions updates config) (bgpsecs.events rcn)
  | bgpsecsRenewed (current : rc.currentKey = some key)
      (made : Yields (rc.bgpsecCertificates.renew env key
        (some (config.issuanceTiming.newBgpsecIssuanceThreshold env)) config.issuanceTiming)
        bgpsecs) : Group ca env rcn rc (.bgpSecRenew config) (bgpsecs.events rcn)

def CmdDet.isPlain : CmdDet → Bool
  | .makeTrustAnchor _ _
  | .childRevokeKey _ _
  | .removeParent _
  | .updateEntitlements _ _
  | .dropResourceClass _ _
  | .repoUpdate _ => false
  | _ => true

def CaEvtDet.isParental : CaEvtDet → Bool
  | .trustAnchorMade _
  | .parentRemoved _
  | .resourceClassAdded _ _ _ _
  | .resourceClassRemoved _ _ _
  | .certificateRequested _ _ _
  | .unexpectedKeyFound _ _ => true
  | _ => false

def CmdDet.isAboutChild : CmdDet → Bool
  | .childAdd _ _ _
  | .childRemove _
  | .childCertify _ _ _
  | .childRevokeKey _ _ => true
  | _ => false

namespace CertAuth

variable {ca : CertAuth}

theorem forEachClass_about (yields : Yields (ca.forEachClass env action) details)
    (targeted : ∀ rcn rc own, ca.resources.get rcn = some rc → Yields (action rcn rc) own →
      ∀ event ∈ own, event.target = some rcn) :
    (∀ event ∈ details, ∃ rcn, event.target = some rcn ∧ (ca.resources.get rcn).isSome) ∧
    ∀ rcn rc, ca.resources.get rcn = some rc → Yields (action rcn rc) (about rcn details) := by
  obtain ⟨found, looped, yields⟩ := yields.bind
  obtain ⟨groups, rfl, sameKeys, each⟩ := looped.mapM_entries
  cases yields.pure
  have targets : ∀ group ∈ groups, ∀ event ∈ group.2, event.target = some group.1 := by
    intro group member
    obtain ⟨rc, listed, yielded⟩ := each group member
    exact targeted group.1 rc group.2 (HashMap.mem_iter.mp listed) yielded
  have flat : (groups.map Prod.snd).flatten = groups.flatMap Prod.snd :=
    (List.flatMap_def).symm
  rw [flat]
  refine ⟨fun event member => ?_, fun rcn rc present => ?_⟩
  · obtain ⟨group, listed, inGroup⟩ := List.mem_flatMap.mp member
    obtain ⟨rc, inClasses, _⟩ := each group listed
    exact ⟨group.1, targets group listed event inGroup,
      Option.isSome_of_eq_some (HashMap.mem_iter.mp inClasses)⟩
  · have listed : rcn ∈ groups.map Prod.fst := by
      rw [sameKeys]
      exact List.mem_map.mpr ⟨(rcn, rc), HashMap.mem_iter.mpr present, rfl⟩
    obtain ⟨group, member, rfl⟩ := List.mem_map.mp listed
    have distinct : (groups.map Prod.fst).Nodup := sameKeys ▸ HashMap.iter_keys_nodup _ _
    rw [about_flatMap distinct targets member]
    obtain ⟨other, inClasses, yielded⟩ := each group member
    cases (HashMap.mem_iter.mp inClasses).symm.trans present
    exact yielded

def Quiet (cmd : CmdDet) (details : List CaEvtDet) : Prop :=
  ∀ event ∈ details, event.isPlain ∧ event.target = none ∧
    (cmd.isAboutChild = false → event.isAboutChild = false)

section Quiet

omit [KrillSigner]

theorem Quiet.about (quiet : Quiet cmd details) (rcn : ResourceClassName) :
    about rcn details = [] :=
  about_eq_nil fun event member => by
    rw [(quiet event member).2.1]
    exact nofun

theorem quiet_singleton (plain : event.isPlain) (untargeted : event.target = none)
    (unrelated : cmd.isAboutChild = false → event.isAboutChild = false) : Quiet cmd [event] :=
  List.forall_mem_singleton.mpr ⟨plain, untargeted, unrelated⟩

theorem quiet_config (areConfig : ∀ event ∈ details, event.isConfig = true) :
    Quiet cmd details := by
  intro event member
  have isConfig := areConfig event member
  cases event <;> first | exact Bool.noConfusion isConfig | exact ⟨rfl, rfl, fun _ => rfl⟩

end Quiet

/-- All events of the command are plain, those about a class are as listed, and none is
about a child unless the command is. -/
structure Grouped (ca : CertAuth) (env : Surroundings) (cmd : CmdDet)
    (details : List CaEvtDet) : Prop where
  plain : ∀ event ∈ details, event.isPlain
  unrelated : cmd.isAboutChild = false → ∀ event ∈ details, event.isAboutChild = false
  group : ∀ {rcn rc}, ca.resources.get rcn = some rc →
    Group ca env rcn rc cmd (about rcn details)

variable {cmd : CmdDet}

theorem Quiet.grouped (quiet : Quiet cmd details) : Grouped ca env cmd details where
  plain := fun event member => (quiet event member).1
  unrelated := fun other event member => (quiet event member).2.2 other
  group := fun {rcn _} _ => by
    rw [quiet.about rcn]
    exact .nothing cmd

theorem Grouped.append_quiet (grouped : Grouped ca env cmd details) (isQuiet : Quiet cmd quiet) :
    Grouped ca env cmd (details ++ quiet) where
  plain := List.forall_mem_append.mpr ⟨grouped.plain, fun event member =>
    (isQuiet event member).1⟩
  unrelated := fun other => List.forall_mem_append.mpr ⟨grouped.unrelated other,
    fun event member => (isQuiet event member).2.2 other⟩
  group := fun {rcn _} found => by
    rw [about_append, isQuiet.about rcn, List.append_nil]
    exact grouped.group found

theorem Quiet.grouped_append (isQuiet : Quiet cmd quiet) (grouped : Grouped ca env cmd details) :
    Grouped ca env cmd (quiet ++ details) where
  plain := List.forall_mem_append.mpr ⟨fun event member => (isQuiet event member).1, grouped.plain⟩
  unrelated := fun other => List.forall_mem_append.mpr
    ⟨fun event member => (isQuiet event member).2.2 other, grouped.unrelated other⟩
  group := fun {rcn _} found => by
    rw [about_append, isQuiet.about rcn, List.nil_append]
    exact grouped.group found

structure Settled (ca : CertAuth) (cmd : CmdDet) (details : List CaEvtDet) : Prop where
  quiet : Quiet cmd details
  sound : ∀ later, SoundAll later ca details

/-- Events about classes that are there. Those about each class are as listed, and in place
one after the other. -/
structure Classwise (ca : CertAuth) (env : Surroundings) (cmd : CmdDet)
    (details : List CaEvtDet) : Prop where
  targeted : ∀ event ∈ details, ∃ rcn, event.target = some rcn ∧ (ca.resources.get rcn).isSome
  group : ∀ {rcn rc}, ca.resources.get rcn = some rc →
    Group ca env rcn rc cmd (about rcn details)
  sound : ∀ {rcn rc}, ca.resources.get rcn = some rc → ∀ later,
    ClassSound later rc (about rcn details)

structure Ordered (ca : CertAuth) (env : Surroundings) (cmd : CmdDet)
    (details : List CaEvtDet) : Prop extends Grouped ca env cmd details where
  sound : cmd.InPlace ca → ∀ later, SoundAll later ca details

omit [KrillSigner] in
theorem settled_nil : Settled ca cmd [] := ⟨List.forall_mem_nil _, fun _ => trivial⟩

omit [KrillSigner] in
theorem settled_singleton (quiet : Quiet cmd [event]) (sound : ca.Sound event) :
    Settled ca cmd [event] :=
  ⟨quiet, fun _ => soundAll_singleton sound⟩

theorem Settled.ordered (settled : Settled ca cmd details) : Ordered ca env cmd details where
  toGrouped := settled.quiet.grouped
  sound := fun _ => settled.sound

namespace Classwise

theorem grouped (classwise : Classwise ca env cmd details) : Grouped ca env cmd details where
  plain := fun event member =>
    isPlain_of_target (classwise.targeted event member).choose_spec.1
  unrelated := fun _ event member =>
    isAboutChild_of_target (classwise.targeted event member).choose_spec.1
  group := classwise.group

theorem soundAll (classwise : Classwise ca env cmd details) (same : next.resources = ca.resources)
    (later : Surroundings) : SoundAll later next details := by
  refine soundAll_of_about ?_ fun found => classwise.sound (same ▸ found) later
  rw [same]
  exact classwise.targeted

theorem ordered (classwise : Classwise ca env cmd details) : Ordered ca env cmd details where
  toGrouped := classwise.grouped
  sound := fun _ => classwise.soundAll rfl

theorem ordered_append (classwise : Classwise ca env cmd details) (quiet : Quiet cmd [last])
    (sound : ∀ next, Keeps (fun _ => True) ca next → next.Sound last) :
    Ordered ca env cmd (details ++ [last]) where
  toGrouped := classwise.grouped.append_quiet quiet
  sound := fun _ later => by
    refine soundAll_append (classwise.soundAll rfl later) fun next applied => ?_
    refine soundAll_singleton (sound next (.ofTargets (fun event member => ?_) applied))
    obtain ⟨rcn, about, _⟩ := classwise.targeted event member
    exact ⟨rcn, about, trivial⟩

theorem append_ordered (classwise : Classwise ca env cmd details) (isQuiet : Quiet cmd quiet)
    (sound : cmd.InPlace ca → ∀ later, SoundAll later ca quiet) :
    Ordered ca env cmd (quiet ++ details) where
  toGrouped := isQuiet.grouped_append classwise.grouped
  sound := fun inPlace later => soundAll_append (sound inPlace later) fun _ applied =>
    classwise.soundAll (resources_of_plainAll (fun event member =>
      ⟨(isQuiet event member).1, (isQuiet event member).2.1⟩) applied) later

end Classwise

section Children

omit [KrillSigner]

variable {resources : ResourceSet}

theorem childAdd_settled (accepted : ca.childAdd env child idCert resources = .ok events) :
    Settled ca (.childAdd child idCert resources) (events.map StoredEvent.details) := by
  obtain ⟨_, accepted⟩ := ite_error_eq_ok.mp accepted
  obtain ⟨_, accepted⟩ := ite_error_eq_ok.mp accepted
  obtain ⟨_, accepted⟩ := ite_error_eq_ok.mp accepted
  cases accepted
  rw [details_eventsFromDetails]
  exact settled_singleton (quiet_singleton rfl rfl nofun) fun _ targeted => nomatch targeted

theorem childUpdateResources_settled
    (accepted : ca.childUpdateResources env child resources = .ok events) :
    Settled ca (.childUpdateResources child resources) (events.map StoredEvent.details) := by
  obtain ⟨_, accepted⟩ := ite_error_eq_ok.mp accepted
  obtain ⟨details, known, accepted⟩ := bind_eq_ok.mp accepted
  split at accepted <;> cases accepted
  · exact settled_nil
  · rw [details_eventsFromDetails]
    exact settled_singleton (quiet_singleton rfl rfl fun _ => rfl) (hasChild_of_getChild known)

theorem childUpdateIdCert_settled (accepted : ca.childUpdateIdCert child idCert = .ok events) :
    Settled ca (.childUpdateId child idCert) (events.map StoredEvent.details) := by
  obtain ⟨details, known, accepted⟩ := bind_eq_ok.mp accepted
  split at accepted <;> cases accepted
  · exact settled_nil
  · rw [details_eventsFromDetails]
    exact settled_singleton (quiet_singleton rfl rfl fun _ => rfl) (hasChild_of_getChild known)

theorem addParent_settled (accepted : ca.addParent env parent info = .ok events) :
    Settled ca (.addParent parent info) (events.map StoredEvent.details) := by
  obtain ⟨_, accepted⟩ := ite_error_eq_ok.mp accepted
  split at accepted
  · cases accepted
  · obtain ⟨_, accepted⟩ := ite_error_eq_ok.mp accepted
    cases accepted
    rw [details_eventsFromDetails]
    exact settled_singleton (quiet_singleton rfl rfl fun _ => rfl) fun _ targeted => nomatch targeted

theorem updateParent_settled (accepted : ca.updateParent parent info = .ok events) :
    Settled ca (.updateParentContact parent info) (events.map StoredEvent.details) := by
  obtain ⟨_, accepted⟩ := ite_error_eq_ok.mp accepted
  obtain ⟨_, accepted⟩ := ite_error_eq_ok.mp accepted
  cases accepted
  rw [details_eventsFromDetails]
  exact settled_singleton (quiet_singleton rfl rfl fun _ => rfl) fun _ targeted => nomatch targeted

theorem forChildKeys_targeted :
    ∀ event ∈ ca.forChildKeys env details updates, ∃ rcn, event.target = some rcn ∧
      (ca.resources.get rcn).isSome := by
  intro event member
  obtain ⟨⟨rcn, rc⟩, listed, selected⟩ := List.mem_filterMap.mp member
  dsimp only at selected
  split at selected <;> cases selected
  exact ⟨rcn, rfl, Option.isSome_of_eq_some (HashMap.mem_iter.mp listed)⟩

theorem about_forChildKeys (found : ca.resources.get rcn = some rc)
    (updates : ResourceClass → List KeyIdentifier → ChildCertificateUpdates) :
    about rcn (ca.forChildKeys env details updates) =
      if (details.issued env.order rcn).isEmpty then []
      else [.childCertificatesUpdated rcn (updates rc (details.issued env.order rcn))] := by
  let own (entry : ResourceClassName × ResourceClass) : List CaEvtDet :=
    if (details.issued env.order entry.1).isEmpty then []
    else [.childCertificatesUpdated entry.1 (updates entry.2 (details.issued env.order entry.1))]
  have asFlatMap : ca.forChildKeys env details updates =
      (ca.resources.iter env.order).flatMap own := by
    rw [forChildKeys, List.filterMap_eq_flatMap_toList]
    refine List.flatMap_congr fun entry _ => ?_
    dsimp only [own]
    split <;> rfl
  have targeted : ∀ entry ∈ ca.resources.iter env.order, ∀ event ∈ own entry,
      event.target = some entry.1 := by
    intro entry _ event member
    dsimp only [own] at member
    split at member
    · exact absurd member List.not_mem_nil
    · cases List.mem_singleton.mp member
      rfl
  rw [asFlatMap]
  exact about_flatMap (HashMap.iter_keys_nodup _ _) targeted (HashMap.mem_iter.mpr found)

end Children

variable {child : ChildHandle}

/-- What a command does to the certificates of a child, and to the child itself. -/
inductive Shift (ca : CertAuth) (env : Surroundings) (child : ChildHandle) (cmd : CmdDet) :
    List CaEvtDet → Prop
  | nothing : Shift ca env child cmd []
  | keys {details : ChildDetails} {last : CaEvtDet}
      {updates : ResourceClass → List KeyIdentifier → ChildCertificateUpdates}
      (known : ca.children.get child = some details)
      (shifted : ∀ (rc : ResourceClass) keys, rc.Shifted cmd (updates rc keys)) (quiet : Quiet cmd [last])
      (sound : ∀ next : CertAuth, next.hasChild child → next.Sound last) :
      Shift ca env child cmd (ca.forChildKeys env details updates ++ [last])

section Children

omit [KrillSigner]

theorem childRemove_shift (accepted : ca.childRemove env child = .ok events) :
    Shift ca env child (.childRemove child) (events.map StoredEvent.details) := by
  obtain ⟨details, known, accepted⟩ := bind_eq_ok.mp accepted
  cases accepted
  rw [details_eventsFromDetails]
  refine .keys (getChild_eq_ok known) (fun rc keys => ?_) (quiet_singleton rfl rfl nofun)
    fun _ _ _ targeted => nomatch targeted
  change rc.Shifted _ (rc.removals keys)
  rw [ResourceClass.removals_eq]
  refine ⟨rfl, fun key member => ?_, List.forall_mem_nil _, List.forall_mem_nil _⟩
  obtain ⟨cert, listed, rfl⟩ := List.mem_map.mp member
  exact .inl ⟨cert, ResourceClass.issued_of_mem listed⟩

theorem childSuspendInactive_shift (accepted : ca.childSuspendInactive env child = .ok events) :
    Shift ca env child (.childSuspendInactive child) (events.map StoredEvent.details) := by
  obtain ⟨details, known, accepted⟩ := bind_eq_ok.mp accepted
  split at accepted
  · cases accepted
    exact .nothing
  · dsimp only at accepted
    split at accepted <;> cases accepted
    · exact .nothing
    · rw [details_eventsFromDetails]
      refine .keys (getChild_eq_ok known) (fun rc keys => ?_)
        (quiet_singleton rfl rfl fun _ => rfl) fun _ known => known
      refine (List.foldlRecOn (motive := fun updates =>
        rc.Shifted (.childSuspendInactive child) updates ∧ updates.removed = []) _ _
        ⟨ResourceClass.shifted_default _, rfl⟩ fun updates held cert member => ?_).1
      obtain ⟨shifted, none⟩ := held
      exact ⟨{ shifted with suspended := List.forall_mem_append.mpr ⟨shifted.suspended,
        List.forall_mem_singleton.mpr ⟨⟨_, rfl⟩, ResourceClass.issued_of_mem member, none⟩⟩ }, none⟩

theorem childUnsuspend_shift (accepted : ca.childUnsuspend env child = .ok events) :
    Shift ca env child (.childUnsuspend child) (events.map StoredEvent.details) := by
  obtain ⟨details, known, accepted⟩ := bind_eq_ok.mp accepted
  split at accepted <;> cases accepted
  · exact .nothing
  · rw [details_eventsFromDetails]
    refine .keys (getChild_eq_ok known) (fun rc keys => ?_)
      (quiet_singleton rfl rfl fun _ => rfl) fun _ known => known
    refine List.foldlRecOn _ _ (ResourceClass.shifted_default _) fun updates shifted cert member => ?_
    have held := ResourceClass.suspended_of_mem member
    split
    · exact { shifted with unsuspended := List.forall_mem_append.mpr ⟨shifted.unsuspended,
        List.forall_mem_singleton.mpr held⟩ }
    · refine { shifted with
        removed := List.forall_mem_append.mpr ⟨shifted.removed,
          List.forall_mem_singleton.mpr (.inr ⟨cert, held⟩)⟩
        suspended := fun cert member => ?_ }
      obtain ⟨⟨_, same⟩, _⟩ := shifted.suspended cert member
      cases same

end Children

theorem Shift.ordered (consistent : ca.Consistent) (shifts : cmd.shifts = true)
    (shift : Shift ca env child cmd details) : Ordered ca env cmd details := by
  cases shift with
  | nothing => exact settled_nil.ordered
  | @keys details last updates known shifted quiet sound =>
    have classwise : Classwise ca env cmd (ca.forChildKeys env details updates) := by
      refine ⟨forChildKeys_targeted, fun {rcn _} found => ?_, fun {rcn rc} found later => ?_⟩
      · rw [about_forChildKeys found]
        split
        · exact .nothing cmd
        · exact .shifted shifts (shifted _ _)
      · rw [about_forChildKeys found]
        split
        · trivial
        · next issued =>
          obtain ⟨_, present, certified⟩ := hasCurrentKey_of_issued consistent known
            (fun none_issued => issued (by rw [none_issued]; rfl)) found
          cases found.symm.trans present
          exact ⟨certified, fun _ _ => trivial⟩
    exact classwise.ordered_append quiet fun next kept =>
      sound next (kept.children (Option.isSome_of_eq_some known))

theorem one_class_classwise (found : ca.resources.get rcn = some rc)
    (group : Group ca env rcn rc cmd details) (sound : ∀ later, SoundFor later rcn rc details) :
    Classwise ca env cmd details := by
  have targeted := (sound env).about
  have elsewhere {named : ResourceClassName} (different : named ≠ rcn) : about named details = [] :=
    about_eq_nil fun event member => by
      rw [targeted event member]
      exact fun same => different (Option.some.inj same).symm
  refine ⟨fun event member => ⟨rcn, targeted event member, Option.isSome_of_eq_some found⟩,
    fun {named other} present => ?_, fun {named other} present later => ?_⟩ <;>
    by_cases same : named = rcn
  · subst same
    cases found.symm.trans present
    rwa [about_eq_self targeted]
  · rw [elsewhere same]
    exact .nothing cmd
  · subst same
    cases found.symm.trans present
    rw [about_eq_self targeted]
    exact (sound later).sound
  · rw [elsewhere same]
    trivial

theorem childCertify_ordered (yields : Yields (ca.childCertify env child request config) events) :
    Ordered ca env (.childCertify child request config) (events.map StoredEvent.details) := by
  obtain ⟨rc, details, csrInfo, issued, found, known, decoded, made, same⟩ :=
    childCertify_yields yields
  obtain ⟨key, current, _⟩ := issueCert_yields made
  have certified : rc.currentKey.isSome := Option.isSome_of_eq_some current
  have issuance : Quiet (.childCertify child request config)
      [.childCertificateIssued child request.className issued.key] :=
    quiet_singleton rfl rfl nofun
  rw [same]
  refine (one_class_classwise found (.certified rfl known decoded made) fun _ =>
    .cons rfl certified fun _ _ => .nil).append_ordered issuance fun _ _ => ?_
  exact soundAll_singleton ⟨Option.isSome_of_eq_some known, rc, found, certified⟩

theorem all_classes_classwise (yields : Yields (ca.forEachClass env action) details)
    (each : ∀ {rcn rc own}, ca.resources.get rcn = some rc → Yields (action rcn rc) own →
      Group ca env rcn rc cmd own ∧ ∀ later, SoundFor later rcn rc own) :
    Classwise ca env cmd details := by
  obtain ⟨targeted, yielded⟩ := forEachClass_about yields
    fun rcn rc own found yielded => ((each found yielded).2 env).about
  exact ⟨targeted, fun found => (each found (yielded _ _ found)).1,
    fun found later => ((each found (yielded _ _ found)).2 later).sound⟩

theorem updateReceivedCert_ordered (consistent : ca.Consistent)
    (yields : Yields (ca.updateReceivedCert env rcn cert config) events) :
    Ordered ca env (.updateRcvdCert rcn cert config) (events.map StoredEvent.details) := by
  obtain ⟨rc, foundClass, yields⟩ := yields.bind
  obtain ⟨details, yielded, yields⟩ := yields.bind
  cases yields.pure
  rw [details_eventsFromDetails]
  have found := getClass_eq_ok foundClass.liftExcept
  have received := ResourceClass.updateReceivedCert_yields yielded
  exact (one_class_classwise found (.received received)
    (consistent.named found ▸ received.sound)).ordered

theorem initiate_group (consistent : ca.Consistent)
    (command : (∃ duration, cmd = .keyRollInitiate duration) ∨
      ∃ contact, cmd = .repoUpdate contact) (found : ca.resources.get rcn = some rc)
    (yields : Yields (rc.keyrollInitiate env repo duration) own) :
    Group ca env rcn rc cmd own ∧ ∀ later, SoundFor later rcn rc own := by
  obtain rfl | ⟨current, key, request, state, made, rfl⟩ :=
    ResourceClass.keyrollInitiate_yields yields
  · exact ⟨.nothing _, fun _ => .nil⟩
  · rw [consistent.named found]
    refine ⟨.initiated command state ⟨repo, made⟩, fun _ => ?_⟩
    exact .cons rfl ⟨current, state⟩ fun _ _ => .cons rfl trivial fun _ _ => .nil

theorem keyrollInitiate_ordered (consistent : ca.Consistent)
    (yields : Yields (ca.keyrollInitiate env duration) events) :
    Ordered ca env (.keyRollInitiate duration) (events.map StoredEvent.details) := by
  unfold keyrollInitiate at yields
  split at yields
  · cases yields.pure
    exact settled_nil.ordered
  · obtain ⟨details, looped, yields⟩ := yields.bind
    cases yields.pure
    rw [details_eventsFromDetails]
    refine (all_classes_classwise looped fun found yielded => ?_).ordered
    obtain ⟨repo, _, yielded⟩ := yielded.bind
    exact initiate_group consistent (.inl ⟨_, rfl⟩) found yielded

theorem rollsForRepo_ordered (consistent : ca.Consistent)
    (yields : Yields (ca.rollsForRepo env contact) rolls) :
    Ordered ca env (.repoUpdate contact) rolls := by
  unfold rollsForRepo at yields
  split at yields
  · cases yields.pure
    exact settled_nil.ordered
  · obtain ⟨_, yields⟩ := Yields.guarded yields
    refine (all_classes_classwise yields fun found yielded => ?_).ordered
    obtain ⟨_, yielded⟩ := Yields.guarded yielded
    exact initiate_group consistent (.inr ⟨_, rfl⟩) found yielded

theorem keyrollActivate_ordered (consistent : ca.Consistent)
    (yields : Yields (ca.keyrollActivate env stagingTime config) events) :
    Ordered ca env (.keyRollActivate stagingTime config) (events.map StoredEvent.details) := by
  unfold keyrollActivate at yields
  split at yields
  · cases yields.pure
    exact settled_nil.ordered
  · next notTa =>
    obtain ⟨details, looped, yields⟩ := yields.bind
    cases yields.pure
    rw [details_eventsFromDetails]
    refine (all_classes_classwise looped fun {rcn rc own} found yielded => ?_).ordered
    obtain rfl | ⟨new, current, revokeReq, state, waited, reissued, rfl⟩ :=
      ResourceClass.keyrollActivate_yields yielded
    · exact ⟨.nothing _, fun _ => .nil⟩
    · rw [consistent.named found]
      refine ⟨.activated (Bool.eq_false_of_not_eq_true notTa) state waited reissued, fun _ => ?_⟩
      refine .cons rfl ⟨new, current, state⟩ fun changed done => .ofObjects ?_ ?_
      · exact currentKey_onClass done (by rw [ResourceClass.currentKey, state]; rfl)
      · exact consistent.named found ▸ reissued.events_isObjects

theorem keyrollFinish_ordered (consistent : ca.Consistent)
    (accepted : ca.keyrollFinish rcn = .ok events) :
    Ordered ca env (.keyRollFinish rcn) (events.map StoredEvent.details) := by
  unfold keyrollFinish at accepted
  split at accepted
  · cases accepted
    exact settled_nil.ordered
  · obtain ⟨rc, foundClass, accepted⟩ := bind_eq_ok.mp accepted
    obtain ⟨event, finished, accepted⟩ := bind_eq_ok.mp accepted
    cases accepted
    rw [details_eventsFromDetails]
    have found := getClass_eq_ok foundClass
    obtain ⟨rfl, current, old, state⟩ := ResourceClass.keyrollFinish_eq_ok finished
    rw [consistent.named found]
    exact (one_class_classwise found (.finished state) fun _ =>
      .cons rfl ⟨current, old, state⟩ fun _ _ => .nil).ordered

theorem underKey_group {program : CurrentKey → SignM U} {default : U}
    {eventsOf : U → List CaEvtDet} (yields : Yields ((match rc.currentKey with
      | some key => program key
      | none => pure default) >>= fun updates => pure (eventsOf updates)) own)
    (nothing : eventsOf default = [])
    (objects : ∀ updates, ∀ event ∈ eventsOf updates, event.IsObjects rcn)
    (group : ∀ key updates, rc.currentKey = some key → Yields (program key) updates →
      Group ca env rcn rc cmd (eventsOf updates)) :
    Group ca env rcn rc cmd own ∧ ∀ later, SoundFor later rcn rc own := by
  obtain ⟨updates, updated, yields⟩ := yields.bind
  cases yields.pure
  cases current : rc.currentKey with
  | some key =>
    rw [current] at updated
    exact ⟨group key updates current updated, fun _ =>
      .ofObjects (Option.isSome_of_eq_some current) (objects updates)⟩
  | none =>
    rw [current] at updated
    cases updated.pure
    rw [nothing]
    exact ⟨.nothing cmd, fun _ => .nil⟩

theorem routeAuthorizationsUpdate_ordered
    (yields : Yields (ca.routeAuthorizationsUpdate env updates config) events) :
    Ordered ca env (.routeAuthorizationsUpdate updates config)
      (events.map StoredEvent.details) := by
  obtain ⟨⟨routes, changes⟩, accepted, yields⟩ := yields.bind
  obtain ⟨objects, looped, yields⟩ := yields.bind
  cases yields.pure
  rw [details_eventsFromDetails]
  have accepted := accepted.liftExcept
  have areConfig := updateAuthorizations_isConfig accepted
  refine (all_classes_classwise looped fun {rcn _ _} _ yielded => ?_).append_ordered
    (quiet_config areConfig) fun _ _ => soundAll_config areConfig
  exact underKey_group yielded rfl (fun updates => updates.events_isObjects rcn)
    fun key roas current made => .roasUpdated current accepted made

theorem routeAuthorizationsRenew_ordered
    (command : cmd = .routeAuthorizationsRenew config ∧ force = false ∨
      cmd = .routeAuthorizationsForceRenew config ∧ force = true)
    (yields : Yields (ca.routeAuthorizationsRenew env force config) events) :
    Ordered ca env cmd (events.map StoredEvent.details) := by
  obtain ⟨objects, looped, yields⟩ := yields.bind
  cases yields.pure
  rw [details_eventsFromDetails]
  refine (all_classes_classwise looped fun {rcn _ _} _ yielded => ?_).ordered
  exact underKey_group yielded rfl (fun updates => updates.events_isObjects rcn)
    fun key roas current made => .roasRenewed command current made

theorem aspasDefinitionsUpdate_ordered
    (yields : Yields (ca.aspasDefinitionsUpdate env updates config) events) :
    Ordered ca env (.aspasUpdate updates config) (events.map StoredEvent.details) := by
  obtain ⟨⟨remaining, removals⟩, removed, yields⟩ := yields.bind
  obtain ⟨⟨definitions, additions⟩, added, yields⟩ := yields.bind
  obtain ⟨objects, looped, yields⟩ := yields.bind
  cases yields.pure
  rw [details_eventsFromDetails]
  have removed := removed.liftExcept
  have added := added.liftExcept
  have made : Classwise ca env (.aspasUpdate updates config) objects := by
    refine all_classes_classwise looped fun {rcn _ _} _ yielded => ?_
    exact underKey_group yielded rfl (fun updates => updates.events_isObjects rcn)
      fun key aspas current made => .aspasUpdated current removed added made
  cases removeAspas_eq_ok removed
  cases addOrReplaceAspas_eq_ok added
  refine made.append_ordered (fun event member => ?_) (soundAll_aspaChanges config)
  obtain member | member := List.mem_append.mp member
  · obtain ⟨customer, _, rfl⟩ := List.mem_map.mp member
    exact ⟨rfl, rfl, fun _ => rfl⟩
  · obtain ⟨aspaConfig, _, member⟩ := List.mem_flatMap.mp member
    obtain ⟨_, rfl⟩ | ⟨existing, _, _, rfl⟩ := aspaConfigEvents_spec member <;>
      exact ⟨rfl, rfl, fun _ => rfl⟩

theorem aspasUpdate_ordered (yields : Yields (ca.aspasUpdate env customer update config) events) :
    Ordered ca env (.aspasUpdateExisting customer update config)
      (events.map StoredEvent.details) := by
  obtain ⟨_, verified, yields⟩ := yields.bind
  obtain ⟨objects, looped, yields⟩ := yields.bind
  cases yields.pure
  rw [details_eventsFromDetails]
  have made : Classwise ca env (.aspasUpdateExisting customer update config) objects := by
    refine all_classes_classwise looped fun {rcn _ _} _ yielded => ?_
    exact underKey_group yielded rfl (fun updates => updates.events_isObjects rcn)
      fun key aspas current made => .aspaUpdated current made
  refine made.ordered_append (quiet_singleton rfl rfl fun _ => rfl) fun next kept => ?_
  change next.aspas.has customer = true
  rw [kept.aspas]
  exact verifyAspaUpdate_has verified.liftExcept

theorem aspasRenew_ordered (yields : Yields (ca.aspasRenew env config) events) :
    Ordered ca env (.aspasRenew config) (events.map StoredEvent.details) := by
  obtain ⟨objects, looped, yields⟩ := yields.bind
  cases yields.pure
  rw [details_eventsFromDetails]
  refine (all_classes_classwise looped fun {rcn _ _} _ yielded => ?_).ordered
  exact underKey_group yielded rfl (fun updates => updates.events_isObjects rcn)
    fun key aspas current made => .aspasRenewed current made

theorem bgpsecDefinitionsUpdate_ordered
    (yields : Yields (ca.bgpsecDefinitionsUpdate env updates config) events) :
    Ordered ca env (.bgpSecUpdateDefinitions updates config) (events.map StoredEvent.details) := by
  obtain ⟨⟨remaining, removals⟩, removed, yields⟩ := yields.bind
  obtain ⟨⟨definitions, additions⟩, added, yields⟩ := yields.bind
  obtain ⟨objects, looped, yields⟩ := yields.bind
  cases yields.pure
  rw [details_eventsFromDetails]
  have removed := removed.liftExcept
  have added := added.liftExcept
  have areConfig := List.forall_mem_append.mpr
    ⟨removeBgpsecs_isConfig removed, addBgpsecs_isConfig added⟩
  refine (all_classes_classwise looped fun {rcn _ _} _ yielded => ?_).append_ordered
    (quiet_config areConfig) fun _ _ => soundAll_config areConfig
  exact underKey_group yielded rfl (fun updates => updates.events_isObjects rcn)
    fun key bgpsecs current made => .bgpsecsUpdated current removed added made

theorem bgpsecRenew_ordered (yields : Yields (ca.bgpsecRenew env config) events) :
    Ordered ca env (.bgpSecRenew config) (events.map StoredEvent.details) := by
  obtain ⟨objects, looped, yields⟩ := yields.bind
  cases yields.pure
  rw [details_eventsFromDetails]
  refine (all_classes_classwise looped fun {rcn _ _} _ yielded => ?_).ordered
  exact underKey_group yielded rfl (fun updates => updates.events_isObjects rcn)
    fun key bgpsecs current made => .bgpsecsRenewed current made

theorem generateNewIdKey_settled (yields : Yields ca.generateNewIdKey events) :
    Settled ca .generateNewIdKey (events.map StoredEvent.details) := by
  obtain ⟨cert, _, yields⟩ := yields.bind
  cases yields.pure
  rw [details_eventsFromDetails]
  exact settled_singleton (quiet_singleton rfl rfl fun _ => rfl) fun _ targeted => nomatch targeted

theorem rtaSignWithEe_settled {resources : ResourceSet}
    (yields : Yields (ca.rtaSignWithEe env name resources rcEe builder) events) :
    Settled ca cmd (events.map StoredEvent.details) := by
  obtain ⟨signed, _, yields⟩ := yields.bind
  cases yields.pure
  rw [details_eventsFromDetails]
  exact settled_singleton (quiet_singleton rfl rfl fun _ => rfl) fun _ targeted => nomatch targeted

theorem rtaSign_settled (yields : Yields (ca.rtaSign env name request) events) :
    Settled ca (.rtaSign name request) (events.map StoredEvent.details) := by
  obtain ⟨_, yields⟩ := Yields.guarded yields
  obtain ⟨⟨rcEe, keys⟩, _, yields⟩ := yields.bind
  dsimp only at yields
  split at yields
  · exact yields.throw.elim
  · exact rtaSignWithEe_settled yields

theorem rtaCosign_settled (yields : Yields (ca.rtaCosign env name rta) events) :
    Settled ca (.rtaCoSign name rta) (events.map StoredEvent.details) := by
  unfold rtaCosign at yields
  split at yields
  · exact yields.throw.elim
  · obtain ⟨rcEe, _, yields⟩ := yields.bind
    exact rtaSignWithEe_settled yields

theorem rtaMultiPrep_settled (yields : Yields (ca.rtaMultiPrep env name request) events) :
    Settled ca (.rtaMultiPrepare name request) (events.map StoredEvent.details) := by
  obtain ⟨_, yields⟩ := Yields.guarded yields
  obtain ⟨_, yields⟩ := Yields.guarded yields
  obtain ⟨keys, _, yields⟩ := yields.bind
  cases yields.pure
  rw [details_eventsFromDetails]
  exact settled_singleton (quiet_singleton rfl rfl fun _ => rfl) fun _ targeted => nomatch targeted

theorem processCommand_ordered (consistent : ca.Consistent) (plain : cmd.isPlain)
    (yields : Yields (ca.processCommand env cmd) events) :
    Ordered ca env cmd (events.map StoredEvent.details) := by
  cases cmd with
  | makeTrustAnchor => cases plain
  | childAdd => exact (childAdd_settled yields.liftExcept).ordered
  | childUpdateResources => exact (childUpdateResources_settled yields.liftExcept).ordered
  | childUpdateId => exact (childUpdateIdCert_settled yields.liftExcept).ordered
  | childCertify => exact childCertify_ordered yields
  | childRevokeKey => cases plain
  | childRemove => exact (childRemove_shift yields.liftExcept).ordered consistent rfl
  | childSuspendInactive =>
    exact (childSuspendInactive_shift yields.liftExcept).ordered consistent rfl
  | childUnsuspend => exact (childUnsuspend_shift yields.liftExcept).ordered consistent rfl
  | generateNewIdKey => exact (generateNewIdKey_settled yields).ordered
  | addParent => exact (addParent_settled yields.liftExcept).ordered
  | updateParentContact => exact (updateParent_settled yields.liftExcept).ordered
  | removeParent | updateEntitlements => cases plain
  | updateRcvdCert => exact updateReceivedCert_ordered consistent yields
  | dropResourceClass => cases plain
  | keyRollInitiate => exact keyrollInitiate_ordered consistent yields
  | keyRollActivate => exact keyrollActivate_ordered consistent yields
  | keyRollFinish => exact keyrollFinish_ordered consistent yields.liftExcept
  | routeAuthorizationsUpdate => exact routeAuthorizationsUpdate_ordered yields
  | routeAuthorizationsRenew =>
    exact routeAuthorizationsRenew_ordered (.inl ⟨rfl, rfl⟩) yields
  | routeAuthorizationsForceRenew =>
    exact routeAuthorizationsRenew_ordered (.inr ⟨rfl, rfl⟩) yields
  | aspasUpdate => exact aspasDefinitionsUpdate_ordered yields
  | aspasUpdateExisting => exact aspasUpdate_ordered yields
  | aspasRenew => exact aspasRenew_ordered yields
  | bgpSecUpdateDefinitions => exact bgpsecDefinitionsUpdate_ordered yields
  | bgpSecRenew => exact bgpsecRenew_ordered yields
  | repoUpdate => cases plain
  | rtaMultiPrepare => exact (rtaMultiPrep_settled yields).ordered
  | rtaCoSign => exact (rtaCosign_settled yields).ordered
  | rtaSign => exact (rtaSign_settled yields).ordered

theorem updateRepo_yields (yields : Yields (ca.updateRepo env contact) events) :
    ∃ rolls, Yields (ca.rollsForRepo env contact) rolls ∧
      events.map StoredEvent.details = rolls ++ [.repoUpdated contact] := by
  obtain ⟨rolls, rolled, yields⟩ := yields.bind
  cases yields.pure
  exact ⟨rolls, rolled, details_eventsFromDetails _ _⟩

theorem isParental_of_requests (yields : Yields (ca.makeRequestEvents env entitlement rc) details) :
    ∀ event ∈ details, event.isParental := by
  intro event member
  obtain ⟨_, _, rfl⟩ | ⟨_, rfl⟩ := makeRequestEvents_yields yields event member <;> rfl

theorem isParental_of_entitlements
    (yields : Yields (ca.requestForEntitlements env parent number entitlements) details) :
    ∀ event ∈ details, event.isParental := by
  induction entitlements generalizing number details with
  | nil =>
    cases yields.pure
    exact List.forall_mem_nil _
  | cons entitlement rest induction =>
    unfold requestForEntitlements at yields
    split at yields
    · obtain ⟨requests, first, yields⟩ := yields.bind
      obtain ⟨others, continued, yields⟩ := yields.bind
      cases yields.pure
      exact List.forall_mem_append.mpr ⟨isParental_of_requests first, induction continued⟩
    · obtain ⟨pendingKey, _, yields⟩ := yields.bind
      obtain ⟨requests, first, yields⟩ := yields.bind
      obtain ⟨others, continued, yields⟩ := yields.bind
      cases yields.pure
      refine List.forall_mem_cons.mpr ⟨rfl, ?_⟩
      exact List.forall_mem_append.mpr ⟨isParental_of_requests first, induction continued⟩

theorem isParental_of_command (yields : Yields (ca.processCommand env cmd) events)
    (special : cmd.isPlain = false) (keeps : ∀ child request, cmd ≠ .childRevokeKey child request)
    (stays : ∀ contact, cmd ≠ .repoUpdate contact) :
    ∀ event ∈ events.map StoredEvent.details, event.isParental := by
  cases cmd with
  | makeTrustAnchor =>
    obtain ⟨_, _, same⟩ := trustAnchorMake_yields yields
    rw [same]
    exact List.forall_mem_singleton.mpr rfl
  | childRevokeKey child request => exact absurd rfl (keeps child request)
  | removeParent =>
    obtain ⟨_, accepted⟩ := ite_error_eq_ok.mp yields.liftExcept
    cases accepted
    rw [details_eventsFromDetails]
    refine List.forall_mem_append.mpr ⟨fun event member => ?_, List.forall_mem_singleton.mpr rfl⟩
    obtain ⟨entry, _, rfl⟩ := List.mem_map.mp member
    rfl
  | updateEntitlements =>
    obtain ⟨removed, removals, yields⟩ := yields.bind
    obtain ⟨requests, requested, yields⟩ := yields.bind
    cases yields.pure
    rw [details_eventsFromDetails]
    refine List.forall_mem_append.mpr ⟨fun event member => ?_, isParental_of_entitlements requested⟩
    obtain ⟨_, _, yielded⟩ := removals.exists_item member
    obtain ⟨_, _, yielded⟩ := yielded.bind
    cases yielded.pure
    rfl
  | dropResourceClass =>
    obtain ⟨rc, _, yields⟩ := yields.bind
    obtain ⟨revokeRequests, _, yields⟩ := yields.bind
    cases yields.pure
    exact List.forall_mem_singleton.mpr rfl
  | repoUpdate contact => exact absurd rfl (stays contact)
  | _ => cases special

theorem newRepository_of_command (consistent : ca.Consistent)
    (yields : Yields (ca.processCommand env cmd) events)
    (stays : ∀ contact, cmd ≠ .repoUpdate contact) :
    ∀ event ∈ events.map StoredEvent.details, event.newRepository = none := by
  intro event member
  cases special : cmd.isPlain with
  | true =>
    have plain := (processCommand_ordered consistent special yields).toGrouped.plain event member
    cases event <;> first | rfl | cases plain
  | false =>
    by_cases keeps : ∀ child request, cmd ≠ .childRevokeKey child request
    · have parental := isParental_of_command yields special keeps stays event member
      cases event <;> first | rfl | cases parental
    · simp only [ne_eq, not_forall, not_not] at keeps
      obtain ⟨child, request, rfl⟩ := keeps
      obtain ⟨_, same⟩ := childRevokeKey_eq_ok yields.liftExcept
      rw [same, List.mem_pair] at member
      obtain rfl | rfl := member <;> rfl

end CertAuth

end Krill.Ca
