import Krill.Ca.EventSpec

namespace Krill.Ca

open Rpki
open ResourceClass
open HashMap

variable [Rpki]

structure CertifiedKey.Certifies (certified : CertifiedKey) (waiting : PendingKey) : Prop where
  created : ∃ cert, certified = .create cert
  keyId : certified.keyId = waiting.keyId

def KeyState.Takes (self : KeyState) (key : KeyIdentifier) : Prop :=
  match self with
  | .pending _ => False
  | .active current | .rollPending _ current | .rollOld current _ => key = current.keyId
  | .rollNew new current => key = new.keyId ∨ key = current.keyId

namespace CaEvtDet

def Fits (event : CaEvtDet) (rc : ResourceClass) : Prop :=
  match event with
  | .certificateRequested _ _ _ => True
  | .certificateReceived _ cert key => key = cert.keyIdentifier ∧ rc.keyState.Takes key
  | .keyRollPendingKeyAdded _ _ => ∃ current, rc.keyState = .active current
  | .keyPendingToNew _ newKey => ∃ waiting current,
      rc.keyState = .rollPending waiting current ∧ newKey.Certifies waiting
  | .keyPendingToActive _ currentKey => ∃ waiting,
      rc.keyState = .pending waiting ∧ currentKey.Certifies waiting
  | .keyRollActivated _ _ => ∃ new current, rc.keyState = .rollNew new current
  | .keyRollFinished _ => ∃ current old, rc.keyState = .rollOld current old
  | _ => rc.currentKey.isSome

variable {event : CaEvtDet}

theorem onClass_of_fits (env : Surroundings) (about : event.target = some rcn)
    (fits : event.Fits rc) : ∃ changed, event.onClass env rc = some changed := by
  cases event with
  | certificateReceived _ cert key =>
    obtain ⟨_, takes⟩ := fits
    change ∃ changed, rc.receivedCert key cert = some changed
    unfold receivedCert
    cases state : rc.keyState with
    | pending => rw [state] at takes; exact takes.elim
    | active => exact ⟨_, rfl⟩
    | rollPending => exact ⟨_, rfl⟩
    | rollNew => exact ⟨_, (apply_ite some _ _ _).symm⟩
    | rollOld => exact ⟨_, (apply_ite some _ _ _).symm⟩
  | keyRollPendingKeyAdded _ pendingKey =>
    obtain ⟨current, state⟩ := fits
    exact ⟨_, by rw [onClass, pendingKeyIdAdded, state]⟩
  | keyPendingToNew _ newKey =>
    obtain ⟨waiting, current, state, _⟩ := fits
    exact ⟨_, by rw [onClass, pendingKeyToNew, state]⟩
  | keyPendingToActive _ currentKey =>
    obtain ⟨waiting, state, _⟩ := fits
    exact ⟨_, by rw [onClass, pendingKeyToActive, state]⟩
  | keyRollActivated _ revokeReq =>
    obtain ⟨new, current, state⟩ := fits
    exact ⟨_, by rw [onClass, newKeyActivated, state]⟩
  | keyRollFinished =>
    obtain ⟨current, old, state⟩ := fits
    exact ⟨_, by rw [onClass, oldKeyRemoved, state]⟩
  | childCertificatesUpdated | certificateRequested | roasUpdated | aspaObjectsUpdated
  | bgpSecCertificatesUpdated => exact ⟨_, rfl⟩
  | _ => cases about

theorem fits_of_objects (objects : event.isAboutKeys = false) (certified : rc.currentKey.isSome) :
    event.Fits rc := by
  cases event <;> first | exact certified | exact Bool.noConfusion objects

end CaEvtDet

namespace CertAuth

def HasCurrentKey (self : CertAuth) (rcn : ResourceClassName) : Prop :=
  ∃ rc, self.resources.get rcn = some rc ∧ rc.currentKey.isSome

def Sound (self : CertAuth) (event : CaEvtDet) : Prop :=
  match event with
  | .childCertificateIssued child rcn _
  | .childKeyRevoked child rcn _ => self.hasChild child ∧ self.HasCurrentKey rcn
  | .childUpdatedIdCert child _
  | .childUpdatedResources child _
  | .childSuspended child
  | .childUnsuspended child => self.hasChild child
  | .resourceClassAdded rcn _ _ _ => rcn = .ofNumber self.nextClassName
  | .parentRemoved parent => ∀ rcn rc, self.resources.get rcn = some rc →
      rc.parentHandle ≠ parent
  | .aspaConfigUpdated customer _ => self.aspas.has customer
  | _ => ∀ rcn, event.target = some rcn →
      ∃ rc, self.resources.get rcn = some rc ∧ event.Fits rc

variable {ca : CertAuth}

theorem sound_of_target (about : event.target = some rcn) (found : ca.resources.get rcn = some rc)
    (fits : event.Fits rc) : ca.Sound event := by
  have inPlace : ∀ named, event.target = some named →
      ∃ rc, ca.resources.get named = some rc ∧ event.Fits rc := by
    intro named targeted
    cases about.symm.trans targeted
    exact ⟨rc, found, fits⟩
  cases event <;> first | exact inPlace | cases about

theorem Sound.inPlace (sound : ca.Sound event) (about : event.target = some rcn) :
    ∃ rc, ca.resources.get rcn = some rc ∧ event.Fits rc := by
  cases event <;> first | exact sound rcn about | cases about

theorem updateChild_isSome (known : ca.hasChild child) :
    ∃ next, ca.updateChild child change = some next := by
  obtain ⟨details, found⟩ := Option.isSome_iff_exists.mp known
  exact ⟨_, updateChild_eq_some.mpr ⟨details, found, rfl⟩⟩

theorem applyDetails_of_sound (env : Surroundings) (sound : ca.Sound event) :
    ∃ next, ca.applyDetails env event = some next := by
  cases about : event.target with
  | some rcn =>
    obtain ⟨rc, found, fits⟩ := sound.inPlace about
    obtain ⟨changed, done⟩ := CaEvtDet.onClass_of_fits env about fits
    exact ⟨_, (applyDetails_target_eq_some about).mpr ⟨rc, changed, found, done, rfl⟩⟩
  | none =>
    cases event with
    | childCertificateIssued => exact updateChild_isSome sound.1
    | childUpdatedIdCert => exact updateChild_isSome sound
    | childUpdatedResources => exact updateChild_isSome sound
    | childSuspended => exact updateChild_isSome sound
    | childUnsuspended => exact updateChild_isSome sound
    | childKeyRevoked child rcn key =>
      obtain ⟨known, rc, found, _⟩ := sound
      obtain ⟨details, foundChild⟩ := Option.isSome_iff_exists.mp known
      exact ⟨_, applyDetails_childKeyRevoked.mpr ⟨rc, details, found, foundChild, rfl⟩⟩
    | aspaConfigUpdated customer update =>
      obtain ⟨current, found⟩ := Option.isSome_iff_exists.mp sound
      have updated : ca.aspas.applyUpdate customer update = some _ :=
        Option.map_eq_some_iff.mpr ⟨current, found, rfl⟩
      exact ⟨_, Option.map_eq_some_iff.mpr ⟨_, updated, rfl⟩⟩
    | _ => first | exact ⟨_, rfl⟩ | cases about

structure Consistent (ca : CertAuth) : Prop where
  named : ∀ {rcn rc}, ca.resources.get rcn = some rc → rc.name = rcn
  numbered : ∀ {rcn rc}, ca.resources.get rcn = some rc →
    ∃ number < ca.nextClassName, rcn = .ofNumber number
  usedNumbered : ∀ {child details key rcn}, ca.children.get child = some details →
    details.usedKeys.get key = some (.current rcn) →
    ∃ number < ca.nextClassName, rcn = .ofNumber number
  usedCertified : ∀ {child details key rcn rc}, ca.children.get child = some details →
    details.usedKeys.get key = some (.current rcn) →
    ca.resources.get rcn = some rc → rc.currentKey.isSome

theorem init_consistent (handle : CaHandle) (id : Rfc8183Id) : (init handle id).Consistent where
  named := fun found => by rw [init, get_empty] at found; cases found
  numbered := fun found => by rw [init, get_empty] at found; cases found
  usedNumbered := fun found _ => by rw [init, get_empty] at found; cases found
  usedCertified := fun found _ _ => by rw [init, get_empty] at found; cases found

/-- What consistency needs of an event. It is less than soundness. -/
def Orderly (self : CertAuth) (event : CaEvtDet) : Prop :=
  match event with
  | .resourceClassAdded rcn _ _ _ => rcn = .ofNumber self.nextClassName
  | .childCertificateIssued _ rcn _ => self.HasCurrentKey rcn
  | _ => True

theorem Sound.orderly (sound : ca.Sound event) : ca.Orderly event := by
  cases event with
  | resourceClassAdded => exact sound
  | childCertificateIssued => exact sound.2
  | _ => trivial

theorem class_of_apply (orderly : ca.Orderly event)
    (applied : ca.applyDetails env event = some next)
    (found : next.resources.get rcn = some changed) :
    (∃ rc, ca.resources.get rcn = some rc ∧ changed.name = rc.name ∧
      (rc.currentKey.isSome → changed.currentKey.isSome)) ∨
    (rcn = .ofNumber ca.nextClassName ∧ changed.name = rcn ∧
      next.nextClassName = ca.nextClassName + 1) := by
  have same (kept : ca.resources.get rcn = some changed) : ∃ rc,
      ca.resources.get rcn = some rc ∧ changed.name = rc.name ∧
        (rc.currentKey.isSome → changed.currentKey.isSome) :=
    ⟨changed, kept, rfl, fun certified => certified⟩
  cases effect_of_apply applied with
  | onClass about present done =>
    obtain ⟨rfl, rfl⟩ | kept := get_insert_eq_some found
    · refine .inl ⟨_, present, ?_, CaEvtDet.currentKey_onClass done⟩
      rw [(CaEvtDet.onClass_spec done).1]
    · exact .inl (same kept)
  | trustAnchorMade numbered added children handle =>
    rw [added] at found
    obtain ⟨rfl, rfl⟩ | kept := get_insert_eq_some found
    · exact .inr ⟨rfl, rfl, numbered⟩
    · exact .inl (same kept)
  | resourceClassAdded =>
    obtain ⟨rfl, rfl⟩ | kept := get_insert_eq_some found
    · exact .inr ⟨orderly, rfl, rfl⟩
    · exact .inl (same kept)
  | resourceClassRemoved => exact .inl (same (get_of_remove found))
  | parentRemoved =>
    rw [get_filter] at found
    exact .inl (same (Option.filter_eq_some_iff.mp found).1)
  | repoUpdated classes numbered children handle =>
    rw [classes, Option.map_eq_some_iff] at found
    obtain ⟨rc, present, rfl⟩ := found
    refine .inl ⟨rc, present, ?_, ?_⟩
    · cases ca.repository <;> rfl
    · intro certified
      cases ca.repository with
      | none => exact certified
      | some current =>
        change (rc.keyState.setOldRepoIfInActiveState _).currentKey.isSome
        unfold currentKey at certified
        cases state : rc.keyState <;> rw [state] at certified
        case pending => exact certified
        all_goals rfl
  | childKeyRevoked present foundChild =>
    obtain ⟨rfl, rfl⟩ | kept := get_insert_eq_some found
    · exact .inl ⟨_, present, rfl, fun certified => certified⟩
    · exact .inl (same kept)
  | other unpublished classes children numbered handle => exact .inl (same (classes ▸ found))
  | _ => exact .inl (same found)

def allocated (self : CertAuth) : CaEvtDet → Option ResourceClassName
  | .resourceClassAdded rcn _ _ _ => some rcn
  | .trustAnchorMade _ => some (.ofNumber self.nextClassName)
  | _ => none

theorem nextClassName_of_apply (applied : ca.applyDetails env event = some next) :
    next.nextClassName = ca.nextClassName + (ca.allocated event).toList.length := by
  have kept (none : ca.allocated event = none) : next.nextClassName = ca.nextClassName := by
    cases effect_of_apply applied with
    | trustAnchorMade | resourceClassAdded => cases none
    | repoUpdated classes numbered children handle => exact numbered
    | other unpublished classes children numbered handle => exact numbered
    | _ => rfl
  cases event with
  | trustAnchorMade | resourceClassAdded => cases applied; rfl
  | _ => exact kept rfl

theorem Consistent.apply (consistent : ca.Consistent) (orderly : ca.Orderly event)
    (applied : ca.applyDetails env event = some next) : next.Consistent := by
  have grows := nextClassName_of_apply applied
  have later {rcn : ResourceClassName}
      (given : ∃ number < ca.nextClassName, rcn = .ofNumber number) :
      ∃ number < next.nextClassName, rcn = .ofNumber number := by
    obtain ⟨number, below, rfl⟩ := given
    exact ⟨number, by omega, rfl⟩
  refine ⟨fun found => ?_, fun found => ?_, fun found used => ?_, fun found used present => ?_⟩
  · obtain ⟨rc, before, named, _⟩ | ⟨_, named, _⟩ := class_of_apply orderly applied found
    · rw [named, consistent.named before]
    · exact named
  · obtain ⟨rc, before, _⟩ | ⟨rfl, _, increased⟩ := class_of_apply orderly applied found
    · exact later (consistent.numbered before)
    · exact ⟨ca.nextClassName, by omega, rfl⟩
  · obtain ⟨before, known, usedBefore⟩ | rfl := usedKey_of_apply applied found used
    · exact later (consistent.usedNumbered known usedBefore)
    · obtain ⟨rc, present, _⟩ := orderly
      exact later (consistent.numbered present)
  · obtain ⟨before, known, usedBefore⟩ | rfl := usedKey_of_apply applied found used
    · obtain ⟨rc, was, _, kept⟩ | ⟨rfl, _⟩ := class_of_apply orderly applied present
      · exact kept (consistent.usedCertified known usedBefore was)
      · -- the new number cannot be the number of a class in use
        obtain ⟨number, below, same⟩ := consistent.usedNumbered known usedBefore
        have := ResourceClassName.ofNumber_injective same
        omega
    · have certifiedClass := orderly
      obtain ⟨rc, was, certified⟩ := certifiedClass
      obtain ⟨_, was', _, kept⟩ | ⟨rfl, _⟩ := class_of_apply orderly applied present
      · cases was.symm.trans was'
        exact kept certified
      · obtain ⟨number, below, same⟩ := consistent.numbered was
        have := ResourceClassName.ofNumber_injective same
        omega

end CertAuth

end Krill.Ca
