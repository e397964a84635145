import Krill.Ca.ListenSpec

namespace Krill.Ca

open EventSourcing (Time)
open KeyObjectSet

variable [Rpki]

inductive SetEdit where
  | insert (name : ObjectName) (object : PublishedObject)
  | remove (name : ObjectName)
  | restore (cert : UnsuspendedCert)

namespace KeyObjectSet

def edit (now : Time) (set : KeyObjectSet) : SetEdit → KeyObjectSet
  | .insert name object => set.insertObject now name object
  | .remove name => set.removeObject now name
  | .restore cert => set.publishUnsuspended now cert

theorem revokeOld_frame (set : KeyObjectSet) :
    (set.revokeOld now old).signingCert = set.signingCert ∧
      (set.revokeOld now old).oldRepo = set.oldRepo := by
  cases old <;> exact ⟨rfl, rfl⟩

theorem edits_frame (set : KeyObjectSet) (edits : List SetEdit) :
    (edits.foldl (edit now) set).signingCert = set.signingCert ∧
      (edits.foldl (edit now) set).oldRepo = set.oldRepo := by
  induction edits generalizing set with
  | nil => exact ⟨rfl, rfl⟩
  | cons first rest induction =>
    obtain ⟨cert, repo⟩ := induction (set.edit now first)
    have frame : (set.edit now first).signingCert = set.signingCert ∧
        (set.edit now first).oldRepo = set.oldRepo := by
      cases first <;> exact revokeOld_frame _
    exact ⟨cert.trans frame.1, repo.trans frame.2⟩

end KeyObjectSet

def RoaUpdates.edits (self : RoaUpdates) (order : IterOrder) : List SetEdit :=
  ((self.addedRoas order).iter order).map (fun (name, roaInfo) =>
    .insert name (.forRoa name roaInfo)) ++ self.removedRoas.map .remove

def AspaObjectsUpdates.edits (self : AspaObjectsUpdates) : List SetEdit :=
  self.updated.map (fun aspaInfo =>
    .insert (.aspa aspaInfo.customer) (.forAspa (.aspa aspaInfo.customer) aspaInfo)) ++
  self.removed.map fun customer => .remove (.aspa customer)

def BgpSecCertificateUpdates.edits (self : BgpSecCertificateUpdates) : List SetEdit :=
  self.updated.map (fun cert => .insert cert.name (.forBgpsecCertInfo cert)) ++
  self.removed.map fun key => .remove (.ofBgpSecAsnKey key)

def ChildCertificateUpdates.edits (self : ChildCertificateUpdates) : List SetEdit :=
  self.removed.map (fun key => .remove (.cerForKey key)) ++
  (self.issued.map (fun cert => .insert cert.name (.forCertInfo cert)) ++
  (self.unsuspended.map .restore ++ self.suspended.map fun cert => .remove cert.name))

namespace CaEvtDet

def edits (order : IterOrder) : CaEvtDet → List SetEdit
  | .roasUpdated _ updates => updates.edits order
  | .aspaObjectsUpdated _ updates => updates.edits
  | .bgpSecCertificatesUpdated _ updates => updates.edits
  | .childCertificatesUpdated _ updates => updates.edits
  | _ => []

theorem onSet_eq (env : Surroundings) (event : CaEvtDet) (set : KeyObjectSet) :
    event.onSet env set = (event.edits env.order).foldl (edit env.now) set := by
  cases event with
  | roasUpdated rcn updates =>
    rw [edits, RoaUpdates.edits, List.foldl_append, List.foldl_map, List.foldl_map]
    rfl
  | aspaObjectsUpdated rcn updates =>
    rw [edits, AspaObjectsUpdates.edits, List.foldl_append, List.foldl_map, List.foldl_map]
    rfl
  | bgpSecCertificatesUpdated rcn updates =>
    rw [edits, BgpSecCertificateUpdates.edits, List.foldl_append, List.foldl_map, List.foldl_map]
    rfl
  | childCertificatesUpdated rcn updates =>
    rw [edits, ChildCertificateUpdates.edits, List.foldl_append, List.foldl_append,
      List.foldl_append, List.foldl_map, List.foldl_map, List.foldl_map, List.foldl_map]
    rfl
  | _ => rfl

theorem onSet_frame (env : Surroundings) (event : CaEvtDet) (set : KeyObjectSet) :
    (event.onSet env set).signingCert = set.signingCert ∧
      (event.onSet env set).oldRepo = set.oldRepo := by
  rw [onSet_eq]
  exact edits_frame _ _

end CaEvtDet

namespace ResourceClassObjects

def sets (self : ResourceClassObjects) : List KeyObjectSet :=
  match self.keys with
  | .current set => [set]
  | .staging new set => [new, set]
  | .old set old => [set, old]

variable {rco : ResourceClassObjects}

theorem anySet_iff : rco.keys.anySet condition = true ↔ ∃ set ∈ rco.sets, condition set = true := by
  obtain ⟨set | ⟨new, set⟩ | ⟨set, old⟩⟩ := rco
  · simp [ResourceClassKeyState.anySet, sets]
  · simp [ResourceClassKeyState.anySet, sets]
  · simp [ResourceClassKeyState.anySet, sets, or_comm]

theorem hasOldRepo_iff :
    rco.hasOldRepo repo = true ↔ ∃ set ∈ rco.sets, set.oldRepo = some repo := by
  simp [hasOldRepo, anySet_iff]

theorem oldRepo_eq_some (found : rco.oldRepo = some repo) :
    ∃ set ∈ rco.sets, set.oldRepo = some repo := by
  obtain ⟨set | ⟨new, set⟩ | ⟨set, old⟩⟩ := rco
  · exact ⟨set, List.mem_singleton_self set, found⟩
  · obtain first | ⟨_, second⟩ := Option.or_eq_some_iff.mp found
    · exact ⟨new, List.mem_pair.mpr (.inl rfl), first⟩
    · exact ⟨set, List.mem_pair.mpr (.inr rfl), second⟩
  · obtain first | ⟨_, second⟩ := Option.or_eq_some_iff.mp found
    · exact ⟨old, List.mem_pair.mpr (.inr rfl), first⟩
    · exact ⟨set, List.mem_pair.mpr (.inl rfl), second⟩

theorem EachSet.exists_before (each : EachSet related before after) (member : set' ∈ after.sets) :
    ∃ set ∈ before.sets, related set set' := by
  cases each with
  | current same =>
    cases List.mem_singleton.mp member
    exact ⟨_, List.mem_singleton_self _, same⟩
  | staging sameNew same =>
    obtain rfl | rfl := List.mem_pair.mp member
    · exact ⟨_, List.mem_pair.mpr (.inl rfl), sameNew⟩
    · exact ⟨_, List.mem_pair.mpr (.inr rfl), same⟩
  | old same sameOld =>
    obtain rfl | rfl := List.mem_pair.mp member
    · exact ⟨_, List.mem_pair.mpr (.inl rfl), same⟩
    · exact ⟨_, List.mem_pair.mpr (.inr rfl), sameOld⟩

end ResourceClassObjects

namespace KeyObjectSet

def Awaits (set : KeyObjectSet) (cert : ReceivedCert) : Prop :=
  set.signingCert.keyIdentifier = cert.keyIdentifier

def received (set : KeyObjectSet) (cert : ReceivedCert) : KeyObjectSet :=
  { set with signingCert := cert }

variable {set : KeyObjectSet}

theorem updateSigningCert_of_awaits (awaits : set.Awaits cert) :
    set.updateSigningCert cert = .ok (set.received cert) :=
  if_pos awaits

theorem updateSigningCert_of_not (other : ¬set.Awaits cert) :
    ∃ failure, set.updateSigningCert cert = .error failure :=
  ⟨_, if_neg other⟩

end KeyObjectSet

namespace ResourceClassObjects

/-- What a received certificate changes: the set for its key, where the new or old key comes
before the current one. -/
inductive Received (cert : ReceivedCert) : ResourceClassObjects → ResourceClassObjects → Prop
  | current {set : KeyObjectSet} (awaits : set.Awaits cert) :
      Received cert ⟨.current set⟩ ⟨.current (set.received cert)⟩
  | stagingNew {set : KeyObjectSet} (awaits : new.Awaits cert) :
      Received cert ⟨.staging new set⟩ ⟨.staging (new.received cert) set⟩
  | staging {set : KeyObjectSet} (other : ¬new.Awaits cert) (awaits : set.Awaits cert) :
      Received cert ⟨.staging new set⟩ ⟨.staging new (set.received cert)⟩
  | oldOld {set : KeyObjectSet} (awaits : old.Awaits cert) :
      Received cert ⟨.old set old⟩ ⟨.old set (old.received cert)⟩
  | old {set : KeyObjectSet} (other : ¬old.Awaits cert) (awaits : set.Awaits cert) :
      Received cert ⟨.old set old⟩ ⟨.old (set.received cert) old⟩

theorem received_of_update (done : rco.updateReceivedCert cert = .ok changed) :
    Received cert rco changed := by
  unfold updateReceivedCert ResourceClassKeyState.updateReceivedCert at done
  obtain ⟨set | ⟨new, set⟩ | ⟨set, old⟩⟩ := rco <;> dsimp only at done
  · by_cases awaits : set.Awaits cert
    · rw [updateSigningCert_of_awaits awaits] at done
      cases done
      exact .current awaits
    · obtain ⟨failure, failed⟩ := updateSigningCert_of_not awaits
      rw [failed] at done
      cases done
  · by_cases first : new.Awaits cert
    · rw [updateSigningCert_of_awaits first] at done
      cases done
      exact .stagingNew first
    · obtain ⟨failure, failed⟩ := updateSigningCert_of_not first
      rw [failed] at done
      by_cases awaits : set.Awaits cert
      · rw [updateSigningCert_of_awaits awaits] at done
        cases done
        exact .staging first awaits
      · obtain ⟨failure, failed⟩ := updateSigningCert_of_not awaits
        rw [failed] at done
        cases done
  · by_cases first : old.Awaits cert
    · rw [updateSigningCert_of_awaits first] at done
      cases done
      exact .oldOld first
    · obtain ⟨failure, failed⟩ := updateSigningCert_of_not first
      rw [failed] at done
      by_cases awaits : set.Awaits cert
      · rw [updateSigningCert_of_awaits awaits] at done
        cases done
        exact .old first awaits
      · obtain ⟨failure, failed⟩ := updateSigningCert_of_not awaits
        rw [failed] at done
        cases done

theorem Received.exists_before (received : Received cert rco changed)
    (member : set' ∈ changed.sets) :
    ∃ set ∈ rco.sets, set' = set ∨ set.Awaits cert ∧ set' = set.received cert := by
  cases received with
  | current awaits =>
    cases List.mem_singleton.mp member
    exact ⟨_, List.mem_singleton_self _, .inr ⟨awaits, rfl⟩⟩
  | stagingNew awaits =>
    obtain rfl | rfl := List.mem_pair.mp member
    · exact ⟨_, List.mem_pair.mpr (.inl rfl), .inr ⟨awaits, rfl⟩⟩
    · exact ⟨_, List.mem_pair.mpr (.inr rfl), .inl rfl⟩
  | staging other awaits =>
    obtain rfl | rfl := List.mem_pair.mp member
    · exact ⟨_, List.mem_pair.mpr (.inl rfl), .inl rfl⟩
    · exact ⟨_, List.mem_pair.mpr (.inr rfl), .inr ⟨awaits, rfl⟩⟩
  | oldOld awaits =>
    obtain rfl | rfl := List.mem_pair.mp member
    · exact ⟨_, List.mem_pair.mpr (.inl rfl), .inl rfl⟩
    · exact ⟨_, List.mem_pair.mpr (.inr rfl), .inr ⟨awaits, rfl⟩⟩
  | old other awaits =>
    obtain rfl | rfl := List.mem_pair.mp member
    · exact ⟨_, List.mem_pair.mpr (.inl rfl), .inr ⟨awaits, rfl⟩⟩
    · exact ⟨_, List.mem_pair.mpr (.inr rfl), .inl rfl⟩

theorem update_of_awaits {rco : ResourceClassObjects} {set : KeyObjectSet}
    (member : set ∈ rco.sets) (awaits : set.Awaits cert) :
    ∃ changed, rco.updateReceivedCert cert = .ok changed := by
  unfold updateReceivedCert ResourceClassKeyState.updateReceivedCert
  obtain ⟨current | ⟨new, current⟩ | ⟨current, old⟩⟩ := rco <;> dsimp only
  · cases List.mem_singleton.mp member
    exact ⟨_, by rw [updateSigningCert_of_awaits awaits]; rfl⟩
  · by_cases first : new.Awaits cert
    · exact ⟨_, by rw [updateSigningCert_of_awaits first]; rfl⟩
    · obtain rfl | rfl := List.mem_pair.mp member
      · exact absurd awaits first
      · obtain ⟨failure, failed⟩ := updateSigningCert_of_not first
        exact ⟨_, by rw [failed, updateSigningCert_of_awaits awaits]; rfl⟩
  · by_cases first : old.Awaits cert
    · exact ⟨_, by rw [updateSigningCert_of_awaits first]; rfl⟩
    · obtain rfl | rfl := List.mem_pair.mp member
      · obtain ⟨failure, failed⟩ := updateSigningCert_of_not first
        exact ⟨_, by rw [failed, updateSigningCert_of_awaits awaits]; rfl⟩
      · exact absurd awaits first

end ResourceClassObjects

def CaEvtDet.newKey : CaEvtDet → Option (ResourceClassName × CertifiedKey)
  | .keyPendingToActive rcn key => some (rcn, key)
  | .keyPendingToNew rcn key => some (rcn, key)
  | _ => none

inductive KeyObjectSet.Touched (env : Surroundings) (event : CaEvtDet) (set : KeyObjectSet) :
    KeyObjectSet → Prop
  | kept : Touched env event set set
  | received (awaits : set.Awaits cert) : Touched env event set (set.received cert)
  | updated (objects : event.isObjects) : Touched env event set (event.onSet env set)
  | retired (activates : event = .keyRollActivated rcn revokeReq) :
      Touched env event set (set.retire env)
  | moved (moves : event = .repoUpdated contact) : Touched env event set (set.setOldRepo repo)

inductive KeyObjectSet.Origin (env : Surroundings) (event : CaEvtDet) (rcn : ResourceClassName)
    (before : Option ResourceClassObjects) (set' : KeyObjectSet) : Prop
  | new {key : CertifiedKey} (made : event.newKey = some (rcn, key)) (isNew : set'.IsNew key)
  | touched {rco : ResourceClassObjects} {set : KeyObjectSet} (found : before = some rco)
      (member : set ∈ rco.sets) (touched : set.Touched env event set')

variable {set' : KeyObjectSet}

theorem Follows.origin (follows : Follows env event before (some changed))
    (targeted : event.target = some rcn) (member : set' ∈ changed.sets) :
    set'.Origin env event rcn before := by
  cases follows with
  | @updated _ keys objects =>
    obtain set | ⟨new, set⟩ | ⟨set, old⟩ := keys
    · cases List.mem_singleton.mp member
      exact .touched rfl (List.mem_singleton_self set) (.updated objects)
    · obtain rfl | rfl := List.mem_pair.mp member
      · exact .touched rfl (List.mem_pair.mpr (.inl rfl)) .kept
      · exact .touched rfl (List.mem_pair.mpr (.inr rfl)) (.updated objects)
    · obtain rfl | rfl := List.mem_pair.mp member
      · exact .touched rfl (List.mem_pair.mpr (.inl rfl)) (.updated objects)
      · exact .touched rfl (List.mem_pair.mpr (.inr rfl)) .kept
  | added isNew =>
    cases targeted
    cases List.mem_singleton.mp member
    exact .new rfl isNew
  | staged isNew =>
    cases targeted
    obtain rfl | rfl := List.mem_pair.mp member
    · exact .new rfl isNew
    · exact .touched rfl (List.mem_singleton_self _) .kept
  | activated =>
    obtain rfl | rfl := List.mem_pair.mp member
    · exact .touched rfl (List.mem_pair.mpr (.inl rfl)) .kept
    · exact .touched rfl (List.mem_pair.mpr (.inr rfl)) (.retired rfl)
  | finished =>
    cases List.mem_singleton.mp member
    exact .touched rfl (List.mem_pair.mpr (.inl rfl)) .kept
  | received done =>
    obtain ⟨set, listed, same | ⟨awaits, same⟩⟩ :=
      (ResourceClassObjects.received_of_update done).exists_before member
    · subst same
      exact .touched rfl listed .kept
    · subst same
      exact .touched rfl listed (.received awaits)

theorem CaObjects.Listened.origin (listened : Listened env objects event next)
    (found : next.classes.get rcn = some rco) (member : set' ∈ rco.sets) :
    set'.Origin env event rcn (objects.classes.get rcn) := by
  cases listened with
  | @followed target _ changed targeted follows =>
    rw [classes_deprecate, get_setClass] at found
    by_cases own : rcn = target
    · subst own
      rw [if_pos rfl] at found
      cases found
      exact follows.origin targeted member
    · rw [if_neg own] at found
      exact .touched found member .kept
  | removed =>
    rw [get_removeClass] at found
    obtain ⟨_, found⟩ := Option.ite_none_left_eq_some.mp found
    exact .touched found member .kept
  | @moved contact =>
    rw [get_updateRepo] at found
    obtain ⟨before, present, rfl⟩ := Option.map_eq_some_iff.mp found
    cases left : objects.repo with
    | none =>
      rw [left] at member
      exact .touched present member .kept
    | some old =>
      rw [left] at member
      obtain ⟨set, listed, rfl⟩ := (before.setOldRepo_eachSet old).exists_before member
      exact .touched present listed (.moved rfl)
  | ignored unpublished => exact .touched found member .kept

theorem KeyObjectSet.Origin.oldRepo (origin : set'.Origin env event rcn before)
    (stays : event.newRepository = none) (moved : set'.oldRepo = some repo) :
    ∃ rco, before = some rco ∧ ∃ set ∈ rco.sets, set.oldRepo = some repo := by
  cases origin with
  | new made isNew => cases isNew.oldRepo.symm.trans moved
  | touched found member touched =>
    refine ⟨_, found, _, member, ?_⟩
    cases touched with
    | updated objects => exact (event.onSet_frame env _).2.symm.trans moved
    | moved moves =>
      subst moves
      cases stays
    | _ => exact moved

end Krill.Ca
