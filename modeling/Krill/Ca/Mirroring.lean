import Krill.Ca.ClassEvents
import Krill.Ca.SetEdits

namespace Krill.Ca

open Rpki
open ResourceClass (keyState)

variable [Rpki]

structure KeyObjectSet.IsFor (set : KeyObjectSet) (key : CertifiedKey) : Prop where
  signingCert : set.signingCert = key.incomingCert
  keyId : set.signingCert.keyIdentifier = key.keyId

/-- The states of a class, and the states of its published objects. -/
inductive Mirrors : Option KeyState → Option ResourceClassObjects → Prop
  | absent : Mirrors none none
  | pending (waiting : PendingKey) : Mirrors (some (.pending waiting)) none
  | active {current : CurrentKey} {set : KeyObjectSet} (same : set.IsFor current) :
      Mirrors (some (.active current)) (some ⟨.current set⟩)
  | rollPending (waiting : PendingKey) {current : CurrentKey} {set : KeyObjectSet}
      (same : set.IsFor current) :
      Mirrors (some (.rollPending waiting current)) (some ⟨.current set⟩)
  | rollNew {new : NewKey} {current : CurrentKey} {newSet set : KeyObjectSet}
      (sameNew : newSet.IsFor new) (same : set.IsFor current) :
      Mirrors (some (.rollNew new current)) (some ⟨.staging newSet set⟩)
  | rollOld {current : CurrentKey} {old : OldKey} {set oldSet : KeyObjectSet}
      (same : set.IsFor current) (sameOld : oldSet.IsFor old.key) :
      Mirrors (some (.rollOld current old)) (some ⟨.old set oldSet⟩)

namespace KeyObjectSet.IsFor

variable {set : KeyObjectSet}

theorem ofNew (isNew : set.IsNew key) (certifies : key.Certifies waiting) : set.IsFor key := by
  obtain ⟨cert, rfl⟩ := certifies.created
  exact ⟨isNew.signingCert, congrArg _ isNew.signingCert⟩

theorem ofFrame (isFor : set.IsFor key) {set' : KeyObjectSet}
    (same : set'.signingCert = set.signingCert) : set'.IsFor key :=
  ⟨same.trans isFor.signingCert, (congrArg _ same).trans isFor.keyId⟩

theorem ofKey (isFor : set.IsFor key) (keyId : key'.keyId = key.keyId)
    (incomingCert : key'.incomingCert = key.incomingCert) : set.IsFor key' :=
  ⟨isFor.signingCert.trans incomingCert.symm, isFor.keyId.trans keyId.symm⟩

theorem received (isFor : set.IsFor key) (awaits : set.Awaits cert) :
    (set.received cert).IsFor (key.setIncomingCert cert) :=
  ⟨rfl, awaits.symm.trans isFor.keyId⟩

theorem awaits_iff (isFor : set.IsFor key) : set.Awaits cert ↔ key.keyId = cert.keyIdentifier := by
  unfold Awaits
  rw [isFor.keyId]

end KeyObjectSet.IsFor

namespace KeyState

def keyIds : KeyState → List KeyIdentifier
  | .pending waiting => [waiting.keyId]
  | .active current => [current.keyId]
  | .rollPending waiting current => [waiting.keyId, current.keyId]
  | .rollNew new current => [new.keyId, current.keyId]
  | .rollOld current old => [current.keyId, old.keyId]

theorem keyIds_addRequest (state : KeyState) :
    (state.addRequest key request).keyIds = state.keyIds := by
  cases state <;> first | rfl | (unfold addRequest; dsimp only; split <;> rfl)

theorem keyIds_setOldRepo (state : KeyState) (repo : RepoInfo) :
    (state.setOldRepoIfInActiveState repo).keyIds = state.keyIds := by
  cases state <;> rfl

theorem Step.keyIds (step : Step event rc.keyState state) (fits : event.Fits rc) (cmd : CmdDet) :
    state.keyIds.Sublist rc.keyState.keyIds ∨
      ∃ key, event.tokens cmd = [.key key] ∧ state.keyIds = key :: rc.keyState.keyIds := by
  generalize same : rc.keyState = before at step
  cases step with
  | requested => exact .inl (by rw [keyIds_addRequest])
  | pendingKeyAdded => exact .inr ⟨_, rfl, rfl⟩
  | pendingToNew =>
    obtain ⟨waiting, current, is, certifies⟩ := fits
    cases same.symm.trans is
    refine .inl ?_
    rw [KeyState.keyIds, KeyState.keyIds, certifies.keyId]
  | pendingToActive =>
    obtain ⟨waiting, is, certifies⟩ := fits
    cases same.symm.trans is
    refine .inl ?_
    rw [KeyState.keyIds, KeyState.keyIds, certifies.keyId]
  | finished => exact .inl (List.sublist_append_left [_] [_])
  | _ => exact .inl (.refl _)

end KeyState

namespace Mirrors

theorem addRequest (mirrors : Mirrors (some state) entry) (key : KeyIdentifier)
    (request : IssuanceRequest) : Mirrors (some (state.addRequest key request)) entry := by
  cases mirrors with
  | pending waiting => exact .pending _
  | active same => exact .active (same.ofKey rfl rfl)
  | rollPending waiting same =>
    unfold KeyState.addRequest
    dsimp only
    split
    · exact .rollPending _ same
    · exact .rollPending _ (same.ofKey rfl rfl)
  | rollNew sameNew same =>
    unfold KeyState.addRequest
    dsimp only
    split
    · exact .rollNew (sameNew.ofKey rfl rfl) same
    · exact .rollNew sameNew (same.ofKey rfl rfl)
  | rollOld same sameOld =>
    unfold KeyState.addRequest
    dsimp only
    split
    · exact .rollOld (same.ofKey rfl rfl) sameOld
    · exact .rollOld same (sameOld.ofKey rfl rfl)

theorem eachSet (mirrors : Mirrors state (some rco)) (each : rco.EachSet related rco')
    (same : ∀ {set set'}, related set set' → set'.signingCert = set.signingCert) :
    Mirrors state (some rco') := by
  cases mirrors with
  | active isFor =>
    cases each with
    | current related => exact .active (isFor.ofFrame (same related))
  | rollPending waiting isFor =>
    cases each with
    | current related => exact .rollPending waiting (isFor.ofFrame (same related))
  | rollNew isForNew isFor =>
    cases each with
    | staging relatedNew related =>
      exact .rollNew (isForNew.ofFrame (same relatedNew)) (isFor.ofFrame (same related))
  | rollOld isFor isForOld =>
    cases each with
    | old related relatedOld =>
      exact .rollOld (isFor.ofFrame (same related)) (isForOld.ofFrame (same relatedOld))

theorem setOldRepo (mirrors : Mirrors (some state) entry) (repo : RepoInfo) :
    Mirrors (some (state.setOldRepoIfInActiveState repo)) entry := by
  cases mirrors with
  | active same => exact .active (same.ofKey rfl rfl)
  | pending waiting => exact .pending waiting
  | rollPending waiting same => exact .rollPending waiting same
  | rollNew sameNew same => exact .rollNew sameNew same
  | rollOld same sameOld => exact .rollOld same sameOld

theorem followed (mirrors : Mirrors (some rc.keyState) entry)
    (distinct : rc.keyState.keyIds.Nodup) (step : KeyState.Step event rc.keyState state')
    (fits : event.Fits rc) (follows : Follows env event entry (some changed)) :
    Mirrors (some state') (some changed) := by
  generalize before : rc.keyState = state at mirrors distinct step
  cases follows with
  | @updated _ keys objects =>
    have kept : state' = state := by
      cases step <;> first | rfl | cases objects
    subst kept
    have each : ResourceClassObjects.EachSet (fun set set' => set'.signingCert = set.signingCert)
        ⟨keys⟩ ⟨keys.updateCurrent (event.onSet env)⟩ := by
      obtain set | ⟨new, set⟩ | ⟨set, old⟩ := keys
      · exact .current (event.onSet_frame env set).1
      · exact .staging rfl (event.onSet_frame env set).1
      · exact .old (event.onSet_frame env set).1 rfl
    exact mirrors.eachSet each id
  | added isNew =>
    obtain ⟨waiting, is, certifies⟩ := fits
    cases step with
    | pendingToActive => exact .active (.ofNew isNew certifies)
    | kept _ objects => cases objects
  | staged isNew =>
    obtain ⟨waiting, current, is, certifies⟩ := fits
    cases step with
    | pendingToNew =>
      cases mirrors with
      | rollPending _ same => exact .rollNew (.ofNew isNew certifies) same
    | kept _ objects => cases objects
  | activated =>
    cases step with
    | activated =>
      cases mirrors with
      | rollNew sameNew same => exact .rollOld sameNew (same.ofFrame rfl)
    | kept _ objects => cases objects
  | finished =>
    cases step with
    | finished =>
      cases mirrors with
      | rollOld same sameOld => exact .active same
    | kept _ objects => cases objects
  | received done =>
    obtain ⟨rfl, takes⟩ := fits
    rw [before] at takes
    have received := ResourceClassObjects.received_of_update done
    cases mirrors with
    | active same =>
      cases received with
      | current awaits =>
        cases step with
        | receivedActive => exact .active (same.received awaits)
        | kept _ objects => cases objects
    | rollPending waiting same =>
      cases received with
      | current awaits =>
        cases step with
        | receivedRollPending => exact .rollPending waiting (same.received awaits)
        | kept _ objects => cases objects
    | rollNew sameNew same =>
      cases received with
      | stagingNew awaits =>
        cases step with
        | receivedForNew => exact .rollNew (sameNew.received awaits) same
        | receivedRollNew other => exact absurd (sameNew.awaits_iff.mp awaits) other
        | kept _ objects => cases objects
      | staging other awaits =>
        cases step with
        | receivedForNew isNew => exact absurd (sameNew.awaits_iff.mpr isNew) other
        | receivedRollNew => exact .rollNew sameNew (same.received awaits)
        | kept _ objects => cases objects
    | @rollOld current old _ _ same sameOld =>
      have apart : current.keyId ≠ old.key.keyId := by
        intro equal
        exact (List.nodup_cons.mp distinct).1 (List.mem_singleton.mpr equal)
      cases received with
      | oldOld awaits =>
        exact absurd (takes.symm.trans (sameOld.awaits_iff.mp awaits).symm) apart
      | old other awaits =>
        cases step with
        | receivedRollOld => exact .rollOld (same.received awaits) sameOld
        | receivedForOld other => exact absurd takes.symm other
        | kept _ objects => cases objects

theorem movedFrom {before : Option ResourceClass} (mirrors : Mirrors (before.map keyState) entry)
    (repository repo : Option RepositoryContact) :
    Mirrors ((before.map fun rc => rc.movedFrom repository).map keyState)
      (entry.map fun rco => rco.movedFrom repo) := by
  have objects : Mirrors (before.map keyState) (entry.map fun rco => rco.movedFrom repo) := by
    cases entry with
    | none => exact mirrors
    | some rco =>
      cases repo with
      | none => exact mirrors
      | some old => exact mirrors.eachSet (rco.setOldRepo_eachSet old) fun same => by rw [same]; rfl
  cases before with
  | none => exact objects
  | some rc =>
    cases repository with
    | none => exact objects
    | some current => exact objects.setOldRepo current.repoInfo

end Mirrors

def classKeys : Option ResourceClass → List KeyIdentifier
  | none => []
  | some rc => rc.keyState.keyIds

/-- A class and its objects mirror each other, under keys that were drawn and are different
from each other. -/
structure ClassMirrored (known : Token → Prop) (before : Option ResourceClass)
    (entry : Option ResourceClassObjects) : Prop where
  mirrors : Mirrors (before.map keyState) entry
  distinct : (classKeys before).Nodup
  known : ∀ key ∈ classKeys before, known (.key key)

namespace ClassMirrored

open CaManager (withDrawn)

variable {known : Token → Prop}

theorem grows (mirrored : ClassMirrored known before entry)
    (grows : ∀ token, known token → more token) : ClassMirrored more before entry :=
  ⟨mirrored.mirrors, mirrored.distinct, fun key member => grows _ (mirrored.known key member)⟩

theorem ofSublist (mirrored : ClassMirrored known before entry) (after : Option ResourceClass)
    (fewer : (classKeys after).Sublist (classKeys before))
    (mirrors : Mirrors (after.map keyState) entry') (tokens : List Token) :
    ClassMirrored (withDrawn known tokens) after entry' :=
  ⟨mirrors, fewer.nodup mirrored.distinct, fun key member =>
    .inl (mirrored.known key (fewer.subset member))⟩

theorem ofCons (mirrored : ClassMirrored known before entry)
    (more : classKeys after = key :: classKeys before) (fresh : ¬known (.key key))
    (mirrors : Mirrors (after.map keyState) entry') :
    ClassMirrored (withDrawn known [.key key]) after entry' := by
  refine ⟨mirrors, ?_, ?_⟩
  · rw [more]
    exact List.nodup_cons.mpr ⟨fun member => fresh (mirrored.known key member), mirrored.distinct⟩
  · intro other member
    rw [more] at member
    obtain rfl | member := List.mem_cons.mp member
    · exact .inr (List.mem_singleton_self _)
    · exact .inl (mirrored.known other member)

theorem ofStep (mirrored : ClassMirrored known (some rc) entry) (fits : event.Fits rc)
    (step : KeyState.Step event rc.keyState changed.keyState)
    (fresh : ∀ token ∈ event.tokens cmd, ¬known token)
    (mirrors : Mirrors (some changed.keyState) entry') :
    ClassMirrored (withDrawn known (event.tokens cmd)) (some changed) entry' := by
  obtain fewer | ⟨key, drawn, more⟩ := step.keyIds fits cmd
  · exact mirrored.ofSublist (some changed) fewer mirrors _
  · rw [drawn] at fresh ⊢
    exact mirrored.ofCons more (fresh _ (List.mem_singleton_self _)) mirrors

theorem step (mirrored : ClassMirrored known before entry)
    (change : ClassEvent cmd later listening repository repo event rcn before entry after entry')
    (fresh : ∀ token ∈ event.tokens cmd, ¬known token) :
    ClassMirrored (withDrawn known (event.tokens cmd)) after entry' := by
  cases change with
  | followed targeted fits done follows =>
    have step := (CaEvtDet.onClass_spec done).2
    exact mirrored.ofStep fits step fresh
      (mirrored.mirrors.followed mirrored.distinct step fits follows)
  | @unpublished rc changed _ targeted unpublished fits done =>
    have step := (CaEvtDet.onClass_spec done).2
    refine mirrored.ofStep fits step fresh ?_
    have mirrors : Mirrors (some rc.keyState) entry := mirrored.mirrors
    generalize rc.keyState = state at step mirrors
    generalize changed.keyState = state' at step
    cases step with
    | requested => exact mirrors.addRequest _ _
    | pendingKeyAdded =>
      cases mirrors with
      | active same => exact .rollPending _ same
    | kept => exact mirrors
    | _ => cases unpublished
  | created drawn =>
    have nothing : Mirrors none entry := mirrored.mirrors
    cases nothing
    rw [drawn] at fresh ⊢
    exact mirrored.ofCons rfl (fresh _ (List.mem_singleton_self _)) (.pending _)
  | removed => exact ⟨.absent, .nil, List.forall_mem_nil _⟩
  | moved moves =>
    refine mirrored.ofSublist _ ?_ (mirrored.mirrors.movedFrom repository repo) _
    cases before with
    | none => exact .refl _
    | some rc =>
      cases repository with
      | none => exact .refl _
      | some current =>
        change (rc.keyState.setOldRepoIfInActiveState current.repoInfo).keyIds.Sublist _
        rw [KeyState.keyIds_setOldRepo]
        exact .refl _
  | @keyRevoked child key rc _ revokes =>
    exact mirrored.ofSublist (some (rc.keyRevoked key)) (.refl _) mirrored.mirrors _
  | same => exact mirrored.grows fun _ => .inl

end ClassMirrored

namespace CaManager

structure Mirrored (ca : CertAuth) (objects : CaObjects) (known : Token → Prop) : Prop where
  consistent : ca.Consistent
  classes : ∀ rcn, ClassMirrored known (ca.resources.get rcn) (objects.classes.get rcn)

theorem Mirrored.occurs {ca : CertAuth} {objects : CaObjects} (mirrored : Mirrored ca objects known)
    (occurs : Occurs cmd later listening known event ca next objects after) :
    Mirrored next after (withDrawn known (event.tokens cmd)) where
  consistent := mirrored.consistent.applyNext occurs.sound.orderly occurs.applied
  classes := fun rcn => (mirrored.classes rcn).step
    (occurs.classEvent mirrored.consistent rcn) occurs.fresh

end CaManager

end Krill.Ca
