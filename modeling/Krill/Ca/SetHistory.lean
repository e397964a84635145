import Krill.Ca.KeySimulation

namespace Krill.Ca

open Rpki
open CaManager (withDrawn)
open Stateful (Yields)
open ResourceClassObjects (received_of_update sets)

variable [Rpki]

namespace KeyObjectSet

def keyId (set : KeyObjectSet) : KeyIdentifier := set.signingCert.keyIdentifier

theorem keyId_onSet (set : KeyObjectSet) (env : Surroundings) (event : CaEvtDet) :
    (event.onSet env set).keyId = set.keyId := by
  unfold keyId
  rw [(event.onSet_frame env set).1]

theorem IsNew.keyId {set : KeyObjectSet} (isNew : set.IsNew key) :
    set.keyId = key.incomingCert.keyIdentifier := by
  unfold KeyObjectSet.keyId
  rw [isNew.signingCert]

theorem Touched.keyId {set : KeyObjectSet} (touched : set.Touched env event set') :
    set'.keyId = set.keyId := by
  cases touched with
  | kept => rfl
  | received awaits => exact Eq.symm awaits
  | updated objects => exact set.keyId_onSet env event
  | _ => rfl

end KeyObjectSet

def setsOf : Option ResourceClassObjects → List KeyObjectSet
  | none => []
  | some rco => rco.sets

theorem mem_setsOf {set : KeyObjectSet} :
    set ∈ setsOf entry ↔ ∃ rco, entry = some rco ∧ set ∈ rco.sets := by
  cases entry <;> simp [setsOf]

namespace ResourceClassObjects

theorem EachSet.flip (each : EachSet related before after) :
    EachSet (flip related) after before := by
  cases each with
  | current same => exact .current same
  | staging sameNew same => exact .staging sameNew same
  | old same sameOld => exact .old same sameOld

theorem EachSet.exists_after (each : EachSet related before after) {set : KeyObjectSet}
    (member : set ∈ before.sets) : ∃ set' ∈ after.sets, related set set' :=
  each.flip.exists_before member

theorem Received.eachSet (received : Received cert rco changed) :
    rco.EachSet (fun set set' => set'.keyId = set.keyId) changed := by
  cases received with
  | current awaits => exact .current (Eq.symm awaits)
  | stagingNew awaits => exact .staging (Eq.symm awaits) rfl
  | staging other awaits => exact .staging rfl (Eq.symm awaits)
  | oldOld awaits => exact .old rfl (Eq.symm awaits)
  | old other awaits => exact .old (Eq.symm awaits) rfl

end ResourceClassObjects

theorem Mirrors.keyIds_sublist (mirrors : Mirrors (before.map ResourceClass.keyState) entry) :
    ((setsOf entry).map KeyObjectSet.keyId).Sublist (classKeys before) := by
  cases before with
  | none =>
    cases mirrors
    exact .slnil
  | some rc =>
    have keys : classKeys (some rc) = rc.keyState.keyIds := rfl
    rw [keys]
    change Mirrors (some rc.keyState) entry at mirrors
    generalize rc.keyState = state at mirrors
    cases mirrors with
    | pending waiting => exact List.nil_sublist _
    | @active current set same =>
      have keyId : set.keyId = current.keyId := same.keyId
      simp [setsOf, sets, KeyState.keyIds, keyId]
    | @rollPending waiting current set same =>
      have keyId : set.keyId = current.keyId := same.keyId
      simp [setsOf, sets, KeyState.keyIds, keyId]
    | @rollNew new current newSet set sameNew same =>
      have keyId : set.keyId = current.keyId := same.keyId
      have newId : newSet.keyId = new.keyId := sameNew.keyId
      simp [setsOf, sets, KeyState.keyIds, keyId, newId]
    | @rollOld current old set oldSet same sameOld =>
      have keyId : set.keyId = current.keyId := same.keyId
      have oldId : oldSet.keyId = old.keyId := sameOld.keyId
      simp [setsOf, sets, KeyState.keyIds, keyId, oldId]

namespace ClassMirrored

variable {known : Token → Prop} {before : Option ResourceClass}
  {entry : Option ResourceClassObjects} (mirrored : ClassMirrored known before entry)

include mirrored

variable {set : KeyObjectSet}

theorem keyId_mem (member : set ∈ setsOf entry) : set.keyId ∈ classKeys before :=
  mirrored.mirrors.keyIds_sublist.subset (List.mem_map_of_mem member)

theorem keyId_known (member : set ∈ setsOf entry) : known (.key set.keyId) :=
  mirrored.known _ (mirrored.keyId_mem member)

theorem eq_of_keyId (member : set ∈ setsOf entry) (listed : other ∈ setsOf entry)
    (same : set.keyId = other.keyId) : set = other :=
  List.inj_on_of_nodup_map (mirrored.mirrors.keyIds_sublist.nodup mirrored.distinct) member
    listed same

end ClassMirrored

/-- The keys and sets of a class, before and after an event: keys are those that were there
or they are fresh, a set is one that was there or its key had none, and a key that stays keeps
its set. -/
structure Continues (env : Surroundings) (event : CaEvtDet) (known : Token → Prop)
    (before : Option ResourceClass) (entry : Option ResourceClassObjects)
    (after : Option ResourceClass) (entry' : Option ResourceClassObjects) : Prop where
  keys : ∀ key ∈ classKeys after, key ∈ classKeys before ∨ ¬known (.key key)
  sets : ∀ set' ∈ setsOf entry', (∃ set ∈ setsOf entry, set.Touched env event set') ∨
    set'.keyId ∈ classKeys before ∧ ∀ set ∈ setsOf entry, set.keyId ≠ set'.keyId
  stays : ∀ set ∈ setsOf entry, set.keyId ∈ classKeys after →
    ∃ set' ∈ setsOf entry', set'.keyId = set.keyId

namespace Continues

variable {event : CaEvtDet} {known : Token → Prop}

theorem ofSame (keys : ∀ key ∈ classKeys after, key ∈ classKeys before ∨ ¬known (.key key)) :
    Continues env event known before entry after entry where
  keys := keys
  sets := fun set' member => .inl ⟨set', member, .kept⟩
  stays := fun set member _ => ⟨set, member, rfl⟩

theorem keys_of_step (step : KeyState.Step event rc.keyState changed.keyState)
    (fits : event.Fits rc) (fresh : ∀ token ∈ event.tokens cmd, ¬known token) :
    ∀ key ∈ classKeys (some changed), key ∈ classKeys (some rc) ∨ ¬known (.key key) := by
  intro key member
  change key ∈ changed.keyState.keyIds at member
  obtain fewer | ⟨drawn, tokens, more⟩ := step.keyIds fits cmd
  · exact .inl (fewer.subset member)
  · rw [more] at member
    obtain rfl | member := List.mem_cons.mp member
    · refine .inr (fresh _ ?_)
      rw [tokens]
      exact List.mem_singleton_self _
    · exact .inl member

theorem unseen_of_newKey (mirrored : ClassMirrored known (some rc) entry) (fits : event.Fits rc)
    (made : event.newKey = some (rcn, key)) :
    key.incomingCert.keyIdentifier ∈ classKeys (some rc) ∧
      ∀ set ∈ setsOf entry, set.keyId ≠ key.incomingCert.keyIdentifier := by
  have mirrors : Mirrors (some rc.keyState) entry := mirrored.mirrors
  have distinct : rc.keyState.keyIds.Nodup := mirrored.distinct
  change _ ∈ rc.keyState.keyIds ∧ _
  cases event with
  | keyPendingToActive _ _ =>
    cases made
    obtain ⟨waiting, is, certifies⟩ := fits
    obtain ⟨cert, rfl⟩ := certifies.created
    rw [is] at mirrors ⊢
    cases mirrors
    refine ⟨?_, fun set member => absurd member List.not_mem_nil⟩
    exact List.mem_singleton.mpr certifies.keyId
  | keyPendingToNew _ _ =>
    cases made
    obtain ⟨waiting, current, is, certifies⟩ := fits
    obtain ⟨cert, rfl⟩ := certifies.created
    rw [is] at mirrors distinct ⊢
    cases mirrors with
    | rollPending _ same =>
      refine ⟨List.mem_cons.mpr (.inl certifies.keyId), fun set member sameKey => ?_⟩
      cases List.mem_singleton.mp member
      have clash : waiting.keyId = current.keyId :=
        certifies.keyId.symm.trans (sameKey.symm.trans same.keyId)
      simp [KeyState.keyIds, clash] at distinct
  | _ => cases made

theorem stays_of_follows (mirrored : ClassMirrored known (some rc) entry)
    (step : KeyState.Step event rc.keyState changed.keyState)
    (follows : Follows env event entry (some rco)) {set : KeyObjectSet}
    (member : set ∈ setsOf entry) (held : set.keyId ∈ classKeys (some changed)) :
    ∃ set' ∈ rco.sets, set'.keyId = set.keyId := by
  cases follows with
  | @updated _ keys objects =>
    have each : ResourceClassObjects.EachSet (fun set set' => set'.keyId = set.keyId)
        ⟨keys⟩ ⟨keys.updateCurrent (event.onSet env)⟩ := by
      obtain set | ⟨new, set⟩ | ⟨set, old⟩ := keys
      · exact .current (set.keyId_onSet env event)
      · exact .staging rfl (set.keyId_onSet env event)
      · exact .old (set.keyId_onSet env event) rfl
    exact each.exists_after member
  | added isNew => exact absurd member List.not_mem_nil
  | staged isNew =>
    cases List.mem_singleton.mp member
    exact ⟨_, List.mem_pair.mpr (.inr rfl), rfl⟩
  | activated =>
    obtain rfl | rfl := List.mem_pair.mp member
    · exact ⟨_, List.mem_pair.mpr (.inl rfl), rfl⟩
    · exact ⟨_, List.mem_pair.mpr (.inr rfl), rfl⟩
  | @finished rcn current old =>
    obtain rfl | rfl := List.mem_pair.mp member
    · exact ⟨_, List.mem_singleton_self _, rfl⟩
    · have mirrors : Mirrors (some rc.keyState) _ := mirrored.mirrors
      have distinct : rc.keyState.keyIds.Nodup := mirrored.distinct
      change _ ∈ changed.keyState.keyIds at held
      generalize rc.keyState = state at mirrors distinct step
      generalize changed.keyState = state' at held step
      cases mirrors with
      | @rollOld currentKey oldKey _ _ same sameOld =>
        have oldId : set.keyId = oldKey.keyId := sameOld.keyId
        cases step with
        | finished =>
          have clash := (List.mem_singleton.mp held).symm.trans oldId
          simp [KeyState.keyIds, clash] at distinct
        | kept _ objects => cases objects
  | received done =>
    exact (received_of_update done).eachSet.exists_after member

theorem ofClassEvent (mirrored : ClassMirrored known before entry)
    (change : ClassEvent cmd later env repository repo event rcn before entry after entry')
    (fresh : ∀ token ∈ event.tokens cmd, ¬known token) :
    Continues env event known before entry after entry' := by
  cases change with
  | followed targeted fits done follows =>
    have step := (CaEvtDet.onClass_spec done).2
    refine ⟨keys_of_step step fits fresh, fun set' member => ?_, fun set member held =>
      stays_of_follows mirrored step follows member held⟩
    cases follows.origin targeted member with
    | new made isNew =>
      rw [isNew.keyId]
      exact .inr (unseen_of_newKey mirrored fits made)
    | touched found listed touched =>
      exact .inl ⟨_, mem_setsOf.mpr ⟨_, found, listed⟩, touched⟩
  | unpublished targeted unpublished fits done =>
    exact ofSame (keys_of_step (CaEvtDet.onClass_spec done).2 fits fresh)
  | created drawn =>
    refine ofSame fun key member => .inr (fresh _ ?_)
    cases List.mem_singleton.mp member
    rw [drawn]
    exact List.mem_singleton_self _
  | removed =>
    exact ⟨List.forall_mem_nil _, List.forall_mem_nil _,
      fun _ _ held => absurd held List.not_mem_nil⟩
  | @moved contact _ _ moves =>
    have sameKeys : classKeys (before.map fun rc => rc.movedFrom repository) =
        classKeys before := by
      cases before with
      | none => rfl
      | some rc =>
        cases repository with
        | none => rfl
        | some current => exact rc.keyState.keyIds_setOldRepo current.repoInfo
    cases entry with
    | none =>
      exact ofSame fun key member => .inl (sameKeys ▸ member)
    | some rco =>
      cases repo with
      | none => exact ofSame fun key member => .inl (sameKeys ▸ member)
      | some old =>
        refine ⟨fun key member => .inl (sameKeys ▸ member), fun set' member => ?_,
          fun set member _ => ?_⟩
        · obtain ⟨set, listed, rfl⟩ := (rco.setOldRepo_eachSet old).exists_before member
          exact .inl ⟨set, listed, .moved moves⟩
        · obtain ⟨_, listed, rfl⟩ := (rco.setOldRepo_eachSet old).exists_after member
          exact ⟨_, listed, rfl⟩
  | _ => exact ofSame fun key member => .inl member

end Continues

/-- The sets of a class compared with earlier ones: sets for the same key are related, and a
key that has no set now had none. -/
structure Carried (related : KeyObjectSet → KeyObjectSet → Prop) (base : List KeyObjectSet)
    (known : Token → Prop) (before : Option ResourceClass) (entry : Option ResourceClassObjects) :
    Prop where
  known : ∀ earlier ∈ base, known (.key earlier.keyId)
  unseen : ∀ key ∈ classKeys before, (∀ set ∈ setsOf entry, set.keyId ≠ key) →
    ∀ earlier ∈ base, earlier.keyId ≠ key
  related : ∀ set ∈ setsOf entry, ∀ earlier ∈ base, earlier.keyId = set.keyId →
    related earlier set

namespace Carried

variable {related : KeyObjectSet → KeyObjectSet → Prop} {known : Token → Prop}

theorem refl (mirrored : ClassMirrored known before entry) (same : ∀ set, related set set) :
    Carried related (setsOf entry) known before entry where
  known := fun _ member => mirrored.keyId_known member
  unseen := fun _ _ missing => missing
  related := fun set member earlier listed sameKey => by
    rw [mirrored.eq_of_keyId listed member sameKey]
    exact same set

theorem grows (carried : Carried related base known before entry)
    (grows : ∀ token, known token → more token) : Carried related base more before entry :=
  ⟨fun earlier member => grows _ (carried.known earlier member), carried.unseen, carried.related⟩

theorem mono (carried : Carried related base known before entry)
    (weaken : ∀ {earlier set}, set ∈ setsOf entry → related earlier set → weaker earlier set) :
    Carried weaker base known before entry :=
  ⟨carried.known, carried.unseen, fun set member earlier listed sameKey =>
    weaken member (carried.related set member earlier listed sameKey)⟩

theorem continues (carried : Carried related base known before entry)
    (continues : Continues env event known before entry after entry')
    (touches : ∀ {earlier set set'}, related earlier set → set.Touched env event set' →
      related earlier set') : Carried related base (withDrawn known tokens) after entry' where
  known := fun earlier member => .inl (carried.known earlier member)
  unseen := by
    intro key held missing earlier member same
    obtain wasHeld | fresh := continues.keys key held
    · refine carried.unseen key wasHeld (fun set listed sameKey => ?_) earlier member same
      subst sameKey
      obtain ⟨set', present, sameKey⟩ := continues.stays set listed held
      exact missing set' present sameKey
    · exact fresh (same ▸ carried.known earlier member)
  related := by
    intro set' member earlier listed same
    obtain ⟨set, present, touched⟩ | ⟨wasHeld, missing⟩ := continues.sets set' member
    · exact touches (carried.related set present earlier listed (same.trans touched.keyId)) touched
    · exact absurd same (carried.unseen _ wasHeld missing earlier listed)

theorem eachSet (carried : Carried related base known before entry)
    (paired : Option.Rel (ResourceClassObjects.EachSet step) entry entry')
    (sameKey : ∀ {set set'}, step set set' → set'.keyId = set.keyId)
    (steps : ∀ {earlier set set'}, set ∈ setsOf entry → related earlier set → step set set' →
      later earlier set') : Carried later base known before entry' := by
  cases paired with
  | none =>
    exact ⟨carried.known, carried.unseen, List.forall_mem_nil _⟩
  | some each =>
    refine ⟨carried.known, fun key held missing => ?_, fun set' member earlier listed same => ?_⟩
    · refine carried.unseen key held fun set present wrong => ?_
      obtain ⟨set', member, done⟩ := each.exists_after present
      exact missing set' member ((sameKey done).trans wrong)
    · obtain ⟨set, present, done⟩ := each.exists_before member
      exact steps present
        (carried.related set present earlier listed (same.trans (sameKey done))) done

end Carried

theorem KeyObjectSet.reissue_yields [KrillSigner] {set : KeyObjectSet}
    (yields : Yields (set.reissue env timing) after) :
    ∃ manifest crl, manifest.expires = timing.publishNext env ∧ after = { set with
        revision := set.revision.next env timing
        revocations := Revocations.purge set.revocations env.now
        manifest := manifest
        crl := crl } := by
  obtain ⟨crl, _, yields⟩ := yields.bind
  obtain ⟨manifest, built, returned⟩ := yields.bind
  refine ⟨manifest, crl, ?_, returned.pure⟩
  obtain ⟨serial, _, built⟩ := built.bind
  obtain ⟨base64, _, made⟩ := built.bind
  cases made.pure
  rfl

namespace CaManager

variable [KrillSigner] {manager : CaManager}

def CarriedAll (related : ResourceClassName → KeyObjectSet → KeyObjectSet → Prop)
    (base : ResourceClassName → List KeyObjectSet) (ca : CertAuth) (objects : CaObjects)
    (known : Token → Prop) : Prop :=
  ∀ rcn, Carried (related rcn) (base rcn) known (ca.resources.get rcn) (objects.classes.get rcn)

theorem Commanded.carried (laws : SignerLaws given) {ca : CertAuth}
    (commanded : manager.Commanded env later listening cmd events used ca middle)
    (mirrored : Mirrored manager.ca manager.objects (given manager.signer))
    (carried : CarriedAll related base manager.ca manager.objects (given manager.signer))
    (touches : ∀ {rcn event earlier set set'}, related rcn earlier set →
      set.Touched listening event set' → related rcn earlier set') :
    CarriedAll related base ca middle (given used) :=
  (commanded.holdsByEvents laws mirrored (CarriedAll related base) carried
    (fun _ mirrored carried occurs rcn => (carried rcn).continues
      (.ofClassEvent (mirrored.classes rcn) (occurs.classEvent mirrored.consistent rcn)
        occurs.fresh) touches)
    (fun carried grows rcn => (carried rcn).grows grows)).2

theorem CarriedAll.reIssue {ca : CertAuth} {objects after : CaObjects}
    {later : ResourceClassName → KeyObjectSet → KeyObjectSet → Prop}
    (carried : CarriedAll related base ca objects known)
    (yields : Yields (objects.reIssue env force timing) after)
    (keeps : ∀ {rcn earlier set}, related rcn earlier set → later rcn earlier set)
    (reissues : ∀ {rcn rco earlier set set'}, objects.classes.get rcn = some rco →
      (force || rco.requiresReIssuance env.now timing.timingPublishHoursBeforeNext) = true →
      set ∈ rco.sets → related rcn earlier set → Yields (set.reissue env timing) set' →
      later rcn earlier set') : CarriedAll later base ca after known := by
  intro rcn
  have carried := carried rcn
  have reissued := CaObjects.yields_reIssue yields rcn
  generalize found : objects.classes.get rcn = entry at carried reissued
  generalize after.classes.get rcn = entry' at reissued ⊢
  cases reissued with
  | none => exact carried.mono fun _ => keeps
  | @some rco rco' reissued =>
    unfold ResourceClassObjects.Reissued at reissued
    split at reissued
    case isTrue due =>
      refine carried.eachSet (.some reissued) (fun made => ?_) fun member held made =>
        reissues found due member held made
      obtain ⟨_, _, _, rfl⟩ := KeyObjectSet.reissue_yields made
      rfl
    case isFalse early =>
      subst reissued
      exact carried.mono fun _ => keeps

end CaManager

end Krill.Ca
