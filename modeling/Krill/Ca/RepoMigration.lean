import Krill.Ca.DeprecatedRepos
import Krill.Ca.KeySimulation

namespace Krill.Ca

open Rpki KrillSigner
open Stateful (Yields)
open CertAuth

variable [Rpki]

namespace KeyState

def certifiedKeys : KeyState → List CertifiedKey
  | .pending _ => []
  | .active current | .rollPending _ current => [current]
  | .rollNew new current => [new, current]
  | .rollOld current old => [current, old.key]

def Unmoved (state : KeyState) : Prop := ∀ key ∈ state.certifiedKeys, key.oldRepo = none

variable {state : KeyState}

theorem Unmoved.addRequest (unmoved : state.Unmoved) (key : KeyIdentifier)
    (request : IssuanceRequest) : (state.addRequest key request).Unmoved := by
  unfold KeyState.addRequest
  cases state with
  | pending => exact unmoved
  | _ =>
    dsimp only
    try split
    all_goals
      simpa [Unmoved, certifiedKeys, CertifiedKey.addRequest, OldKey.addRequest] using unmoved

theorem Step.unmoved (step : Step event rc.keyState state) (fits : event.Fits rc)
    (unmoved : rc.keyState.Unmoved) : state.Unmoved := by
  generalize rc.keyState = before at step unmoved
  cases step with
  | requested => exact unmoved.addRequest _ _
  | pendingToNew =>
    obtain ⟨_, _, _, ⟨cert, rfl⟩, _⟩ := fits
    simpa [Unmoved, certifiedKeys, CertifiedKey.create] using unmoved
  | pendingToActive =>
    obtain ⟨_, _, ⟨cert, rfl⟩, _⟩ := fits
    simp [Unmoved, certifiedKeys, CertifiedKey.create]
  | finished =>
    simp only [Unmoved, certifiedKeys, List.forall_mem_cons] at unmoved ⊢
    exact ⟨unmoved.1, List.forall_mem_nil _⟩
  | _ =>
    simpa [Unmoved, certifiedKeys, CertifiedKey.setIncomingCert, OldKey.setIncomingCert]
      using unmoved

theorem Unmoved.keysForRequests (unmoved : state.Unmoved)
    (listed : (repo, key) ∈ state.keysForRequests env entitlement baseRepo) : repo = baseRepo := by
  cases state <;>
    simp only [Unmoved, certifiedKeys, List.mem_cons, List.not_mem_nil, or_false,
      forall_eq_or_imp, forall_eq] at unmoved <;>
    simp only [KeyState.keysForRequests] at listed <;>
    grind

end KeyState

theorem Mirrors.exists_set (mirrors : Mirrors (some state) entry)
    (certified : key ∈ state.certifiedKeys) :
    ∃ rco, entry = some rco ∧ ∃ set ∈ rco.sets, set.IsFor key := by
  cases mirrors with
  | pending => cases certified
  | active same | rollPending _ same =>
    cases List.mem_singleton.mp certified
    exact ⟨_, rfl, _, List.mem_singleton_self _, same⟩
  | rollNew first second | rollOld first second =>
    obtain rfl | rfl := List.mem_pair.mp certified
    · exact ⟨_, rfl, _, List.mem_pair.mpr (.inl rfl), first⟩
    · exact ⟨_, rfl, _, List.mem_pair.mpr (.inr rfl), second⟩

def CertAuth.repoFor (self : CertAuth) (key : CertifiedKey) : Option RepoInfo :=
  key.oldRepo.or (self.repository.map RepositoryContact.repoInfo)

def CaObjects.repoFor (self : CaObjects) (set : KeyObjectSet) : Option RepoInfo :=
  (set.oldRepo.or self.repo).map RepositoryContact.repoInfo

variable [KrillSigner]

theorem CertAuth.rolling_of_rolls {ca : CertAuth} (consistent : ca.Consistent)
    (known : ca.repository = some existing) (yields : Yields (ca.rollsForRepo env contact) rolls)
    (applied : ca.applyNextAll later rolls = some middle)
    (found : middle.resources.get rcn = some rc) :
    ∃ before current waiting, ca.resources.get rcn = some before ∧
      before.keyState = .active current ∧ rc.keyState = .rollPending waiting current := by
  have run := classRun_of_plain (rollsForRepo_ordered consistent yields).plain applied rcn
  unfold rollsForRepo at yields
  rw [known] at yields
  obtain ⟨_, yields⟩ := Yields.guarded yields
  obtain ⟨_, each⟩ := forEachClass_about yields fun rcn rc own present yielded => by
    obtain ⟨_, yielded⟩ := Yields.guarded yielded
    exact ((initiate_group consistent (.inr ⟨contact, rfl⟩) present yielded).2 env).about
  rw [found] at run
  cases present : ca.resources.get rcn with
  | none =>
    rw [present] at run
    cases run
  | some before =>
    rw [present] at run
    have rolled := each rcn before present
    generalize CaEvtDet.about rcn rolls = own at run rolled
    obtain ⟨possible, rolled⟩ := Yields.guarded rolled
    unfold ResourceClass.keyRollPossible at possible
    unfold ResourceClass.keyrollInitiate KeyState.keyrollInitiate at rolled
    cases run with
    | changed done =>
      cases state : before.keyState with
      | active current =>
        rw [state] at rolled
        obtain ⟨key, _, rolled⟩ := (show Yields _ own from rolled).bind
        obtain ⟨request, _, rolled⟩ := rolled.bind
        cases rolled.pure
        obtain ⟨between, first, second⟩ := CaEvtDet.onClassAll_cons.mp done
        rw [CaEvtDet.onClass, ResourceClass.pendingKeyIdAdded, state] at first
        cases first
        cases second
        exact ⟨before, current, (PendingKey.new key).addRequest request, rfl, state, if_pos rfl⟩
      | _ =>
        rw [state] at possible
        exact absurd rfl possible

namespace CaManager

/-- No key moved, and sets in an old repository are in one with the URIs of the current. -/
structure InOneRepo (ca : CertAuth) (objects : CaObjects) : Prop where
  unmoved : ∀ {rcn rc}, ca.resources.get rcn = some rc → rc.keyState.Unmoved
  old : ∀ {repo}, objects.IsOldRepo repo →
    ca.repository.map RepositoryContact.repoInfo = some repo.repoInfo

variable {ca : CertAuth} {objects : CaObjects}

omit [KrillSigner] in
theorem InOneRepo.occurs (held : InOneRepo ca objects) (consistent : ca.Consistent)
    (stays : event.newRepository = none)
    (occurs : Occurs cmd later listening known event ca next objects after) :
    InOneRepo next after := by
  refine ⟨fun {rcn rc} found => ?_, fun isOld => ?_⟩
  · have unmoved : ∀ rc, ca.resources.get rcn = some rc → rc.keyState.Unmoved :=
      fun _ => held.unmoved
    have event := occurs.classEvent consistent rcn
    rw [found] at event
    generalize ca.resources.get rcn = before at unmoved event
    generalize objects.classes.get rcn = entry at event
    generalize after.classes.get rcn = entry' at event
    generalize same : some rc = after at event
    cases event with
    | followed _ fits done _ =>
      cases same
      exact (CaEvtDet.onClass_spec done).2.unmoved fits (unmoved _ rfl)
    | unpublished _ _ fits done =>
      cases same
      exact (CaEvtDet.onClass_spec done).2.unmoved fits (unmoved _ rfl)
    | created =>
      cases same
      exact List.forall_mem_nil _
    | removed => cases same
    | moved moves =>
      subst moves
      cases stays
    | @keyRevoked _ _ rc =>
      cases same
      exact unmoved rc rfl
    | same => exact unmoved _ same.symm
  · rw [repository_of_apply occurs.applied, stays]
    exact held.old (CaObjects.isOldRepo_of_listened stays occurs.listened isOld)

variable {given : Signer → Token → Prop} {manager : CaManager}

/-- A CA that has classes moves only to a repository with the same URIs. -/
def KeepsUris (manager : CaManager) (action : Action) : Prop :=
  ∀ contact ∈ action.newRepository, ∀ existing ∈ manager.ca.repository,
    existing.repoInfo = contact.repoInfo ∨ manager.ca.resources.isEmpty

instance (manager : CaManager) (action : Action) : Decidable (KeepsUris manager action) :=
  inferInstanceAs (Decidable (∀ contact ∈ action.newRepository, _))

theorem InOneRepo.updateRepo {env : Surroundings} (held : InOneRepo manager.ca manager.objects)
    (consistent : manager.ca.Consistent) (same : SameRepo manager.ca manager.objects)
    (absent : manager.ca.resources.isEmpty → ∀ rcn, manager.objects.classes.get rcn = none)
    (met : ∀ existing ∈ manager.ca.repository,
      existing.repoInfo = contact.repoInfo ∨ manager.ca.resources.isEmpty)
    (done : manager.Commanded env later listening (.repoUpdate contact) events used next after) :
    InOneRepo next after := by
  obtain ⟨rolls, between, rolled, rolling, moved, rfl⟩ := done.updateRepo
  have stays := repository_of_plainAll
    (rollsForRepo_ordered consistent rolled).plain rolling
  refine ⟨fun {rcn rc} found => ?_, fun {repo} isOld => ?_⟩
  · cases effect_of_apply moved with
    | repoUpdated classes _ _ _ =>
      rw [classes] at found
      obtain ⟨turned, present, turns⟩ := Option.map_eq_some_iff.mp found
      dsimp only at turns
      rw [stays] at turns
      cases known : manager.ca.repository with
      | none =>
        unfold rollsForRepo at rolled
        rw [known] at turns rolled
        cases rolled.pure
        cases rolling
        subst turns
        exact held.unmoved present
      | some existing =>
        rw [known] at turns
        subst turns
        obtain ⟨before, current, waiting, was, active, pending⟩ :=
          rolling_of_rolls consistent known rolled rolling present
        have unmoved := held.unmoved was
        change (turned.keyState.setOldRepoIfInActiveState _).Unmoved
        rw [pending]
        rw [active] at unmoved
        exact unmoved
    | onClass targeted => cases targeted
    | childChanged unpublished => cases unpublished
    | other unpublished => cases unpublished
  · rw [repository_of_apply moved]
    obtain current | ⟨none_yet, wasOld⟩ := CaObjects.isOldRepo_updateRepo isOld
    · obtain keeps | nothing := met repo (same ▸ current)
      · exact congrArg some keeps.symm
      · obtain ⟨rcn, rco, found, _⟩ := isOld
        rw [CaObjects.get_updateRepo, absent nothing rcn] at found
        cases found
    · have known := held.old wasOld
      rw [← same, none_yet] at known
      cases known

theorem Runs.inOneRepo (laws : SignerLaws given) (runs : Runs given KeepsUris manager) :
    InOneRepo manager.ca manager.objects := by
  refine Runs.holds .trivially (fun ca objects _ => InOneRepo ca objects) ?_ ?_ ?_ ?_
    (fun held _ => held) runs
  · refine fun handle _ _ => ⟨fun {rcn rc} found => ?_, fun ⟨rcn, _, found, _⟩ => ?_⟩ <;>
      cases (HashMap.get_empty rcn).symm.trans found
  · intro manager env later listening cmd events used ca middle runs held met done
    have mirrored := runs.mirrored laws
    by_cases moves : ∃ contact, cmd = .repoUpdate contact
    · obtain ⟨contact, rfl⟩ := moves
      refine held.updateRepo mirrored.consistent runs.sameRepo (fun nothing rcn => ?_)
        (met contact rfl) done
      have mirrors := (mirrored.classes rcn).mirrors
      rw [HashMap.isEmpty_iff.mp nothing rcn] at mirrors
      generalize manager.objects.classes.get rcn = entry at mirrors ⊢
      cases mirrors
      rfl
    · obtain ⟨stored, accepted, rfl⟩ := done.accepted
      have stays := newRepository_of_command mirrored.consistent
        ⟨_, _, accepted⟩ fun contact same => moves ⟨contact, same⟩
      refine (done.holdsByEvents laws mirrored (fun ca objects _ => InOneRepo ca objects) held
        (fun {_ event _ _ _ _ _} position mirrored held occurs => ?_) fun held _ => held).2
      obtain ⟨rest, split⟩ := position.split
      exact held.occurs mirrored.consistent (stays event (by simp [split])) occurs
  · intro ca before after _ now held renewed
    exact ⟨held.unmoved, fun isOld => held.old (CaObjects.isOldRepo_of_renewed renewed isOld)⟩
  · intro ca before after _ held cleaned
    exact ⟨held.unmoved, fun isOld => held.old (CaObjects.isOldRepo_of_cleaned cleaned isOld)⟩

/-- As long as a CA with classes moves only between repositories with the same URIs, it takes
every key to publish where the objects of the key are published, and its requests say so. -/
theorem key_repositories_agree (laws : SignerLaws given) (runs : Runs given KeepsUris manager)
    {rcn : ResourceClassName} {rc : ResourceClass}
    (found : manager.ca.resources.get rcn = some rc) {key : CertifiedKey}
    (certified : key ∈ rc.keyState.certifiedKeys) :
    ∃ rco, manager.objects.classes.get rcn = some rco ∧ (∃ set ∈ rco.sets, set.IsFor key) ∧
      ∀ set ∈ rco.sets, set.IsFor key →
        manager.objects.repoFor set = manager.ca.repoFor key ∧
        ∀ env entitlement contact repo, manager.ca.repository = some contact →
          (repo, key.keyId) ∈ rc.keyState.keysForRequests env entitlement contact.repoInfo →
          manager.objects.repoFor set = some repo := by
  have held := runs.inOneRepo laws
  have unmoved := held.unmoved found
  have mirrors := ((runs.mirrored laws).classes rcn).mirrors
  rw [found] at mirrors
  obtain ⟨rco, published, set, member, isFor⟩ := mirrors.exists_set certified
  have here : ∀ set ∈ rco.sets, manager.objects.repoFor set =
      manager.ca.repository.map RepositoryContact.repoInfo := by
    intro set member
    unfold CaObjects.repoFor
    cases moved : set.oldRepo with
    | none => exact congrArg _ runs.sameRepo
    | some old => exact (held.old ⟨rcn, rco, published, set, member, moved⟩).symm
  refine ⟨rco, published, ⟨set, member, isFor⟩, fun set member _ => ⟨?_, ?_⟩⟩
  · rw [here set member, repoFor, unmoved key certified, Option.none_or]
  · intro env entitlement contact repo known listed
    rw [here set member, known, unmoved.keysForRequests listed]
    rfl

end CaManager

end Krill.Ca

namespace Krill.Ca.Numbered

open CaManager

def rehosted : CaManager :=
  (daemon.sendCommands KeepsUris
    (atOnce (enrol ++ [.repoUpdate { contact 0 with serverInfo := (1 : Nat) }]))).get (by decide +kernel)

/-- The key 0, under the certificate that the CA enrolled with. -/
def firstKey : CertifiedKey := .create (received 0 7)

theorem rehosted_key_agrees : ∃ rco set, rehosted.objects.classes.get "0" = some rco ∧
    set ∈ rco.sets ∧ rehosted.objects.repoFor set = rehosted.ca.repoFor firstKey := by
  have runs : Runs counted KeepsUris rehosted :=
    daemon_runs.sendCommands counted_laws (Option.some_get _).symm
  have found : rehosted.ca.resources.get "0" =
      some ((rehosted.ca.resources.get "0").get (by decide +kernel)) := (Option.some_get _).symm
  obtain ⟨rco, published, ⟨set, member, isFor⟩, agree⟩ :=
    key_repositories_agree counted_laws runs found
      (show firstKey ∈ _ by decide +kernel)
  exact ⟨rco, set, published, member, (agree set member isFor).1⟩

def moving : CaManager :=
  (daemon.sendCommands (fun _ _ => True)
    (atOnce (enrol ++ [.repoUpdate (contact 1)]))).get (by decide +kernel)

def movingObjects : ResourceClassObjects :=
  (moving.objects.classes.get "0").get (by decide +kernel)

theorem moving_key_disagrees : ∃ (manager : CaManager) (rc : ResourceClass) (key : CertifiedKey)
      (rco : ResourceClassObjects) (set : KeyObjectSet),
    Runs counted (fun _ _ => True) manager ∧ manager.ca.resources.get "0" = some rc ∧
      key ∈ rc.keyState.certifiedKeys ∧ manager.objects.classes.get "0" = some rco ∧
      set ∈ rco.sets ∧ set.IsFor key ∧
      manager.objects.repoFor set ≠ manager.ca.repoFor key :=
  ⟨moving, (moving.ca.resources.get "0").get (by decide +kernel), firstKey, movingObjects,
    movingObjects.sets.head (by decide +kernel),
    daemon_runs.sendCommands counted_laws (Option.some_get _).symm, (Option.some_get _).symm,
    by decide +kernel, (Option.some_get _).symm, List.head_mem _,
    ⟨by decide +kernel, by decide +kernel⟩, by decide +kernel⟩

end Krill.Ca.Numbered
