import Krill.Ca.CaManager
import Krill.Ca.NoPanic
import Krill.Ca.SetEdits

namespace Krill.Ca

open KrillSigner
open Stateful (Yields)

variable [Rpki]

namespace CaObjects

/-- A set of objects is published in this repository, which is not the current one. -/
def IsOldRepo (objects : CaObjects) (repo : RepositoryContact) : Prop :=
  ∃ rcn rco, objects.classes.get rcn = some rco ∧ ∃ set ∈ rco.sets, set.oldRepo = some repo

variable {objects : CaObjects} {repo : RepositoryContact}

theorem hasOldRepo_iff : objects.hasOldRepo repo = true ↔ objects.IsOldRepo repo := by
  unfold hasOldRepo HashMap.values IsOldRepo
  rw [List.any_eq_true]
  constructor
  · rintro ⟨rco, listed, has⟩
    obtain ⟨⟨rcn, _⟩, entry, rfl⟩ := List.mem_map.mp listed
    exact ⟨rcn, _, HashMap.mem_entries.mp entry, ResourceClassObjects.hasOldRepo_iff.mp has⟩
  · rintro ⟨rcn, rco, found, has⟩
    exact ⟨rco, List.mem_map.mpr ⟨(rcn, rco), HashMap.mem_entries.mpr found, rfl⟩,
      ResourceClassObjects.hasOldRepo_iff.mpr has⟩

/-- No repository in use is to be cleaned, and sets in an old repository are in another one
than the current. -/
structure Separate (objects : CaObjects) : Prop where
  deprecated : ∀ deprecated ∈ objects.deprecatedRepos,
    objects.repo ≠ some deprecated.contact ∧ ¬objects.IsOldRepo deprecated.contact
  old : ∀ {repo}, objects.IsOldRepo repo → ∃ current, objects.repo = some current ∧
    current ≠ repo

theorem new_separate (ca : CaHandle) : (CaObjects.new ca).Separate where
  deprecated := List.forall_mem_nil _
  old := fun ⟨rcn, _, found, _⟩ => by cases (HashMap.get_empty rcn).symm.trans found

theorem Separate.deprecate (separate : objects.Separate) (fewer : CaObjects)
    (repo : fewer.repo = objects.repo)
    (deprecated : fewer.deprecatedRepos = objects.deprecatedRepos)
    (old : ∀ {repo}, fewer.IsOldRepo repo → objects.IsOldRepo repo)
    (released : Option RepositoryContact)
    (wasOld : ∀ repo, released = some repo → objects.IsOldRepo repo) :
    (fewer.deprecateRepoIfNoLongerUsed released).Separate := by
  have kept : fewer.Separate := by
    refine ⟨fun listed member => ?_, fun isOld => repo ▸ separate.old (old isOld)⟩
    rw [deprecated] at member
    obtain ⟨notCurrent, notOld⟩ := separate.deprecated listed member
    exact ⟨repo ▸ notCurrent, fun isOld => notOld (old isOld)⟩
  unfold deprecateRepoIfNoLongerUsed
  cases released with
  | none => exact kept
  | some gone =>
    dsimp only
    by_cases used : fewer.hasOldRepo gone
    · rw [if_pos used]
      exact kept
    · rw [if_neg used]
      refine ⟨fun listed member => ?_, kept.old⟩
      obtain before | added := List.mem_append.mp member
      · exact kept.deprecated listed before
      · cases List.mem_singleton.mp added
        obtain ⟨current, is, other⟩ := separate.old (wasOld gone rfl)
        refine ⟨?_, fun isOld => used (hasOldRepo_iff.mpr isOld)⟩
        change fewer.repo ≠ some gone
        rw [repo, is]
        exact fun same => other (Option.some.inj same)

variable {event : CaEvtDet}

theorem released_isOldRepo (released : event.released (objects.classes.get rcn) = some repo) :
    objects.IsOldRepo repo := by
  cases event with
  | keyRollFinished =>
    cases found : objects.classes.get rcn with
    | none => rw [found] at released; cases released
    | some rco =>
      rw [found] at released
      obtain ⟨set | ⟨new, set⟩ | ⟨set, old⟩⟩ := rco
      · cases released
      · cases released
      · exact ⟨rcn, _, found, old, List.mem_pair.mpr (.inr rfl), released⟩
  | _ => cases released

theorem isOldRepo_of_listened (stays : event.newRepository = none)
    (listened : Listened env objects event next) (isOld : next.IsOldRepo repo) :
    objects.IsOldRepo repo := by
  obtain ⟨rcn, rco, found, set, member, moved⟩ := isOld
  exact ⟨rcn, (listened.origin found member).oldRepo stays moved⟩

theorem isOldRepo_deprecate :
    (objects.deprecateRepoIfNoLongerUsed released).IsOldRepo repo ↔ objects.IsOldRepo repo := by
  unfold IsOldRepo
  rw [classes_deprecate]

theorem Separate.listened (separate : objects.Separate) (stays : event.newRepository = none)
    (listened : Listened env objects event next) : next.Separate := by
  have old {repo : RepositoryContact} (isOld : next.IsOldRepo repo) : objects.IsOldRepo repo :=
    isOldRepo_of_listened stays listened isOld
  cases listened with
  | @followed rcn _ changed targeted follows =>
    exact separate.deprecate (objects.setClass rcn changed) rfl rfl
      (fun isOld => old (isOldRepo_deprecate.mpr isOld)) _
      fun _ released => released_isOldRepo released
  | @removed rcn _ _ =>
    refine separate.deprecate { objects with classes := objects.classes.remove rcn } rfl rfl
      (fun isOld => old (isOldRepo_deprecate.mpr isOld)) _ fun repo released => ?_
    obtain ⟨rco, found, old⟩ := Option.bind_eq_some_iff.mp released
    exact ⟨rcn, rco, found, ResourceClassObjects.oldRepo_eq_some old⟩
  | moved => cases stays
  | ignored => exact separate

theorem isOldRepo_updateRepo (isOld : (objects.updateRepo contact).IsOldRepo repo) :
    objects.repo = some repo ∨ objects.repo = none ∧ objects.IsOldRepo repo := by
  obtain ⟨rcn, rco, found, set, member, moved⟩ := isOld
  rw [get_updateRepo] at found
  obtain ⟨before, present, same⟩ := Option.map_eq_some_iff.mp found
  cases current : objects.repo with
  | none =>
    rw [current] at same
    dsimp only at same
    subst same
    exact .inr ⟨rfl, rcn, before, present, set, member, moved⟩
  | some left =>
    rw [current] at same
    dsimp only at same
    subst same
    obtain ⟨earlier, _, rfl⟩ := (before.setOldRepo_eachSet left).exists_before member
    exact .inl moved

theorem Separate.updateRepo (separate : objects.Separate) (leaves : objects.repo ≠ some contact)
    (unused : ∀ deprecated ∈ objects.deprecatedRepos, deprecated.contact ≠ contact) :
    (objects.updateRepo contact).Separate := by
  have old {repo : RepositoryContact} (isOld : (objects.updateRepo contact).IsOldRepo repo) :
      objects.repo = some repo := by
    obtain current | ⟨none_yet, wasOld⟩ := isOldRepo_updateRepo isOld
    · exact current
    · obtain ⟨_, is, _⟩ := separate.old wasOld
      cases none_yet.symm.trans is
  refine ⟨fun deprecated member => ⟨fun same => ?_, fun isOld => ?_⟩, fun isOld => ?_⟩
  · exact unused deprecated member (Option.some.inj same).symm
  · exact (separate.deprecated deprecated member).1 (old isOld)
  · exact ⟨contact, rfl, fun same => leaves (same ▸ old isOld)⟩

variable {before : CaObjects}

theorem isOldRepo_of_renewed (renewed : before.Renewed now after) (isOld : after.IsOldRepo repo) :
    before.IsOldRepo repo := by
  obtain ⟨rcn, rco, found, set, member, moved⟩ := isOld
  have paired := renewed.classes rcn
  rw [found] at paired
  generalize present : before.classes.get rcn = entry at paired
  cases paired with
  | some each =>
    obtain ⟨earlier, listed, same⟩ := each.exists_before member
    exact ⟨rcn, _, present, earlier, listed, same.oldRepo.symm.trans moved⟩

theorem isOldRepo_of_cleaned (cleaned : CaManager.Cleaned before after)
    (isOld : after.IsOldRepo repo) : before.IsOldRepo repo := by
  obtain ⟨rcn, rco, found, isOld⟩ := isOld
  exact ⟨rcn, rco, cleaned.classes ▸ found, isOld⟩

theorem Separate.renewed (separate : before.Separate) (renewed : before.Renewed now after) :
    after.Separate :=
  separate.deprecate after renewed.repo renewed.deprecatedRepos
    (isOldRepo_of_renewed renewed) none nofun

theorem Separate.cleaned (separate : before.Separate)
    (cleaned : CaManager.Cleaned before after) : after.Separate := by
  have old {repo : RepositoryContact} (isOld : after.IsOldRepo repo) : before.IsOldRepo repo :=
    isOldRepo_of_cleaned cleaned isOld
  refine ⟨fun deprecated member => ?_, fun isOld => cleaned.repo ▸ separate.old (old isOld)⟩
  obtain ⟨known, listed, same⟩ := cleaned.deprecatedRepos deprecated member
  obtain ⟨notCurrent, notOld⟩ := separate.deprecated known listed
  rw [same, cleaned.repo]
  exact ⟨notCurrent, fun isOld => notOld (old isOld)⟩

theorem Separate.listenedAll (separate : objects.Separate)
    (stays : ∀ event ∈ events, event.newRepository = none)
    (listened : ListenedAll env events objects last) : last.Separate := by
  induction listened with
  | nil => exact separate
  | cons first _ induction =>
    obtain ⟨here, later⟩ := List.forall_mem_cons.mp stays
    exact induction (separate.listened here first) later

end CaObjects

variable [KrillSigner]

namespace CaManager

def SameRepo (ca : CertAuth) (objects : CaObjects) : Prop := objects.repo = ca.repository

omit [KrillSigner] in
theorem sameRepo_of_events {ca : CertAuth} {objects : CaObjects} (same : SameRepo ca objects)
    (applied : ca.applyNextAll later events = some last)
    (listened : CaObjects.ListenedAll listening events objects middle) : SameRepo last middle := by
  induction listened generalizing ca with
  | nil => cases applied; exact same
  | @cons objects event next rest last first _ induction =>
    obtain ⟨after, done, finished⟩ := CertAuth.applyNextAll_cons.mp applied
    refine induction ?_ finished
    unfold SameRepo
    rw [first.repo, CertAuth.repository_of_apply done]
    exact congrArg _ same

variable {given : Signer → Token → Prop} {manager : CaManager}

theorem Runs.sameRepo (runs : Runs given meets manager) : SameRepo manager.ca manager.objects :=
  Runs.holds .trivially (fun ca objects _ => SameRepo ca objects) (fun _ _ _ => rfl)
    (fun _ same _ done => sameRepo_of_events same done.applied done.listened)
    (fun same renewed => renewed.repo.trans same)
    (fun same cleaned => cleaned.repo.trans same) (fun same _ => same) runs

def Action.newRepository : Action → Option RepositoryContact
  | .command _ _ (.repoUpdate contact) => some contact
  | _ => none

/-- The CA does not move to a repository that is still to be cleaned. -/
def MovesOn (manager : CaManager) (action : Action) : Prop :=
  ∀ contact ∈ action.newRepository, ∀ deprecated ∈ manager.objects.deprecatedRepos,
    deprecated.contact ≠ contact

instance (manager : CaManager) (action : Action) : Decidable (MovesOn manager action) :=
  inferInstanceAs (Decidable (∀ contact ∈ action.newRepository, _))

theorem unpublished_of_rolls {ca : CertAuth} (yields : Yields (ca.rollsForRepo env contact) rolls) :
    ca.repository ≠ some contact ∧ ∀ event ∈ rolls, event.isPublished = false := by
  unfold CertAuth.rollsForRepo at yields
  cases known : ca.repository with
  | none =>
    rw [known] at yields
    cases yields.pure
    exact ⟨nofun, List.forall_mem_nil _⟩
  | some existing =>
    rw [known] at yields
    obtain ⟨other, yields⟩ := Yields.guarded yields
    refine ⟨fun same => other (Option.some.inj same), fun event member => ?_⟩
    obtain ⟨found, looped, yields⟩ := yields.bind
    cases yields.pure
    obtain ⟨own, listed, member⟩ := List.mem_flatten.mp member
    obtain ⟨_, _, yielded⟩ := looped.exists_item listed
    obtain ⟨_, yielded⟩ := Yields.guarded yielded
    obtain rfl | ⟨_, _, _, _, _, rfl⟩ := ResourceClass.keyrollInitiate_yields yielded
    · exact absurd member List.not_mem_nil
    · obtain rfl | rfl := List.mem_pair.mp member <;> rfl

theorem Commanded.updateRepo {ca : CertAuth}
    (done : manager.Commanded env later listening (.repoUpdate contact)
      events used ca middle) :
    ∃ rolls between, Yields (manager.ca.rollsForRepo env contact) rolls ∧
      manager.ca.applyNextAll later rolls = some between ∧
      between.applyNext later (.repoUpdated contact) = some ca ∧
      middle = manager.objects.updateRepo contact := by
  obtain ⟨stored, accepted, rfl⟩ := done.accepted
  obtain ⟨rolls, rolled, same⟩ := CertAuth.updateRepo_yields ⟨_, _, accepted⟩
  have applied := done.applied
  have listened := done.listened
  rw [same] at applied listened
  obtain ⟨between, rolling, applied⟩ := CertAuth.applyNextAll_append.mp applied
  obtain ⟨_, moved, finished⟩ := CertAuth.applyNextAll_cons.mp applied
  cases finished
  obtain ⟨_, early, late⟩ := CaObjects.listenedAll_append listened
  cases early.eq_of_unpublished (unpublished_of_rolls rolled).2
  refine ⟨rolls, between, rolled, rolling, moved, ?_⟩
  cases late with
  | cons first rest =>
    cases rest
    cases first with
    | moved => rfl
    | followed targeted follows => cases targeted
    | ignored unpublished => cases unpublished

theorem Runs.separate (runs : Runs given MovesOn manager) : manager.objects.Separate := by
  refine Runs.holds .trivially (fun _ objects _ => objects.Separate)
    (fun handle _ _ => CaObjects.new_separate handle) ?_ (fun separate renewed =>
      separate.renewed renewed) (fun separate cleaned => separate.cleaned cleaned)
    (fun separate _ => separate) runs
  intro manager env later listening cmd events used ca middle runs separate met done
  by_cases moves : ∃ contact, cmd = .repoUpdate contact
  · obtain ⟨contact, rfl⟩ := moves
    obtain ⟨rolls, _, rolled, _, _, rfl⟩ := done.updateRepo
    exact separate.updateRepo (runs.sameRepo ▸ (unpublished_of_rolls rolled).1) (met contact rfl)
  · obtain ⟨stored, accepted, rfl⟩ := done.accepted
    refine separate.listenedAll ?_ done.listened
    exact CertAuth.newRepository_of_command runs.reachable.consistent ⟨_, _, accepted⟩
      fun contact same => moves ⟨contact, same⟩

/-- As long as a CA never moves back to a repository that is still to be cleaned, no
repository that is to be cleaned is in use. -/
theorem deprecated_repos_unused (runs : Runs given MovesOn manager) :
    ∀ deprecated ∈ manager.objects.deprecatedRepos,
      manager.ca.repository ≠ some deprecated.contact ∧
      manager.objects.repo ≠ some deprecated.contact ∧
      ∀ rcn rco, manager.objects.classes.get rcn = some rco → ∀ set ∈ rco.sets,
        set.oldRepo ≠ some deprecated.contact := by
  intro deprecated member
  obtain ⟨notCurrent, notOld⟩ := runs.separate.deprecated deprecated member
  refine ⟨runs.sameRepo ▸ notCurrent, notCurrent, fun rcn rco found set listed moved => ?_⟩
  exact notOld ⟨rcn, rco, found, set, listed, moved⟩

end CaManager

end Krill.Ca

namespace Krill.Ca.Numbered

open CaManager

/-- The CA moves to repository 1 with a key roll, and leaves repository 0. -/
def migrate : List CmdDet :=
  enrol ++ [.repoUpdate (contact 1), .updateRcvdCert "0" (received 5 7) config,
    .keyRollActivate 0 config, .keyRollFinish "0"]

def migrated : CaManager := (daemon.sendCommands MovesOn (atOnce migrate)).get (by decide +kernel)

theorem left_repository_is_unused : ∃ deprecated ∈ migrated.objects.deprecatedRepos,
      migrated.ca.repository ≠ some deprecated.contact := by
  have runs : Runs counted MovesOn migrated :=
    daemon_runs.sendCommands counted_laws (Option.some_get _).symm
  have listed : ⟨contact 0, 0⟩ ∈ migrated.objects.deprecatedRepos := by decide +kernel
  exact ⟨_, listed, (deprecated_repos_unused runs _ listed).1⟩

def movedBack : CaManager :=
  (daemon.sendCommands (fun _ _ => True)
    (atOnce (migrate ++ [.repoUpdate (contact 0)]))).get (by decide +kernel)

theorem current_repository_is_deprecated :
    ∃ (manager : CaManager) (deprecated : DeprecatedRepository),
      Runs counted (fun _ _ => True) manager ∧
      deprecated ∈ manager.objects.deprecatedRepos ∧
      manager.ca.repository = some deprecated.contact ∧
      manager.objects.repo = some deprecated.contact :=
  ⟨movedBack, ⟨contact 0, 0⟩, daemon_runs.sendCommands counted_laws (Option.some_get _).symm,
    by decide +kernel, by decide +kernel, by decide +kernel⟩

end Krill.Ca.Numbered
