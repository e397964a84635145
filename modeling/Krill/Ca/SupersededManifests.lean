import Krill.Ca.Revisions

namespace Krill.Ca

open Rpki KrillSigner
open Stateful (Yields)

variable [Rpki]

namespace KeyObjectSet

def RevokesManifest (decode : Base64 → Option ToBeSigned) (set : KeyObjectSet)
    (manifest : PublishedManifest) : Prop :=
  ∃ issuer thisUpdate nextUpdate entries aki number,
    decode set.crl.base64 = some (.crl issuer thisUpdate nextUpdate entries aki number) ∧
      ∃ date, (manifest.serial, date) ∈ entries

/-- An earlier manifest that had not expired when the present one was made is revoked. -/
def Supersedes (decode : Base64 → Option ToBeSigned) (set earlier : KeyObjectSet) : Prop :=
  set.manifest ≠ earlier.manifest →
    set.revision.thisUpdate + minutes 5 < earlier.manifest.expires →
      set.RevokesManifest decode earlier.manifest

/-- A manifest lasts no longer than the one that replaces it, and had expired by then. -/
structure Outlives (earlier set : KeyObjectSet) : Prop where
  expires : earlier.manifest.expires ≤ set.manifest.expires
  expired : set.manifest = earlier.manifest ∨
    earlier.manifest.expires ≤ set.revision.thisUpdate + minutes 5

theorem Outlives.refl (set : KeyObjectSet) : set.Outlives set := ⟨le_refl _, .inl rfl⟩

theorem Outlives.sameIssue {earlier set : KeyObjectSet} (outlives : earlier.Outlives set)
    (same : set.SameIssue set') : earlier.Outlives set' := by
  obtain ⟨expires, expired⟩ := outlives
  rw [← same.revision, ← same.manifest] at *
  exact ⟨expires, expired⟩

end KeyObjectSet

omit [Rpki] in
theorem IssuanceTimingConfig.le_publishNext (timing : IssuanceTimingConfig)
    (env : Surroundings) : env.now ≤ timing.publishNext env := by
  have later : ∀ count, 0 ≤ minutes count := fun count => by
    unfold minutes
    omega
  exact Int.le_add_of_nonneg_right (later _)

theorem CaObjects.ListenedAll.sameIssue {set : KeyObjectSet}
    (listened : ListenedAll env events objects middle) (found : middle.classes.get rcn = some rco)
    (member : set ∈ rco.sets) :
    (∃ earlier ∈ setsOf (objects.classes.get rcn), earlier.SameIssue set) ∨
      ∃ event ∈ events, ∃ key, event.newKey = some (rcn, key) := by
  let fromBefore (rcn : ResourceClassName) (set : KeyObjectSet) : Prop :=
    (∃ earlier ∈ setsOf (objects.classes.get rcn), earlier.SameIssue set) ∨
      ∃ event ∈ events, ∃ key, event.newKey = some (rcn, key)
  suffices general : ∀ {rest between last}, ListenedAll env rest between last →
      (∀ event ∈ rest, event ∈ events) → between.EverySet fromBefore →
      last.EverySet fromBefore from
    general listened (fun _ => id) (fun _ _ present set listed =>
        .inl ⟨set, mem_setsOf.mpr ⟨_, present, listed⟩, .refl set⟩) found set member
  intro rest between last listened
  induction listened with
  | nil => exact fun _ every => every
  | cons first others induction =>
    intro within every
    obtain ⟨here, later⟩ := List.forall_mem_cons.mp within
    refine induction later (every.listened first ?_ ?_)
    · rintro rcn set set' touched (⟨earlier, listed, same⟩ | created)
      · exact .inl ⟨earlier, listed, same.trans touched.sameIssue⟩
      · exact .inr created
    · exact fun made _ => .inr ⟨_, here, _, made⟩

namespace CaManager

variable [KrillSigner] {given : Signer → Token → Prop} {manager start : CaManager}

/-- When an action makes new manifests and CRLs for a class: an event forces them for all
classes, the class gets a new key, or it is time for them. -/
def Reissues (manager : CaManager) (rcn : ResourceClassName) (rco : ResourceClassObjects) :
    Action → Prop
  | .command env listening cmd => ∃ events used,
      manager.ca.processCommand env cmd manager.signer = .ok events used ∧
      ((∃ event ∈ events.map StoredEvent.details,
        event.forces = true ∨ ∃ key, event.newKey = some (rcn, key)) ∨
      rco.requiresReIssuance listening.now
        manager.caObjectsStore.issuanceTiming.timingPublishHoursBeforeNext = true)
  | .reIssue env force timing => force = true ∨
      rco.requiresReIssuance env.now timing.timingPublishHoursBeforeNext = true

def ReplacesExpired (manager : CaManager) (action : Action) : Prop :=
  ∀ rcn rco, manager.objects.classes.get rcn = some rco → manager.Reissues rcn rco action →
    ∀ set ∈ rco.sets, set.manifest.expires ≤ action.now

theorem outlives_reissue {earlier set : KeyObjectSet} (outlives : earlier.Outlives set)
    (expired : set.manifest.expires ≤ env.now) (made : Yields (set.reissue env timing) set') :
    earlier.Outlives set' := by
  obtain ⟨manifest, crl, lasts, rfl⟩ := KeyObjectSet.reissue_yields made
  have before : earlier.manifest.expires ≤ env.now := outlives.expires.trans expired
  refine ⟨?_, .inr ?_⟩
  · change earlier.manifest.expires ≤ manifest.expires
    rw [lasts]
    exact before.trans (timing.le_publishNext env)
  · change earlier.manifest.expires ≤ env.now - minutes 5 + minutes 5
    rwa [Int.sub_add_cancel]

theorem Commanded.reissues {ca : CertAuth}
    (commanded : manager.Commanded env later listening cmd events used ca middle)
    (found : manager.objects.classes.get rcn = some rco)
    (found' : middle.classes.get rcn = some rco')
    (due : (events.any CaEvtDet.forces || rco'.requiresReIssuance listening.now
      manager.caObjectsStore.issuanceTiming.timingPublishHoursBeforeNext) = true) :
    manager.Reissues rcn rco (.command env listening cmd) := by
  obtain ⟨stored, accepted, rfl⟩ := commanded.accepted
  refine ⟨stored, used, accepted, ?_⟩
  obtain forced | required := (Bool.or_eq_true _ _).mp due
  · obtain ⟨event, member, forces⟩ := List.any_eq_true.mp forced
    exact .inl ⟨event, member, .inl forces⟩
  · obtain ⟨set, member, required⟩ := ResourceClassObjects.anySet_iff.mp required
    obtain ⟨earlier, listed, same⟩ | ⟨event, occurs, made⟩ :=
      commanded.listened.sameIssue found' member
    · rw [found] at listed
      refine .inr (ResourceClassObjects.anySet_iff.mpr ⟨earlier, listed, ?_⟩)
      unfold KeyObjectSet.requiresReissuance KeyObjectSet.nextUpdate at *
      rwa [← same.revision]
    · exact .inl ⟨event, occurs, .inr made⟩

theorem Step.outlives (laws : SignerLaws given) (runs : Runs given ReplacesExpired manager)
    (step : Step given ReplacesExpired manager next)
    (carried : CarriedAll (fun _ => KeyObjectSet.Outlives) start.base manager.ca manager.objects
      (given manager.signer)) :
    CarriedAll (fun _ => KeyObjectSet.Outlives) start.base next.ca next.objects
      (given next.signer) := by
  cases step.moves (.ofLaws laws) with
  | @command env later listening cmd events used middle met commanded reissued grown =>
    -- sets are followed from the start, and from the state before the command
    let related (rcn : ResourceClassName) (earlier set : KeyObjectSet) : Prop :=
      earlier.Outlives set ∧ ∃ before ∈ manager.base rcn, before.SameIssue set
    have followed : CarriedAll related start.base next.ca middle (given used) := by
      refine commanded.carried laws (runs.mirrored laws) (fun rcn => ?_) ?_
      · exact (carried rcn).mono fun member held => ⟨held, _, member, .refl _⟩
      · rintro rcn event earlier set set' ⟨outlives, before, listed, same⟩ touched
        exact ⟨outlives.sameIssue touched.sameIssue, before, listed, same.trans touched.sameIssue⟩
    refine CarriedAll.grows ?_ grown
    refine followed.reIssue reissued (fun held => held.1) ?_
    rintro rcn rco' earlier set set' found' due member ⟨outlives, before, listed, same⟩ made
    obtain ⟨rco, found, listed⟩ := mem_setsOf.mp listed
    have expired := met rcn rco found (commanded.reissues found found' due) before listed
    rw [← same.manifest] at expired
    exact outlives_reissue outlives expired made
  | renewed met same reissued grown =>
    rw [same]
    refine CarriedAll.grows (carried.reIssue reissued id ?_) grown
    intro rcn rco earlier set set' found due member outlives made
    have expired := met rcn rco found ((Bool.or_eq_true _ _).mp due) set member
    exact outlives_reissue outlives expired made
  | cleaned same cleaned grown =>
    rw [same]
    intro rcn
    rw [cleaned.classes]
    exact (carried rcn).grows grown

theorem Runs.outlives (laws : SignerLaws given) (runs : Runs given ReplacesExpired start)
    (steps : Relation.ReflTransGen (Step given ReplacesExpired) start manager) :
    CarriedAll (fun _ => KeyObjectSet.Outlives) start.base manager.ca manager.objects
      (given manager.signer) := by
  induction steps with
  | refl => exact (runs.mirrored laws).carried KeyObjectSet.Outlives.refl
  | tail before step induction => exact step.outlives laws (runs.reaches before) induction

/-- As long as manifests are replaced only after they have expired, every earlier manifest of
a set that had not expired when the present one was made is revoked by the present CRL. -/
theorem superseded_manifests_revoked {decode : Base64 → Option ToBeSigned}
    (laws : SignerLaws given) (runs : Runs given ReplacesExpired start)
    (steps : Relation.ReflTransGen (Step given ReplacesExpired) start manager) :
    ∀ rcn rco rco', start.objects.classes.get rcn = some rco →
      manager.objects.classes.get rcn = some rco' → ∀ earlier ∈ rco.sets, ∀ set ∈ rco'.sets,
        earlier.keyId = set.keyId → set.Supersedes decode earlier := by
  intro rcn rco rco' found found' earlier member set member' sameKey differs unexpired
  have outlives := (runs.outlives laws steps rcn).related set
    (mem_setsOf.mpr ⟨rco', found', member'⟩) earlier (mem_setsOf.mpr ⟨rco, found, member⟩) sameKey
  obtain same | expired := outlives.expired
  · exact absurd same differs
  · exact absurd unexpired (not_lt.mpr expired)

end CaManager

end Krill.Ca

namespace Krill.Ca.Recorded

open Numbered CaManager
open Rpki KrillSigner

theorem replacesExpired_of_unpublished (unpublished : Unpublished manager action) :
    ReplacesExpired manager action := by
  intro rcn rco found
  have listed : (rcn, rco) ∈ manager.objects.classes.iter .stored := HashMap.mem_iter.mpr found
  rw [unpublished] at listed
  exact absurd listed List.not_mem_nil

def late : Surroundings := { env with now := 90000 }

theorem enrolled_expired : ReplacesExpired enrolled (.reIssue late true config.issuanceTiming) := by
  intro rcn rco found _ set member
  have expired : ∀ entry ∈ enrolled.objects.classes.iter .stored, ∀ set ∈ entry.2.sets,
      set.manifest.expires ≤ late.now := by decide +kernel
  exact expired (rcn, rco) (HashMap.mem_iter.mpr found) set member

def reissuedLate : CaManager := (reissue enrolled late).get (by decide +kernel)

def lateSet : KeyObjectSet := (reissuedLate.base "0").get ⟨0, by decide +kernel⟩

theorem late_issue_supersedes :
    lateSet.manifest ≠ firstSet.manifest ∧ lateSet.Supersedes read firstSet := by
  have runs : Runs counted ReplacesExpired enrolled :=
    enrolled_runs.mono replacesExpired_of_unpublished
  have step : Step counted ReplacesExpired enrolled reissuedLate :=
    step_of_reissue enrolled_expired (Option.some_get _).symm
  obtain ⟨rco, found, member⟩ := mem_setsOf.mp (List.get_mem (enrolled.base "0") _)
  obtain ⟨rco', found', member'⟩ := mem_setsOf.mp (List.get_mem (reissuedLate.base "0") _)
  refine ⟨by decide +kernel, ?_⟩
  exact superseded_manifests_revoked recorded_laws runs (.single step) "0" rco rco' found found'
    firstSet member lateSet member' (by decide +kernel)

/-- The second issue comes at the same time as the first one, and its CRL is empty. -/
theorem replaced_manifest_not_revoked : Runs counted (fun _ _ => True) enrolled ∧
    Step counted (fun _ _ => True) enrolled reissued ∧
    firstSet ∈ setsOf (enrolled.objects.classes.get "0") ∧
    secondSet ∈ setsOf (reissued.objects.classes.get "0") ∧
    firstSet.keyId = secondSet.keyId ∧ ¬secondSet.Supersedes read firstSet := by
  refine ⟨enrolled_runs.mono fun _ => trivial, step_of_reissue trivial (Option.some_get _).symm,
    List.get_mem _ _, List.get_mem _ _, by decide +kernel, fun supersedes => ?_⟩
  obtain ⟨issuer, thisUpdate, nextUpdate, entries, aki, number, decoded, date, member⟩ :=
    supersedes (by decide +kernel) (by decide +kernel)
  have empty : read secondSet.crl.base64 =
      some (.crl (0 : Nat) 700 87400 [] (0 : Nat) (2 : Nat)) := by decide +kernel
  cases empty.symm.trans decoded
  exact absurd member List.not_mem_nil

end Krill.Ca.Recorded
