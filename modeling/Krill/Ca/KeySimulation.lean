import Krill.Ca.Mirroring

namespace Krill.Ca

open KrillSigner
open Stateful (Yields)
open CertAuth
open StoredEvent (details)

variable [Rpki]

def CmdDet.RevokesInUse (cmd : CmdDet) (ca : CertAuth) : Prop :=
  match cmd with
  | .childRevokeKey _ request => ca.HasCurrentKey request.className
  | _ => True

variable {rc : ResourceClass}

theorem Mirrors.isSome (mirrors : Mirrors (some rc.keyState) entry) :
    entry.isSome ↔ rc.currentKey.isSome := by
  unfold ResourceClass.currentKey
  generalize rc.keyState = state at mirrors
  cases mirrors with
  | pending => exact iff_of_false nofun nofun
  | _ => exact iff_of_true rfl rfl

theorem Mirrors.awaits (mirrors : Mirrors (some state) entry)
    (takes : state.Takes cert.keyIdentifier) :
    ∃ rco, entry = some rco ∧ ∃ set ∈ rco.sets, set.Awaits cert := by
  cases mirrors with
  | pending => exact takes.elim
  | active same =>
    exact ⟨_, rfl, _, List.mem_singleton_self _, same.awaits_iff.mpr takes.symm⟩
  | rollPending waiting same =>
    exact ⟨_, rfl, _, List.mem_singleton_self _, same.awaits_iff.mpr takes.symm⟩
  | rollNew sameNew same =>
    obtain isNew | isCurrent := takes
    · exact ⟨_, rfl, _, List.mem_pair.mpr (.inl rfl), sameNew.awaits_iff.mpr isNew.symm⟩
    · exact ⟨_, rfl, _, List.mem_pair.mpr (.inr rfl), same.awaits_iff.mpr isCurrent.symm⟩
  | rollOld same sameOld =>
    exact ⟨_, rfl, _, List.mem_pair.mpr (.inl rfl), same.awaits_iff.mpr takes.symm⟩

theorem Mirrors.accepts {event : CaEvtDet} (mirrors : Mirrors (some rc.keyState) entry)
    (fits : event.Fits rc) : event.Accepts entry := by
  cases event with
  | certificateReceived rcn cert key =>
    obtain ⟨rfl, takes⟩ := fits
    obtain ⟨rco, found, set, member, awaits⟩ := mirrors.awaits takes
    obtain ⟨changed, done⟩ := ResourceClassObjects.update_of_awaits member awaits
    exact ⟨rco, changed, found, done⟩
  | keyPendingToActive rcn key =>
    obtain ⟨waiting, is, _⟩ := fits
    rw [is] at mirrors
    cases mirrors
    rfl
  | keyPendingToNew rcn key =>
    obtain ⟨waiting, current, is, _⟩ := fits
    rw [is] at mirrors
    cases mirrors
    exact ⟨_, rfl⟩
  | keyRollActivated rcn revokeReq =>
    obtain ⟨new, current, is⟩ := fits
    rw [is] at mirrors
    cases mirrors
    exact ⟨_, _, rfl⟩
  | keyRollFinished rcn =>
    obtain ⟨current, old, is⟩ := fits
    rw [is] at mirrors
    cases mirrors
    exact ⟨_, _, rfl⟩
  | roasUpdated | aspaObjectsUpdated | bgpSecCertificatesUpdated | childCertificatesUpdated =>
    exact mirrors.isSome.mpr fits
  | _ => trivial

theorem CertAuth.hasCurrentKey_of_bind {ca : CertAuth}
    (held : ((ca.resources.get rcn).bind ResourceClass.currentKey).isSome) :
    ca.HasCurrentKey rcn := by
  obtain ⟨key, held⟩ := Option.isSome_iff_exists.mp held
  obtain ⟨rc, found, current⟩ := Option.bind_eq_some_iff.mp held
  exact ⟨rc, found, Option.isSome_of_eq_some current⟩

namespace CaManager

variable {ca : CertAuth} {objects : CaObjects}

theorem Mirrored.accepts (mirrored : Mirrored ca objects known) (sound : ca.Sound event) :
    objects.Accepts event := by
  intro rcn targeted
  obtain ⟨rc, found, fits⟩ := sound.inPlace targeted
  have mirrors := (mirrored.classes rcn).mirrors
  rw [found] at mirrors
  exact mirrors.accepts fits

theorem Mirrored.acceptsAll (mirrored : Mirrored ca objects known)
    (sound : CertAuth.SoundAll later ca events) (distinct : (CaEvtDet.tokensAll cmd events).Nodup)
    (fresh : ∀ token ∈ CaEvtDet.tokensAll cmd events, ¬known token) :
    CaObjects.AcceptsAll listening events objects := by
  induction events generalizing ca objects known with
  | nil => trivial
  | cons event rest induction =>
    have tokens : CaEvtDet.tokensAll cmd (event :: rest) =
        event.tokens cmd ++ CaEvtDet.tokensAll cmd rest := List.flatMap_cons
    rw [tokens] at distinct fresh
    obtain ⟨distinctHere, distinctRest, apart⟩ := List.nodup_append.mp distinct
    obtain ⟨freshHere, freshRest⟩ := List.forall_mem_append.mp fresh
    refine ⟨mirrored.accepts sound.1, fun after listened => ?_⟩
    obtain ⟨next, applied⟩ := applyNext_of_sound later sound.1
    refine induction (mirrored.occurs ⟨sound.1, applied, listened, distinctHere, freshHere⟩)
      (sound.2 next applied) distinctRest ?_
    rintro token member (before | here)
    · exact freshRest token member before
    · exact apart token here token member rfl

variable [KrillSigner] {given : Signer → Token → Prop} {meets : CaManager → Action → Prop}
  {manager : CaManager} {env later listening : Surroundings} {cmd : CmdDet}

theorem sound_of_applied (consistent : ca.Consistent)
    (yields : Yields (ca.processCommand env cmd) stored)
    (applied : ca.applyNextAll later (stored.map details) = some last)
    (inUse : cmd.RevokesInUse ca) :
    CertAuth.SoundAll later ca (stored.map details) := by
  refine processCommand_sound consistent ?_ yields later
  obtain inPlace | ⟨child, request, rfl⟩ := inPlace_of_applied yields applied
  · exact inPlace
  · exact inUse

theorem revokesInUse_of_listened (mirrored : Mirrored ca objects known)
    (yields : Yields (ca.processCommand env cmd) stored)
    (applied : ca.applyNextAll later (stored.map details) = some last)
    (listened : CaObjects.ListenedAll listening (stored.map details) objects middle) :
    cmd.RevokesInUse ca := by
  cases cmd with
  | childRevokeKey child request =>
    obtain ⟨_, same⟩ := childRevokeKey_eq_ok yields.liftExcept
    obtain ⟨rc, found, _⟩ := childRevokeKey_classes yields.liftExcept applied
    rw [same] at listened
    refine ⟨rc, found, ?_⟩
    have mirrors := (mirrored.classes request.className).mirrors
    rw [found] at mirrors
    refine mirrors.isSome.mp ?_
    cases listened with
    | cons first others =>
      cases first.eq_of_unpublished rfl
      cases others with
      | cons second _ =>
        cases second with
        | followed targeted follows =>
          cases targeted
          generalize objects.classes.get request.className = entry at follows
          cases follows
          rfl
        | ignored unpublished => cases unpublished
  | _ => trivial

theorem Mirrored.sound (mirrored : Mirrored manager.ca manager.objects known)
    (commanded : manager.Commanded env later listening cmd events used ca middle) :
    CertAuth.SoundAll later manager.ca events := by
  obtain ⟨stored, accepted, rfl⟩ := commanded.accepted
  have yields : Yields (manager.ca.processCommand env cmd) stored := ⟨_, _, accepted⟩
  exact sound_of_applied mirrored.consistent yields commanded.applied
    (revokesInUse_of_listened mirrored yields commanded.applied commanded.listened)

omit [KrillSigner] in
theorem new_mirrored (handle : CaHandle) (id : Rfc8183Id) :
    Mirrored (.init handle id) (.new handle) known where
  consistent := init_consistent handle id
  classes := fun rcn => by
    have noClass : (init handle id).resources.get rcn = none := HashMap.get_empty rcn
    have noObjects : (CaObjects.new handle).classes.get rcn = none := HashMap.get_empty rcn
    rw [noClass, noObjects]
    exact ⟨.absent, .nil, List.forall_mem_nil _⟩

omit [KrillSigner] in
theorem Mirrored.grows (mirrored : Mirrored ca objects known)
    (grows : ∀ token, known token → more token) : Mirrored ca objects more :=
  ⟨mirrored.consistent, fun rcn => (mirrored.classes rcn).grows grows⟩

omit [KrillSigner] in
theorem Mirrored.renewed (mirrored : Mirrored ca before known)
    (renewed : before.Renewed now after) : Mirrored ca after known where
  consistent := mirrored.consistent
  classes := fun rcn => by
    obtain ⟨mirrors, distinct, held⟩ := mirrored.classes rcn
    refine ⟨?_, distinct, held⟩
    have paired := renewed.classes rcn
    generalize before.classes.get rcn = entry at paired mirrors
    generalize after.classes.get rcn = entry' at paired
    cases paired with
    | none => exact mirrors
    | some each => exact mirrors.eachSet each KeyObjectSet.Renewed.signingCert

theorem Commanded.holdsByEvents (laws : SignerLaws given)
    (commanded : manager.Commanded env later listening cmd events used ca middle)
    (mirrored : Mirrored manager.ca manager.objects (given manager.signer))
    (holds : CertAuth → CaObjects → (Token → Prop) → Prop)
    (initially : holds manager.ca manager.objects (given manager.signer))
    (occurring : ∀ {passed event ca next objects after known},
      Position events later listening manager.ca manager.objects passed event ca objects →
      Mirrored ca objects known → holds ca objects known →
      Occurs cmd later listening known event ca next objects after →
      holds next after (withDrawn known (event.tokens cmd)))
    (grows : ∀ {ca objects known more}, holds ca objects known →
      (∀ token, known token → more token) → holds ca objects more) :
    Mirrored ca middle (given used) ∧ holds ca middle (given used) := by
  have sound := mirrored.sound commanded
  obtain ⟨stored, accepted, rfl⟩ := commanded.accepted
  have drawn := processCommand_drawn laws accepted
  obtain ⟨known, ⟨mirrored, holding⟩, bounded⟩ := holds_of_events
    (fun ca objects known => Mirrored ca objects known ∧ holds ca objects known)
    (fun position held occurs => ⟨held.1.occurs occurs, occurring position held.1 held.2 occurs⟩)
    ⟨mirrored, initially⟩ sound commanded.applied commanded.listened drawn.distinct drawn.fresh
  have within : ∀ token, known token → given used token := fun token isKnown =>
    (bounded token isKnown).elim (drawn.kept token) (drawn.given token)
  exact ⟨mirrored.grows within, grows holding within⟩

/-- What holds in every run, event by event: it holds at the start, and no event that occurs
in a command, no new manifest and no cleaning changes that. -/
theorem Runs.holdsByEvents (laws : SignerLaws given)
    (holds : CertAuth → CaObjects → (Token → Prop) → Prop)
    (initially : ∀ handle id known, holds (.init handle id) (.new handle) known)
    (occurring : ∀ {manager env later listening cmd stored passed event ca next objects after
      known}, Runs given meets manager → meets manager (.command env listening cmd) →
      Yields (manager.ca.processCommand env cmd) stored →
      Position (stored.map details) later listening manager.ca manager.objects
        passed event ca objects →
      Mirrored ca objects known → holds ca objects known →
      Occurs cmd later listening known event ca next objects after →
      holds next after (withDrawn known (event.tokens cmd)))
    (grows : ∀ {ca objects known more}, holds ca objects known →
      (∀ token, known token → more token) → holds ca objects more)
    (renewed : ∀ {ca before after known now}, holds ca before known →
      before.Renewed now after → holds ca after known)
    (cleaned : ∀ {ca before after known}, holds ca before known → Cleaned before after →
      holds ca after known)
    (runs : Runs given meets manager) :
    Mirrored manager.ca manager.objects (given manager.signer) ∧
      holds manager.ca manager.objects (given manager.signer) := by
  refine Runs.holds (.ofLaws laws) (fun ca objects signer =>
    Mirrored ca objects (given signer) ∧ holds ca objects (given signer)) ?_ ?_ ?_ ?_ ?_ runs
  · intro handle id signer
    exact ⟨new_mirrored handle id, initially handle id _⟩
  · intro manager env later listening cmd events used ca middle runs held met done
    obtain ⟨stored, accepted, rfl⟩ := done.accepted
    exact done.holdsByEvents laws held.1 holds held.2 (fun position mirrored holding occurs =>
        occurring runs met ⟨_, _, accepted⟩ position mirrored holding occurs) grows
  · intro ca before after signer now held again
    exact ⟨held.1.renewed again, renewed held.2 again⟩
  · intro ca before after signer held done
    refine ⟨⟨held.1.consistent, fun rcn => ?_⟩, cleaned held.2 done⟩
    rw [done.classes]
    exact held.1.classes rcn
  · intro ca objects before after held known
    exact ⟨held.1.grows known, grows held.2 known⟩

theorem Runs.mirrored (laws : SignerLaws given) (runs : Runs given meets manager) :
    Mirrored manager.ca manager.objects (given manager.signer) :=
  (Runs.holdsByEvents laws (fun _ _ _ => True) (fun _ _ _ => trivial)
    (fun _ _ _ _ _ _ _ => trivial) (fun _ _ => trivial) (fun _ _ => trivial)
    (fun _ _ => trivial) runs).1

variable {request : RevocationRequest}

theorem listen_fails_without_class {events : List CaEvt} (same : events.map details =
      [.childKeyRevoked child request.className request.key,
        .childCertificatesUpdated request.className
          (ChildCertificateUpdates.default.remove request.key)])
    (missing : objects.classes.get request.className = none) (signer : Signer) :
    objects.listen listening timing events signer =
      .error (.publishing "Missing resource class") signer := by
  obtain ⟨revoked, rest, rfl, first, others⟩ := List.map_eq_cons_iff.mp same
  obtain ⟨updated, rest, rfl, second, nothing⟩ := List.map_eq_cons_iff.mp others
  have ignored : objects.listenEvent listening timing revoked.details signer =
      .ok (objects, false) signer := by
    rw [first]
    rfl
  have failed : objects.listenEvent listening timing updated.details signer =
      .error (.publishing "Missing resource class") signer := by
    rw [second]
    refine Stateful.bind_of_error ?_
    unfold CaObjects.updateCerts CaObjects.updateClass CaObjects.getClass
    rw [missing]
    rfl
  refine Stateful.bind_of_error ?_
  unfold CaObjects.listenEvents
  rw [Stateful.bind_of_ok ignored]
  exact Stateful.bind_of_error failed

theorem fails_without_class {events : List CaEvt} {signer : Signer}
    (accepted : manager.ca.processCommand env (.childRevokeKey child request) signer =
      .ok events used) (applied : manager.ca.applyAll later events = some ca)
    (missing : manager.objects.classes.get request.className = none) :
    manager.caObjectsStore.listen listening ca events used =
      .error (.publishing "Missing resource class") used := by
  have yields : Yields (manager.ca.processCommand env (.childRevokeKey child request)) events :=
    ⟨_, _, accepted⟩
  rw [applyAll_eq] at applied
  refine Stateful.bind_of_error ?_
  rw [handle_of_applyNextAll applied]
  exact listen_fails_without_class (childRevokeKey_eq_ok yields.liftExcept).2 missing used

theorem Runs.listener_fails_by_signer (laws : SignerLaws given) (runs : Runs given meets manager)
    {events : List CaEvt} {failure : Error}
    (accepted : manager.ca.processCommand env cmd manager.signer = .ok events used)
    (applied : manager.ca.applyAll later events = some ca) (inUse : cmd.RevokesInUse manager.ca)
    (failed : manager.caObjectsStore.listen listening ca events used = .error failure last) :
    failure.IsSigner := by
  have mirrored := runs.mirrored laws
  rw [applyAll_eq] at applied
  have handle := handle_of_applyNextAll applied
  have sound := sound_of_applied mirrored.consistent ⟨_, _, accepted⟩ applied inUse
  have drawn := processCommand_drawn laws accepted
  have accepts : CaObjects.AcceptsAll listening (events.map details)
      (manager.caObjectsStore.caObjects ca.handle) := by
    rw [handle]
    exact mirrored.acceptsAll sound drawn.distinct drawn.fresh
  have signs := (Remembers.trivially : Remembers given fun _ _ => True).signs used
  have spec : Stateful.Triple (fun _ => True)
      (manager.caObjectsStore.listen listening ca events) (fun _ => True)
      (fun failure => CaObjects.AcceptsAll listening (events.map details)
        (manager.caObjectsStore.caObjects ca.handle) → failure.IsSigner) :=
    .bind (CaObjects.listen_triple signs events) fun _ _ => .pure trivial
  exact spec.failed trivial failed accepts

/-- In every run the published objects of every class have sets for its certified keys, in
the same roles and under the same certificates. What the CA accepts, its objects can follow if
and only if it does not revoke a key in a class that has no current key: apart from that only
the signer can fail. -/
theorem objects_mirror_keys (laws : SignerLaws given) (runs : Runs given meets manager) :
    (∀ rcn, Mirrors ((manager.ca.resources.get rcn).map ResourceClass.keyState)
      (manager.objects.classes.get rcn)) ∧
    ∀ {env later listening cmd events used ca},
      manager.ca.processCommand env cmd manager.signer = .ok events used →
      manager.ca.applyAll later events = some ca →
      ((∀ failure last, manager.caObjectsStore.listen listening ca events used =
        .error failure last → failure.IsSigner) ↔ cmd.RevokesInUse manager.ca) := by
  have mirrored := runs.mirrored laws
  refine ⟨fun rcn => (mirrored.classes rcn).mirrors, ?_⟩
  intro env later listening cmd events used ca accepted applied
  have yields : Yields (manager.ca.processCommand env cmd) events := ⟨_, _, accepted⟩
  have applies := applied
  rw [applyAll_eq] at applied
  constructor
  · intro signerOnly
    cases cmd with
    | childRevokeKey child request =>
      obtain ⟨rc, found, _⟩ := childRevokeKey_classes yields.liftExcept applied
      refine ⟨rc, found, ?_⟩
      by_contra unused
      have mirrors := (mirrored.classes request.className).mirrors
      rw [found] at mirrors
      have missing : manager.objects.classes.get request.className = none :=
        Option.not_isSome_iff_eq_none.mp fun present => unused (mirrors.isSome.mp present)
      have wrong := signerOnly _ _ (fails_without_class accepted applies missing)
      exact wrong
    | _ => trivial
  · intro inUse failure last failed
    exact runs.listener_fails_by_signer laws accepted applies inUse failed

end CaManager

end Krill.Ca

namespace Krill.Ca.Numbered

open CaManager

/-- The CA has a child with a certificate for its key 50 in class "0", and a class "1" for
which no certificate was received yet. -/
def extend : List CmdDet :=
  enrol ++ [.childAdd "child" (0 : Nat) (7 : Nat), .childCertify "child" (request "0" 50) config,
    .updateEntitlements "parent" [entitlement 7, { entitlement 7 with className := "1" }]]

def extended : CaManager :=
  (daemon.sendCommands (fun _ _ => True) (atOnce extend)).get (by decide +kernel)

theorem extended_runs : Runs counted (fun _ _ => True) extended :=
  daemon_runs.sendCommands counted_laws (Option.some_get _).symm

theorem objects_follow_revocation_in_own_class :
    Mirrors ((extended.ca.resources.get "0").map ResourceClass.keyState)
      (extended.objects.classes.get "0") ∧
    ∃ events used ca, extended.ca.processCommand env (revocation "0") extended.signer =
      .ok events used ∧ extended.ca.applyAll env events = some ca ∧
      ∀ failure last, extended.caObjectsStore.listen env ca events used = .error failure last →
        failure.IsSigner := by
  obtain ⟨mirrors, follow⟩ := objects_mirror_keys counted_laws extended_runs
  have replayed : (extended.ca.replay env extended.signer [revocation "0"]).isSome := by
    decide +kernel
  obtain ⟨events, used, ca, accepted, applied⟩ := CertAuth.accepted_of_replay replayed
  have inUse : (revocation "0").RevokesInUse extended.ca :=
    CertAuth.hasCurrentKey_of_bind (by decide +kernel)
  exact ⟨mirrors "0", events, used, ca, accepted, applied, (follow accepted applied).mpr inUse⟩

/-- The child names class "1" in its request, which has no current key. -/
theorem listener_fails_for_missing_class :
    ∃ (manager : CaManager) (events : List CaEvt) (used last : Nat) (ca : CertAuth),
      Runs counted (fun _ _ => True) manager ∧
      manager.ca.processCommand env (revocation "1") manager.signer = .ok events used ∧
      manager.ca.applyAll env events = some ca ∧
      manager.caObjectsStore.listen env ca events used =
        .error (.publishing "Missing resource class") last := by
  have replayed : (extended.ca.replay env extended.signer [revocation "1"]).isSome := by
    decide +kernel
  obtain ⟨events, used, ca, accepted, applied⟩ := CertAuth.accepted_of_replay replayed
  have missing : extended.objects.classes.get "1" = none :=
    Option.isNone_iff_eq_none.mp (by decide +kernel)
  exact ⟨extended, events, used, used, ca, extended_runs, accepted, applied,
    fails_without_class accepted applied missing⟩

end Krill.Ca.Numbered
