import Krill.Ca.SoundRuns
import Krill.Ca.ProcessCommand

namespace Krill.Ca

open Rpki
open Stateful (Yields)

variable [Rpki]

def CaEvtDet.IsObjects (rcn : ResourceClassName) (event : CaEvtDet) : Prop :=
  event.target = some rcn ∧ event.isAboutKeys = false

def CaEvtDet.IsRequest (rcn : ResourceClassName) (event : CaEvtDet) : Prop :=
  (∃ request key, event = .certificateRequested rcn request key) ∨
    ∃ revokeReq, event = .unexpectedKeyFound rcn revokeReq

section Updates

theorem RoaUpdates.events_isObjects (updates : RoaUpdates) (rcn : ResourceClassName) :
    ∀ event ∈ updates.events rcn, event.IsObjects rcn := by
  intro event member
  rw [List.mem_singleton.mp (List.mem_ite_nil_right.mp member).2]
  exact ⟨rfl, rfl⟩

theorem AspaObjectsUpdates.events_isObjects (updates : AspaObjectsUpdates)
    (rcn : ResourceClassName) : ∀ event ∈ updates.events rcn, event.IsObjects rcn := by
  intro event member
  rw [List.mem_singleton.mp (List.mem_ite_nil_right.mp member).2]
  exact ⟨rfl, rfl⟩

theorem BgpSecCertificateUpdates.events_isObjects (updates : BgpSecCertificateUpdates)
    (rcn : ResourceClassName) : ∀ event ∈ updates.events rcn, event.IsObjects rcn := by
  intro event member
  rw [List.mem_singleton.mp (List.mem_ite_nil_right.mp member).2]
  exact ⟨rfl, rfl⟩

theorem ChildCertificateUpdates.events_isObjects (updates : ChildCertificateUpdates)
    (rcn : ResourceClassName) : ∀ event ∈ updates.events rcn, event.IsObjects rcn := by
  intro event member
  rw [List.mem_singleton.mp (List.mem_ite_nil_left.mp member).2]
  exact ⟨rfl, rfl⟩

end Updates

theorem ResourceClass.takes_current {rc : ResourceClass}
    (isCurrent : rc.currentKey = some current) : rc.keyState.Takes current.keyId := by
  unfold currentKey at isCurrent
  cases state : rc.keyState <;> rw [state] at isCurrent <;> cases isCurrent
  case rollNew => exact .inr rfl
  all_goals exact rfl

variable [KrillSigner]

namespace ResourceClass

structure Updates (rc : ResourceClass) (env : Surroundings) (key : CertifiedKey)
    (routes : Routes) (aspaDefs : AspaDefinitions) (bgpsecDefs : BgpSecDefinitions)
    (config : Config) where
  roas : RoaUpdates
  aspas : AspaObjectsUpdates
  bgpsecs : BgpSecCertificateUpdates
  roasYielded : Yields (rc.roas.update env routes key config) roas
  aspasYielded : Yields (rc.aspas.update env aspaDefs key config) aspas
  bgpsecsYielded : Yields (rc.bgpsecCertificates.update env bgpsecDefs key config) bgpsecs

section Received

variable {rc : ResourceClass} {env : Surroundings} {cert : ReceivedCert} {routes : Routes}
  {aspaDefs : AspaDefinitions} {bgpsecDefs : BgpSecDefinitions}

variable (rc env cert routes aspaDefs bgpsecDefs config) in
inductive Received : List CaEvtDet → Prop
  | activated (state : rc.keyState = .pending waiting) (key : cert.keyIdentifier = waiting.keyId)
      (updates : rc.Updates env (.create cert) routes aspaDefs bgpsecDefs config) :
      Received (.keyPendingToActive rc.name (.create cert) ::
        (updates.roas.events rc.name ++ updates.aspas.events rc.name ++
          updates.bgpsecs.events rc.name))
  | staged (state : rc.keyState = .rollPending waiting current)
      (key : cert.keyIdentifier = waiting.keyId) :
      Received [.keyPendingToNew rc.name (.create cert)]
  | forNew (state : rc.keyState = .rollNew new current) (key : cert.keyIdentifier = new.keyId) :
      Received [.certificateReceived rc.name cert cert.keyIdentifier]
  | renewed (isCurrent : rc.currentKey = some current) (key : cert.keyIdentifier = current.keyId)
      (notNew : ∀ new, rc.keyState.newKey = some new → cert.keyIdentifier ≠ new.keyId)
      (same : differenceIsEmpty cert.resources current.incomingCert.resources = true) :
      Received [.certificateReceived rc.name cert cert.keyIdentifier]
  | changed (isCurrent : rc.currentKey = some current) (key : cert.keyIdentifier = current.keyId)
      (notNew : ∀ new, rc.keyState.newKey = some new → cert.keyIdentifier ≠ new.keyId)
      (different : differenceIsEmpty cert.resources current.incomingCert.resources = false)
      (certs : ChildCertificateUpdates)
      (updates : rc.Updates env (.create cert) routes aspaDefs bgpsecDefs config)
      (shrunk : Yields (rc.certificates.shrinkOverclaiming env (.create cert)
        config.issuanceTiming) certs) :
      Received (.certificateReceived rc.name cert cert.keyIdentifier ::
        (certs.events rc.name ++ updates.roas.events rc.name ++
          updates.aspas.events rc.name ++ updates.bgpsecs.events rc.name))

theorem updateReceivedCert_yields
    (yields : Yields (rc.updateReceivedCert env cert routes aspaDefs bgpsecDefs config) events) :
    rc.Received env cert routes aspaDefs bgpsecDefs config events := by
  have forCurrent {current : CurrentKey} (isCurrent : rc.currentKey = some current)
      (notNew : ∀ new, rc.keyState.newKey = some new → cert.keyIdentifier ≠ new.keyId)
      (yields : Yields (rc.updateRcvdCertCurrent env current cert routes aspaDefs bgpsecDefs
        config) events) : rc.Received env cert routes aspaDefs bgpsecDefs config events := by
    obtain ⟨same, yields⟩ := Yields.guarded yields
    have key := not_not.mp same
    cases difference : differenceIsEmpty cert.resources current.incomingCert.resources with
    | true =>
      rw [if_pos difference] at yields
      cases yields.pure
      exact .renewed isCurrent key notNew difference
    | false =>
      rw [if_neg (by rw [difference]; exact Bool.false_ne_true)] at yields
      obtain ⟨certs, shrunk, yields⟩ := yields.bind
      obtain ⟨roas, roasYielded, yields⟩ := yields.bind
      obtain ⟨aspas, aspasYielded, yields⟩ := yields.bind
      obtain ⟨bgpsecs, bgpsecsYielded, yields⟩ := yields.bind
      cases yields.pure
      exact .changed isCurrent key notNew difference certs
        { roas, aspas, bgpsecs, roasYielded, aspasYielded, bgpsecsYielded } shrunk
  unfold updateReceivedCert at yields
  cases state : rc.keyState with
  | pending waiting =>
    rw [state] at yields
    obtain ⟨same, yields⟩ := Yields.guarded yields
    obtain ⟨roas, roasYielded, yields⟩ := yields.bind
    obtain ⟨aspas, aspasYielded, yields⟩ := yields.bind
    obtain ⟨bgpsecs, bgpsecsYielded, yields⟩ := yields.bind
    cases yields.pure
    exact .activated state (not_not.mp same)
      { roas, aspas, bgpsecs, roasYielded, aspasYielded, bgpsecsYielded }
  | active current =>
    rw [state] at yields
    exact forCurrent (by rw [currentKey, state, KeyState.currentKey])
      (fun _ none => by rw [state] at none; cases none) yields
  | rollPending waiting current =>
    rw [state] at yields
    by_cases key : cert.keyIdentifier = waiting.keyId
    · dsimp only at yields
      rw [if_pos key] at yields
      cases yields.pure
      exact .staged state key
    · dsimp only at yields
      rw [if_neg key] at yields
      exact forCurrent (by rw [currentKey, state, KeyState.currentKey])
        (fun _ none => by rw [state] at none; cases none) yields
  | rollNew new current =>
    rw [state] at yields
    by_cases key : cert.keyIdentifier = new.keyId
    · dsimp only at yields
      rw [if_pos key] at yields
      cases yields.pure
      exact .forNew state key
    · dsimp only at yields
      rw [if_neg key] at yields
      exact forCurrent (by rw [currentKey, state, KeyState.currentKey])
        (fun _ staged => by rw [state] at staged; cases staged; exact key) yields
  | rollOld current old =>
    rw [state] at yields
    exact forCurrent (by rw [currentKey, state, KeyState.currentKey])
      (fun _ none => by rw [state] at none; cases none) yields

theorem Received.sound (received : rc.Received env cert routes aspaDefs bgpsecDefs config events)
    (later : Surroundings) : SoundFor later rc.name rc events := by
  have received_sound {objects : List CaEvtDet} (takes : rc.keyState.Takes cert.keyIdentifier)
      (certified : rc.currentKey.isSome)
      (areObjects : ∀ event ∈ objects, event.IsObjects rc.name) :
      SoundFor later rc.name rc (.certificateReceived rc.name cert cert.keyIdentifier :: objects) :=
    .cons rfl ⟨rfl, takes⟩ fun changed done =>
      .ofObjects (CaEvtDet.currentKey_onClass done certified) areObjects
  cases received with
  | activated state key updates =>
    refine .cons rfl ⟨_, state, ⟨_, rfl⟩, key⟩ fun changed done => .ofObjects ?_ ?_
    · rw [CaEvtDet.onClass, pendingKeyToActive, state] at done
      cases done
      rfl
    · exact List.forall_mem_append.mpr ⟨List.forall_mem_append.mpr
        ⟨updates.roas.events_isObjects _, updates.aspas.events_isObjects _⟩,
        updates.bgpsecs.events_isObjects _⟩
  | staged state key =>
    exact .cons rfl ⟨_, _, state, ⟨_, rfl⟩, key⟩ fun _ _ => .nil
  | forNew state key =>
    refine received_sound ?_ ?_ (List.forall_mem_nil _)
    · rw [state]
      exact .inl key
    · rw [currentKey, state]
      rfl
  | renewed isCurrent key _ _ =>
    refine received_sound (key ▸ takes_current isCurrent) ?_ (List.forall_mem_nil _)
    rw [isCurrent]
    rfl
  | changed isCurrent key _ _ certs updates shrunk =>
    refine received_sound (key ▸ takes_current isCurrent) ?_ ?_
    · rw [isCurrent]
      rfl
    · refine List.forall_mem_append.mpr ⟨List.forall_mem_append.mpr
        ⟨List.forall_mem_append.mpr ⟨?_, ?_⟩, ?_⟩, ?_⟩
      · exact certs.events_isObjects _
      · exact updates.roas.events_isObjects _
      · exact updates.aspas.events_isObjects _
      · exact updates.bgpsecs.events_isObjects _

end Received

variable {rc : ResourceClass}

theorem makeEntitlementEvents_yields
    (yields : Yields (rc.makeEntitlementEvents env entitlement baseRepo) events) :
    ∀ event ∈ events, (∃ repo key request, event = .certificateRequested rc.name request key ∧
      (repo, key) ∈ rc.keyState.keysForRequests env entitlement baseRepo ∧
      Yields (KeyState.createIssuanceReq repo rc.nameSpace entitlement.className key) request) ∨
      ∃ revokeReq, event = .unexpectedKeyFound rc.name revokeReq := by
  obtain ⟨requested, requests, yields⟩ := yields.bind
  cases yields.pure
  intro event member
  obtain member | member := List.mem_append.mp member
  · obtain ⟨⟨repo, key⟩, listed, yielded⟩ := requests.exists_item member
    obtain ⟨request, made, yielded⟩ := yielded.bind
    exact .inl ⟨repo, key, request, yielded.pure, listed, made⟩
  · obtain ⟨key, _, rfl⟩ := List.mem_map.mp member
    exact .inr ⟨_, rfl⟩

theorem keyrollInitiate_yields (yields : Yields (rc.keyrollInitiate env repo duration) events) :
    events = [] ∨ ∃ current key request, rc.keyState = .active current ∧
      Yields (KeyState.createIssuanceReq repo rc.nameSpace rc.parentRcName key) request ∧
      events = [.keyRollPendingKeyAdded rc.name key,
        .certificateRequested rc.name request key] := by
  unfold keyrollInitiate at yields
  split at yields
  · exact .inl yields.pure
  · unfold KeyState.keyrollInitiate at yields
    cases state : rc.keyState <;> rw [state] at yields
    case active current =>
      obtain ⟨key, created, yields⟩ := yields.bind
      obtain ⟨request, requested, yields⟩ := yields.bind
      exact .inr ⟨current, key, request, rfl, requested, yields.pure⟩
    all_goals exact .inl yields.pure

structure Reissued (rc : ResourceClass) (env : Surroundings) (newKey : CertifiedKey)
    (timing : IssuanceTimingConfig) where
  roas : RoaUpdates
  aspas : AspaObjectsUpdates
  certs : ChildCertificateUpdates
  bgpsecs : BgpSecCertificateUpdates
  roasYielded : Yields (rc.roas.renew env true newKey timing) roas
  aspasYielded : Yields (rc.aspas.renew env newKey none timing) aspas
  certsYielded : Yields (rc.certificates.activateKey env newKey timing) certs
  bgpsecsYielded : Yields (rc.bgpsecCertificates.renew env newKey none timing) bgpsecs

def Reissued.events {rc : ResourceClass} {env : Surroundings} {newKey : CertifiedKey}
    {timing : IssuanceTimingConfig} (self : rc.Reissued env newKey timing) : List CaEvtDet :=
  self.roas.events rc.name ++ self.aspas.events rc.name ++ self.certs.events rc.name ++
    self.bgpsecs.events rc.name

theorem Reissued.events_isObjects (reissued : rc.Reissued env newKey timing) :
    ∀ event ∈ reissued.events, event.IsObjects rc.name := by
  refine List.forall_mem_append.mpr ⟨List.forall_mem_append.mpr
    ⟨List.forall_mem_append.mpr ⟨?_, ?_⟩, ?_⟩, ?_⟩
  · exact reissued.roas.events_isObjects _
  · exact reissued.aspas.events_isObjects _
  · exact reissued.certs.events_isObjects _
  · exact reissued.bgpsecs.events_isObjects _

theorem keyrollActivate_yields
    (yields : Yields (rc.keyrollActivate env stagingTime timing) events) :
    events = [] ∨ ∃ new current revokeReq, rc.keyState = .rollNew new current ∧
      ¬(stagingTime > 0 ∧ rc.lastKeyChange + stagingTime > env.now) ∧
      ∃ reissued : rc.Reissued env new timing,
        events = .keyRollActivated rc.name revokeReq :: reissued.events := by
  unfold keyrollActivate at yields
  cases state : rc.keyState with
  | rollNew new current =>
    rw [state] at yields
    dsimp only [KeyState.newKey] at yields
    split at yields
    · exact .inl yields.pure
    · next waited =>
      obtain ⟨activated, activatedYielded, yields⟩ := yields.bind
      obtain ⟨roas, roasYielded, yields⟩ := yields.bind
      obtain ⟨aspas, aspasYielded, yields⟩ := yields.bind
      obtain ⟨certs, certsYielded, yields⟩ := yields.bind
      obtain ⟨bgpsecs, bgpsecsYielded, yields⟩ := yields.bind
      obtain ⟨revokeReq, _, activatedYielded⟩ := activatedYielded.bind
      cases activatedYielded.pure
      exact .inr ⟨new, current, revokeReq, rfl, waited,
        { roas, aspas, certs, bgpsecs, roasYielded, aspasYielded, certsYielded,
          bgpsecsYielded }, yields.pure⟩
  | _ =>
    rw [state] at yields
    exact .inl yields.pure

omit [KrillSigner] in
theorem keyrollFinish_eq_ok (finished : rc.keyrollFinish = .ok event) :
    event = .keyRollFinished rc.name ∧ ∃ current old, rc.keyState = .rollOld current old := by
  unfold keyrollFinish at finished
  cases state : rc.keyState with
  | rollOld current old =>
    rw [state] at finished
    cases finished
    exact ⟨rfl, current, old, rfl⟩
  | _ =>
    rw [state] at finished
    cases finished

end ResourceClass

end Krill.Ca
