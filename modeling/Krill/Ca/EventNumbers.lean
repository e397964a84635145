import Krill.Ca.NoPanic
import Krill.Ca.OwnEvents
import Krill.EventSourcing.AggregateStore

namespace Krill.EventSourcing

open Aggregate AggregateStore

theorem checkEvents_of_numbered [Aggregate] {events : List Event}
    (numbered : ∀ index event, events[index]? = some event →
      eventHandle event = handle ∧ eventVersion event = start + index) :
    checkEvents handle start events = .ok () := by
  induction events generalizing start with
  | nil => rfl
  | cons event rest induction =>
    obtain ⟨same, first⟩ := numbered 0 event rfl
    have right : ¬(eventVersion event ≠ start ∨ eventHandle event ≠ handle) := by
      simp [same, first]
    rw [checkEvents, if_neg right]
    refine induction fun index event found => ?_
    obtain ⟨same, next⟩ := numbered (index + 1) event found
    exact ⟨same, next.trans (by omega)⟩

end Krill.EventSourcing

namespace Krill.Ca.CertAuth

open EventSourcing Rpki KrillSigner
open Stateful (Yields)

variable [Rpki] {ca : CertAuth}

def push (self : CertAuth) (res : List CaEvt × Nat) (details : CaEvtDet) : List CaEvt × Nat :=
  (res.1 ++ [{ handle := self.handle, version := res.2, details }], res.2 + 1)

def pushChildKeys (self : CertAuth) (env : Surroundings) (child : ChildDetails)
    (updates : ResourceClass → List KeyIdentifier → ChildCertificateUpdates) :
    List CaEvt × Nat :=
  (self.resources.iter env.order).foldl (fun res entry =>
    let certifiedKeys := child.issued env.order entry.1
    if certifiedKeys.isEmpty then res
    else self.push res (.childCertificatesUpdated entry.1 (updates entry.2 certifiedKeys)))
    ([], self.version)

theorem push_eventsFromDetails :
    ca.push (ca.eventsFromDetails before, ca.version + before.length) details =
      (ca.eventsFromDetails (before ++ [details]), ca.version + (before ++ [details]).length) := by
  simp [push, eventsFromDetails, List.zipIdx_append, Nat.add_assoc]

theorem foldl_push :
    details.foldl ca.push (ca.eventsFromDetails before, ca.version + before.length) =
      (ca.eventsFromDetails (before ++ details), ca.version + (before ++ details).length) := by
  induction details generalizing before with
  | nil => rw [List.append_nil]; rfl
  | cons first rest induction =>
    rw [List.foldl_cons, push_eventsFromDetails, induction, List.append_assoc, List.singleton_append]

theorem foldl_push_new : details.foldl ca.push ([], ca.version) =
      (ca.eventsFromDetails details, ca.version + details.length) :=
  @foldl_push _ ca [] details

theorem pushChildKeys_eq : ca.pushChildKeys env child updates =
    (ca.eventsFromDetails (ca.forChildKeys env child updates),
      ca.version + (ca.forChildKeys env child updates).length) := by
  rw [← foldl_push_new, forChildKeys, List.foldl_filterMap]
  unfold pushChildKeys
  congr 1
  funext res entry
  dsimp only
  split <;> rfl

variable [KrillSigner]

def pushEachClass (self : CertAuth) (env : Surroundings)
    (events : ResourceClassName → ResourceClass → SignM (List CaEvtDet)) : SignM (List CaEvt) := do
  let res ← (self.resources.iter env.order).foldlM (fun res entry => do
    let details ← events entry.1 entry.2
    return details.foldl self.push res) ([], self.version)
  return res.1

/-- As `processCommand`, with the handlers that count as they are in the source. -/
def countedCommand (self : CertAuth) (env : Surroundings) : CmdDet → SignM (List CaEvt)
  | .childRemove childHandle => liftExcept do
    let child ← self.getChild childHandle
    let res := self.pushChildKeys env child fun rc keys =>
      (keys.filterMap rc.issued).foldl (fun updates issued => updates.remove issued.key) .default
    return (self.push res (.childRemoved childHandle)).1
  | .childSuspendInactive childHandle => liftExcept do
    let child ← self.getChild childHandle
    if child.isSuspended then return []
    else
      let res := self.pushChildKeys env child fun rc keys =>
        (keys.filterMap rc.issued).foldl ChildCertificateUpdates.suspend .default
      if res.1.isEmpty then return res.1
      else return (self.push res (.childSuspended childHandle)).1
  | .childUnsuspend childHandle => liftExcept do
    let child ← self.getChild childHandle
    if !child.isSuspended then return []
    else
      let res := self.pushChildKeys env child fun rc keys =>
        (keys.filterMap rc.suspended).foldl (fun updates cert =>
          if cert.validity.notAfter > env.now + days 1 ∧
              contains child.resources cert.resources then updates.unsuspend cert
          else updates.remove cert.key) .default
      return (self.push res (.childUnsuspended childHandle)).1
  | .updateRcvdCert rcn cert config => do
    let rc ← liftExcept (self.getClass rcn)
    let details ← rc.updateReceivedCert env cert self.routes self.aspas self.bgpsecDefs config
    return (details.foldl self.push ([], self.version)).1
  | .keyRollInitiate duration =>
    if self.isTa then return []
    else self.pushEachClass env fun _ rc => do
      let repo ← liftExcept self.repositoryContact
      rc.keyrollInitiate env repo.repoInfo duration
  | .keyRollActivate stagingTime config =>
    if self.isTa then return []
    else self.pushEachClass env fun _ rc =>
      rc.keyrollActivate env stagingTime config.issuanceTiming
  | cmd => self.processCommand env cmd

theorem pushEachClass_eq : ca.pushEachClass env events = do
      let details ← ca.forEachClass env events
      return ca.eventsFromDetails details := by
  have loop (classes : List (ResourceClassName × ResourceClass)) (before : List CaEvtDet) :
      (do let res ← classes.foldlM (fun res entry => do
            let details ← events entry.1 entry.2
            return details.foldl ca.push res)
              (ca.eventsFromDetails before, ca.version + before.length)
          return res.1) =
        (do let found ← classes.mapM fun entry => events entry.1 entry.2
            return ca.eventsFromDetails (before ++ found.flatten) : SignM (List CaEvt)) := by
    induction classes generalizing before with
    | nil => simp
    | cons first rest induction =>
      simp only [List.foldlM_cons, List.mapM_cons, bind_assoc, pure_bind, foldl_push, induction,
        List.flatten_cons, List.append_assoc]
  refine (loop (ca.resources.iter env.order) []).trans ?_
  rw [forEachClass, bind_assoc]
  rfl

theorem countedCommand_eq : ca.countedCommand env cmd = ca.processCommand env cmd := by
  cases cmd with
  | childRemove | childUnsuspend =>
    simp only [countedCommand, processCommand, childRemove, childUnsuspend, pushChildKeys_eq,
      push_eventsFromDetails]
  | childSuspendInactive =>
    simp only [countedCommand, processCommand, childSuspendInactive, pushChildKeys_eq,
      push_eventsFromDetails]
    congr 1
    refine bind_congr fun child => ?_
    generalize ca.forChildKeys env child _ = details
    cases details <;> rfl
  | updateRcvdCert =>
    simp only [countedCommand, processCommand, updateReceivedCert, foldl_push_new]
  | keyRollInitiate | keyRollActivate =>
    simp only [countedCommand, processCommand, keyrollInitiate, keyrollActivate, pushEachClass_eq]
  | _ => rfl

omit [KrillSigner] in
theorem version_of_applyNextAll (applied : ca.applyNextAll env details = some last) :
    last.version = ca.version + details.length := by
  induction details generalizing ca with
  | nil => cases applied; rfl
  | cons first rest induction =>
    obtain ⟨next, done, finished⟩ := applyNextAll_cons.mp applied
    rw [induction finished, (version_repository_of_apply done).1, List.length_cons]
    change ca.version + 1 + rest.length = _
    omega

/-- The store finds no wrong event, and replay looks for each event under its version. -/
theorem countedCommand_numbered (ca : CertAuth) (env : Surroundings) (cmd : CmdDet)
    (events : List CaEvt) (yields : Yields (ca.countedCommand env cmd) events) :
    (∀ index event, events[index]? = some event →
      event.handle = ca.handle ∧ event.version = ca.version + index ∧
      ∀ later replayed, ca.applyNextAll later ((events.take index).map StoredEvent.details) =
        some replayed → replayed.version = event.version) ∧
    ∀ [Aggregate] (stored : CaEvt → Aggregate.Event),
      (∀ event, Aggregate.eventHandle (stored event) = event.handle ∧
        Aggregate.eventVersion (stored event) = event.version) →
      AggregateStore.checkEvents ca.handle ca.version (events.map stored) = .ok () := by
  rw [countedCommand_eq] at yields
  obtain ⟨details, rfl⟩ := processCommand_returns env cmd yields
  have numbered (index : Nat) (event : CaEvt)
      (found : (ca.eventsFromDetails details)[index]? = some event) :
      event.handle = ca.handle ∧ event.version = ca.version + index := by
    rw [eventsFromDetails, List.getElem?_map, List.getElem?_zipIdx] at found
    obtain ⟨_, listed, rfl⟩ := Option.map_eq_some_iff.mp found
    obtain ⟨_, _, rfl⟩ := Option.map_eq_some_iff.mp listed
    exact ⟨rfl, congrArg (ca.version + ·) (Nat.zero_add index)⟩
  refine ⟨fun index event found => ?_, fun stored same => ?_⟩
  · obtain ⟨handle, version⟩ := numbered index event found
    refine ⟨handle, version, fun later replayed applied => ?_⟩
    obtain ⟨inside, _⟩ := List.getElem?_eq_some_iff.mp found
    rw [version_of_applyNextAll applied, version, List.length_map, List.length_take_of_le]
    exact inside.le
  · refine checkEvents_of_numbered fun index event found => ?_
    rw [List.getElem?_map] at found
    obtain ⟨event, present, rfl⟩ := Option.map_eq_some_iff.mp found
    rw [(same event).1, (same event).2]
    exact numbered index event present

end Krill.Ca.CertAuth

namespace Krill.Ca.Numbered

open CertAuth
open Stateful (Yields)

/-- The certificate of the child is revoked, then the child is removed. -/
theorem removal_numbered : ∃ events,
    Yields (certified.1.countedCommand env (.childRemove "child")) events ∧ events.length = 2 ∧
    ∀ index event, events[index]? = some event → event.version = certified.1.version + index := by
  have accepted : Yields (certified.1.countedCommand env (.childRemove "child")) _ :=
    ⟨(0 : Nat), (0 : Nat), rfl⟩
  refine ⟨_, accepted, rfl, fun index event found => ?_⟩
  exact ((countedCommand_numbered certified.1 env (.childRemove "child") _ accepted).1 index event
    found).2.1

end Krill.Ca.Numbered
