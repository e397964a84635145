import Krill.Daemon.TaskQueue
import Krill.Ca.ProcessCommand

namespace Krill.Ca

variable [Rpki]

def CertAuth.parentForRc (self : CertAuth) (rcn : ResourceClassName) : Except Error ParentHandle := do
  let rc ← self.getClass rcn
  return rc.parentHandle

end Krill.Ca

namespace Krill.Daemon

open EventSourcing (Time)
open Ca (CaHandle CaEvt CaEvtDet CertAuth ParentHandle ResourceClassName)

variable [Ca.Rpki]

namespace TaskQueue

def syncRepo (self : TaskQueue) (ca : CaHandle) (priority : Priority) : TaskQueue :=
  self.schedule (.syncRepo ca) priority

def syncRepos (self : TaskQueue) (now : Time) (cas : List CaHandle) : TaskQueue :=
  cas.foldl (fun queue ca => queue.syncRepo ca now) self

def syncParent (self : TaskQueue) (ca : CaHandle) (parent : ParentHandle)
    (priority : Priority) : TaskQueue :=
  self.schedule (.syncParent ca parent) priority

def syncParentForRc (self : TaskQueue) (handle : CaHandle) (ca : CertAuth)
    (rcn : ResourceClassName) (priority : Priority) : TaskQueue :=
  match ca.parentForRc rcn with
  | .ok parent => self.syncParent handle parent priority
  | .error _ => self

def syncNewParent (self : TaskQueue) (handle : CaHandle) (ca : CertAuth)
    (parent : ParentHandle) (priority : Priority) : TaskQueue :=
  match ca.repositoryContact with
  | .ok _ => self.syncParent handle parent priority
  | .error _ => self

def syncParents (self : TaskQueue) (handle : CaHandle) (parents : List ParentHandle)
    (priority : Priority) : TaskQueue :=
  parents.foldl (fun queue parent => queue.syncParent handle parent priority) self

def listenEvent (self : TaskQueue) (now : Time) (order : IterOrder) (ca : CertAuth)
    (event : CaEvt) : TaskQueue :=
  let handle := event.handle
  match event.details with
  | .roasUpdated _ _
  | .aspaObjectsUpdated _ _
  | .childCertificatesUpdated _ _
  | .bgpSecCertificatesUpdated _ _
  | .childKeyRevoked _ _ _
  | .keyPendingToNew _ _
  | .keyPendingToActive _ _
  | .keyRollFinished _ => self.syncRepo handle now
  | .keyRollActivated rcn _ => (self.syncParentForRc handle ca rcn now).syncRepo handle now
  | .parentRemoved parent => (self.dropSyncParent handle parent).syncRepo handle now
  | .resourceClassRemoved rcn parent revokeRequests =>
    (self.syncRepo handle now).schedule
      (.resourceClassRemoved handle parent rcn revokeRequests) now
  | .unexpectedKeyFound rcn revokeReq => self.schedule (.unexpectedKey handle rcn revokeReq) now
  | .parentAdded parent _ => self.syncNewParent handle ca parent now
  | .repoUpdated _ => self.syncParents handle ((ca.parents.iter order).map Prod.fst) now
  | .certificateRequested rcn _ _ => self.syncParentForRc handle ca rcn now
  | _ => self

def listen (self : TaskQueue) (now : Time) (order : IterOrder) (ca : CertAuth)
    (events : List CaEvt) : TaskQueue :=
  events.foldl (fun queue event => queue.listenEvent now order ca event) self

end TaskQueue

def syncsRepo : CaEvtDet → Bool
  | .roasUpdated _ _
  | .aspaObjectsUpdated _ _
  | .childCertificatesUpdated _ _
  | .bgpSecCertificatesUpdated _ _
  | .childKeyRevoked _ _ _
  | .keyPendingToNew _ _
  | .keyPendingToActive _ _
  | .keyRollFinished _
  | .keyRollActivated _ _
  | .parentRemoved _
  | .resourceClassRemoved _ _ _ => true
  | _ => false

namespace TaskQueue

variable {queue : TaskQueue}

theorem queued_syncRepos : (queue.syncRepos now cas).Queued task ↔
    queue.Queued task ∨ ∃ ca ∈ cas, task = .syncRepo ca := by
  unfold syncRepos
  induction cas generalizing queue with
  | nil => simp
  | cons ca rest induction =>
    rw [List.foldl_cons, induction, syncRepo, queued_schedule, or_assoc, List.exists_mem_cons_iff]

theorem queued_syncParents : (queue.syncParents handle parents now).Queued task ↔
      queue.Queued task ∨ ∃ parent ∈ parents, task = .syncParent handle parent := by
  unfold syncParents
  induction parents generalizing queue with
  | nil => simp
  | cons parent rest induction =>
    rw [List.foldl_cons, induction, syncParent, queued_schedule, or_assoc, List.exists_mem_cons_iff]

theorem queued_syncParentForRc :
    (queue.syncParentForRc handle ca rcn now).Queued task ↔ queue.Queued task ∨
      ∃ parent, ca.parentForRc rcn = .ok parent ∧ task = .syncParent handle parent := by
  unfold syncParentForRc
  cases ca.parentForRc rcn with
  | ok parent => simp [syncParent, queued_schedule]
  | error failure => simp

theorem queued_syncNewParent :
    (queue.syncNewParent handle ca parent now).Queued task ↔ queue.Queued task ∨
      ca.repositoryContact.isOk ∧ task = .syncParent handle parent := by
  unfold syncNewParent
  cases ca.repositoryContact with
  | ok contact => simp [syncParent, queued_schedule, Except.isOk, Except.toBool]
  | error failure => simp [Except.isOk, Except.toBool]

theorem ca_of_listenEvent (queued : (queue.listenEvent now order ca event).Queued task) :
    queue.Queued task ∨ task.ca = some event.handle := by
  obtain ⟨handle, version, details⟩ := event
  revert queued
  cases details <;>
    simp only [listenEvent, syncRepo, queued_schedule, queued_dropSyncParent, queued_syncParents,
      queued_syncParentForRc, queued_syncNewParent] <;>
    grind [Task.ca]

theorem queued_listenEvent : (queue.listenEvent now order ca event).Queued (.syncRepo handle) ↔
      queue.Queued (.syncRepo handle) ∨ syncsRepo event.details ∧ handle = event.handle := by
  obtain ⟨own, version, details⟩ := event
  cases details <;>
    simp [listenEvent, syncRepo, queued_schedule, queued_dropSyncParent, queued_syncParents,
      queued_syncParentForRc, queued_syncNewParent, syncsRepo]

theorem ca_of_listen (queued : (queue.listen now order ca events).Queued task) :
    queue.Queued task ∨ ∃ event ∈ events, task.ca = some event.handle := by
  unfold listen at queued
  induction events generalizing queue with
  | nil => exact .inl queued
  | cons event rest induction =>
    obtain there | ⟨other, member, isOwn⟩ := induction queued
    · refine (ca_of_listenEvent there).imp_right fun isOwn => ?_
      exact ⟨event, List.mem_cons_self, isOwn⟩
    · exact .inr ⟨other, List.mem_cons_of_mem _ member, isOwn⟩

theorem queued_listen : (queue.listen now order ca events).Queued (.syncRepo handle) ↔
      queue.Queued (.syncRepo handle) ∨
        ∃ event ∈ events, syncsRepo event.details ∧ handle = event.handle := by
  unfold listen
  induction events generalizing queue with
  | nil => simp
  | cons event rest induction =>
    rw [List.foldl_cons, induction, queued_listenEvent, or_assoc, List.exists_mem_cons_iff]

end TaskQueue

end Krill.Daemon
