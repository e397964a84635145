import Krill.Daemon.TaskListener
import Krill.Ca.ReissueAll
import Krill.Ca.OwnEvents

namespace Krill.Daemon

open EventSourcing (Time)
open Ca Ca.KrillSigner
open Stateful (Yields)
open CaObjectsStore (caObjects caObjects_putCaObjects reissueCa reissueCas reissueCas_eq_ok)

variable [Rpki] [KrillSigner]

/-! All CAs of the daemon, with what is kept for them: their objects, what is known of their
last exchanges with others, and tasks for the scheduler. -/

structure CaServer where
  caStore : HashMap CaHandle CertAuth
  caObjectsStore : CaObjectsStore
  statusStore : List CaHandle
  tasks : TaskQueue
  atWork : List CaHandle
  signer : Signer

/-- A request of which more may be asked than the daemon asks itself. -/
inductive Request where
  | deleteCa (handle : CaHandle)
  | syncRepo (handle : CaHandle)

namespace CaServer

def Known (server : CaServer) (handle : CaHandle) : Prop := (server.caStore.get handle).isSome

def Serves (server : CaServer) (handle : CaHandle) : Prop :=
  server.Known handle ∨ handle ∈ server.atWork

def objects (self : CaServer) (handle : CaHandle) : CaObjects :=
  self.caObjectsStore.caObjects handle

def new (issuanceTiming : IssuanceTimingConfig) (signer : Signer) : CaServer where
  caStore := .empty
  caObjectsStore := { store := .empty, issuanceTiming }
  statusStore := []
  tasks := .default
  atWork := []
  signer := signer

def taHandle : CaHandle := "ta"

/-- Add a CA without a repo, no parents, no children, no nothing. Nothing is added for its
objects or its status. -/
def addCa (self : CaServer) (handle : CaHandle) : Option CaServer :=
  if self.caStore.containsKey handle then none
  else
    match createSelfSignedIdCert self.signer with
    | .ok cert signer => some { self with
        caStore := self.caStore.insert handle (.init handle { cert }), signer }
    | .error _ _ => none

def initCa (self : CaServer) (handle : CaHandle) : Option CaServer :=
  if handle = taHandle ∨ handle = "version" then none else self.addCa handle

def initTa (self : CaServer) : Option CaServer := self.addCa taHandle

def deleteCa (self : CaServer) (handle : CaHandle) : Option CaServer :=
  if self.caStore.containsKey handle then some { self with
    caStore := self.caStore.remove handle
    statusStore := self.statusStore.filter fun known => known ≠ handle
    tasks := self.tasks.removeTasksForCa handle }
  else none

def save (self : CaServer) (noticing : Surroundings) (handle : CaHandle) (ca : CertAuth)
    (events : List CaEvt) (caObjectsStore : CaObjectsStore) (signer : Signer) : CaServer :=
  { self with
    caStore := self.caStore.insert handle ca, caObjectsStore, signer
    tasks := self.tasks.listen noticing.now noticing.order ca events }

/-- New manifests and CRLs for all CAs that need them, or for all. What was stored when an
error occurs stays stored, and the list of CAs is lost with the error. -/
def republish (self : CaServer) (order : IterOrder) (surroundings : CaHandle → Surroundings)
    (now : Time) (force : Bool) (replan : TaskQueue → TaskQueue) : CaServer :=
  match CaObjectsStore.reissueCas surroundings force (self.caObjectsStore.cas order)
      (self.caObjectsStore, self.signer) with
  | .ok cas (caObjectsStore, signer) =>
    { self with caObjectsStore, signer, tasks := replan (self.tasks.syncRepos now cas) }
  | .error _ (caObjectsStore, signer) => { self with caObjectsStore, signer }

def republishAll (self : CaServer) (order : IterOrder) (surroundings : CaHandle → Surroundings)
    (now : Time) (force : Bool) : CaServer :=
  self.republish order surroundings now force id

def republishIfNeeded (self : CaServer) (order : IterOrder)
    (surroundings : CaHandle → Surroundings) (now : Time) : CaServer :=
  self.republish order surroundings now false fun tasks =>
    tasks.schedule .republishIfNeeded (now + minutes 5)

/-- A command that a CA accepts, and what the listeners make of its events: the objects
follow before the CA is saved, the queue after that. -/
inductive Sends (server : CaServer) (handle : CaHandle) (env listening noticing : Surroundings)
    (cmd : CmdDet) : CertAuth → List CaEvt → CaServer → Prop
  | sent {ca : CertAuth} (last : CertAuth) {events : List CaEvt} {later : Surroundings}
      {used signer : Signer} {caObjectsStore : CaObjectsStore} (known : server.caStore.get handle = some ca)
      (accepted : ca.processCommand env cmd server.signer = .ok events used)
      (yields : events ≠ []) (applied : ca.applyAll later events = some last)
      (listened : server.caObjectsStore.listen listening last events used =
        .ok caObjectsStore signer) :
      Sends server handle env listening noticing cmd ca events
        (server.save noticing handle last events caObjectsStore signer)

def sendCommand (self : CaServer) (handle : CaHandle) (env : Surroundings) (cmd : CmdDet) :
    Option CaServer :=
  match self.caStore.get handle with
  | none => none
  | some ca =>
    match ca.processCommand env cmd self.signer with
    | .error _ _ => none
    | .ok events used =>
      match ca.applyAll env events with
      | none => none
      | some last =>
        match self.caObjectsStore.listen env last events used with
        | .error _ _ => none
        | .ok caObjectsStore signer =>
          if events.isEmpty then none
          else some (self.save env handle last events caObjectsStore signer)

inductive Step (given : Signer → Token → Prop) (meets : CaServer → Request → Prop)
    (server : CaServer) : CaServer → Prop
  | initCa {handle : CaHandle} {next : CaServer} (done : server.initCa handle = some next) :
      Step given meets server next
  | initTa {next : CaServer} (done : server.initTa = some next) : Step given meets server next
  | command {handle : CaHandle} {env listening noticing : Surroundings} {cmd : CmdDet}
      {ca : CertAuth} {events : List CaEvt} {next : CaServer}
      (sends : server.Sends handle env listening noticing cmd ca events next) :
      Step given meets server next
  | signed {signer : Signer}
      (remembers : ∀ token, given server.signer token → given signer token) :
      Step given meets server { server with signer }
  | republishAll (order : IterOrder) (surroundings : CaHandle → Surroundings) (now : Time)
      (force : Bool) : Step given meets server (server.republishAll order surroundings now force)
  | republishIfNeeded (order : IterOrder) (surroundings : CaHandle → Surroundings) (now : Time) :
      Step given meets server (server.republishIfNeeded order surroundings now)
  | deprecatedRepoRemove {handle : CaHandle} (serves : server.Serves handle)
      (toRemove : RepositoryContact) : Step given meets server { server with
        caObjectsStore := server.caObjectsStore.putCaObjects handle
          ((server.objects handle).deprecatedRepoRemove toRemove) }
  | deprecatedRepoIncCleanAttempts {handle : CaHandle} (serves : server.Serves handle)
      (contact : RepositoryContact) : Step given meets server { server with
        caObjectsStore := server.caObjectsStore.putCaObjects handle
          ((server.objects handle).deprecatedRepoIncCleanAttempts contact) }
  | status {handle : CaHandle} (serves : server.Serves handle) :
      Step given meets server { server with statusStore := handle :: server.statusStore }
  | schedule {task : Task} (serves : ∀ handle, task.ca = some handle → server.Serves handle)
      (priority : Priority) :
      Step given meets server { server with tasks := server.tasks.schedule task priority }
  | syncRepo {handle : CaHandle} (met : meets server (.syncRepo handle)) (priority : Priority) :
      Step given meets server { server with tasks := server.tasks.syncRepo handle priority }
  | startTask {order : IterOrder} {due : Priority} {task : Task} {rest : TaskQueue}
      (popped : server.tasks.pop order due = some (task, rest)) :
      Step given meets server { server with
        tasks := rest, atWork := task.ca.toList ++ server.atWork }
  | startRequest {handle : CaHandle} (known : server.Known handle) :
      Step given meets server { server with atWork := handle :: server.atWork }
  | finish (handle : CaHandle) :
      Step given meets server { server with atWork := server.atWork.erase handle }
  | restart : Step given meets server { server with tasks := .default, atWork := [] }
  | deleteCa {handle : CaHandle} {next : CaServer} (met : meets server (.deleteCa handle))
      (done : server.deleteCa handle = some next) : Step given meets server next

inductive Runs (given : Signer → Token → Prop) (meets : CaServer → Request → Prop) :
    CaServer → Prop
  | init (issuanceTiming : IssuanceTimingConfig) (signer : Signer) :
      Runs given meets (.new issuanceTiming signer)
  | step {server next : CaServer} (runs : Runs given meets server)
      (step : Step given meets server next) : Runs given meets next

variable {server : CaServer}

theorem addCa_eq_some (done : server.addCa handle = some next) :
    server.caStore.get handle = none ∧ ∃ cert signer,
      createSelfSignedIdCert server.signer = .ok cert signer ∧
      next = { server with
        caStore := server.caStore.insert handle (.init handle { cert }), signer } := by
  unfold addCa at done
  split at done
  case isTrue => cases done
  case isFalse absent =>
    have unknown : server.caStore.get handle = none :=
      HashMap.containsKey_eq_false.mp (Bool.eq_false_of_not_eq_true absent)
    cases made : createSelfSignedIdCert server.signer with
    | ok cert signer =>
      rw [made] at done
      cases done
      exact ⟨unknown, cert, signer, rfl, rfl⟩
    | error message signer =>
      rw [made] at done
      cases done

theorem initCa_eq_some (done : server.initCa handle = some next) :
    server.addCa handle = some next := by
  unfold initCa at done
  split at done
  · cases done
  · exact done

theorem deleteCa_eq_some (done : server.deleteCa handle = some next) : next = { server with
      caStore := server.caStore.remove handle
      statusStore := server.statusStore.filter fun known => known ≠ handle
      tasks := server.tasks.removeTasksForCa handle } := by
  unfold deleteCa at done
  split at done
  · cases done
    rfl
  · cases done

/-- New manifests and CRLs for all CAs, or for those up to the first for which this fails. -/
inductive Republishes (server : CaServer) (order : IterOrder)
    (surroundings : CaHandle → Surroundings) (now : Time) (force : Bool)
    (replan : TaskQueue → TaskQueue) : CaServer → Prop
  | all {signer : Signer}
      (done : reissueCas surroundings force (server.caObjectsStore.cas order)
        (server.caObjectsStore, server.signer) = .ok reported (store, signer))
      (listed : reported = (server.caObjectsStore.cas order).filter fun ca =>
        (server.objects ca).reIssueRequired (surroundings ca) force
          server.caObjectsStore.issuanceTiming)
      (reissued : CaObjectsStore.Reissued surroundings force (server.caObjectsStore.cas order)
        server.caObjectsStore store) :
      Republishes server order surroundings now force replan
        { server with
          caObjectsStore := store, signer
          tasks := replan (server.tasks.syncRepos now reported) }
  | some {signer : Signer} {failure : Error}
      (split : server.caObjectsStore.cas order = pre ++ fail :: post)
      (early : reissueCas surroundings force pre
        (server.caObjectsStore, server.signer) = .ok reported (store, middle))
      (failed : reissueCa (surroundings fail) force fail (store, middle) =
        .error failure (store, signer))
      (reissued : CaObjectsStore.Reissued surroundings force pre server.caObjectsStore store) :
      Republishes server order surroundings now force replan
        { server with caObjectsStore := store, signer }

theorem republish_spec (server : CaServer) (order : IterOrder)
    (surroundings : CaHandle → Surroundings) (now : Time) (force : Bool)
    (replan : TaskQueue → TaskQueue) :
    server.Republishes order surroundings now force replan
      (server.republish order surroundings now force replan) := by
  have distinct : (server.caObjectsStore.cas order).Nodup := HashMap.iter_keys_nodup _ _
  unfold republish
  cases done : reissueCas surroundings force (server.caObjectsStore.cas order)
      (server.caObjectsStore, server.signer) with
  | ok reported state =>
    obtain ⟨store, signer⟩ := state
    obtain ⟨reissued, listed⟩ := reissueCas_eq_ok distinct done
    exact .all done listed reissued
  | error failure state =>
    obtain ⟨store, signer⟩ := state
    obtain ⟨pre, fail, post, reported, middle, split, early, failed⟩ :=
      CaObjectsStore.reissueCas_eq_error done
    rw [split] at distinct
    have distinct := (List.nodup_append.mp distinct).1
    exact .some split early failed (reissueCas_eq_ok distinct early).1

inductive ObjectsStep (before after : CaObjects) : Prop
  | same (same : after = before)
  | listened {env : Surroundings} {timing : IssuanceTimingConfig} {events : List CaEvt}
      (yields : Yields (before.listen env timing events) after)
  | reissued {env : Surroundings} {force : Bool} {timing : IssuanceTimingConfig}
      (yields : Yields (before.reIssue env force timing) after)
  | cleaned (classes : after.classes = before.classes)

theorem ObjectsStep.ofReissued
    (reissued : CaObjectsStore.Reissued surroundings force cas before after) (handle : CaHandle) :
    ObjectsStep (before.caObjects handle) (after.caObjects handle) := by
  by_cases member : handle ∈ cas
  · exact .reissued (reissued.reissued handle member)
  · refine .same ?_
    unfold caObjects
    rw [reissued.others handle member]

theorem ObjectsStep.ofPut {store : CaObjectsStore} {objects : CaObjects}
    (step : ObjectsStep (store.caObjects handle) objects) :
    ObjectsStep (store.caObjects other) ((store.putCaObjects handle objects).caObjects other) := by
  rw [caObjects_putCaObjects]
  split
  case isTrue same =>
    rw [same]
    exact step
  case isFalse => exact .same rfl

def Keyed (server : CaServer) : Prop :=
  ∀ ⦃handle ca⦄, server.caStore.get handle = some ca → ca.handle = handle

theorem Keyed.insert (keyed : server.Keyed) (own : ca.handle = handle) ⦃other : CaHandle⦄
    ⦃found : CertAuth⦄ (present : (server.caStore.insert handle ca).get other = some found) :
    found.handle = other := by
  obtain ⟨rfl, rfl⟩ | present := HashMap.get_insert_eq_some present
  · exact own
  · exact keyed present

structure Followed (server : CaServer) (handle : CaHandle) (listening noticing : Surroundings)
    (events : List CaEvt) (next : CaServer) : Prop where
  own : ∀ event ∈ events, event.handle = handle
  yields : Yields ((server.objects handle).listen listening
    server.caObjectsStore.issuanceTiming events) (next.objects handle)
  others : ∀ other ≠ handle, next.objects other = server.objects other
  tasks : ∃ last, next.tasks = server.tasks.listen noticing.now noticing.order last events

theorem sends_of_sendCommand (sent : server.sendCommand handle env cmd = some next) :
    ∃ ca events, server.Sends handle env env env cmd ca events next := by
  unfold sendCommand at sent
  split at sent
  case h_1 => cases sent
  case h_2 ca known =>
    split at sent
    case h_1 => cases sent
    case h_2 events used accepted =>
      split at sent
      case h_1 => cases sent
      case h_2 last applied =>
        split at sent
        case h_1 => cases sent
        case h_2 store signer listened =>
          split at sent
          case isTrue => cases sent
          case isFalse yields =>
            cases sent
            exact ⟨ca, events, .sent last known accepted
              (fun none => yields (List.isEmpty_iff.mpr none)) applied listened⟩

section Command

theorem Sends.followed (keyed : server.Keyed)
    (sends : server.Sends handle env listening noticing cmd ca events next) :
    server.Followed handle listening noticing events next := by
  cases sends with
  | sent last known accepted yields applied listened =>
    have own := keyed known
    have same : last.handle = handle := by
      rw [CertAuth.applyAll_eq] at applied
      exact (CaManager.handle_of_applyNextAll applied).trans own
    obtain ⟨objects, _, followed, stored⟩ := Stateful.bind_eq_ok.mp listened
    cases stored
    have found (other : CaHandle) :
        (server.caObjectsStore.putCaObjects last.handle objects).caObjects other =
          if other = handle then objects else server.objects other := by
      rw [caObjects_putCaObjects, same]
      rfl
    refine ⟨fun event member => ?_, ?_, fun other apart => ?_, last, rfl⟩
    · rw [(CertAuth.processCommand_returns _ _ ⟨_, _, accepted⟩).handle member, own]
    · have here : (server.caObjectsStore.putCaObjects last.handle objects).caObjects handle =
          objects := (found handle).trans (if_pos rfl)
      rw [same] at followed
      change Yields _ ((server.caObjectsStore.putCaObjects last.handle objects).caObjects handle)
      rw [here]
      exact ⟨_, _, followed⟩
    · exact (found other).trans (if_neg apart)

theorem Sends.keyed (keyed : server.Keyed)
    (sends : server.Sends handle env listening noticing cmd ca events next) : next.Keyed := by
  cases sends with
  | sent last known accepted yields applied listened =>
    rw [CertAuth.applyAll_eq] at applied
    exact keyed.insert ((CaManager.handle_of_applyNextAll applied).trans (keyed known))

end Command

theorem Republishes.objects
    (republishes : server.Republishes order surroundings now force replan next) :
    next.caStore = server.caStore ∧
      ∀ handle, ObjectsStep (server.objects handle) (next.objects handle) := by
  cases republishes with
  | all done listed reissued => exact ⟨rfl, .ofReissued reissued⟩
  | some split early failed reissued => exact ⟨rfl, .ofReissued reissued⟩

theorem addCa_keyed (keyed : server.Keyed) (done : server.addCa handle = some next) :
    next.Keyed ∧ next.caObjectsStore = server.caObjectsStore := by
  obtain ⟨_, cert, signer, _, rfl⟩ := addCa_eq_some done
  exact ⟨keyed.insert rfl, rfl⟩

theorem Step.spec (step : Step given meets server next) (keyed : server.Keyed) :
    next.Keyed ∧ ∀ handle, ObjectsStep (server.objects handle) (next.objects handle) := by
  have unchanged (keyed : next.Keyed)
      (same : next.caObjectsStore = server.caObjectsStore) : next.Keyed ∧
      ∀ handle, ObjectsStep (server.objects handle) (next.objects handle) := by
    refine ⟨keyed, fun handle => .same ?_⟩
    unfold objects
    rw [same]
  cases step with
  | initCa done =>
    obtain ⟨added, same⟩ := addCa_keyed keyed (initCa_eq_some done)
    exact unchanged added same
  | initTa done =>
    obtain ⟨added, same⟩ := addCa_keyed keyed done
    exact unchanged added same
  | @command handle env listening noticing cmd ca events next sends =>
    have followed := sends.followed keyed
    refine ⟨sends.keyed keyed, fun other => ?_⟩
    by_cases own : other = handle
    · rw [own]
      exact .listened followed.yields
    · exact .same (followed.others other own)
  | republishAll order surroundings now force =>
    obtain ⟨same, steps⟩ :=
      (republish_spec server order surroundings now force id).objects
    exact ⟨fun _ _ found => keyed (same ▸ found), steps⟩
  | republishIfNeeded order surroundings now =>
    obtain ⟨same, steps⟩ := (republish_spec server order surroundings now false fun tasks =>
      tasks.schedule .republishIfNeeded (now + minutes 5)).objects
    exact ⟨fun _ _ found => keyed (same ▸ found), steps⟩
  | deprecatedRepoRemove | deprecatedRepoIncCleanAttempts =>
    exact ⟨keyed, fun _ => .ofPut (.cleaned rfl)⟩
  | deleteCa met done =>
    cases deleteCa_eq_some done
    exact unchanged (fun _ _ found => keyed (HashMap.get_of_remove found)) rfl
  | _ => exact unchanged keyed rfl

theorem Runs.keyed (runs : Runs given meets server) : server.Keyed := by
  induction runs with
  | init issuanceTiming signer => exact nofun
  | step _ step induction => exact (step.spec induction).1

theorem Runs.issued (decodes : Decodes decode) (runs : Runs given meets server)
    (handle : CaHandle) :
    (server.objects handle).EverySet fun _ set => set.Named ∧ set.Issued decode := by
  induction runs with
  | init issuanceTiming signer => exact fun _ _ found => nomatch found
  | @step server next runs step induction =>
    cases (step.spec runs.keyed).2 handle with
    | same same =>
      rw [same]
      exact induction
    | listened yields => exact CaObjects.EverySet.listen decodes induction yields
    | reissued yields =>
      exact CaObjects.EverySet.reIssue decodes
        (fun _ _ found set member => (induction found set member).1) (fun _ => induction) yields
    | cleaned classes =>
      intro rcn rco found
      rw [classes] at found
      exact induction found

end CaServer

end Krill.Daemon
