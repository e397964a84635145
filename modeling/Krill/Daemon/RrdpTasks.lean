import Krill.Ca.Numbered
import Krill.Daemon.TaskQueue
import Krill.Pubd.Publication
import Krill.Pubd.RrdpCalls

namespace Krill.Daemon

open Ca (CaHandle ParentHandle)
open Pubd

variable [Ca.Rpki]

def SCHEDULER_RESYNC_REPO_CAS_THRESHOLD : Nat := 5

def SCHEDULER_USE_JITTER_CAS_THRESHOLD : Nat := 50

/-- What the tasks at the start of the server depend on: the CAs with their parents, and the
configuration. -/
structure StartTasks where
  cas : List (CaHandle × List ParentHandle)
  caRefreshParentsBatchSize : Nat
  caRefreshStartUp : CaHandle → ParentHandle → Bool → Priority
  suspendsChildren : Bool

namespace StartTasks

def queueForCa (self : StartTasks) (now : Time) (tasks : TaskQueue)
    (ca : CaHandle × List ParentHandle) : TaskQueue :=
  let useJitter := SCHEDULER_USE_JITTER_CAS_THRESHOLD ≤ self.cas.length ∨
    self.caRefreshParentsBatchSize ≤ ca.2.length
  let tasks := ca.2.foldl (fun tasks parent =>
    tasks.schedule (.syncParent ca.1 parent) (self.caRefreshStartUp ca.1 parent useJitter)) tasks
  let tasks := if SCHEDULER_RESYNC_REPO_CAS_THRESHOLD ≤ self.cas.length then tasks
    else tasks.schedule (.syncRepo ca.1) now
  if self.suspendsChildren then tasks.schedule (.suspendChildrenIfNeeded ca.1) now else tasks

def queueStartTasks (self : StartTasks) (now : Time) (tasks : TaskQueue) : TaskQueue :=
  let tasks := self.cas.foldl (self.queueForCa now) tasks
  let tasks := tasks.schedule .republishIfNeeded now
  let tasks := tasks.schedule .renewObjectsIfNeeded now
  let tasks := tasks.schedule .refreshAnnouncementsInfo now
  let tasks := tasks.schedule .sweepLoginCache (now + 60)
  tasks.schedule .updateSnapshots (now + 24 * 3600)

theorem queued_foldl {step : TaskQueue → A → TaskQueue}
    (keeps : ∀ queue item, queue.Queued task → (step queue item).Queued task)
    (queued : queue.Queued task) (items : List A) : (items.foldl step queue).Queued task := by
  induction items generalizing queue with
  | nil => exact queued
  | cons first rest induction => exact induction (keeps queue first queued)

variable {self : StartTasks}

theorem queued_queueForCa (queued : queue.Queued task) :
    (self.queueForCa now queue ca).Queued task := by
  have schedules (condition : Prop) [Decidable condition] {queue : TaskQueue} (other : Task)
      (priority : Priority) (queued : queue.Queued task) :
      (if condition then queue.schedule other priority else queue).Queued task := by
    split
    · exact queued.schedule other priority
    · exact queued
  unfold queueForCa
  refine schedules _ _ _ ?_
  rw [← ite_not]
  refine schedules _ _ _ ?_
  exact queued_foldl (fun _ _ queued => queued.schedule _ _) queued ca.2

theorem queued_queueStartTasks (queued : queue.Queued task) :
    (self.queueStartTasks now queue).Queued task := by
  have cas : (self.cas.foldl (self.queueForCa now) queue).Queued task :=
    queued_foldl (fun _ ca queued => queued_queueForCa queued) queued self.cas
  exact ((((cas.schedule _ _).schedule _ _).schedule _ _).schedule _ _).schedule _ _

end StartTasks

variable [Pubd.Rpki] [RrdpXml] [RsyncFiles]

inductive Running where
  | task (task : Task)
  | rrdpUpdate (call : RrdpCall)

def Running.start : Task → Running
  | .rrdpUpdateIfNeeded => .rrdpUpdate .updateRrdpIfNeeded
  | other => .task other

structure RepositoryDaemon where
  repository : Repository
  tasks : TaskQueue
  running : Option Running

inductive RepositoryAction where
  | publish (env : Surroundings) (request : PublishRequest)
  | createPublisher (env : Surroundings) (publisher : PublisherHandle)
  | removePublisher (env : Surroundings) (publisher : PublisherHandle) (accessFails : Bool)
  | sessionReset (env : Surroundings)
  | clearAndInit (env : Surroundings)
  | schedule (task : Task) (priority : Priority)
  | removeTasksForCa (ca : CaHandle)
  | dropSyncParent (ca : CaHandle) (parent : ParentHandle)
  | pop (env : Surroundings)
  | startTasks (plan : StartTasks) (now : Time)
  | finish
  | advance (env : Surroundings)
  | report (now : Time)
  | restart (now : Time)

namespace RepositoryDaemon

def withContent (self : RepositoryDaemon) (content : RepositoryContent) : RepositoryDaemon :=
  { self with repository := { self.repository with content } }

/-- Send a command for the content, and schedule an update of RRDP if asked to. A command that
fails changes nothing. -/
def command (self : RepositoryDaemon) (sent : Except PublishError RepositoryContent)
    (update : Option Priority) : RepositoryDaemon :=
  match sent with
  | .ok content =>
    match update with
    | some priority => { self.withContent content with
        tasks := self.tasks.schedule .rrdpUpdateIfNeeded priority }
    | none => self.withContent content
  | .error _ => self

def afterUpdate (now : Time) (tasks : TaskQueue) :
    Except RrdpCallError (Option Time) → TaskQueue
  | .error _ => tasks.schedule .rrdpUpdateIfNeeded (now + 3600)
  | .ok none => tasks
  | .ok (some laterTime) => tasks.schedule .rrdpUpdateIfNeeded laterTime

def perform (manager : RepositoryManager) (self : RepositoryDaemon) :
    RepositoryAction → RepositoryDaemon
  | .publish env request =>
    self.command (request.publish self.repository.content env) (some env.now)
  | .createPublisher env publisher =>
    self.command (self.repository.content.sendCommand env (.addPublisher publisher)) none
  | .removePublisher env publisher accessFails =>
    self.command (self.repository.content.sendCommand env (.removePublisher publisher))
      (if accessFails then none else some env.now)
  | .sessionReset env =>
    self.command (self.repository.content.sendCommand env .resetSession) none
  | .clearAndInit env =>
    if self.repository.content.publishers.isEmpty then self.withContent (.init env) else self
  | .schedule task priority => { self with tasks := self.tasks.schedule task priority }
  | .removeTasksForCa ca => { self with tasks := self.tasks.removeTasksForCa ca }
  | .dropSyncParent ca parent => { self with tasks := self.tasks.dropSyncParent ca parent }
  | .pop env =>
    match self.running, self.tasks.pop env.order env.now with
    | none, some (task, rest) => { self with tasks := rest, running := some (.start task) }
    | _, _ => self
  | .startTasks plan now =>
    match self.running with
    | some (.task .queueStartTasks) =>
      { self with tasks := plan.queueStartTasks now self.tasks, running := none }
    | _ => self
  | .finish =>
    match self.running with
    | some (.task .queueStartTasks) => self
    | some (.task _) => { self with running := none }
    | _ => self
  | .advance env =>
    match self.running with
    | some (.rrdpUpdate call) =>
      let next := manager.advance env call self.repository
      { self with running := some (.rrdpUpdate next.1), repository := next.2 }
    | _ => self
  | .report now =>
    match self.running with
    | some (.rrdpUpdate (.returned result)) =>
      { self with running := none, tasks := afterUpdate now self.tasks result }
    | _ => self
  | .restart now =>
    { repository := self.repository
      tasks := TaskQueue.default.schedule .queueStartTasks now
      running := none }

def HasStaged (daemon : RepositoryDaemon) : Prop :=
  daemon.repository.content.rrdp.stagedElements.map.isEmpty = false

/-- The conditions under which no update gets lost. A restart finds nothing staged. The access
of a publisher that has objects can be removed after its objects. And an update that was found
to be needed is still needed when the command for it is sent. -/
def Meets (manager : RepositoryManager) (self : RepositoryDaemon) : RepositoryAction → Prop
  | .restart _ => ¬ self.HasStaged
  | .removePublisher _ publisher true => ∀ objects,
      self.repository.content.publishers.get publisher = some objects →
        objects.map.isEmpty = true
  | .advance env => ∀ call, self.running = some (.rrdpUpdate call) → call = .updateRrdp →
      self.HasStaged → self.repository.content.rrdp.updateRrdpNeeded env manager.config = .yes
  | _ => True

inductive Runs (manager : RepositoryManager) : RepositoryDaemon → Prop
  | start (env : Surroundings) {repository : Repository}
      (new : repository.content = .init env) :
      Runs manager ⟨repository, TaskQueue.default.schedule .queueStartTasks env.now, none⟩
  | step {daemon : RepositoryDaemon} (runs : Runs manager daemon) (action : RepositoryAction)
      (met : daemon.Meets manager action) : Runs manager (daemon.perform manager action)
  | falters {daemon : RepositoryDaemon} (runs : Runs manager daemon) {call later : RrdpCall}
      {after : Repository} (running : daemon.running = some (.rrdpUpdate call))
      (falters : RepositoryManager.Falters (call, daemon.repository) (later, after)) :
      Runs manager { daemon with repository := after, running := some (.rrdpUpdate later) }

/-- The scheduler will look at what is staged, or come back later. -/
def WillLook : Running → Prop
  | .rrdpUpdate .updateRrdpIfNeeded => True
  | .rrdpUpdate .updateRrdp => True
  | .rrdpUpdate (.returned (.error _)) => True
  | .rrdpUpdate (.returned (.ok (some _))) => True
  | _ => False

def Seen (daemon : RepositoryDaemon) : Prop :=
  daemon.HasStaged → daemon.tasks.Queued .rrdpUpdateIfNeeded ∨
    ∃ running, daemon.running = some running ∧ WillLook running

variable {manager : RepositoryManager} {daemon : RepositoryDaemon}

theorem Seen.command (seen : daemon.Seen) (stages : ∀ content, sent = .ok content → update = none →
      content.rrdp.stagedElements.map.isEmpty = false → daemon.HasStaged) :
    (daemon.command sent update).Seen := by
  unfold RepositoryDaemon.command
  cases sent with
  | error error => exact seen
  | ok content =>
    cases update with
    | some priority => exact fun _ => .inl (daemon.tasks.queued_schedule_self _ priority)
    | none => exact fun staged => seen (stages content rfl rfl staged)

theorem Seen.removePublisher (seen : daemon.Seen)
    (met : daemon.Meets manager (.removePublisher env publisher accessFails)) :
    (daemon.perform manager (.removePublisher env publisher accessFails)).Seen := by
  refine seen.command ?_
  intro content sent failed staged
  cases accessFails with
  | false => cases failed
  | true =>
    cases known : daemon.repository.content.publishers.get publisher with
    | none =>
      rw [RepositoryContent.sendCommand_removePublisher_unknown known] at sent
      cases sent
      exact staged
    | some objects =>
      -- a publisher without objects has nothing to withdraw
      have nothing : objects.elements env.order = [] := by
        refine List.eq_nil_iff_forall_not_mem.mpr fun element member => ?_
        obtain ⟨hash, found⟩ := HashMap.mem_intoValues.mp member
        rw [HashMap.isEmpty_iff.mp (met objects known)] at found
        cases found
      rw [RepositoryContent.sendCommand_removePublisher known, nothing] at sent
      cases sent
      exact staged

theorem Seen.pop (seen : daemon.Seen) (env : Surroundings) :
    (daemon.perform manager (.pop env)).Seen := by
  simp only [perform]
  split
  · rename_i task rest idle popped
    intro staged
    rcases seen staged with queued | ⟨running, busy, _⟩
    · rcases TaskQueue.queued_of_pop popped queued with rfl | queued
      · exact .inr ⟨_, rfl, trivial⟩
      · exact .inl queued
    · rw [idle] at busy
      cases busy
  · exact seen

theorem Seen.call {call : RrdpCall} {tasks : TaskQueue}
    (seen : Seen ⟨before, tasks, some (.rrdpUpdate call)⟩) (content : WillLook (.rrdpUpdate later) ∨
      after.content.rrdp.stagedElements.map.isEmpty = true ∨
      (after.content.rrdp.stagedElements = before.content.rrdp.stagedElements ∧
        ¬ WillLook (.rrdpUpdate call))) : Seen ⟨after, tasks, some (.rrdpUpdate later)⟩ := by
  intro staged
  rcases content with looks | empty | ⟨same, blind⟩
  · exact .inr ⟨_, rfl, looks⟩
  · rw [HasStaged, empty] at staged
    cases staged
  · rw [HasStaged, same] at staged
    rcases seen staged with queued | ⟨running, busy, looks⟩
    · exact .inl queued
    · cases busy
      exact absurd looks blind

theorem Seen.falters {call : RrdpCall} (seen : daemon.Seen)
    (running : daemon.running = some (.rrdpUpdate call))
    (falters : RepositoryManager.Falters (call, daemon.repository) (later, after)) :
    Seen { daemon with repository := after, running := some (.rrdpUpdate later) } := by
  have before : Seen ⟨daemon.repository, daemon.tasks, some (.rrdpUpdate call)⟩ := by
    rw [← running]
    exact seen
  refine before.call ?_
  cases falters with
  | store asks => exact .inl trivial
  | _ => exact .inr (.inr ⟨rfl, id⟩)

variable {repository : Repository}

omit [Ca.Rpki] in
theorem createRrdpDelta_stagedElements
    (needed : repository.content.rrdp.stagedElements.map.isEmpty = false →
      repository.content.rrdp.updateRrdpNeeded env manager.config = .yes) :
    (manager.change env (.createRrdpDelta manager.config)
      repository).2.content.rrdp.stagedElements.map.isEmpty = true := by
  unfold RepositoryManager.change
  by_cases yes : repository.content.rrdp.updateRrdpNeeded env manager.config = .yes
  · rw [RepositoryContent.sendCommand_createRrdpDelta yes]
    rfl
  · rw [RepositoryContent.sendCommand_createRrdpDelta_unneeded yes]
    exact Bool.not_eq_false _ ▸ mt needed yes

theorem advance_sees (needed : call = .updateRrdp →
      repository.content.rrdp.stagedElements.map.isEmpty = false →
      repository.content.rrdp.updateRrdpNeeded env manager.config = .yes) :
    WillLook (.rrdpUpdate (manager.advance env call repository).1) ∨
      (manager.advance env call repository).2.content.rrdp.stagedElements.map.isEmpty = true ∨
      ((manager.advance env call repository).2.content.rrdp.stagedElements =
        repository.content.rrdp.stagedElements ∧ ¬ WillLook (.rrdpUpdate call)) := by
  cases call with
  | updateRrdpIfNeeded =>
    simp only [RepositoryManager.advance]
    split
    · rename_i notNeeded
      exact .inr (.inl (RrdpServer.updateRrdpNeeded_eq_no notNeeded))
    · exact .inl trivial
    · exact .inl trivial
  | updateRrdp => exact .inr (.inl (createRrdpDelta_stagedElements (needed rfl)))
  | sessionReset => exact .inr (.inr ⟨rfl, id⟩)
  | writeRrdp content rest =>
    refine .inr (.inr ⟨?_, id⟩)
    cases rest with
    | done result => cases result <;> rfl
    | look next => rfl
    | act change next => rfl
    | attempt change next => rfl
  | writeRsync content rest =>
    refine .inr (.inr ⟨?_, id⟩)
    cases rest with
    | done result => cases result <;> rfl
    | look next => rfl
    | act change next => rfl
    | attempt change next => rfl
  | returned result =>
    cases result with
    | error error => exact .inl trivial
    | ok later =>
      cases later with
      | none => exact .inr (.inr ⟨rfl, id⟩)
      | some time => exact .inl trivial

theorem Seen.advance (seen : daemon.Seen) (met : daemon.Meets manager (.advance env)) :
    (daemon.perform manager (.advance env)).Seen := by
  simp only [perform]
  split
  · rename_i call running
    have before : Seen ⟨daemon.repository, daemon.tasks, some (.rrdpUpdate call)⟩ := by
      rw [← running]
      exact seen
    exact before.call (advance_sees (met call running))
  · exact seen

theorem Seen.report (seen : daemon.Seen) (now : Time) :
    (daemon.perform manager (.report now)).Seen := by
  simp only [perform]
  split
  · rename_i result running
    intro staged
    refine .inl ?_
    cases result with
    | error error => exact daemon.tasks.queued_schedule_self _ _
    | ok later =>
      cases later with
      | some time => exact daemon.tasks.queued_schedule_self _ _
      | none =>
        rcases seen staged with queued | ⟨other, busy, looks⟩
        · exact queued
        · rw [running] at busy
          cases busy
          exact absurd looks id
  · exact seen

theorem Seen.finished (seen : daemon.Seen) (running : daemon.running = some (.task task))
    {tasks : TaskQueue}
    (keeps : daemon.tasks.Queued .rrdpUpdateIfNeeded → tasks.Queued .rrdpUpdateIfNeeded) :
    Seen { daemon with tasks, running := none } := by
  intro staged
  rcases seen staged with queued | ⟨other, busy, looks⟩
  · exact .inl (keeps queued)
  · rw [running] at busy
    cases busy
    exact absurd looks id

theorem Seen.tasks (seen : daemon.Seen) {tasks : TaskQueue}
    (keeps : daemon.tasks.Queued .rrdpUpdateIfNeeded → tasks.Queued .rrdpUpdateIfNeeded) :
    Seen { daemon with tasks } :=
  fun staged => (seen staged).imp_left keeps

theorem Seen.perform (seen : daemon.Seen) (met : daemon.Meets manager action) :
    (daemon.perform manager action).Seen := by
  cases action with
  | publish env request => exact seen.command fun _ _ impossible => nomatch impossible
  | createPublisher env publisher =>
    refine seen.command fun content sent _ staged => ?_
    cases sent
    exact staged
  | removePublisher env publisher accessFails => exact seen.removePublisher met
  | sessionReset env =>
    refine seen.command fun content sent _ staged => ?_
    cases sent
    exact staged
  | clearAndInit env =>
    simp only [RepositoryDaemon.perform]
    split
    · exact fun staged => nomatch staged
    · exact seen
  | schedule task priority => exact seen.tasks fun queued => queued.schedule task priority
  | removeTasksForCa ca =>
    exact seen.tasks fun queued => TaskQueue.queued_removeTasksForCa.mpr ⟨queued, nofun⟩
  | dropSyncParent ca parent =>
    exact seen.tasks fun queued => TaskQueue.queued_dropSyncParent.mpr ⟨queued, nofun⟩
  | pop env => exact seen.pop env
  | startTasks plan now =>
    simp only [RepositoryDaemon.perform]
    split
    · rename_i running
      exact seen.finished running StartTasks.queued_queueStartTasks
    · exact seen
  | finish =>
    simp only [RepositoryDaemon.perform]
    split
    · exact seen
    · rename_i running
      exact seen.finished running id
    · exact seen
  | advance env => exact seen.advance met
  | report now => exact seen.report now
  | restart now => exact fun staged => absurd staged met

theorem Runs.seen (runs : Runs manager daemon) : daemon.Seen := by
  induction runs with
  | start env new =>
    intro staged
    rw [HasStaged, new] at staged
    cases staged
  | step runs action met induction => exact induction.perform met
  | falters runs running falters induction => exact induction.falters running falters

/-- As long as the conditions are met, an update of RRDP is queued or running whenever there
are staged changes. -/
theorem no_lost_update (runs : Runs manager daemon)
    (staged : daemon.repository.content.rrdp.stagedElements.map.isEmpty = false) :
    daemon.tasks.Queued .rrdpUpdateIfNeeded ∨
      ∃ call, daemon.running = some (.rrdpUpdate call) := by
  rcases runs.seen staged with queued | ⟨running, busy, looks⟩
  · exact .inl queued
  · cases running with
    | task task => exact absurd looks id
    | rrdpUpdate call => exact .inr ⟨call, busy⟩

end RepositoryDaemon

end Krill.Daemon

namespace Krill.Daemon.Small

open Pubd Pubd.Flat Ca.Numbered RepositoryDaemon

def started : RepositoryDaemon :=
  ⟨⟨initialContent, initialDir, .empty⟩, TaskQueue.default.schedule .queueStartTasks 0, none⟩

def performAll (actions : List RepositoryAction) : RepositoryDaemon :=
  actions.foldl (RepositoryDaemon.perform repositoryManager) started

def noCas : StartTasks := ⟨[], 10, fun _ _ _ => 0, false⟩

def publishFirst : PublishRequest :=
  ⟨"alice", [.publish none ("alice", 1) (1 : Nat)], jail "alice"⟩

def publishing : List RepositoryAction :=
  [.pop (clock 1 ""), .startTasks noCas 1, .createPublisher (clock 2 "") "alice",
    .publish (clock 3 "") publishFirst]

theorem published_update_is_queued : (performAll publishing).tasks.Queued .rrdpUpdateIfNeeded ∨
      ∃ call, (performAll publishing).running = some (.rrdpUpdate call) := by
  have begun : Runs repositoryManager started := .start (clock 0 "first") rfl
  have ready := (begun.step (.pop (clock 1 "")) trivial).step (.startTasks noCas 1) trivial
  have known := ready.step (.createPublisher (clock 2 "") "alice") trivial
  have runs : Runs repositoryManager (performAll publishing) :=
    known.step (.publish (clock 3 "") publishFirst) trivial
  exact no_lost_update runs (by decide)

def restarting : List RepositoryAction :=
  publishing ++ [.restart 4, .pop (clock 5 ""), .startTasks noCas 5]

/-- The session is reset when an update was found to be needed, and before the command for it
is sent. -/
def resetting : List RepositoryAction :=
  publishing ++ [.pop (clock 60 ""), .finish, .pop (clock 60 ""), .finish, .pop (clock 60 ""),
    .finish, .pop (clock 60 ""), .advance (clock 60 ""), .sessionReset ⟨60, "", 8, .stored⟩] ++
    List.replicate 30 (.advance (clock 61 "")) ++ [.report 61]

/-- The access of a publisher cannot be removed after its objects. -/
def removing : List RepositoryAction :=
  publishing ++ [.pop (clock 60 ""), .finish, .pop (clock 60 ""), .finish, .pop (clock 60 ""),
    .finish, .pop (clock 60 "")] ++ List.replicate 40 (.advance (clock 60 "")) ++
    [.report 60, .removePublisher (clock 61 "") "alice" true]

def lost (daemon : RepositoryDaemon) : Bool :=
  !daemon.repository.content.rrdp.stagedElements.map.isEmpty &&
    !decide (daemon.tasks.Queued .rrdpUpdateIfNeeded) && daemon.running.isNone

theorem updates_get_lost :
    lost (performAll restarting) = true ∧ lost (performAll resetting) = true ∧
      lost (performAll removing) = true := by
  refine ⟨?_, ?_, ?_⟩
  all_goals decide +kernel

end Krill.Daemon.Small
