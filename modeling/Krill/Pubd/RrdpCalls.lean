import Krill.Pubd.RepositoryContent
import Krill.Pubd.RrdpUsable
import Krill.Pubd.RsyncdStore

namespace Krill.Pubd

open Program RrdpDisk

variable [Rpki] [RrdpXml]

namespace RrdpServer

variable {server : RrdpServer}

omit [RrdpXml] in
theorem updateRrdpNeeded_eq_no (notNeeded : server.updateRrdpNeeded env config = .no) :
    server.stagedElements.map.isEmpty = true := by
  unfold updateRrdpNeeded at notNeeded
  split at notNeeded
  · rename_i nothing
    exact nothing
  · dsimp only at notNeeded
    split at notNeeded <;> cases notNeeded

/-- The notification file on disk has the session and serial of the server. -/
def IsNotified (server : RrdpServer) (disk : RrdpDisk) : Prop :=
  ∃ notification, readNotification disk = some notification ∧
    notification.sessionId = server.session ∧ notification.serial = server.serial

theorem isWritten_iff :
    server.isWritten (readNotification disk) = true ↔ server.IsNotified disk := by
  unfold IsNotified
  cases readNotification disk with
  | none => simp [isWritten]
  | some notification => simp [isWritten, and_comm]

theorem IsNotified.agrees (notified : server.IsNotified disk)
    (agrees : Agrees (· = .notification) disk after) : server.IsNotified after := by
  obtain ⟨notification, named, same⟩ := notified
  refine ⟨notification, ?_, same⟩
  rw [readNotification, agrees rfl]
  exact named

theorem writeNotificationFile_notifies (parsesBack : ParsesBack) (snapshot : SnapshotInfo)
    (deltas : List DeltaInfo) :
    (server.writeNotificationFile snapshot deltas).Guarantees (fun _ => True)
      (fun _ after => server.IsNotified after) disk := by
  refine Guarantees.bind (saveXml_saves.mono (fun _ _ => trivial) ?_)
  intro _ between found
  refine ⟨trivial, ?_⟩
  intro after renamed
  rw [renameNotification, found] at renamed
  cases renamed
  refine ⟨trivial, server.notificationFile snapshot deltas, ?_, rfl, rfl⟩
  rw [readNotification, HashMap.get_insert_self]
  exact parsesBack _

theorem write_notifies (parsesBack : ParsesBack) (archive : Bool) (order : IterOrder) :
    (server.write archive order).Guarantees (fun _ => True)
      (fun _ after => server.IsNotified after) disk := by
  refine ⟨trivial, ?_⟩
  change ((if server.isWritten (readNotification disk) then pure () else do
    let deltas ← server.writeDeltaFiles (readNotification disk)
    let snapshot ← server.writeSnapshotFile order
    server.writeNotificationFile snapshot deltas
    server.cleanupOldRrdpFiles archive order) : RrdpProgram Unit).Guarantees _ _ _
  split
  · rename_i isWritten
    exact ⟨trivial, isWritten_iff.mp isWritten⟩
  refine Guarantees.bind ((Guarantees.trivial _ _).mono (fun _ _ => trivial) ?_)
  intro deltas _ _
  refine Guarantees.bind ((Guarantees.trivial _ _).mono (fun _ _ => trivial) ?_)
  intro snapshot _ _
  refine Guarantees.bind ((writeNotificationFile_notifies parsesBack snapshot deltas).mono
    (fun _ _ => trivial) ?_)
  intro _ renamed notified
  exact (cleanupOldRrdpFiles_guarantees server.spares_notification archive order).mono
    (fun _ _ => trivial) (fun _ _ agrees => notified.agrees agrees)

end RrdpServer

variable [RsyncFiles]

/-! The calls of the repository manager that write files. Each changes the content under a
lock, and then writes the files of the content that it got back. -/

structure Repository where
  content : RepositoryContent
  rrdpDir : RrdpDisk
  rsyncDir : RsyncDisk

inductive RrdpCallError where
  | content (error : PublishError)
  | store
  | rrdp (error : RrdpIoError)
  | rsync (error : RsyncError)
  deriving DecidableEq

/-- How far a call is. A session reset that succeeds has no result, which is the same as
`none` here. -/
inductive RrdpCall where
  | updateRrdpIfNeeded
  | updateRrdp
  | sessionReset
  | writeRrdp (content : RepositoryContent) (rest : RrdpProgram Unit)
  | writeRsync (content : RepositoryContent) (rest : RsyncProgram Unit)
  | returned (result : Except RrdpCallError (Option Time))

structure RepositoryManager where
  config : RrdpUpdatesConfig
  archive : Bool
  rsync : RsyncdStore

namespace RepositoryManager

/-- Send a command that changes the content, and go on to write what comes back. -/
def change (self : RepositoryManager) (env : Surroundings) (command : RepositoryContentCommand)
    (state : Repository) : RrdpCall × Repository :=
  match state.content.sendCommand env command with
  | .ok content =>
    (.writeRrdp content (content.rrdp.write self.archive env.order), { state with content })
  | .error error => (.returned (.error (.content error)), state)

/-- The next thing that a call does, when nothing is wrong with the disk. -/
def advance (self : RepositoryManager) (env : Surroundings) (call : RrdpCall)
    (state : Repository) : RrdpCall × Repository :=
  match call with
  | .updateRrdpIfNeeded =>
    match state.content.rrdp.updateRrdpNeeded env self.config with
    | .no => (.returned (.ok none), state)
    | .later time => (.returned (.ok (some time)), state)
    | .yes => (.updateRrdp, state)
  | .updateRrdp => self.change env (.createRrdpDelta self.config) state
  | .sessionReset => self.change env .resetSession state
  | .writeRrdp content (.done (.ok ())) =>
    (.writeRsync content (self.rsync.write content.rrdp.serial content.rrdp.snapshot env.order),
      state)
  | .writeRrdp _ (.done (.error error)) => (.returned (.error (.rrdp error)), state)
  | .writeRrdp content rest =>
    let next := rest.advance state.rrdpDir
    (.writeRrdp content next.1, { state with rrdpDir := next.2 })
  | .writeRsync _ (.done (.ok ())) => (.returned (.ok none), state)
  | .writeRsync _ (.done (.error error)) => (.returned (.error (.rsync error)), state)
  | .writeRsync content rest =>
    let next := rest.advance state.rsyncDir
    (.writeRsync content next.1, { state with rsyncDir := next.2 })
  | .returned result => (.returned result, state)

inductive Falters : RrdpCall × Repository → RrdpCall × Repository → Prop
  | store {call : RrdpCall} {state : Repository}
      (asks : call = .updateRrdpIfNeeded ∨ call = .updateRrdp ∨ call = .sessionReset) :
      Falters (call, state) (.returned (.error .store), state)
  | rrdp {content : RepositoryContent} {rest next : RrdpProgram Unit} {state : Repository}
      {rrdpDir : RrdpDisk} (step : Program.Step (rest, state.rrdpDir) (next, rrdpDir)) :
      Falters (.writeRrdp content rest, state) (.writeRrdp content next, { state with rrdpDir })
  | rsync {content : RepositoryContent} {rest next : RsyncProgram Unit} {state : Repository}
      {rsyncDir : RsyncDisk} (step : Program.Step (rest, state.rsyncDir) (next, rsyncDir)) :
      Falters (.writeRsync content rest, state) (.writeRsync content next, { state with rsyncDir })

inductive Step (self : RepositoryManager) : RrdpCall × Repository → RrdpCall × Repository → Prop
  | advances (env : Surroundings) {call later : RrdpCall} {state after : Repository}
      (advanced : self.advance env call state = (later, after)) :
      Step self (call, state) (later, after)
  | falters {call later : RrdpCall} {state after : Repository}
      (falters : Falters (call, state) (later, after)) : Step self (call, state) (later, after)

def Reaches (self : RepositoryManager) (call : RrdpCall) (state : Repository) (later : RrdpCall)
    (after : Repository) : Prop :=
  Relation.ReflTransGen self.Step (call, state) (later, after)

end RepositoryManager

/-- The notification file on disk is the one for the latest content. -/
def Repository.IsPublished (state : Repository) : Prop :=
  state.content.rrdp.IsNotified state.rrdpDir

def RrdpCall.Sound (state : Repository) : RrdpCall → Prop
  | .updateRrdpIfNeeded =>
    state.content.rrdp.stagedElements.map.isEmpty = true → state.IsPublished
  | .updateRrdp => True
  | .sessionReset => True
  | .writeRrdp content rest => content = state.content ∧
      rest.Guarantees (fun _ => True) (fun _ disk => content.rrdp.IsNotified disk) state.rrdpDir
  | .writeRsync _ _ => state.IsPublished
  | .returned (.ok none) => state.IsPublished
  | .returned _ => True

namespace RepositoryManager

variable {manager : RepositoryManager}

theorem change_sound (parsesBack : ParsesBack) :
    (manager.change env command state).1.Sound (manager.change env command state).2 := by
  unfold change
  cases state.content.sendCommand env command with
  | ok content => exact ⟨rfl, RrdpServer.write_notifies parsesBack _ _⟩
  | error error => exact trivial

theorem advance_sound (parsesBack : ParsesBack) (manager : RepositoryManager)
    (env : Surroundings) (sound : call.Sound state) :
    (manager.advance env call state).1.Sound (manager.advance env call state).2 := by
  cases call with
  | updateRrdpIfNeeded =>
    unfold advance
    cases needed : state.content.rrdp.updateRrdpNeeded env manager.config with
    | no => exact sound (RrdpServer.updateRrdpNeeded_eq_no needed)
    | later time => exact trivial
    | yes => exact trivial
  | updateRrdp | sessionReset => exact change_sound parsesBack
  | writeRrdp content rest =>
    obtain ⟨rfl, guarantees⟩ := sound
    cases rest with
    | done result =>
      cases result with
      | ok value => exact guarantees.2
      | error error => exact trivial
    | look next => exact ⟨rfl, guarantees.advance⟩
    | act change next => exact ⟨rfl, guarantees.advance⟩
    | attempt change next => exact ⟨rfl, guarantees.advance⟩
  | writeRsync content rest =>
    cases rest with
    | done result =>
      cases result with
      | ok value => exact sound
      | error error => exact trivial
    | look next => exact sound
    | act change next => exact sound
    | attempt change next => exact sound
  | returned result => exact sound

theorem Falters.sound (falters : Falters (call, state) (later, after))
    (sound : call.Sound state) : later.Sound after := by
  cases falters with
  | store asks => exact trivial
  | rrdp step => exact ⟨sound.1, sound.2.step step⟩
  | rsync step => exact sound

theorem Step.sound (parsesBack : ParsesBack)
    (step : manager.Step (call, state) (later, after)) (sound : call.Sound state) :
    later.Sound after := by
  cases step with
  | advances env advanced =>
    have next := advance_sound parsesBack manager env sound
    rw [advanced] at next
    exact next
  | falters falters => exact falters.sound sound

theorem Reaches.sound (parsesBack : ParsesBack)
    (reaches : manager.Reaches call state later after) (sound : call.Sound state) :
    later.Sound after := by
  unfold Reaches at reaches
  generalize there : (later, after) = target at reaches
  induction reaches generalizing later after with
  | refl =>
    cases there
    exact sound
  | @tail between target _ step induction =>
    obtain ⟨midCall, midState⟩ := between
    rw [← there] at step
    exact step.sound parsesBack (induction rfl)

/-- Whatever fails, an update that returns without a time to try again has left the
notification file for the latest content, unless there was nothing staged and the file was
not the one for the content to begin with. -/
theorem updateRrdpIfNeeded_publishes_iff (parsesBack : ParsesBack) (manager : RepositoryManager)
    (state : Repository) :
    (∀ after, manager.Reaches .updateRrdpIfNeeded state (.returned (.ok none)) after →
      ∃ notification, readNotification after.rrdpDir = some notification ∧
        notification.sessionId = after.content.rrdp.session ∧
        notification.serial = after.content.rrdp.serial) ↔
    (state.content.rrdp.stagedElements.map.isEmpty = true →
      state.content.rrdp.isWritten (readNotification state.rrdpDir) = true) := by
  constructor
  · intro publishes nothing
    refine RrdpServer.isWritten_iff.mpr (publishes state (.single ?_))
    have notNeeded (env : Surroundings) :
        state.content.rrdp.updateRrdpNeeded env manager.config = .no := by
      rw [RrdpServer.updateRrdpNeeded, if_pos nothing]
    refine .advances ⟨0, "", 0, .stored⟩ ?_
    simp only [advance, notNeeded]
  · intro written after reaches
    have sound : RrdpCall.updateRrdpIfNeeded.Sound state := fun nothing =>
      RrdpServer.isWritten_iff.mp (written nothing)
    exact reaches.sound parsesBack sound

end RepositoryManager

end Krill.Pubd

namespace Krill.Pubd.Flat

def repositoryManager : RepositoryManager where
  config := ⟨5, 1200, 50, 600, 60⟩
  archive := false
  rsync := rsync

def clock (now : Time) (random : RrdpFileRandom) : Surroundings := ⟨now, random, 7, .stored⟩

def send (self : RepositoryContent) (env : Surroundings) (command : RepositoryContentCommand) :
    RepositoryContent :=
  (self.sendCommand env command).toOption.getD self

def initialContent : RepositoryContent := .init (clock 0 "first")

def initialDir : RrdpDisk := ((initialContent.rrdp.write false .stored).run .empty).2

def stagedContent : RepositoryContent :=
  send (send initialContent (clock 1 "") (.addPublisher "alice")) (clock 2 "")
    (.publish "alice" ⟨[⟨(1 : Nat), ("alice", 1)⟩], [], []⟩)

def deltaContent : RepositoryContent :=
  send stagedContent (clock 60 "second") (.createRrdpDelta repositoryManager.config)

def beforeUpdate : Repository := ⟨stagedContent, initialDir, .empty⟩

def afterFailure : Repository := ⟨deltaContent, initialDir, .empty⟩

theorem update_is_needed :
    repositoryManager.advance (clock 60 "") .updateRrdpIfNeeded beforeUpdate =
      (.updateRrdp, beforeUpdate) := by
  have needed : stagedContent.rrdp.updateRrdpNeeded (clock 60 "") repositoryManager.config =
      .yes := by decide
  simp only [RepositoryManager.advance, beforeUpdate, needed]

theorem update_creates_delta :
    repositoryManager.advance (clock 60 "second") .updateRrdp beforeUpdate =
      (.writeRrdp deltaContent (deltaContent.rrdp.write false .stored), afterFailure) := by
  have sent : stagedContent.sendCommand (clock 60 "second")
      (.createRrdpDelta repositoryManager.config) = .ok deltaContent := by decide
  simp only [RepositoryManager.advance, RepositoryManager.change, beforeUpdate, sent, afterFailure]
  rfl

theorem staged_update_publishes : stagedContent.rrdp.stagedElements.map.isEmpty = false ∧
      ∀ after, repositoryManager.Reaches .updateRrdpIfNeeded beforeUpdate
          (.returned (.ok none)) after →
        ∃ notification, readNotification after.rrdpDir = some notification ∧
          notification.sessionId = after.content.rrdp.session ∧
          notification.serial = after.content.rrdp.serial :=
  ⟨by decide, (RepositoryManager.updateRrdpIfNeeded_publishes_iff parsesBack repositoryManager
    beforeUpdate).mpr (by decide)⟩

/-- The write of a new delta fails, and the retry finds nothing to do. -/
theorem failed_write_is_not_retried :
    repositoryManager.Reaches .updateRrdpIfNeeded beforeUpdate
      (.returned (.error (.rrdp (.couldNotSave (.file 7 2 "second" .delta))))) afterFailure ∧
    repositoryManager.Reaches .updateRrdpIfNeeded afterFailure (.returned (.ok none))
      afterFailure ∧
    afterFailure.content.rrdp.serial = 2 ∧
    (readNotification afterFailure.rrdpDir).map NotificationFile.serial = some 1 := by
  refine ⟨?_, ?_, by decide, by decide⟩
  · refine .head (.advances (clock 60 "") update_is_needed) ?_
    refine .head (.advances (clock 60 "second") update_creates_delta) ?_
    refine .head (.falters (.rrdp .look)) ?_
    refine .head (.falters (.rrdp (.fails (.couldNotSave (.file 7 2 "second" .delta))))) ?_
    exact .single (.advances (clock 60 "") rfl)
  · have notNeeded : deltaContent.rrdp.updateRrdpNeeded (clock 3660 "")
        repositoryManager.config = .no := by decide
    refine .single (.advances (clock 3660 "") ?_)
    simp only [RepositoryManager.advance, afterFailure, notNeeded]

end Krill.Pubd.Flat
