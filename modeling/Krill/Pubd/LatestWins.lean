import Krill.Pubd.RrdpCalls

namespace Krill.Pubd

open RrdpXml Program

variable [Rpki] [RrdpXml]

namespace RrdpServer

variable (server : RrdpServer)

theorem saveXml_total : (saveXml path xml).Total :=
  fun _ => ⟨(), _, rfl⟩

theorem writeNewDeltas_total (last : Option DeltaInfo) (deltas : List DeltaData) :
    (server.writeNewDeltas last deltas).Total := by
  induction deltas with
  | nil => exact .pure []
  | cons delta rest induction =>
    unfold writeNewDeltas
    split
    · exact induction
    · exact ((saveXml_total).bind fun _ => .pure _).bind fun _ => induction.bind fun _ => .pure _

theorem writeNotificationFile_total (snapshot : SnapshotInfo) (deltas : List DeltaInfo) :
    (server.writeNotificationFile snapshot deltas).Total := by
  intro disk
  let xml := notificationXml (server.notificationFile snapshot deltas)
  let saved := HashMap.insert (HashMap.insert disk .newNotification noXml) .newNotification xml
  have ran : (saveXml .newNotification xml).run disk = (.ok (), saved) := rfl
  have present : HashMap.get saved .newNotification = some xml := HashMap.get_insert_self ..
  refine ⟨(), HashMap.insert (HashMap.remove saved .newNotification) .notification xml, ?_⟩
  exact (run_bind_of_ok ran _).trans (by rw [run_perform, renameNotification, present])

theorem removeAll_total : (forEach bestEffortRemove paths).Total :=
  .forEach (fun _ => .attemptTo _) paths

theorem readDir_total : (readDir order condition).Total :=
  fun disk => ⟨_, disk, rfl⟩

theorem cleanupSerial_total (archive : Bool) (order : IterOrder) (serial : Nat) :
    (server.cleanupSerial archive order serial).Total := by
  unfold cleanupSerial
  dsimp only
  split_ifs
  · exact .pure ()
  · exact .attemptTo _
  · exact .look fun _ => removeAll_total
  · exact .pure ()
  · exact .look fun _ => removeAll_total

theorem cleanupOldRrdpFiles_total (archive : Bool) (order : IterOrder) :
    (server.cleanupOldRrdpFiles archive order).Total :=
  (readDir_total).bind fun _ => (removeAll_total).bind fun _ =>
    (readDir_total).bind fun _ => .forEach (server.cleanupSerial_total archive order) _

theorem write_total (archive : Bool) (order : IterOrder) : (server.write archive order).Total := by
  refine .look fun disk => ?_
  change ((if server.isWritten (readNotification disk) then pure () else do
    let deltas ← server.writeDeltaFiles (readNotification disk)
    let snapshot ← server.writeSnapshotFile order
    server.writeNotificationFile snapshot deltas
    server.cleanupOldRrdpFiles archive order) : RrdpProgram Unit).Total
  split
  · exact .pure ()
  · exact ((server.writeNewDeltas_total _ _).bind fun _ => .pure _).bind fun deltas =>
      ((saveXml_total).bind fun _ => .pure _).bind fun snapshot =>
        (server.writeNotificationFile_total snapshot deltas).bind fun _ =>
          server.cleanupOldRrdpFiles_total archive order

/-- Two states of the server that have the same notification file. -/
structure SameFiles (left right : RrdpServer) : Prop where
  session : left.session = right.session
  serial : left.serial = right.serial

variable {server}

theorem IsNotified.sameFiles (notified : server.IsNotified disk) (same : server.SameFiles other) :
    other.IsNotified disk := by
  obtain ⟨notification, named, session, serial⟩ := notified
  exact ⟨notification, named, session.trans same.session, serial.trans same.serial⟩

/-- Without interference, what is left of a write ends with the notification file in place. -/
def WillNotify (server : RrdpServer) (rest : RrdpProgram Unit) (disk : RrdpDisk) : Prop :=
  ∃ after, rest.run disk = (.ok (), after) ∧ server.IsNotified after

theorem write_willNotify (parsesBack : ParsesBack) (disk : RrdpDisk) :
    server.WillNotify (server.write archive order) disk := by
  obtain ⟨value, after, ran⟩ := server.write_total archive order disk
  have reaches := reaches_run (server.write archive order) disk
  rw [ran] at reaches
  exact ⟨after, ran, ((write_notifies parsesBack archive order).reaches reaches).2⟩

theorem WillNotify.advance (willNotify : server.WillNotify rest disk) :
    server.WillNotify (rest.advance disk).1 (rest.advance disk).2 := by
  obtain ⟨after, ran, notified⟩ := willNotify
  exact ⟨after, (run_advance rest disk).trans ran, notified⟩

end RrdpServer

/-- Publishing and managing publishers leaves the session and serial alone. -/
def RepositoryContentCommand.isPublication : RepositoryContentCommand → Bool
  | .addPublisher _ => true
  | .removePublisher _ => true
  | .publish _ _ => true
  | .resetSession => false
  | .createRrdpDelta _ => false

variable [RsyncFiles]

structure Interleaving where
  state : Repository
  calls : List RrdpCall

namespace RrdpCall

def changesContent : RrdpCall → Bool
  | .updateRrdp => true
  | .sessionReset => true
  | _ => false

def isWriting : RrdpCall → Bool
  | .writeRrdp _ _ => true
  | .writeRsync _ _ => true
  | _ => false

def isReturned : RrdpCall → Bool
  | .returned _ => true
  | _ => false

def writes : RrdpCall → Option RepositoryContent
  | .writeRrdp content _ => some content
  | .writeRsync content _ => some content
  | _ => none

/-- A call that writes files writes the latest ones, and it will complete. -/
def Latest (state : Repository) : RrdpCall → Prop
  | .writeRrdp content rest => content.rrdp.SameFiles state.content.rrdp ∧
      content.rrdp.WillNotify rest state.rrdpDir
  | .writeRsync content _ => content.rrdp.SameFiles state.content.rrdp ∧ state.IsPublished
  | _ => True

variable {call : RrdpCall}

theorem Latest.of_not_writing (idle : call.isWriting = false) : call.Latest state := by
  cases call with
  | writeRrdp | writeRsync => cases idle
  | _ => exact trivial

theorem Latest.command (same : state.content.rrdp.SameFiles content.rrdp)
    (latest : call.Latest state) : call.Latest { state with content } := by
  cases call with
  | writeRrdp written rest =>
    exact ⟨⟨latest.1.session.trans same.session, latest.1.serial.trans same.serial⟩, latest.2⟩
  | writeRsync written rest =>
    exact ⟨⟨latest.1.session.trans same.session, latest.1.serial.trans same.serial⟩,
      latest.2.sameFiles same⟩
  | _ => exact trivial

end RrdpCall

inductive RrdpAction where
  | update
  | reset
  | command (env : Surroundings) (command : RepositoryContentCommand)
  | advance (env : Surroundings) (index : Nat)

namespace Interleaving

/-- New calls start, publishers publish, and one of the calls goes on. -/
def perform (manager : RepositoryManager) (self : Interleaving) : RrdpAction → Interleaving
  | .update => { self with calls := self.calls ++ [.updateRrdpIfNeeded] }
  | .reset => { self with calls := self.calls ++ [.sessionReset] }
  | .command env command =>
    match self.state.content.sendCommand env command with
    | .ok content =>
      if command.isPublication then { self with state := { self.state with content } }
      else self
    | .error _ => self
  | .advance env index =>
    match self.calls[index]? with
    | some call =>
      let next := manager.advance env call self.state
      { state := next.2, calls := self.calls.set index next.1 }
    | none => self

def Exclusive (self : Interleaving) : RrdpAction → Prop
  | .advance _ index => ∀ call, self.calls[index]? = some call → call.changesContent = true →
      ∀ other ∈ self.calls, other.isWriting = false
  | _ => True

/-- The states that are reached from one where the files are up to date. -/
inductive Runs (manager : RepositoryManager) : Interleaving → Prop
  | start {state : Repository} (published : state.IsPublished) : Runs manager ⟨state, []⟩
  | step {before : Interleaving} (runs : Runs manager before) (action : RrdpAction)
      (exclusive : before.Exclusive action) : Runs manager (before.perform manager action)

structure Orderly (running : Interleaving) : Prop where
  latest : ∀ {i : Nat} {call : RrdpCall}, running.calls[i]? = some call → call.Latest running.state
  single : ∀ {i j : Nat} {left right : RrdpCall}, running.calls[i]? = some left →
    running.calls[j]? = some right → left.isWriting = true → right.isWriting = true → i = j
  settled : (∀ call ∈ running.calls, call.isWriting = false) → running.state.IsPublished

variable {manager : RepositoryManager} {running : Interleaving}

variable {calls : List RrdpCall}

theorem getElem?_append_single {i : Nat} (present : (calls ++ [new])[i]? = some call) :
    calls[i]? = some call ∨ call = new := by
  rw [List.getElem?_append] at present
  split at present
  · exact .inl present
  · rw [List.getElem?_singleton] at present
    split at present
    · cases present
      exact .inr rfl
    · cases present

theorem Orderly.called (orderly : running.Orderly) {new : RrdpCall} (idle : new.isWriting = false) :
    Orderly { running with calls := running.calls ++ [new] } where
  latest := by
    intro i call present
    rcases getElem?_append_single present with old | rfl
    · exact orderly.latest old
    · exact .of_not_writing idle
  single := by
    intro i j left right first second writes alsoWrites
    rcases getElem?_append_single first with old | rfl
    · rcases getElem?_append_single second with alsoOld | rfl
      · exact orderly.single old alsoOld writes alsoWrites
      · rw [idle] at alsoWrites
        cases alsoWrites
    · rw [idle] at writes
      cases writes
  settled := fun noneWrites => orderly.settled fun call member =>
    noneWrites call (List.mem_append_left _ member)

theorem Orderly.command (orderly : running.Orderly)
    (same : running.state.content.rrdp.SameFiles content.rrdp) :
    Orderly { running with state := { running.state with content } } where
  latest := fun present => (orderly.latest present).command same
  single := orderly.single
  settled := fun noneWrites => (orderly.settled noneWrites).sameFiles same

/-- What one step of a call does: nothing that matters, or it is one that writes the latest
files, and they are in place when it is done with them. -/
theorem advance_cases (parsesBack : ParsesBack) (manager : RepositoryManager) {state : Repository}
    (latest : call.Latest state) :
    (call.isWriting = false ∧ (manager.advance env call state).1.isWriting = false ∧
      (manager.advance env call state).2 = state) ∨
    ((call.changesContent = true ∨ call.isWriting = true) ∧
      (manager.advance env call state).1.Latest (manager.advance env call state).2 ∧
      ((manager.advance env call state).1.isWriting = false →
        (manager.advance env call state).2.IsPublished)) := by
  have changed (command : RepositoryContentCommand) :
      ((manager.change env command state).1.isWriting = false ∧
        (manager.change env command state).2 = state) ∨
      ((manager.change env command state).1.isWriting = true ∧
        (manager.change env command state).1.Latest (manager.change env command state).2) := by
    unfold RepositoryManager.change
    cases state.content.sendCommand env command with
    | ok content =>
      exact .inr ⟨rfl, ⟨rfl, rfl⟩, RrdpServer.write_willNotify parsesBack _⟩
    | error error => exact .inl ⟨rfl, rfl⟩
  cases call with
  | updateRrdpIfNeeded =>
    refine .inl ⟨rfl, ?_⟩
    unfold RepositoryManager.advance
    cases state.content.rrdp.updateRrdpNeeded env manager.config with
    | no => exact ⟨rfl, rfl⟩
    | later time => exact ⟨rfl, rfl⟩
    | yes => exact ⟨rfl, rfl⟩
  | updateRrdp =>
    rcases changed (.createRrdpDelta manager.config) with failed | ⟨writes, newest⟩
    · exact .inl ⟨rfl, failed⟩
    · exact .inr ⟨.inl rfl, newest, fun idle => absurd (idle.symm.trans writes) nofun⟩
  | sessionReset =>
    rcases changed .resetSession with failed | ⟨writes, newest⟩
    · exact .inl ⟨rfl, failed⟩
    · exact .inr ⟨.inl rfl, newest, fun idle => absurd (idle.symm.trans writes) nofun⟩
  | writeRrdp content rest =>
    obtain ⟨same, willNotify⟩ := latest
    refine .inr ⟨.inr rfl, ?_⟩
    cases rest with
    | done result =>
      obtain ⟨after, ran, notified⟩ := willNotify
      cases ran
      have published : state.IsPublished := notified.sameFiles same
      exact ⟨⟨same, published⟩, fun _ => published⟩
    | look next => exact ⟨⟨same, willNotify.advance⟩, nofun⟩
    | act change next => exact ⟨⟨same, willNotify.advance⟩, nofun⟩
    | attempt change next => exact ⟨⟨same, willNotify.advance⟩, nofun⟩
  | writeRsync content rest =>
    obtain ⟨same, published⟩ := latest
    refine .inr ⟨.inr rfl, ?_⟩
    cases rest with
    | done result =>
      cases result with
      | ok value => exact ⟨trivial, fun _ => published⟩
      | error error => exact ⟨trivial, fun _ => published⟩
    | look next => exact ⟨⟨same, published⟩, nofun⟩
    | act change next => exact ⟨⟨same, published⟩, nofun⟩
    | attempt change next => exact ⟨⟨same, published⟩, nofun⟩
  | returned result => exact .inl ⟨rfl, rfl, rfl⟩

theorem getElem?_set_cases (present : (calls.set index new)[i]? = some call) :
    (i = index ∧ call = new) ∨ (i ≠ index ∧ calls[i]? = some call) := by
  rw [List.getElem?_set] at present
  split at present
  · rename_i same
    split at present
    · cases present
      exact .inl ⟨same.symm, rfl⟩
    · cases present
  · rename_i different
    exact .inr ⟨Ne.symm different, present⟩

theorem Orderly.advance (parsesBack : ParsesBack) (orderly : running.Orderly) (env : Surroundings)
    (present : running.calls[index]? = some call) (exclusive : call.changesContent = true →
      ∀ other ∈ running.calls, other.isWriting = false) :
    Orderly { state := (manager.advance env call running.state).2
              calls := running.calls.set index (manager.advance env call running.state).1 } := by
  have inside : index < running.calls.length := (List.getElem?_eq_some_iff.mp present).1
  have replaced : (running.calls.set index (manager.advance env call running.state).1)[index]? =
      some (manager.advance env call running.state).1 := List.getElem?_set_self inside
  rcases advance_cases parsesBack manager (orderly.latest present) with
    ⟨idle, stillIdle, unchanged⟩ | ⟨active, latest, finishes⟩
  · rw [unchanged]
    refine ⟨?_, ?_, ?_⟩
    · intro i other found
      rcases getElem?_set_cases found with ⟨_, rfl⟩ | ⟨_, old⟩
      · exact .of_not_writing stillIdle
      · exact orderly.latest old
    · intro i j left right first second writes alsoWrites
      rcases getElem?_set_cases first with ⟨_, rfl⟩ | ⟨_, old⟩
      · rw [stillIdle] at writes
        cases writes
      rcases getElem?_set_cases second with ⟨_, rfl⟩ | ⟨_, alsoOld⟩
      · rw [stillIdle] at alsoWrites
        cases alsoWrites
      · exact orderly.single old alsoOld writes alsoWrites
    · intro noneWrites
      refine orderly.settled fun other member => ?_
      obtain ⟨i, found⟩ := List.mem_iff_getElem?.mp member
      by_cases same : i = index
      · subst same
        rw [present] at found
        cases found
        exact idle
      · refine noneWrites other (List.mem_iff_getElem?.mpr ⟨i, ?_⟩)
        rw [List.getElem?_set_ne (Ne.symm same)]
        exact found
  · -- no other call is writing
    have others : ∀ {i : Nat} {other : RrdpCall}, i ≠ index → running.calls[i]? = some other →
        other.isWriting = false := by
      intro i other different found
      rcases active with changes | writes
      · exact exclusive changes other (List.mem_iff_getElem?.mpr ⟨i, found⟩)
      · cases writesToo : other.isWriting with
        | false => rfl
        | true => exact absurd (orderly.single found present writesToo writes) different
    refine ⟨?_, ?_, ?_⟩
    · intro i other found
      rcases getElem?_set_cases found with ⟨_, rfl⟩ | ⟨different, old⟩
      · exact latest
      · exact .of_not_writing (others different old)
    · intro i j left right first second writes alsoWrites
      rcases getElem?_set_cases first with ⟨here, _⟩ | ⟨different, old⟩
      · rcases getElem?_set_cases second with ⟨there, _⟩ | ⟨different, old⟩
        · exact here.trans there.symm
        · rw [others different old] at alsoWrites
          cases alsoWrites
      · rw [others different old] at writes
        cases writes
    · exact fun noneWrites => finishes (noneWrites _ (List.mem_of_getElem? replaced))

theorem Runs.orderly (parsesBack : ParsesBack) (runs : Runs manager running) : running.Orderly := by
  induction runs with
  | start published => exact ⟨nofun, nofun, fun _ => published⟩
  | @step before runs action exclusive induction =>
    cases action with
    | update => exact induction.called rfl
    | reset => exact induction.called rfl
    | command env command =>
      simp only [perform]
      cases sent : before.state.content.sendCommand env command with
      | error error => exact induction
      | ok content =>
        simp only
        split
        · rename_i publication
          refine induction.command ?_
          cases RepositoryContent.sent_of_ok sent with
          | reset | updated => cases publication
          | _ => exact ⟨rfl, rfl⟩
        · exact induction
    | advance env index =>
      simp only [perform]
      cases present : before.calls[index]? with
      | none => exact induction
      | some call =>
        exact induction.advance parsesBack env present fun changes =>
          exclusive call present changes

end Interleaving

end Krill.Pubd

namespace Krill.Pubd.Flat

open Interleaving

def drawing (session : RrdpSession) : Surroundings := ⟨60, "second", session, .stored⟩

def upToDate : Interleaving := ⟨⟨initialContent, initialDir, .empty⟩, []⟩

theorem upToDate_published : upToDate.state.IsPublished :=
  RrdpServer.isWritten_iff.mp (by decide)

def alone (running : Interleaving) : Nat → Interleaving
  | 0 => running
  | steps + 1 => (alone running steps).perform repositoryManager (.advance (drawing 8) 0)

theorem alone_runs (runs : Runs repositoryManager running) (only : running.calls = [call]) :
    Runs repositoryManager (alone running steps) ∧ ∃ call, (alone running steps).calls = [call] := by
  induction steps with
  | zero => exact ⟨runs, call, only⟩
  | succ steps induction =>
    obtain ⟨before, current, single⟩ := induction
    refine ⟨.step before _ ?_, ?_⟩
    · intro found present changes other member
      rw [single] at present member
      cases present
      rw [List.mem_singleton.mp member]
      cases current <;> first | rfl | cases changes
    · rw [alone, perform, single]
      exact ⟨_, rfl⟩

def afterReset : Interleaving := alone (upToDate.perform repositoryManager .reset) 40

def overlappingResets : List RrdpAction :=
  [.reset, .reset, .advance (drawing 8) 0, .advance (drawing 9) 1] ++
    List.replicate 40 (.advance (drawing 0) 1) ++ List.replicate 40 (.advance (drawing 0) 0)

def afterBoth : Interleaving := overlappingResets.foldl (perform repositoryManager) upToDate

end Krill.Pubd.Flat
