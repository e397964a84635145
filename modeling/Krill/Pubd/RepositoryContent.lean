import Krill.Pubd.RrdpServer

namespace Krill.Pubd

open Rpki

variable [Rpki]

inductive RepositoryContentCommand where
  | resetSession
  | addPublisher (publisher : PublisherHandle)
  | removePublisher (publisher : PublisherHandle)
  | publish (publisher : PublisherHandle) (delta : DeltaElements)
  | createRrdpDelta (rrdpUpdatesConfig : RrdpUpdatesConfig)

inductive RepositoryContentChange where
  | sessionReset (reset : RrdpSessionReset)
  | publisherAdded (publisher : PublisherHandle)
  | publisherRemoved (publisher : PublisherHandle)
  | publishedObjects (publisher : PublisherHandle) (currentObjects : CurrentObjects)
  | rrdpDeltaStaged (delta : DeltaElements)
  | rrdpUpdated (update : RrdpUpdated)
  deriving DecidableEq

inductive PublishError where
  | publisherUnknown (publisher : PublisherHandle)
  | delta (error : PublicationDeltaError)
  deriving DecidableEq

structure RepositoryContent where
  revision : Nat
  publishers : HashMap PublisherHandle CurrentObjects
  rrdp : RrdpServer
  deriving DecidableEq

namespace RepositoryContent

def init (env : Surroundings) : RepositoryContent where
  revision := 0
  publishers := .empty
  rrdp := .create env

def applyChange (order : IterOrder) (self : RepositoryContent) :
    RepositoryContentChange → RepositoryContent
  | .sessionReset reset =>
    { self with rrdp := self.rrdp.applySessionReset reset }
  | .rrdpUpdated update =>
    { self with rrdp := self.rrdp.applyRrdpUpdated update order }
  | .rrdpDeltaStaged delta =>
    { self with rrdp := self.rrdp.applyRrdpStaged delta }
  | .publisherAdded publisher =>
    { self with publishers := self.publishers.insert publisher .default }
  | .publisherRemoved publisher =>
    { self with publishers := self.publishers.remove publisher }
  | .publishedObjects publisher currentObjects =>
    { self with publishers := self.publishers.insert publisher currentObjects }

def apply (order : IterOrder) (self : RepositoryContent)
    (changes : List RepositoryContentChange) : RepositoryContent :=
  let self := changes.foldl (applyChange order) self
  { self with revision := self.revision + 1 }

def objectsForPublisher (self : RepositoryContent) (publisher : PublisherHandle) :
    Except PublishError CurrentObjects :=
  match self.publishers.get publisher with
  | some objects => .ok objects
  | none => .error (.publisherUnknown publisher)

def resetSession (self : RepositoryContent) (env : Surroundings) :
    List RepositoryContentChange :=
  [.sessionReset (self.rrdp.resetSession env)]

def removePublisher (self : RepositoryContent) (env : Surroundings)
    (publisher : PublisherHandle) : List RepositoryContentChange :=
  let staged := match self.objectsForPublisher publisher with
    | .ok objects =>
      [.rrdpDeltaStaged ⟨[], [], (objects.elements env.order).map PublishElement.asWithdraw⟩]
    | .error _ => []
  let removed :=
    if self.publishers.containsKey publisher then [.publisherRemoved publisher]
    else []
  staged ++ removed

def publish (self : RepositoryContent) (publisher : PublisherHandle)
    (delta : DeltaElements) : Except PublishError (List RepositoryContentChange) := do
  let currentObjects ← self.objectsForPublisher publisher
  return [.publishedObjects publisher (currentObjects.applyDelta delta),
    .rrdpDeltaStaged delta]

def createRrdpDelta (self : RepositoryContent) (env : Surroundings)
    (config : RrdpUpdatesConfig) : List RepositoryContentChange :=
  if self.rrdp.updateRrdpNeeded env config = .yes then
    [.rrdpUpdated (self.rrdp.updateRrdp env config)]
  else []

def processCommand (self : RepositoryContent) (env : Surroundings) :
    RepositoryContentCommand → Except PublishError (List RepositoryContentChange)
  | .resetSession => .ok (self.resetSession env)
  | .createRrdpDelta config => .ok (self.createRrdpDelta env config)
  | .addPublisher publisher => .ok [.publisherAdded publisher]
  | .removePublisher publisher => .ok (self.removePublisher env publisher)
  | .publish publisher delta => self.publish publisher delta

/-- The write-ahead store applies the changes of a command, if there are any. -/
def sendCommand (self : RepositoryContent) (env : Surroundings)
    (command : RepositoryContentCommand) : Except PublishError RepositoryContent := do
  let changes ← self.processCommand env command
  if changes.isEmpty then return self
  return self.apply env.order changes

/-- The first half of a publication request: find the publisher and verify the
delta against its current objects. -/
def verifyRequest (self : RepositoryContent) (publisher : PublisherHandle)
    (delta : DeltaElements) (jail : Uri) : Except PublishError Unit := do
  let currentObjects ← self.objectsForPublisher publisher
  match currentObjects.verifyDelta delta jail with
  | .ok () => .ok ()
  | .error failure => .error (.delta failure)

section Effects

variable {self : RepositoryContent}

theorem objectsForPublisher_eq_ok : self.objectsForPublisher publisher = .ok objects ↔
      self.publishers.get publisher = some objects := by
  unfold objectsForPublisher
  cases self.publishers.get publisher with
  | none | some => simp

theorem verifyRequest_eq_ok : self.verifyRequest publisher delta jail = .ok () ↔
      ∃ objects, self.publishers.get publisher = some objects ∧
        objects.verifyDelta delta jail = .ok () := by
  unfold verifyRequest
  rw [Fallible.bind_eq_ok]
  refine exists_congr fun objects => ?_
  rw [objectsForPublisher_eq_ok]
  refine and_congr_right fun _ => ?_
  cases objects.verifyDelta delta jail with
  | error | ok => simp

theorem sendCommand_removePublisher (known : self.publishers.get publisher = some objects) :
    self.sendCommand env (.removePublisher publisher) = .ok
      { revision := self.revision + 1
        publishers := self.publishers.remove publisher
        rrdp := self.rrdp.applyRrdpStaged
          ⟨[], [], (objects.elements env.order).map PublishElement.asWithdraw⟩ } := by
  simp [sendCommand, processCommand, removePublisher, objectsForPublisher,
    HashMap.containsKey, known, apply, applyChange, pure, Except.pure, bind,
    Except.bind]

theorem sendCommand_removePublisher_unknown (unknown : self.publishers.get publisher = none) :
    self.sendCommand env (.removePublisher publisher) = .ok self := by
  simp [sendCommand, processCommand, removePublisher, objectsForPublisher,
    HashMap.containsKey, unknown, pure, Except.pure, bind, Except.bind]

theorem sendCommand_publish (known : self.publishers.get publisher = some objects) :
    self.sendCommand env (.publish publisher delta) = .ok
      { revision := self.revision + 1
        publishers := self.publishers.insert publisher (objects.applyDelta delta)
        rrdp := self.rrdp.applyRrdpStaged delta } := by
  simp [sendCommand, processCommand, publish, objectsForPublisher, known, apply,
    applyChange, pure, Except.pure, bind, Except.bind]

theorem sendCommand_createRrdpDelta (needed : self.rrdp.updateRrdpNeeded env config = .yes) :
    self.sendCommand env (.createRrdpDelta config) = .ok
      { self with
        revision := self.revision + 1
        rrdp := self.rrdp.applyRrdpUpdated (self.rrdp.updateRrdp env config) env.order } := by
  simp [sendCommand, processCommand, createRrdpDelta, needed, apply, applyChange,
    pure, Except.pure, bind, Except.bind]

theorem sendCommand_createRrdpDelta_unneeded
    (unneeded : self.rrdp.updateRrdpNeeded env config ≠ .yes) :
    self.sendCommand env (.createRrdpDelta config) = .ok self := by
  simp [sendCommand, processCommand, createRrdpDelta, unneeded, pure, Except.pure,
    bind, Except.bind]

variable (self env) in
inductive Sent : RepositoryContentCommand → RepositoryContent → Prop
  | reset : Sent .resetSession
      { self with
        revision := self.revision + 1
        rrdp := self.rrdp.applySessionReset (self.rrdp.resetSession env) }
  | added {publisher : PublisherHandle} : Sent (.addPublisher publisher)
      { self with
        revision := self.revision + 1
        publishers := self.publishers.insert publisher .default }
  | unknown {publisher : PublisherHandle} (unknown : self.publishers.get publisher = none) :
      Sent (.removePublisher publisher) self
  | removed {publisher : PublisherHandle} {objects : CurrentObjects}
      (known : self.publishers.get publisher = some objects) : Sent (.removePublisher publisher)
      { revision := self.revision + 1
        publishers := self.publishers.remove publisher
        rrdp := self.rrdp.applyRrdpStaged
          ⟨[], [], (objects.elements env.order).map PublishElement.asWithdraw⟩ }
  | published {publisher : PublisherHandle} {objects : CurrentObjects} {delta : DeltaElements}
      (known : self.publishers.get publisher = some objects) : Sent (.publish publisher delta)
      { revision := self.revision + 1
        publishers := self.publishers.insert publisher (objects.applyDelta delta)
        rrdp := self.rrdp.applyRrdpStaged delta }
  | updated {config : RrdpUpdatesConfig}
      (needed : self.rrdp.updateRrdpNeeded env config = .yes) : Sent (.createRrdpDelta config)
      { self with
        revision := self.revision + 1
        rrdp := self.rrdp.applyRrdpUpdated (self.rrdp.updateRrdp env config) env.order }
  | unneeded {config : RrdpUpdatesConfig}
      (unneeded : self.rrdp.updateRrdpNeeded env config ≠ .yes) :
      Sent (.createRrdpDelta config) self

theorem sent_of_ok (sent : self.sendCommand env command = .ok after) :
    self.Sent env command after := by
  cases command with
  | resetSession => cases sent; exact .reset
  | addPublisher publisher => cases sent; exact .added
  | removePublisher publisher =>
    cases known : self.publishers.get publisher with
    | none =>
      cases (sendCommand_removePublisher_unknown known).symm.trans sent
      exact .unknown known
    | some objects =>
      cases (sendCommand_removePublisher known).symm.trans sent
      exact .removed known
  | publish publisher delta =>
    cases known : self.publishers.get publisher with
    | none =>
      simp [sendCommand, processCommand, publish, objectsForPublisher, known, bind,
        Except.bind] at sent
    | some objects =>
      cases (sendCommand_publish known).symm.trans sent
      exact .published known
  | createRrdpDelta config =>
    by_cases needed : self.rrdp.updateRrdpNeeded env config = .yes
    · cases (sendCommand_createRrdpDelta needed).symm.trans sent
      exact .updated needed
    · cases (sendCommand_createRrdpDelta_unneeded needed).symm.trans sent
      exact .unneeded needed

end Effects

end RepositoryContent

end Krill.Pubd
