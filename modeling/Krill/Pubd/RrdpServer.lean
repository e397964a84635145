import Krill.Pubd.Rrdp

namespace Krill.Pubd

open Rpki

variable [Rpki]

/-! The RRDP server: changes of publishers are staged per URI, and an update
turns what is staged into the next delta and snapshot. The base URI and the
directories only matter for writing files and are not modelled. -/

def RRDP_FIRST_SERIAL : Nat := 1

inductive DeltaElement where
  | publish (element : PublishElement)
  | update (element : UpdateElement)
  | withdraw (element : WithdrawElement)
  deriving DecidableEq

structure StagedElements where
  map : HashMap Uri DeltaElement
  deriving DecidableEq

namespace StagedElements

def default : StagedElements := ⟨.empty⟩

def insert (self : StagedElements) (uri : Uri) (element : DeltaElement) :
    StagedElements :=
  ⟨self.map.insert uri element⟩

/-- A publish that follows a withdraw for the same URI should be an update. -/
def stagePublish (self : StagedElements) (pbl : PublishElement) : StagedElements :=
  match self.map.get pbl.uri with
  | some (.withdraw stagedWithdraw) =>
    self.insert pbl.uri (.update
      { uri := pbl.uri, hash := stagedWithdraw.hash, base64 := pbl.base64 })
  | _ => self.insert pbl.uri (.publish pbl)

/-- An update that follows a staged publish should be a fresh publish, and one
that follows a staged update should use the hash of that update. -/
def stageUpdate (self : StagedElements) (upd : UpdateElement) : StagedElements :=
  match self.map.get upd.uri with
  | some (.publish _) => self.insert upd.uri (.publish upd.intoPublish)
  | some (.update stagedUpdate) =>
    self.insert upd.uri (.update (upd.updatesStaged stagedUpdate))
  | _ => self.insert upd.uri (.update upd)

def stageWithdraw (self : StagedElements) (wdr : WithdrawElement) : StagedElements :=
  self.insert wdr.uri (.withdraw wdr)

def stage (self : StagedElements) (elements : DeltaElements) : StagedElements :=
  let self := elements.publishes.foldl stagePublish self
  let self := elements.updates.foldl stageUpdate self
  elements.withdraws.foldl stageWithdraw self

def pushElement (delta : DeltaElements) : DeltaElement → DeltaElements
  | .publish pbl => { delta with publishes := delta.publishes ++ [pbl] }
  | .update upd => { delta with updates := delta.updates ++ [upd] }
  | .withdraw wdr => { delta with withdraws := delta.withdraws ++ [wdr] }

/-- Split the staged elements, in the order in which the map yields them. -/
def intoDeltaElements (self : StagedElements) (order : IterOrder) : DeltaElements :=
  (self.map.intoValues order).foldl pushElement ⟨[], [], []⟩

end StagedElements

structure RrdpUpdatesConfig where
  rrdpDeltaFilesMinNr : Nat
  rrdpDeltaFilesMinSeconds : Nat
  rrdpDeltaFilesMaxNr : Nat
  rrdpDeltaFilesMaxSeconds : Nat
  rrdpDeltaIntervalMinSeconds : Nat

inductive RrdpUpdateNeeded where
  | yes
  | no
  | later (time : Time)
  deriving DecidableEq

structure RrdpSessionReset where
  lastUpdate : Time
  session : RrdpSession
  snapshot : SnapshotData
  deriving DecidableEq

structure RrdpUpdated where
  time : Time
  random : RrdpFileRandom
  deltasTruncate : Nat
  deriving DecidableEq

/-- What a command reads from its surroundings: the clock, the random numbers
it draws and the order in which hash maps are iterated. -/
structure Surroundings where
  now : Time
  random : RrdpFileRandom
  session : RrdpSession
  order : IterOrder

structure RrdpServer where
  session : RrdpSession
  serial : Nat
  lastUpdate : Time
  snapshot : SnapshotData
  deltas : List DeltaData
  stagedElements : StagedElements
  deriving DecidableEq

namespace RrdpServer

def create (env : Surroundings) : RrdpServer where
  session := env.session
  serial := RRDP_FIRST_SERIAL
  lastUpdate := env.now
  snapshot := .create env.random
  deltas := []
  stagedElements := .default

def resetSession (self : RrdpServer) (env : Surroundings) : RrdpSessionReset where
  lastUpdate := env.now
  session := env.session
  snapshot := self.snapshot.withNewRandom env.random

def applySessionReset (self : RrdpServer) (reset : RrdpSessionReset) : RrdpServer :=
  { self with
    snapshot := reset.snapshot
    session := reset.session
    lastUpdate := reset.lastUpdate
    serial := RRDP_FIRST_SERIAL
    deltas := [] }

def applyRrdpStaged (self : RrdpServer) (elements : DeltaElements) : RrdpServer :=
  { self with stagedElements := self.stagedElements.stage elements }

def countWithinSize (snapshotSize : Nat) : Nat → List DeltaData → Nat
  | _, [] => 0
  | total, delta :: rest =>
    let total := total + delta.elements.size
    if total > snapshotSize then 0 else countWithinSize snapshotSize total rest + 1

def deltasTruncateSize (self : RrdpServer) : RrdpServer :=
  let keep := countWithinSize self.snapshot.size 0 self.deltas
  { self with deltas := self.deltas.take keep }

def nextDelta (self : RrdpServer) (update : RrdpUpdated) (order : IterOrder) : DeltaData where
  random := update.random
  serial := self.serial + 1
  time := update.time
  elements := self.stagedElements.intoDeltaElements order

def applyRrdpUpdated (self : RrdpServer) (update : RrdpUpdated)
    (order : IterOrder) : RrdpServer :=
  let delta := self.nextDelta update order
  let updated : RrdpServer :=
    { self with
      serial := self.serial + 1
      stagedElements := .default
      snapshot := self.snapshot.withDelta delta.random delta.elements
      deltas := delta :: self.deltas.take update.deltasTruncate }
  { updated.deltasTruncateSize with lastUpdate := update.time }

@[simp] theorem applyRrdpUpdated_serial (self : RrdpServer) (update : RrdpUpdated)
    (order : IterOrder) :
    (self.applyRrdpUpdated update order).serial = self.serial + 1 := rfl

@[simp] theorem applyRrdpUpdated_stagedElements (self : RrdpServer)
    (update : RrdpUpdated) (order : IterOrder) :
    (self.applyRrdpUpdated update order).stagedElements = .default := rfl

@[simp] theorem applyRrdpUpdated_currentObjects (self : RrdpServer)
    (update : RrdpUpdated) (order : IterOrder) :
    (self.applyRrdpUpdated update order).snapshot.currentObjects =
      self.snapshot.currentObjects.applyDelta
        (self.stagedElements.intoDeltaElements order) := rfl

theorem applyRrdpUpdated_deltas (self : RrdpServer) (update : RrdpUpdated) (order : IterOrder) :
    (self.applyRrdpUpdated update order).deltas <+: self.nextDelta update order :: self.deltas := by
  have kept : (self.applyRrdpUpdated update order).deltas <+:
      self.nextDelta update order :: self.deltas.take update.deltasTruncate :=
    List.take_prefix ..
  exact kept.trans ((List.prefix_cons_inj _).mpr (List.take_prefix update.deltasTruncate _))

def updateRrdpNeeded (self : RrdpServer) (env : Surroundings)
    (config : RrdpUpdatesConfig) : RrdpUpdateNeeded :=
  if self.stagedElements.map.isEmpty then .no
  else
    let nextUpdateTime := self.lastUpdate + config.rrdpDeltaIntervalMinSeconds
    if nextUpdateTime > env.now then .later nextUpdateTime else .yes

/-- The loop of `findDeltasTruncateAge`. The maximum is compared as
`keep + 1 = max` so that a maximum of zero is never reached. -/
def countWithinAge (now : Time) (config : RrdpUpdatesConfig) : Nat → List DeltaData → Nat
  | keep, [] => keep
  | keep, delta :: rest =>
    if keep < config.rrdpDeltaFilesMinNr ∨
        delta.youngerThanSeconds now config.rrdpDeltaFilesMinSeconds then
      countWithinAge now config (keep + 1) rest
    else if keep + 1 = config.rrdpDeltaFilesMaxNr ∨
        delta.olderThanSeconds now config.rrdpDeltaFilesMaxSeconds then keep
    else countWithinAge now config (keep + 1) rest

def findDeltasTruncateAge (self : RrdpServer) (env : Surroundings)
    (config : RrdpUpdatesConfig) : Nat :=
  countWithinAge env.now config 0 self.deltas

def updateRrdp (self : RrdpServer) (env : Surroundings)
    (config : RrdpUpdatesConfig) : RrdpUpdated where
  time := env.now
  random := env.random
  deltasTruncate := self.findDeltasTruncateAge env config

end RrdpServer

end Krill.Pubd
