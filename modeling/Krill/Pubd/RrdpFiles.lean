import Mathlib.Data.List.Sort
import Mathlib.Data.List.Dedup
import Krill.Data.Program
import Krill.Pubd.RrdpServer

namespace Krill.Pubd

open Rpki

variable [Rpki]

/-! The files of the RRDP server. The base directory is left out, and so is the base
URI: a file has the same relative path below both. -/

inductive RrdpFileKind where
  | snapshot
  | delta
  deriving DecidableEq

inductive RrdpPath where
  | notification
  | newNotification
  | file (session : RrdpSession) (serial : Nat) (random : RrdpFileRandom) (kind : RrdpFileKind)
  deriving DecidableEq

namespace RrdpPath

def session : RrdpPath → Option RrdpSession
  | .file session _ _ _ => some session
  | _ => none

def serialIn (session : RrdpSession) : RrdpPath → Option Nat
  | .file other serial _ _ => if other = session then some serial else none
  | _ => none

def isSnapshot : RrdpPath → Bool
  | .file _ _ _ .snapshot => true
  | _ => false

end RrdpPath

def SnapshotData.path (self : SnapshotData) (session : RrdpSession) (serial : Nat) : RrdpPath :=
  .file session serial self.random .snapshot

def DeltaData.path (self : DeltaData) (session : RrdpSession) : RrdpPath :=
  .file session self.serial self.random .delta

structure SnapshotInfo where
  uri : RrdpPath
  hash : Hash
  deriving DecidableEq

structure DeltaInfo where
  serial : Nat
  uri : RrdpPath
  hash : Hash
  deriving DecidableEq

structure NotificationFile where
  sessionId : RrdpSession
  serial : Nat
  snapshot : SnapshotInfo
  deltas : List DeltaInfo
  deriving DecidableEq

namespace NotificationFile

def sortDeltas (self : NotificationFile) : List DeltaInfo :=
  self.deltas.insertionSort fun left right => left.serial ≤ right.serial

def verifyDeltas : List DeltaInfo → Bool
  | first :: second :: rest =>
    decide (first.serial + 1 = second.serial) && verifyDeltas (second :: rest)
  | _ => true

end NotificationFile

/-- What the library makes of files: their encoding, parsing and hashes. -/
class RrdpXml [Rpki] where
  Xml : Type
  [decEqXml : DecidableEq Xml]
  noXml : Xml
  fromData : Xml → Hash
  snapshotXml : RrdpSession → Nat → List PublishElement → Xml
  deltaXml : RrdpSession → Nat → DeltaElements → Xml
  notificationXml : NotificationFile → Xml
  parse : Xml → Option NotificationFile

open RrdpXml

variable [RrdpXml]

instance : DecidableEq Xml := decEqXml

def ParsesBack : Prop :=
  ∀ notification : NotificationFile, parse (notificationXml notification) = some notification

abbrev RrdpDisk := HashMap RrdpPath Xml

inductive RrdpIoError where
  | couldNotSave (path : RrdpPath)
  | couldNotRename
  | couldNotReadDirectory
  deriving DecidableEq

abbrev RrdpProgram := Program RrdpDisk RrdpIoError

def readNotification (disk : RrdpDisk) : Option NotificationFile :=
  (HashMap.get disk .notification).bind parse

open Program

def put (path : RrdpPath) (xml : Xml) : RrdpProgram Unit :=
  perform fun disk => .ok (HashMap.insert disk path xml)

def saveXml (path : RrdpPath) (xml : Xml) : RrdpProgram Unit := do
  put path noXml
  put path xml

def bestEffortRemove (path : RrdpPath) : RrdpProgram Unit :=
  attemptTo fun disk => HashMap.remove disk path

def readDir (order : IterOrder) (condition : RrdpPath → Bool) : RrdpProgram (List RrdpPath) := do
  perform fun disk => .ok disk
  view fun disk => (order.arrange (HashMap.keys disk)).filter condition

namespace RrdpServer

def isWritten (self : RrdpServer) : Option NotificationFile → Bool
  | some notification =>
    notification.serial = self.serial && notification.sessionId = self.session
  | none => false

/-- The deltas in the existing notification file that are still applicable, from the lowest
serial up. -/
def deltasFromOldNotification (self : RrdpServer) (old : Option NotificationFile) :
    List DeltaInfo :=
  let found := match old with
    | none => []
    | some notification =>
      if notification.sessionId = self.session then
        if NotificationFile.verifyDeltas notification.sortDeltas then notification.sortDeltas
        else []
      else []
  match self.deltas.getLast? with
  | some last => found.filter fun delta => delta.serial ≥ last.serial
  | none => []

def writeDelta (self : RrdpServer) (delta : DeltaData) : RrdpProgram DeltaInfo := do
  let xml := deltaXml self.session delta.serial delta.elements
  saveXml (delta.path self.session) xml
  return { serial := delta.serial, uri := delta.path self.session, hash := fromData xml }

/-- Whether a delta is already included in the list that the old notification file has. -/
def isIncluded (lastWritten : Option DeltaInfo) (delta : DeltaData) : Bool :=
  match lastWritten with
  | some last => delta.serial ≤ last.serial
  | none => false

def writeNewDeltas (self : RrdpServer) (lastWritten : Option DeltaInfo) :
    List DeltaData → RrdpProgram (List DeltaInfo)
  | [] => pure []
  | delta :: rest =>
    if isIncluded lastWritten delta then self.writeNewDeltas lastWritten rest
    else do
      let written ← self.writeDelta delta
      let others ← self.writeNewDeltas lastWritten rest
      return written :: others

def writeDeltaFiles (self : RrdpServer) (old : Option NotificationFile) :
    RrdpProgram (List DeltaInfo) := do
  let kept := self.deltasFromOldNotification old
  let deltas ← self.writeNewDeltas kept.getLast? self.deltas
  return deltas ++ kept.reverse

def writeSnapshotFile (self : RrdpServer) (order : IterOrder) : RrdpProgram SnapshotInfo := do
  let path := self.snapshot.path self.session self.serial
  let xml := snapshotXml self.session self.serial (self.snapshot.currentObjects.elements order)
  saveXml path xml
  return { uri := path, hash := fromData xml }

def renameNotification (disk : RrdpDisk) : Except RrdpIoError RrdpDisk :=
  match HashMap.get disk .newNotification with
  | some xml => .ok (HashMap.insert (HashMap.remove disk .newNotification) .notification xml)
  | none => .error .couldNotRename

def writeNotificationFile (self : RrdpServer) (snapshot : SnapshotInfo)
    (deltas : List DeltaInfo) : RrdpProgram Unit := do
  let xml := notificationXml
    { sessionId := self.session, serial := self.serial, snapshot, deltas }
  saveXml .newNotification xml
  perform renameNotification

def lowestDelta (self : RrdpServer) : Nat := (self.deltas.getLast?.map DeltaData.serial).getD 0

def highestDelta (self : RrdpServer) : Nat := (self.deltas.head?.map DeltaData.serial).getD 0

def cleanupSerial (self : RrdpServer) (archive : Bool) (order : IterOrder) (serial : Nat) :
    RrdpProgram Unit :=
  let inside : RrdpPath → Bool := fun path => path.serialIn self.session = some serial
  if serial = self.serial then pure ()
  else if serial < self.lowestDelta ∨ serial > self.highestDelta then
    if archive then
      -- the directory is moved as a whole
      attemptTo fun disk => HashMap.filter disk fun path _ => !inside path
    else do
      let paths ← view fun disk => (order.arrange (HashMap.keys disk)).filter inside
      forEach bestEffortRemove paths
  else if archive then pure ()
  else do
    let found ← view fun disk => (order.arrange (HashMap.keys disk)).find? fun path =>
      inside path && path.isSnapshot
    forEach bestEffortRemove found.toList

def cleanupOldRrdpFiles (self : RrdpServer) (archive : Bool) (order : IterOrder) :
    RrdpProgram Unit := do
  let otherSessions ← readDir order fun path =>
    path.session.any fun session => session ≠ self.session
  forEach bestEffortRemove otherSessions
  let paths ← readDir order fun path => path.session = some self.session
  forEach (self.cleanupSerial archive order)
    (paths.filterMap (RrdpPath.serialIn self.session)).dedup

/-- Write the missing files, and remove the ones that are no longer referenced. -/
def write (self : RrdpServer) (archive : Bool) (order : IterOrder) : RrdpProgram Unit := do
  let old ← view readNotification
  if self.isWritten old then pure ()
  else do
    let deltas ← self.writeDeltaFiles old
    let snapshot ← self.writeSnapshotFile order
    self.writeNotificationFile snapshot deltas
    self.cleanupOldRrdpFiles archive order

end RrdpServer

end Krill.Pubd
