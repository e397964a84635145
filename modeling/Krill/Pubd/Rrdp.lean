import Krill.Data.HashMap
import Krill.Data.Fallible

namespace Krill.Pubd

/-- What the RPKI library supplies: rsync URIs, base64 encoded contents and
their hashes. -/
class Rpki where
  Uri : Type
  Base64 : Type
  Hash : Type
  [decEqUri : DecidableEq Uri]
  [decEqBase64 : DecidableEq Base64]
  [decEqHash : DecidableEq Hash]
  toHash : Base64 → Hash
  sizeApprox : Base64 → Nat
  isParentOf : Uri → Uri → Bool

open Rpki

variable [Rpki]

instance : DecidableEq Uri := decEqUri
instance : DecidableEq Base64 := decEqBase64
instance : DecidableEq Hash := decEqHash

abbrev Time := Int

abbrev PublisherHandle := String

abbrev RrdpSession := Nat

abbrev RrdpFileRandom := String

structure WithdrawElement where
  uri : Uri
  hash : Hash
  deriving DecidableEq

structure PublishElement where
  base64 : Base64
  uri : Uri
  deriving DecidableEq

namespace PublishElement

def sizeApprox (self : PublishElement) : Nat := Rpki.sizeApprox self.base64

def asWithdraw (self : PublishElement) : WithdrawElement :=
  { uri := self.uri, hash := toHash self.base64 }

end PublishElement

structure UpdateElement where
  uri : Uri
  hash : Hash
  base64 : Base64
  deriving DecidableEq

namespace UpdateElement

def size (self : UpdateElement) : Nat := Rpki.sizeApprox self.base64

def updatesStaged (self staged : UpdateElement) : UpdateElement :=
  { self with hash := staged.hash }

def intoPublish (self : UpdateElement) : PublishElement :=
  { base64 := self.base64, uri := self.uri }

end UpdateElement

structure DeltaElements where
  publishes : List PublishElement
  updates : List UpdateElement
  withdraws : List WithdrawElement
  deriving DecidableEq

namespace DeltaElements

def len (self : DeltaElements) : Nat :=
  self.publishes.length + self.updates.length + self.withdraws.length

def size (self : DeltaElements) : Nat :=
  self.publishes.foldl (fun sum p => sum + p.sizeApprox) 0 +
    self.updates.foldl (fun sum u => sum + u.size) 0

def isEmpty (self : DeltaElements) : Bool := self.len == 0

end DeltaElements

inductive PublishDeltaElement where
  | publish (tag : Option String) (uri : Uri) (base64 : Base64)
  | update (tag : Option String) (uri : Uri) (base64 : Base64) (hash : Hash)
  | withdraw (tag : Option String) (uri : Uri) (hash : Hash)

abbrev PublishDelta := List PublishDeltaElement

def DeltaElements.push (self : DeltaElements) : PublishDeltaElement → DeltaElements
  | .publish _ uri base64 =>
    { self with publishes := self.publishes ++ [{ base64, uri }] }
  | .update _ uri base64 hash =>
    { self with updates := self.updates ++ [{ uri, hash, base64 }] }
  | .withdraw _ uri hash =>
    { self with withdraws := self.withdraws ++ [{ uri, hash }] }

def DeltaElements.from (delta : PublishDelta) : DeltaElements :=
  delta.foldl DeltaElements.push ⟨[], [], []⟩

inductive PublicationDeltaError where
  | uriOutsideJail (uri jail : Uri)
  | objectAlreadyPresent (uri : Uri)
  | noObjectForHashAndOrUri (uri : Uri)
  deriving DecidableEq

structure CurrentObjects where
  map : HashMap Hash PublishElement
  deriving DecidableEq

namespace CurrentObjects

def default : CurrentObjects := ⟨.empty⟩

def elements (self : CurrentObjects) (order : IterOrder) : List PublishElement :=
  self.map.intoValues order

def hasMatch (self : CurrentObjects) (hash : Hash) (uri : Uri) : Bool :=
  match self.map.get hash with
  | some el => el.uri == uri
  | none => false

def verifyPublish (self : CurrentObjects) (jail : Uri) (p : PublishElement) :
    Except PublicationDeltaError Unit :=
  if ¬ isParentOf jail p.uri then .error (.uriOutsideJail p.uri jail)
  else if self.map.containsKey (toHash p.base64) then
    .error (.objectAlreadyPresent p.uri)
  else .ok ()

def verifyMatch (self : CurrentObjects) (jail uri : Uri) (hash : Hash) :
    Except PublicationDeltaError Unit :=
  if ¬ isParentOf jail uri then .error (.uriOutsideJail uri jail)
  else if ¬ self.hasMatch hash uri then .error (.noObjectForHashAndOrUri uri)
  else .ok ()

def verifyDelta (self : CurrentObjects) (delta : DeltaElements) (jail : Uri) :
    Except PublicationDeltaError Unit := do
  delta.publishes.forM fun p => self.verifyPublish jail p
  delta.updates.forM fun u => self.verifyMatch jail u.uri u.hash
  delta.withdraws.forM fun w => self.verifyMatch jail w.uri w.hash

variable {self : CurrentObjects}

theorem hasMatch_eq_true {hash : Hash} : self.hasMatch hash uri = true ↔
      ∃ element, self.map.get hash = some element ∧ element.uri = uri := by
  unfold hasMatch
  cases self.map.get hash with
  | none | some => simp

theorem verifyPublish_eq_ok : self.verifyPublish jail p = .ok () ↔
      isParentOf jail p.uri = true ∧ self.map.get (toHash p.base64) = none := by
  unfold verifyPublish
  rw [Fallible.ite_error_eq_ok, Fallible.ite_error_eq_ok]
  simp

theorem verifyMatch_eq_ok {hash : Hash} : self.verifyMatch jail uri hash = .ok () ↔
      isParentOf jail uri = true ∧ self.hasMatch hash uri = true := by
  unfold verifyMatch
  rw [Fallible.ite_error_eq_ok, Fallible.ite_error_eq_ok]
  simp

theorem verifyDelta_eq_ok : self.verifyDelta delta jail = .ok () ↔
      (∀ p ∈ delta.publishes, isParentOf jail p.uri = true ∧
        self.map.get (toHash p.base64) = none) ∧
      (∀ u ∈ delta.updates, isParentOf jail u.uri = true ∧ self.hasMatch u.hash u.uri = true) ∧
      (∀ w ∈ delta.withdraws, isParentOf jail w.uri = true ∧
        self.hasMatch w.hash w.uri = true) := by
  unfold verifyDelta
  rw [Fallible.then_eq_ok, Fallible.then_eq_ok]
  simp only [Fallible.forM_eq_ok, verifyPublish_eq_ok, verifyMatch_eq_ok]

def applyPublish (self : CurrentObjects) (p : PublishElement) : CurrentObjects :=
  ⟨self.map.insert (toHash p.base64) p⟩

def applyUpdate (self : CurrentObjects) (u : UpdateElement) : CurrentObjects :=
  applyPublish ⟨self.map.remove u.hash⟩ u.intoPublish

def applyWithdraw (self : CurrentObjects) (w : WithdrawElement) : CurrentObjects :=
  ⟨self.map.remove w.hash⟩

def applyDelta (self : CurrentObjects) (delta : DeltaElements) : CurrentObjects :=
  let self := delta.publishes.foldl applyPublish self
  let self := delta.updates.foldl applyUpdate self
  delta.withdraws.foldl applyWithdraw self

/-- Addition does not depend on the order in which the values are listed. -/
def size (self : CurrentObjects) : Nat :=
  self.map.values.foldl (fun tot el => tot + el.sizeApprox) 0

end CurrentObjects

structure SnapshotData where
  random : RrdpFileRandom
  currentObjects : CurrentObjects
  deriving DecidableEq

namespace SnapshotData

def create (random : RrdpFileRandom) : SnapshotData := ⟨random, .default⟩

def withNewRandom (self : SnapshotData) (random : RrdpFileRandom) : SnapshotData :=
  { random, currentObjects := self.currentObjects }

def withDelta (self : SnapshotData) (random : RrdpFileRandom)
    (elements : DeltaElements) : SnapshotData :=
  { random, currentObjects := self.currentObjects.applyDelta elements }

def size (self : SnapshotData) : Nat := self.currentObjects.size

end SnapshotData

structure DeltaData where
  random : RrdpFileRandom
  serial : Nat
  time : Time
  elements : DeltaElements
  deriving DecidableEq

namespace DeltaData

def olderThanSeconds (self : DeltaData) (now : Time) (seconds : Int) : Bool :=
  decide (self.time < now - seconds)

def youngerThanSeconds (self : DeltaData) (now : Time) (seconds : Int) : Bool :=
  decide (self.time > now - seconds)

end DeltaData

end Krill.Pubd

namespace Krill.Pubd.Flat

open Rpki

/-! Small concrete data: a URI is a directory and a file number, and contents are
numbers that hash to themselves. -/

scoped instance : Rpki where
  Uri := String × Nat
  Base64 := Nat
  Hash := Nat
  toHash := id
  sizeApprox := fun _ => 1
  isParentOf := fun jail uri => jail.1 == uri.1

def jail (publisher : PublisherHandle) : Uri := (publisher, 0)

end Krill.Pubd.Flat
