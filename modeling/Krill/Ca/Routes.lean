import Mathlib.Data.List.Lex
import Mathlib.Order.Nat
import Krill.Ca.Signing

namespace Krill.Ca

open EventSourcing (Time)
open Rpki KrillSigner

variable [Rpki]

namespace RoaPayload

def le (left right : RoaPayload) : Bool :=
  let key (payload : RoaPayload) : List Nat :=
    [payload.typedPrefix.toPrefix.addr.toNat, payload.typedPrefix.addrLen,
      payload.effectiveMaxLength, payload.asn.toNat]
  decide (key left ≤ key right)

def sort (payloads : List RoaPayload) : List RoaPayload :=
  payloads.insertionSort fun left right => left.le right

end RoaPayload

structure RouteInfo where
  since : Time
  comment : Option String
  group : Option Nat
  deriving DecidableEq

def RouteInfo.default (now : Time) : RouteInfo :=
  { since := now, comment := none, group := none }

structure Routes where
  map : HashMap RoaPayloadJsonMapKey RouteInfo

namespace Routes

def default : Routes := { map := .empty }

def filter (self : Routes) (resources : ResourceSet) : Routes where
  map := self.map.filter fun auth _ => containsRoaAddress resources auth.asRoaIpAddress

def roaPayloadKeys (self : Routes) (order : IterOrder) : List RoaPayloadJsonMapKey :=
  (self.map.iter order).map Prod.fst

def asAggregates (self : Routes) (order : IterOrder) :
    HashMap RoaAggregateKey (List RoaPayloadJsonMapKey) :=
  (self.roaPayloadKeys order).foldl (fun map auth =>
    let key : RoaAggregateKey := { asn := auth.asn, group := none }
    match map.get key with
    | some authorizations => map.insert key (RoaPayload.sort (authorizations ++ [auth]))
    | none => map.insert key [auth]) .empty

def len (self : Routes) : Nat := self.map.entries.length

def info (self : Routes) (auth : RoaPayloadJsonMapKey) : Option RouteInfo := self.map.get auth

def has (self : Routes) (auth : RoaPayloadJsonMapKey) : Bool := self.map.containsKey auth

def add (self : Routes) (now : Time) (auth : RoaPayloadJsonMapKey) : Routes where
  map := self.map.insert auth (.default now)

def comment (self : Routes) (auth : RoaPayloadJsonMapKey) (comment : Option String) : Routes :=
  match self.map.get auth with
  | some info => { map := self.map.insert auth { info with comment := comment } }
  | none => self

def remove (self : Routes) (auth : RoaPayloadJsonMapKey) : Routes where
  map := self.map.remove auth

end Routes

structure Roa where
  validity : Validity
  serial : Serial
  signedObject : Rsync
  base64 : Base64
  deriving DecidableEq

structure RoaInfo where
  authorizations : List RoaPayloadJsonMapKey
  validity : Validity
  serial : Serial
  uri : Rsync
  base64 : Base64
  hash : Hash
  deriving DecidableEq

namespace RoaInfo

def new (authorizations : List RoaPayloadJsonMapKey) (roa : Roa) : RoaInfo where
  authorizations := authorizations
  validity := roa.validity
  serial := roa.serial
  uri := roa.signedObject
  base64 := roa.base64
  hash := toHash roa.base64

def expires (self : RoaInfo) : Time := self.validity.notAfter

end RoaInfo

structure RoaUpdates where
  updated : HashMap RoaPayloadJsonMapKey RoaInfo
  removed : List RoaPayloadJsonMapKey
  aggregateUpdated : HashMap RoaAggregateKey RoaInfo
  aggregateRemoved : List RoaAggregateKey

namespace RoaUpdates

def default : RoaUpdates :=
  { updated := .empty, removed := [], aggregateUpdated := .empty, aggregateRemoved := [] }

def isEmpty (self : RoaUpdates) : Bool :=
  self.updated.isEmpty && self.removed.isEmpty && self.aggregateUpdated.isEmpty &&
    self.aggregateRemoved.isEmpty

def containsChanges (self : RoaUpdates) : Bool := !self.isEmpty

def addedRoas (self : RoaUpdates) (order : IterOrder) : HashMap ObjectName RoaInfo :=
  let simple := (self.updated.iter order).map fun entry =>
    (ObjectName.ofRoaPayload entry.1, entry.2)
  let aggregate := (self.aggregateUpdated.iter order).map fun entry =>
    (ObjectName.ofRoaAggregateKey entry.1, entry.2)
  (HashMap.empty.insertAll simple).insertAll aggregate

def removedRoas (self : RoaUpdates) : List ObjectName :=
  self.removed.map ObjectName.ofRoaPayload ++
    self.aggregateRemoved.map ObjectName.ofRoaAggregateKey

end RoaUpdates

inductive RoaMode where
  | simple
  | stopAggregating
  | startAggregating
  | aggregate
  deriving DecidableEq

structure Roas where
  simple : HashMap RoaPayloadJsonMapKey RoaInfo
  aggregate : HashMap RoaAggregateKey RoaInfo

namespace Roas

def default : Roas := { simple := .empty, aggregate := .empty }

def updated (self : Roas) (order : IterOrder) (updates : RoaUpdates) : Roas where
  simple := (self.simple.insertAll (updates.updated.iter order)).removeAll updates.removed
  aggregate := (self.aggregate.insertAll (updates.aggregateUpdated.iter order)).removeAll
    updates.aggregateRemoved

def isCurrentlyAggregating (self : Roas) : Bool :=
  self.aggregate.keys.any fun key => key.group.isNone

/-- The desired mode. No change is triggered when everything will be removed. -/
def mode (self : Roas) (total deAggregationThreshold aggregationThreshold : Nat) : RoaMode :=
  if total = 0 then
    if self.isCurrentlyAggregating then .aggregate else .simple
  else if self.isCurrentlyAggregating then
    if total < deAggregationThreshold then .stopAggregating else .aggregate
  else if total > aggregationThreshold then .startAggregating
  else .simple

variable [KrillSigner]

/-- The addresses to put on a ROA, provided that all are for the first AS. -/
def roaAddresses (authorizations : List RoaPayloadJsonMapKey) :
    Except Error (Asn × List (TypedPrefix × Option Nat)) := do
  let some first := authorizations.head?
    | throw (.custom "Attempt to create ROA without prefixes")
  unless authorizations.all fun auth => auth.asn == first.asn do
    throw (.custom "Attempt to create ROA for multiple ASNs")
  return (first.asn, authorizations.map fun auth =>
    if auth.effectiveMaxLength > auth.typedPrefix.addrLen then (auth.typedPrefix, auth.maxLength)
    else (auth.typedPrefix, none))

def makeRoa (env : Surroundings) (authorizations : List RoaPayloadJsonMapKey)
    (name : ObjectName) (certifiedKey : CertifiedKey) (validity : Validity) : SignM Roa := do
  let incomingCert := certifiedKey.incomingCert
  let signedObject := incomingCert.uriForName name
  let (asn, addresses) ← liftExcept (roaAddresses authorizations)
  let serial ← signing randomSerial
  let object : SignedObjectBuilder :=
    { serial, validity, crlUri := incomingCert.crlUri, caIssuer := incomingCert.uri,
      signedObject, issuer := incomingCert.subject, signingTime := env.now }
  let base64 ← signing (sign (.roa asn addresses object) certifiedKey.keyId)
  return { validity, serial, signedObject, base64 }

def makeAggregateRoa (env : Surroundings) (key : RoaAggregateKey)
    (authorizations : List RoaPayloadJsonMapKey) (certifiedKey : CertifiedKey)
    (timing : IssuanceTimingConfig) : SignM RoaInfo := do
  let roa ← makeRoa env authorizations (.ofRoaAggregateKey key) certifiedKey
    (timing.newRoaValidity env)
  return RoaInfo.new authorizations roa

def makeSimpleRoa (env : Surroundings) (certifiedKey : CertifiedKey)
    (timing : IssuanceTimingConfig) (auth : RoaPayloadJsonMapKey) :
    SignM (RoaPayloadJsonMapKey × RoaInfo) := do
  let roa ← makeRoa env [auth] (.ofRoaPayload auth) certifiedKey (timing.newRoaValidity env)
  return (auth, RoaInfo.new [auth] roa)

def updateSimple (self : Roas) (env : Surroundings) (relevantRoutes : Routes)
    (certifiedKey : CertifiedKey) (timing : IssuanceTimingConfig) : SignM RoaUpdates := do
  let missing := (relevantRoutes.roaPayloadKeys env.order).filter fun auth =>
    !self.simple.containsKey auth
  let added ← missing.mapM (makeSimpleRoa env certifiedKey timing)
  let surplus := ((self.simple.iter env.order).map Prod.fst).filter fun auth =>
    !relevantRoutes.has auth
  return { updated := HashMap.empty.insertAll added, removed := surplus,
           aggregateUpdated := .empty, aggregateRemoved := [] }

def updateStopAggregating (self : Roas) (env : Surroundings) (relevantRoutes : Routes)
    (certifiedKey : CertifiedKey) (timing : IssuanceTimingConfig) : SignM RoaUpdates := do
  let updates ← self.updateSimple env relevantRoutes certifiedKey timing
  return { updates with
    aggregateRemoved := updates.aggregateRemoved ++
      (self.aggregate.iter env.order).map Prod.fst }

def updateAggregate (self : Roas) (env : Surroundings) (relevantRoutes : Routes)
    (certifiedKey : CertifiedKey) (timing : IssuanceTimingConfig) : SignM RoaUpdates := do
  let desiredAggregates := relevantRoutes.asAggregates env.order
  let changed := (desiredAggregates.iter env.order).filter fun desired =>
    match self.aggregate.get desired.1 with
    | some existing => desired.2 != RoaPayload.sort existing.authorizations
    | none => true
  let added ← changed.mapM fun desired => do
    let aggregate ← makeAggregateRoa env desired.1 desired.2 certifiedKey timing
    return (desired.1, aggregate)
  let surplus := ((self.aggregate.iter env.order).map Prod.fst).filter fun key =>
    !desiredAggregates.containsKey key
  return { updated := .empty, removed := [],
           aggregateUpdated := HashMap.empty.insertAll added, aggregateRemoved := surplus }

def updateStartAggregating (self : Roas) (env : Surroundings) (relevantRoutes : Routes)
    (certifiedKey : CertifiedKey) (timing : IssuanceTimingConfig) : SignM RoaUpdates := do
  let updates ← self.updateAggregate env relevantRoutes certifiedKey timing
  return { updates with
    removed := updates.removed ++ (self.simple.iter env.order).map Prod.fst }

def update (self : Roas) (env : Surroundings) (allRoutes : Routes)
    (certifiedKey : CertifiedKey) (config : Config) : SignM RoaUpdates :=
  let relevantRoutes := allRoutes.filter certifiedKey.incomingCert.resources
  match self.mode relevantRoutes.len config.roaDeaggregateThreshold
    config.roaAggregateThreshold with
  | .simple => self.updateSimple env relevantRoutes certifiedKey config.issuanceTiming
  | .stopAggregating =>
    self.updateStopAggregating env relevantRoutes certifiedKey config.issuanceTiming
  | .startAggregating =>
    self.updateStartAggregating env relevantRoutes certifiedKey config.issuanceTiming
  | .aggregate => self.updateAggregate env relevantRoutes certifiedKey config.issuanceTiming

def renew (self : Roas) (env : Surroundings) (force : Bool) (certifiedKey : CertifiedKey)
    (timing : IssuanceTimingConfig) : SignM RoaUpdates := do
  let renewThreshold := timing.newRoaIssuanceThreshold env
  let due (info : RoaInfo) : Bool := force || decide (info.expires < renewThreshold)
  let simple ← ((self.simple.iter env.order).filter fun entry => due entry.2).mapM
    fun entry => makeSimpleRoa env certifiedKey timing entry.1
  let aggregate ← ((self.aggregate.iter env.order).filter fun entry => due entry.2).mapM
    fun entry => do
      let info ← makeAggregateRoa env entry.1 entry.2.authorizations certifiedKey timing
      return (entry.1, info)
  return { updated := HashMap.empty.insertAll simple, removed := [],
           aggregateUpdated := HashMap.empty.insertAll aggregate, aggregateRemoved := [] }

end Roas

end Krill.Ca
