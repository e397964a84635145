import Mathlib.Data.List.Sort
import Krill.Data.KeyValue
import Krill.EventSourcing.Aggregate

namespace Krill.EventSourcing

open Aggregate KeyValue

variable [Aggregate]

/-! The store of one aggregate: its scope in the key-value store and its entry in
the cache. Archives of corrupt and surplus values are never read again, so a
value that is archived leaves the model. -/

structure StoredValueInfo where
  snapshotVersion : Nat
  lastEvent : Nat
  lastCommand : Nat
  lastUpdate : Time
  deriving DecidableEq

def StoredValueInfo.default (now : Time) : StoredValueInfo :=
  { snapshotVersion := 0, lastEvent := 0, lastCommand := 0, lastUpdate := now }

structure CommandKey where
  sequence : Nat
  timestampSecs : Time
  label : String
  deriving DecidableEq

inductive StoredEffect where
  | error (message : String)
  | success (events : List Nat)
  deriving DecidableEq

def StoredEffect.events : StoredEffect → Option (List Nat)
  | .error _ => none
  | .success events => some events

structure StoredCommand where
  actor : String
  time : Time
  handle : Handle
  version : Nat
  sequence : Nat
  details : StorableDetails
  effect : StoredEffect

def CommandKey.forStored (command : StoredCommand) : CommandKey :=
  { sequence := command.sequence
    timestampSecs := command.time
    label := Aggregate.label command.details }

inductive Key where
  | info
  | snapshot
  | backupSnapshot
  | newSnapshot
  | event (version : Nat)
  | command (key : CommandKey)
  deriving DecidableEq

namespace Key

def eventVersion : Key → Option Nat
  | .event version => some version
  | _ => none

def commandAfter (after : Option Nat) : Key → Option CommandKey
  | .command key =>
    match after with
    | none => some key
    | some sequence => if key.sequence > sequence then some key else none
  | _ => none

end Key

inductive Document where
  | info (info : StoredValueInfo)
  | aggregate (state : State)
  | initEvent (event : InitEvent)
  | event (event : Event)
  | command (command : StoredCommand)
  | unreadable

namespace Document

def asInfo : Document → Option StoredValueInfo
  | .info found => some found
  | _ => none

def asAggregate : Document → Option State
  | .aggregate found => some found
  | _ => none

def asInitEvent : Document → Option InitEvent
  | .initEvent found => some found
  | _ => none

def asEvent : Document → Option Event
  | .event found => some found
  | _ => none

def asCommand : Document → Option StoredCommand
  | .command found => some found
  | _ => none

end Document

abbrev Scope := Entries Key Document

inductive AggregateStoreError where
  | keyStoreError (error : KeyValueError Key)
  | unknownAggregate
  | initError
  | replayError (version eventVersion : Nat)
  | infoMissing
  | infoCorrupt
  | warmupFailed (error : AggregateStoreError)
  | couldNotRecover
  | commandCorrupt (key : CommandKey)
  | commandNotFound (key : CommandKey)
  | eventCorrupt (version : Nat)
  | concurrentModification
  | wrongEventForAggregate (handle : Handle) (expected found : Nat)
  | outOfFuel

structure AggregateStore where
  scope : Scope
  cache : Option State

abbrev StoreM := EStateM AggregateStoreError AggregateStore

namespace AggregateStore

def mapError {E F A : Type} (report : E → F) (action : EStateM E AggregateStore A) :
    EStateM F AggregateStore A :=
  fun store => match action store with
    | .ok value after => .ok value after
    | .error failure after => .error (report failure) after

def attempt {E F A : Type} (action : EStateM E AggregateStore A) :
    EStateM F AggregateStore (Except E A) :=
  fun store => match action store with
    | .ok value after => .ok (.ok value) after
    | .error failure after => .ok (.error failure) after

def liftScope (operation : Scope → Except (KeyValueError Key) Scope) : StoreM Unit := do
  let store ← get
  match operation store.scope with
  | .ok scope => set { store with scope }
  | .error failure => throw (.keyStoreError failure)

def archive (key : Key) : StoreM Unit := liftScope fun scope => scope.archive key

def cacheUpdate (state : State) : StoreM Unit :=
  modify fun store => { store with cache := some state }

def getEvent (version : Nat) : StoreM (Option Event) := do
  match (← get).scope.read Document.asEvent (.event version) with
  | .ok found => return found
  | .error _ =>
    archive (.event version)
    throw (.eventCorrupt version)

def getCommand (key : CommandKey) : StoreM StoredCommand := do
  match (← get).scope.read Document.asCommand (.command key) with
  | .ok (some command) => return command
  | .ok none => throw (.commandNotFound key)
  | .error _ =>
    archive (.command key)
    throw (.commandCorrupt key)

def getInfo : StoreM StoredValueInfo := do
  match (← get).scope.read Document.asInfo .info with
  | .ok (some info) => return info
  | .ok none => throw .infoMissing
  | .error _ => throw .infoCorrupt

def saveInfo (info : StoredValueInfo) : StoreM Unit :=
  liftScope fun scope => .ok (scope.store .info (.info info))

/-- The loop of `updateAggregate`. Each round reads another event of the scope, so
one round more than there are files is enough. -/
def updateLoop (limit : Option Nat) : Nat → State → StoreM State
  | 0, _ => throw .outOfFuel
  | fuel + 1, aggregate => do
    let version := version aggregate
    if limit = some (version - 1) then return aggregate
    match ← getEvent version with
    | none => return aggregate
    | some event =>
      if version ≠ eventVersion event then
        throw (.replayError version (eventVersion event))
      updateLoop limit fuel (apply aggregate event)

def updateAggregate (limit : Option Nat) (aggregate : State) : StoreM State := do
  updateLoop limit ((← get).scope.entries.length + 1) aggregate

def withinLimit (limit : Option Nat) (aggregate : State) : Bool :=
  match limit with
  | none => true
  | some limit => decide (version aggregate - 1 ≤ limit)

def getSnapshot (limit : Option Nat) (key : Key) : StoreM (Option State) := do
  match (← get).scope.read Document.asAggregate key with
  | .error _ =>
    archive key
    return none
  | .ok (some aggregate) =>
    if withinLimit limit aggregate then return some aggregate
    archive key
    return none
  | .ok none => return none

def getInit : StoreM (Option State) := do
  match (← get).scope.read Document.asInitEvent (.event 0) with
  | .error failure => throw (.keyStoreError failure)
  | .ok none => return none
  | .ok (some event) =>
    match init event with
    | .ok state => return some state
    | .error _ => throw .initError

def orElse (first second : StoreM (Option State)) : StoreM (Option State) := do
  match ← first with
  | some aggregate => return some aggregate
  | none => second

/-- Build the state from the snapshot, else from the backup snapshot, else from
the init event, and from the newer events up to the limit. -/
def getAggregate (limit : Option Nat) : StoreM (Option State) := do
  let found ← orElse (getSnapshot limit .snapshot)
    (orElse (getSnapshot limit .backupSnapshot) getInit)
  match found with
  | none => return none
  | some aggregate => return some (← updateAggregate limit aggregate)

def getLatest : StoreM State := do
  match (← get).cache with
  | none =>
    match ← getAggregate none with
    | none => throw .unknownAggregate
    | some aggregate =>
      cacheUpdate aggregate
      return aggregate
  | some aggregate =>
    match ← getEvent (version aggregate) with
    | none => return aggregate
    | some _ => updateAggregate none aggregate

/-- The writes that make a snapshot current: the new one is written in full
before the current one becomes the backup. -/
def snapshotWrites (scope : Scope) (aggregate : State) : List (Write Key Document) :=
  [.store .newSnapshot (.aggregate aggregate)] ++
  (if scope.containsKey .backupSnapshot then [.dropKey .backupSnapshot] else []) ++
  (if scope.containsKey .snapshot then [.moveKey .snapshot .backupSnapshot] else []) ++
  [.moveKey .newSnapshot .snapshot]

def storeSnapshot (aggregate : State) : StoreM Unit := do
  let writes := snapshotWrites (← get).scope aggregate
  liftScope fun scope => Write.performAll scope writes

def storeEvent (event : Event) : StoreM Unit :=
  liftScope fun scope => scope.storeNew (.event (eventVersion event)) (.event event)

def storeCommand (command : StoredCommand) : StoreM Unit :=
  liftScope fun scope =>
    scope.storeNew (.command (.forStored command)) (.command command)

/-- The keys of the commands with a sequence after the given one, in the order of
their sequence numbers. -/
def commandKeysAscending (scope : Scope) (after : Option Nat) (order : IterOrder) :
    List CommandKey :=
  (scope.selectKeys order (Key.commandAfter after)).insertionSort
    fun left right => left.sequence ≤ right.sequence

def eventVersions (scope : Scope) (order : IterOrder) : List Nat :=
  scope.selectKeys order Key.eventVersion

def archiveSurplusEvents (order : IterOrder) (start : Nat) : StoreM Unit := do
  (eventVersions (← get).scope order).forM fun version =>
    if version ≥ start then archive (.event version) else pure ()

def archiveIncompleteEvents (order : IterOrder) (lastEvent : Nat) : StoreM Unit := do
  match ← getEvent (lastEvent + 1) with
  | none => pure ()
  | some _ => archiveSurplusEvents order (lastEvent + 1)

def archiveIncompleteCommands (order : IterOrder) (lastCommand : Nat) : StoreM Unit := do
  (commandKeysAscending (← get).scope (some lastCommand) order).forM fun key =>
    archive (.command key)

/-- Warm the cache after startup. Events and commands that the info does not
record are left over from an incomplete transaction and are archived. -/
def warmAggregate (order : IterOrder) : StoreM Unit := do
  let aggregate ← mapError .warmupFailed getLatest
  let info ← getInfo
  archiveIncompleteEvents order info.lastEvent
  archiveIncompleteCommands order info.lastCommand
  if info.snapshotVersion ≠ version aggregate then storeSnapshot aggregate

structure RecoverState where
  lastGoodCmd : Nat
  lastGoodEvt : Nat
  lastUpdate : Time
  allOk : Bool

def recoverEvent (state : RecoverState) (version : Nat) : StoreM RecoverState := do
  match ← attempt (getEvent version) with
  | .ok (some _) => return { state with lastGoodEvt := version }
  | .ok none => return { state with allOk := false }
  | .error _ => return { state with allOk := false }

def checkCommand (state : RecoverState) (key : CommandKey) : StoreM RecoverState := do
  match ← attempt (getCommand key) with
  | .ok command =>
    let state ← (command.effect.events.getD []).foldlM recoverEvent state
    return { state with lastGoodCmd := command.sequence, lastUpdate := command.time }
  | .error _ => return { state with allOk := false }

def recoverCommand (state : RecoverState) (key : CommandKey) : StoreM RecoverState := do
  let state ← if state.allOk then checkCommand state key else pure state
  if ¬ state.allOk then archive (.command key)
  return state

def rebuild (order : IterOrder) (state : RecoverState) : StoreM Unit := do
  archiveSurplusEvents order (state.lastGoodEvt + 1)
  match ← getAggregate (some state.lastGoodEvt) with
  | none => throw .couldNotRecover
  | some aggregate =>
    storeSnapshot aggregate
    cacheUpdate aggregate
    saveInfo
      { lastEvent := state.lastGoodEvt
        lastCommand := state.lastGoodCmd
        lastUpdate := state.lastUpdate
        snapshotVersion := version aggregate }

def recover (order : IterOrder) (now : Time) : StoreM Unit := do
  let keys := commandKeysAscending (← get).scope none order
  let state ← keys.foldlM recoverCommand
    { lastGoodCmd := 0, lastGoodEvt := 0, lastUpdate := now, allOk := true }
  rebuild order state

def add (event : InitEvent) (now : Time) : StoreM State := do
  liftScope fun scope => scope.storeNew (.event (initVersion event)) (.initEvent event)
  match init event with
  | .error _ => throw .initError
  | .ok aggregate =>
    storeSnapshot aggregate
    saveInfo (.default now)
    cacheUpdate aggregate
    return aggregate

inductive CommandError where
  | store (error : AggregateStoreError)
  | rejected (error : Error)
  | exited

abbrev CommandM := EStateM CommandError AggregateStore

/-- What sending a command reads from its surroundings: the clock, once for the
info and once for the stored command, and the pre-save listeners. -/
structure Occasion where
  now : Time
  time : Time
  listen : State → List Event → Except Error Unit

def checkEvents (handle : Handle) : Nat → List Event → Except AggregateStoreError Unit
  | _, [] => .ok ()
  | expected, event :: rest =>
    if eventVersion event ≠ expected ∨ eventHandle event ≠ handle then
      .error (.wrongEventForAggregate (eventHandle event) expected (eventVersion event))
    else checkEvents handle (expected + 1) rest

def buildCommand (handle : Handle) (occasion : Occasion) (command : Command)
    (version sequence : Nat) (effect : StoredEffect) : StoredCommand where
  actor := actor command
  time := occasion.time
  handle := handle
  version := version
  sequence := sequence
  details := details command
  effect := effect

def saveError (handle : Handle) (occasion : Occasion) (command : Command)
    (latest : State) (info : StoredValueInfo) (failure : Error) : CommandM State := do
  mapError .store (storeCommand (buildCommand handle occasion command (version latest)
    info.lastCommand (.error (errorMessage failure))))
  mapError .store (saveInfo info)
  throw (.rejected failure)

/-- Save a command and the events it led to. The process exits if the command
cannot be stored, and the listeners may still return an error after that. -/
def saveEvents (handle : Handle) (occasion : Occasion) (command : Command)
    (latest : State) (info : StoredValueInfo) (events : List Event) :
    CommandM State := do
  match checkEvents handle (version latest) events with
  | .error failure => throw (.store failure)
  | .ok () =>
    let stored := buildCommand handle occasion command (version latest)
      info.lastCommand (.success (events.map eventVersion))
    mapError (fun _ => .exited) (storeCommand stored)
    let aggregate := applyAll latest events
    match occasion.listen aggregate events with
    | .error failure => throw (.rejected failure)
    | .ok () =>
      mapError .store (events.forM storeEvent)
      mapError .store (storeSnapshot aggregate)
      mapError .store (cacheUpdate aggregate)
      mapError .store (saveInfo
        { info with
          lastEvent := version latest + events.length - 1
          snapshotVersion := version aggregate })
      return aggregate

def nextInfo (occasion : Occasion) (info : StoredValueInfo) : StoredValueInfo :=
  { info with lastUpdate := occasion.now, lastCommand := info.lastCommand + 1 }

def command (handle : Handle) (occasion : Occasion) (command : Command) : CommandM State := do
  let info := nextInfo occasion (← mapError .store getInfo)
  let latest ← mapError .store getLatest
  if (commandVersion command).any (· ≠ version latest) then
    throw (.store .concurrentModification)
  match processCommand latest command with
  | .error failure => saveError handle occasion command latest info failure
  | .ok [] => return latest
  | .ok events => saveEvents handle occasion command latest info events

end AggregateStore

end Krill.EventSourcing
