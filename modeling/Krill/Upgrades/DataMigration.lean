import Mathlib.Data.List.Sort
import Mathlib.Logic.Function.Basic
import Krill.Data.Stateful
import Krill.EventSourcing.AggregateStore

namespace Krill.Upgrades

open EventSourcing (CommandKey Handle StoredEffect StoredValueInfo Time)

inductive PrepareUpgradeError where
  | custom (message : String)
  | unreachable
  deriving DecidableEq

inductive UpgradeMode where
  | prepareOnly
  | prepareToFinalise
  deriving DecidableEq

structure DataUpgradeInfo where
  lastEvent : Nat
  lastCommand : Nat
  lastUpdate : Time
  deriving DecidableEq

namespace DataUpgradeInfo

def default (now : Time) : DataUpgradeInfo :=
  { lastEvent := 0, lastCommand := 0, lastUpdate := now }

def toStoredValueInfo (self : DataUpgradeInfo) : StoredValueInfo :=
  { snapshotVersion := 0
    lastEvent := self.lastEvent
    lastCommand := self.lastCommand
    lastUpdate := self.lastUpdate }

end DataUpgradeInfo

structure StoredEvent (Details : Type) where
  id : Handle
  version : Nat
  details : Details

structure StoredCommand (Details : Type) where
  actor : String
  time : Time
  handle : Handle
  version : Nat
  sequence : Nat
  details : Details
  effect : StoredEffect

/-- What sets the migrations of the two kinds of logs apart. An init event may have to be
followed by a command that was implied by it in the old version. -/
structure Migration where
  OldInit : Type
  OldEvent : Type
  OldDetails : Type
  Init : Type
  Event : Type
  Details : Type
  State : Type
  label : Details → String
  skips : CommandKey → Bool
  needsMigration : OldEvent → Bool
  intoInit : StoredEvent OldInit → StoredEvent Init
  intoEvent : Handle → OldEvent → Except PrepareUpgradeError Event
  intoCommand : Handle → OldDetails → Except PrepareUpgradeError Details
  implied : StoredEvent OldInit → Except PrepareUpgradeError (Option (Event × Details))

structure OldCommand (m : Migration) where
  key : CommandKey
  stored : StoredCommand m.OldDetails

/-- The store numbers the commands from 1, and old ones may have been archived. -/
structure OldLog (m : Migration) where
  init : StoredEvent m.OldInit
  events : Nat → Option (StoredEvent m.OldEvent)
  commands : List (OldCommand m)
  ascending : commands.Pairwise fun left right => left.key.sequence < right.key.sequence
  positive : ∀ command ∈ commands, 0 < command.key.sequence

namespace OldLog

def commandKeys (old : OldLog m) (start : Nat) : List (OldCommand m) :=
  (old.commands.filter fun command => command.key.sequence > start).mergeSort
    fun left right => left.key.sequence ≤ right.key.sequence

def upTo (old : OldLog m) (count : Nat) : OldLog m :=
  { old with
    commands := old.commands.take count
    ascending := old.ascending.sublist (List.take_sublist ..)
    positive := fun command member => old.positive command (List.mem_of_mem_take member) }

end OldLog

structure Prepared (m : Migration) where
  version : Option String
  init : Option (StoredEvent m.Init)
  events : Nat → Option (StoredEvent m.Event)
  commands : CommandKey → Option (StoredCommand m.Details)
  info : Option StoredValueInfo
  upgradeInfo : Option DataUpgradeInfo
  snapshot : Option m.State

namespace Prepared

def empty : Prepared m :=
  { version := none
    init := none
    events := fun _ => none
    commands := fun _ => none
    info := none
    upgradeInfo := none
    snapshot := none }

def preparationStorePrepare (codeVersion : String) (self : Prepared m) : Prepared m :=
  if self.version = some codeVersion then self else { empty with version := some codeVersion }

end Prepared

/-- A preparation at work: the store, and the progress that it has made. -/
structure Work (m : Migration) where
  store : Prepared m
  info : DataUpgradeInfo

abbrev PrepareM (m : Migration) := EStateM PrepareUpgradeError (Work m)

namespace Work

def addEvent (self : Work m) (id : Handle) (details : m.Event) : Work m :=
  let number := self.info.lastEvent + 1
  let event : StoredEvent m.Event := { id, version := number, details }
  { store := { self.store with events := Function.update self.store.events number (some event) }
    info := { self.info with lastEvent := number } }

def storeCommand (self : Work m) (command : StoredCommand m.Details) : Work m :=
  let key : CommandKey :=
    { sequence := command.sequence
      timestampSecs := command.time
      label := m.label command.details }
  { self with
    store := { self.store with
      commands := Function.update self.store.commands key (some command) } }

def saveCommand (self : Work m) (command : StoredCommand m.OldDetails) (details : m.Details) :
    Work m :=
  let info := { self.info with
    lastCommand := self.info.lastCommand + 1
    lastUpdate := command.time }
  let saved := self.storeCommand
    { actor := command.actor
      time := command.time
      handle := command.handle
      version := info.lastEvent + 1
      sequence := info.lastCommand
      details
      effect := command.effect }
  { store := { saved.store with upgradeInfo := some info }, info }

/-- The command for an embedded repository, which was implied by the init event. -/
def injectCommand (self : Work m) (id : Handle) (time : Time) (event : m.Event)
    (details : m.Details) : Work m :=
  let added := self.addEvent id event
  let info := { added.info with lastCommand := added.info.lastCommand + 1 }
  let saved := added.storeCommand
    { actor := "krill"
      time
      handle := id
      version := info.lastEvent
      sequence := info.lastCommand
      details
      effect := .success [1] }
  { saved with info }

end Work

/-- The events that the old version has for a command, as far as they are kept. -/
def migrateEvents (old : OldLog m) : List Nat → PrepareM m (List Nat)
  | [] => pure []
  | version :: rest => do
    match old.events version with
    | none => throw (.custom "Cannot parse old event")
    | some event =>
      if m.needsMigration event.details then
        let details ← liftExcept (m.intoEvent event.id event.details)
        modify (·.addEvent event.id details)
        let number := (← get).info.lastEvent
        return number :: (← migrateEvents old rest)
      else
        migrateEvents old rest

def saveConverted (command : StoredCommand m.OldDetails) : PrepareM m Unit := do
  let details ← liftExcept (m.intoCommand command.handle command.details)
  modify (·.saveCommand command details)

def migrateCommand (old : OldLog m) (command : OldCommand m) : PrepareM m Unit := do
  if m.skips command.key then
    return
  match command.stored.effect with
  | .error _ => saveConverted command.stored
  | .success versions =>
    let events ← migrateEvents old versions
    -- A command that is left without events has become a no-op.
    if events.isEmpty then
      return
    saveConverted { command.stored with effect := .success events }

/-- The init event has no command of its own. A command that it implies gets the time of
the first command in the log. -/
def migrateInit (old : OldLog m) (commands : List (OldCommand m)) (now : Time) :
    PrepareM m Unit := do
  if (← get).info.lastEvent = 0 then
    modify fun work => { work with store.init := some (m.intoInit old.init) }
    match ← liftExcept (m.implied old.init) with
    | none => return
    | some (event, details) =>
      let time := (commands.head?.map (·.stored.time)).getD now
      modify (·.injectCommand old.init.id time event details)

/-- The data is verified when all commands are migrated, and its progress is given up
only if no more commands can follow. -/
def finish (getLatest : Prepared m → Except PrepareUpgradeError m.State) (mode : UpgradeMode) :
    PrepareM m Unit := do
  modify fun work => { work with store.info := some work.info.toStoredValueInfo }
  let state ← liftExcept (getLatest (← get).store)
  modify fun work => { work with store.snapshot := some state }
  match mode with
  | .prepareOnly => return
  | .prepareToFinalise => modify fun work => { work with store.upgradeInfo := none }

structure Surroundings (m : Migration) where
  codeVersion : String
  getLatest : Prepared m → Except PrepareUpgradeError m.State

def prepareNewData (env : Surroundings m) (mode : UpgradeMode) (now : Time) (old : OldLog m) :
    EStateM PrepareUpgradeError (Prepared m) Unit := fun before =>
  let store := before.preparationStorePrepare env.codeVersion
  let info := store.upgradeInfo.getD (.default now)
  let commands := old.commandKeys info.lastCommand
  let program : PrepareM m Unit := do
    migrateInit old commands now
    commands.forM (migrateCommand old)
    finish env.getLatest mode
  match program { store, info } with
  | .ok _ work => .ok () work.store
  | .error failure work => .error failure work.store

end Krill.Upgrades
