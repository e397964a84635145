import Krill.Upgrades.DataMigration

namespace Krill.Upgrades

open EventSourcing (CommandKey Handle StoredEffect StoredValueInfo Time)
open Stateful Work
open OldLog

structure Entry (m : Migration) where
  command : StoredCommand m.OldDetails
  events : List (Handle × m.Event)
  details : m.Details

namespace OldLog

def eventDetails (old : OldLog m) (version : Nat) : Option (Handle × m.Event) :=
  (old.events version).bind fun event =>
    if m.needsMigration event.details then
      (m.intoEvent event.id event.details).toOption.map (event.id, ·)
    else none

def eventsOf (old : OldLog m) (command : OldCommand m) : List (Handle × m.Event) :=
  match command.stored.effect with
  | .error _ => []
  | .success versions => versions.filterMap old.eventDetails

def isKept (old : OldLog m) (command : OldCommand m) : Bool :=
  !m.skips command.key &&
    match command.stored.effect with
    | .error _ => true
    | .success versions => versions.any fun version =>
      (old.events version).any fun event => m.needsMigration event.details

def EventConvertible (old : OldLog m) (version : Nat) : Prop :=
  ∃ event, old.events version = some event ∧
    (m.needsMigration event.details → ∃ details, m.intoEvent event.id event.details = .ok details)

def CommandConvertible (old : OldLog m) (command : OldCommand m) : Prop :=
  m.skips command.key = false → (∀ versions, command.stored.effect = .success versions →
      ∀ version ∈ versions, old.EventConvertible version) ∧
    (old.isKept command →
      ∃ details, m.intoCommand command.stored.handle command.stored.details = .ok details)

def entry (old : OldLog m) (command : OldCommand m) : Option (Entry m) :=
  if old.isKept command then
    (m.intoCommand command.stored.handle command.stored.details).toOption.map fun details =>
      { command := command.stored, events := old.eventsOf command, details }
  else none

end OldLog

namespace Work

def addEvents (self : Work m) (events : List (Handle × m.Event)) : Work m :=
  events.foldl (fun work event => work.addEvent event.1 event.2) self

def record (self : Work m) (entry : Entry m) : Work m :=
  let effect : StoredEffect :=
    match entry.command.effect with
    | .error message => .error message
    | .success _ => .success (List.range' (self.info.lastEvent + 1) entry.events.length)
  (self.addEvents entry.events).saveCommand { entry.command with effect } entry.details

end Work

variable {old : OldLog m} {versions : List Nat}

theorem migrateEvents_run (convertible : ∀ version ∈ versions, old.EventConvertible version)
    (work : Work m) :
    migrateEvents old versions work =
      .ok (List.range' (work.info.lastEvent + 1) (versions.filterMap old.eventDetails).length)
        (work.addEvents (versions.filterMap old.eventDetails)) := by
  induction versions generalizing work with
  | nil => rfl
  | cons version rest induction =>
    obtain ⟨event, found, converts⟩ := convertible version List.mem_cons_self
    have others := induction fun version member =>
      convertible version (List.mem_cons_of_mem _ member)
    by_cases needed : m.needsMigration event.details
    · obtain ⟨details, converted⟩ := converts needed
      have known : old.eventDetails version = some (event.id, details) := by
        simp [eventDetails, found, needed, converted, Except.toOption]
      rw [List.filterMap_cons_some known]
      simp only [migrateEvents, found, if_pos needed, converted]
      have first := others (work.addEvent event.id details)
      change (migrateEvents old rest >>= fun later =>
        pure ((work.addEvent event.id details).info.lastEvent :: later))
          (work.addEvent event.id details) = _
      rw [bind_of_ok first]
      rfl
    · have unknown : old.eventDetails version = none := by
        simp [eventDetails, found, needed]
      rw [List.filterMap_cons_none unknown, ← others work]
      simp [migrateEvents, found, needed]

theorem any_needsMigration (convertible : ∀ version ∈ versions, old.EventConvertible version) :
    (versions.any fun version =>
        (old.events version).any fun event => m.needsMigration event.details) =
      !(versions.filterMap old.eventDetails).isEmpty := by
  induction versions with
  | nil => rfl
  | cons version rest induction =>
    obtain ⟨event, found, converts⟩ := convertible version List.mem_cons_self
    rw [List.any_cons, induction fun version member =>
      convertible version (List.mem_cons_of_mem _ member)]
    by_cases needed : m.needsMigration event.details
    · obtain ⟨details, converted⟩ := converts needed
      simp [eventDetails, found, needed, converted, Except.toOption]
    · simp [eventDetails, found, needed]

theorem saveConverted_run {command : StoredCommand m.OldDetails}
    (converted : m.intoCommand command.handle command.details = .ok details)
    (effect : StoredEffect) (work : Work m) :
    saveConverted { command with effect } work =
      .ok () (work.saveCommand { command with effect } details) := by
  simp only [saveConverted, converted]
  rfl

theorem migrateCommand_run (convertible : old.CommandConvertible command) (work : Work m) :
    migrateCommand old command work = .ok () (((old.entry command).map work.record).getD work) := by
  by_cases skipped : m.skips command.key
  · simp [migrateCommand, entry, isKept, skipped]
  · obtain ⟨events, converts⟩ := convertible (eq_false_of_ne_true skipped)
    unfold entry
    cases effect : command.stored.effect with
    | error message =>
      have kept : old.isKept command := by simp [isKept, skipped, effect]
      obtain ⟨details, converted⟩ := converts kept
      have saved := saveConverted_run converted command.stored.effect work
      simp [migrateCommand, eventsOf, skipped, effect, kept, converted, saved,
        Work.record, Work.addEvents, Except.toOption]
    | success versions =>
      have needed := any_needsMigration (events versions effect)
      have ran := migrateEvents_run (events versions effect) work
      have kept : old.isKept command = !(versions.filterMap old.eventDetails).isEmpty := by
        simp only [isKept, skipped, effect, needed]
        rfl
      simp only [migrateCommand, skipped, effect]
      rw [if_neg Bool.false_ne_true, bind_of_ok ran]
      rw [kept] at converts
      simp only [eventsOf, effect, kept]
      generalize versions.filterMap old.eventDetails = events at converts
      cases events with
      | nil => rfl
      | cons first others =>
        obtain ⟨details, converted⟩ := converts rfl
        refine (saveConverted_run converted _ _).trans ?_
        simp [Work.record, effect, converted, Except.toOption]

theorem migrateCommands_run {commands : List (OldCommand m)}
    (convertible : ∀ command ∈ commands, old.CommandConvertible command) (work : Work m) :
    commands.forM (migrateCommand old) work =
      .ok () ((commands.filterMap old.entry).foldl Work.record work) := by
  induction commands generalizing work with
  | nil => rfl
  | cons command rest induction =>
    have others := induction fun command member =>
      convertible command (List.mem_cons_of_mem _ member)
    have first := migrateCommand_run (convertible command List.mem_cons_self) work
    change (migrateCommand old command >>= fun _ => rest.forM (migrateCommand old)) work = _
    rw [bind_of_ok first, others]
    cases entered : old.entry command <;> simp [entered]

namespace Work

def core (self : Work m) :=
  (self.store.init, self.store.events, self.store.commands, self.info.lastEvent,
    self.info.lastCommand)

theorem core_addEvents (events : List (Handle × m.Event)) {left right : Work m}
    (same : left.core = right.core) : (left.addEvents events).core = (right.addEvents events).core := by
  induction events generalizing left right with
  | nil => exact same
  | cons event rest induction =>
    apply induction
    simp only [core, Prod.mk.injEq] at same
    simp [core, addEvent, same]

theorem core_record (entry : Entry m) {left right : Work m} (same : left.core = right.core) :
    (left.record entry).core = (right.record entry).core := by
  have added := core_addEvents entry.events same
  simp only [core, Prod.mk.injEq] at same added
  simp [core, record, saveCommand, storeCommand, same, added]

theorem core_recordAll (entries : List (Entry m)) (same : left.core = right.core) :
    (entries.foldl record left).core = (entries.foldl record right).core := by
  induction entries generalizing left right with
  | nil => exact same
  | cons entry rest induction => exact induction (core_record entry same)

structure AddsEvents (before after : Work m) : Prop where
  version : after.store.version = before.store.version
  init : after.store.init = before.store.init
  commands : after.store.commands = before.store.commands
  lastEvent : before.info.lastEvent ≤ after.info.lastEvent
  lastCommand : after.info.lastCommand = before.info.lastCommand

theorem addsEvents (events : List (Handle × m.Event)) (work : Work m) :
    work.AddsEvents (work.addEvents events) := by
  induction events generalizing work with
  | nil => exact ⟨rfl, rfl, rfl, Nat.le_refl _, rfl⟩
  | cons event rest induction =>
    have later := induction (work.addEvent event.1 event.2)
    exact { later with lastEvent := (Nat.le_succ _).trans later.lastEvent }

structure Records (entries : List (Entry m)) (before after : Work m) : Prop where
  version : after.store.version = before.store.version
  init : after.store.init = before.store.init
  upgradeInfo : after.store.upgradeInfo =
    if entries.isEmpty then before.store.upgradeInfo else some after.info
  commands : ∀ {key : CommandKey}, key.sequence ≤ before.info.lastCommand →
    after.store.commands key = before.store.commands key
  lastEvent : before.info.lastEvent ≤ after.info.lastEvent
  lastCommand : after.info.lastCommand = before.info.lastCommand + entries.length
  lastUpdate : after.info.lastUpdate =
    (entries.getLast?.map (·.command.time)).getD before.info.lastUpdate

theorem records (entries : List (Entry m)) (work : Work m) :
    work.Records entries (entries.foldl record work) := by
  induction entries using List.reverseRecOn with
  | nil => exact ⟨rfl, rfl, rfl, fun _ => rfl, Nat.le_refl _, rfl, rfl⟩
  | append_singleton entries last induction =>
    rw [List.foldl_concat]
    have added := addsEvents last.events (entries.foldl record work)
    refine ⟨added.version.trans induction.version, added.init.trans induction.init,
      by simp [record, saveCommand], fun {key} earlier => ?_,
      induction.lastEvent.trans added.lastEvent, ?_, by simp [record, saveCommand]⟩
    · rw [← induction.commands earlier]
      simp only [record, saveCommand, storeCommand, added.commands, added.lastCommand,
        induction.lastCommand]
      refine Function.update_of_ne ?_ _ _
      rintro rfl
      have number : work.info.lastCommand + entries.length + 1 ≤ work.info.lastCommand := earlier
      omega
    · simp [record, saveCommand, added.lastCommand, induction.lastCommand, Nat.add_assoc]

/-- What the migration of the init event makes of an unfinished preparation. -/
def started (self : Work m) (old : OldLog m) (time : Time)
    (implied : Option (m.Event × m.Details)) : Work m :=
  if self.info.lastEvent = 0 then
    let initialised := { self with store.init := some (m.intoInit old.init) }
    (implied.map fun (event, details) =>
      initialised.injectCommand old.init.id time event details).getD initialised
  else self

end Work

namespace OldLog

def initTime (old : OldLog m) (now : Time) : Time :=
  (old.commands.head?.map (·.stored.time)).getD now

def Convertible (old : OldLog m) : Prop :=
  (∃ implied, m.implied old.init = .ok implied) ∧
    ∀ command ∈ old.commands, old.CommandConvertible command

def entries (old : OldLog m) (start : Nat) : List (Entry m) :=
  (old.commands.filter fun command => command.key.sequence > start).filterMap old.entry

theorem commandKeys_eq (old : OldLog m) :
    old.commandKeys start = old.commands.filter fun command => command.key.sequence > start := by
  apply List.mergeSort_of_pairwise
  refine (old.ascending.filter _).imp fun before => ?_
  simpa using Nat.le_of_lt before

end OldLog

theorem migrateInit_run (converted : m.implied old.init = .ok implied)
    (commands : List (OldCommand m)) :
    migrateInit old commands now work =
      .ok () (work.started old ((commands.head?.map (·.stored.time)).getD now) implied) := by
  rw [migrateInit, get_bind_run]
  by_cases fresh : work.info.lastEvent = 0
  · rw [if_pos fresh, converted]
    simp only [Work.started, if_pos fresh]
    cases implied with
    | none | some => rfl
  · rw [if_neg fresh]
    simp [Work.started, fresh]

namespace Prepared

/-- Two stores with the same events and commands, and the same info. -/
def Same (left right : Prepared m) : Prop :=
  left.init = right.init ∧ left.events = right.events ∧ left.commands = right.commands ∧
    left.info = right.info

end Prepared

def prepared (env : Surroundings m) (mode : UpgradeMode) (now : Time) (old : OldLog m)
    (store : Prepared m) : Prepared m :=
  finalState (prepareNewData env mode now old store)

/-- What a log without errors is migrated to, on top of a store that is prepared already. -/
def OldLog.migrated (old : OldLog m) (implied : Option (m.Event × m.Details)) (now : Time)
    (store : Prepared m) : Work m :=
  let info := store.upgradeInfo.getD (.default now)
  let time := ((old.commands.filter fun command =>
    command.key.sequence > info.lastCommand).head?.map (·.stored.time)).getD now
  (old.entries info.lastCommand).foldl Work.record (started { store, info } old time implied)

def Work.closed (self : Work m) (snapshot : Option m.State)
    (upgradeInfo : Option DataUpgradeInfo) : Prepared m :=
  { self.store with info := some self.info.toStoredValueInfo, snapshot, upgradeInfo }

theorem finish_run (work : Work m) : ∃ snapshot upgradeInfo,
      (finalState (finish getLatest mode work)).store = work.closed snapshot upgradeInfo ∧
      (mode = .prepareOnly → upgradeInfo = work.store.upgradeInfo) := by
  let verified := { work with store.info := some work.info.toStoredValueInfo }
  have read : finish getLatest mode work =
      ((liftExcept (getLatest verified.store) : PrepareM m _) >>= _) verified := rfl
  rw [read]
  cases rebuilt : getLatest verified.store with
  | error failure => exact ⟨work.store.snapshot, work.store.upgradeInfo, rfl, fun _ => rfl⟩
  | ok state =>
    cases mode with
    | prepareOnly => exact ⟨some state, work.store.upgradeInfo, rfl, fun _ => rfl⟩
    | prepareToFinalise => exact ⟨some state, none, rfl, fun only => by cases only⟩

theorem prepared_eq (env : Surroundings m) (mode : UpgradeMode) (now : Time)
    (converted : m.implied old.init = .ok implied)
    (convertible : ∀ command ∈ old.commands, old.CommandConvertible command)
    (before : Prepared m) :
    let work := old.migrated implied now (before.preparationStorePrepare env.codeVersion)
    ∃ snapshot upgradeInfo, prepared env mode now old before = work.closed snapshot upgradeInfo ∧
      (mode = .prepareOnly → upgradeInfo = work.store.upgradeInfo) := by
  intro work
  obtain ⟨snapshot, upgradeInfo, finished, kept⟩ := finish_run work
  refine ⟨snapshot, upgradeInfo, ?_, kept⟩
  rw [← finished]
  simp only [prepared, prepareNewData, commandKeys_eq]
  rw [bind_of_ok (migrateInit_run converted _), bind_of_ok (migrateCommands_run ?_ _)]
  · split
    all_goals
      next ran => exact (congrArg (fun outcome => (finalState outcome).store) ran).symm
  · exact fun command member => convertible command (List.mem_of_mem_filter member)

namespace OldLog

def injects (old : OldLog m) : Bool :=
  match m.implied old.init with
  | .ok (some _) => true
  | _ => false

/-- The number that the last command gets which is migrated from so many commands. -/
def reached (old : OldLog m) (count : Nat) : Nat :=
  old.injects.toNat + (old.commands.take count).countP old.isKept

/-- Progress is a number of new commands, and is taken for a number of old ones. Without a
new command there is no progress, and a command that the init event implies is written
again. -/
def Resumable (old : OldLog m) (count : Nat) (first later : Time) : Prop :=
  if (old.commands.take count).any old.isKept then
    (∀ command ∈ old.commands.take count, old.isKept command →
      command.key.sequence ≤ old.reached count) ∧
    ∀ command ∈ old.commands.drop count, old.isKept command →
      old.reached count < command.key.sequence
  else
    old.injects → old.commands.take count ≠ [] ∨ first = old.initTime later

instance (old : OldLog m) (count : Nat) (first later : Time) :
    Decidable (old.Resumable count first later) := by
  unfold Resumable
  infer_instance

theorem isSome_entry (convertible : old.CommandConvertible command) :
    (old.entry command).isSome = old.isKept command := by
  by_cases kept : old.isKept command
  · have unskipped : m.skips command.key = false := by
      simp only [isKept, Bool.and_eq_true, Bool.not_eq_true'] at kept
      exact kept.1
    obtain ⟨details, converted⟩ := (convertible unskipped).2 kept
    simp [entry, kept, converted, Except.toOption]
  · simp [entry, kept]

variable {commands : List (OldCommand m)}

theorem length_entries (convertible : ∀ command ∈ commands, old.CommandConvertible command) :
    (commands.filterMap old.entry).length = commands.countP old.isKept := by
  rw [List.length_filterMap_eq_countP]
  exact List.countP_congr fun command member => by
    rw [isSome_entry (convertible command member)]

theorem filterMap_entry_eq_nil
    (convertible : ∀ command ∈ commands, old.CommandConvertible command) :
    commands.filterMap old.entry = [] ↔ commands.any old.isKept = false := by
  rw [← List.length_eq_zero_iff, length_entries convertible, List.countP_eq_zero]
  simp

theorem entries_zero (old : OldLog m) : old.entries 0 = old.commands.filterMap old.entry := by
  rw [entries, List.filter_eq_self.mpr]
  exact fun command member => decide_eq_true (old.positive command member)

theorem entries_split (old : OldLog m) (count start : Nat) : old.entries start =
      ((old.commands.take count).filter fun command =>
          command.key.sequence > start).filterMap old.entry ++
        ((old.commands.drop count).filter fun command =>
          command.key.sequence > start).filterMap old.entry := by
  rw [entries, ← List.filterMap_append, ← List.filter_append, List.take_append_drop]

theorem entries_eq (before : ∀ command ∈ old.commands.take count, old.isKept command →
      command.key.sequence ≤ start)
    (after : ∀ command ∈ old.commands.drop count, old.isKept command →
      start < command.key.sequence) :
    old.entries start = (old.commands.drop count).filterMap old.entry := by
  rw [old.entries_split count, List.filterMap_eq_nil_iff.mpr, List.nil_append,
    List.filterMap_filter]
  · refine List.filterMap_congr fun command member => ?_
    by_cases kept : old.isKept command
    · rw [if_pos (decide_eq_true (after command member kept))]
    · simp [entry, kept]
  · refine fun command member => if_neg fun kept => ?_
    obtain ⟨present, later⟩ := List.mem_filter.mp member
    exact absurd (before command present kept) (Nat.not_le.mpr (of_decide_eq_true later))

theorem of_length_entries (convertible : ∀ command ∈ old.commands, old.CommandConvertible command)
    (same : (old.entries start).length = ((old.commands.drop count).filterMap old.entry).length) :
    (∀ command ∈ old.commands.take count, old.isKept command → command.key.sequence ≤ start) ∧
      ∀ command ∈ old.commands.drop count, old.isKept command → start < command.key.sequence := by
  have ordered : ∀ left ∈ old.commands.take count, ∀ right ∈ old.commands.drop count,
      left.key.sequence < right.key.sequence := by
    have split := old.ascending
    rw [← List.take_append_drop count old.commands, List.pairwise_append] at split
    exact split.2.2
  have kept : ∀ commands : List (OldCommand m), commands ⊆ old.commands →
      (commands.filterMap old.entry).length = commands.countP old.isKept :=
    fun commands within => length_entries fun command member => convertible _ (within member)
  have left := (List.drop_subset count old.commands)
  have repeated := List.countP_eq_countP_filter_add (old.commands.drop count) old.isKept
    fun command => decide (command.key.sequence > start)
  rw [old.entries_split count, List.length_append, kept _ fun _ member =>
      List.take_subset _ _ (List.mem_of_mem_filter member),
    kept _ fun _ member => left (List.mem_of_mem_filter member), kept _ left, repeated,
    Nat.add_comm, Nat.add_left_cancel_iff] at same
  -- Commands that are found again lie before those that are passed over, and not the other way.
  by_cases again : ((old.commands.take count).filter fun command =>
      decide (command.key.sequence > start)).countP old.isKept = 0
  · rw [again] at same
    constructor
    · intro command member keeps
      by_contra later
      exact List.countP_eq_zero.mp again command
        (List.mem_filter.mpr ⟨member, by simpa using later⟩) keeps
    · intro command member keeps
      by_contra earlier
      exact List.countP_eq_zero.mp same.symm command
        (List.mem_filter.mpr ⟨member, by simpa using earlier⟩) keeps
  · obtain ⟨early, found, _⟩ := List.countP_pos_iff.mp (Nat.pos_of_ne_zero again)
    obtain ⟨late, passed, _⟩ := List.countP_pos_iff.mp (Nat.pos_of_ne_zero (same ▸ again))
    obtain ⟨earlyMember, above⟩ := List.mem_filter.mp found
    obtain ⟨lateMember, under⟩ := List.mem_filter.mp passed
    have before := ordered early earlyMember late lateMember
    simp only [gt_iff_lt, decide_eq_true_eq, Bool.not_eq_true', decide_eq_false_iff_not] at above under
    omega

end OldLog

namespace Work

end Work

theorem same_iff {left right : Work m} :
    (left.closed leftState leftProgress).Same (right.closed rightState rightProgress) ↔
      left.core = right.core ∧ left.info.lastUpdate = right.info.lastUpdate := by
  simp only [Prepared.Same, Work.closed, Work.core, DataUpgradeInfo.toStoredValueInfo, Option.some.injEq,
    StoredValueInfo.mk.injEq, Prod.mk.injEq]
  tauto

section Resuming

def OldLog.begun (old : OldLog m) (implied : Option (m.Event × m.Details)) (codeVersion : String)
    (now time : Time) : Work m :=
  started { store := { Prepared.empty with version := some codeVersion }, info := .default now }
    old time implied

variable {store : Prepared m}

theorem migrated_of_none (old : OldLog m) (unprepared : store.upgradeInfo = none) :
    old.migrated implied now store = (old.commands.filterMap old.entry).foldl record
      (started { store, info := .default now } old (old.initTime now) implied) := by
  have all : (old.commands.filter fun command => command.key.sequence > 0) = old.commands :=
    List.filter_eq_self.mpr fun command member => decide_eq_true (old.positive command member)
  unfold migrated
  rw [unprepared]
  change (old.entries 0).foldl record (started { store, info := .default now } old
    (((old.commands.filter fun command => command.key.sequence > 0).head?.map
      (·.stored.time)).getD now) implied) = _
  rw [all, old.entries_zero]
  rfl

theorem initTime_upTo (some : old.commands.take count ≠ []) (later : Time) :
    (old.upTo count).initTime first = old.initTime later := by
  change ((old.commands.take count).head?.map (·.stored.time)).getD first =
    (old.commands.head?.map (·.stored.time)).getD later
  cases count with
  | zero => exact absurd rfl some
  | succ count =>
    cases commands : old.commands with
    | nil => simp [commands] at some
    | cons command rest => simp

theorem begun_injected (old : OldLog m) (implied : Option (m.Event × m.Details))
    (codeVersion : String) (time : Time) :
    (old.begun implied codeVersion now time).info.lastEvent = implied.isSome.toNat ∧
      (old.begun implied codeVersion now time).info.lastCommand = implied.isSome.toNat ∧
      (old.begun implied codeVersion now time).store.init = some (m.intoInit old.init) ∧
      (old.begun implied codeVersion now time).store.version = some codeVersion ∧
      (old.begun implied codeVersion now time).store.upgradeInfo = none := by
  cases implied <;> exact ⟨rfl, rfl, rfl, rfl, rfl⟩

/-- The store that a preparation of the first commands leaves behind. -/
def OldLog.firstPart (old : OldLog m) (implied : Option (m.Event × m.Details))
    (codeVersion : String) (count : Nat) (now : Time) : Work m :=
  ((old.commands.take count).filterMap old.entry).foldl record
    (old.begun implied codeVersion now ((old.upTo count).initTime now))

theorem continued_iff (convertible : ∀ command ∈ old.commands, old.CommandConvertible command)
    (some : (old.commands.take count).filterMap old.entry ≠ []) : let part := old.firstPart implied codeVersion count first
    let second := old.migrated implied later (part.closed state part.store.upgradeInfo)
    let once := (old.commands.filterMap old.entry).foldl record
      (old.begun implied codeVersion later (old.initTime later))
    (second.core = once.core ∧ second.info.lastUpdate = once.info.lastUpdate) ↔
      (∀ command ∈ old.commands.take count, old.isKept command →
        command.key.sequence ≤ part.info.lastCommand) ∧
      ∀ command ∈ old.commands.drop count, old.isKept command →
        part.info.lastCommand < command.key.sequence := by
  intro part second once
  let start : Work m := ⟨part.closed state part.store.upgradeInfo, part.info⟩
  have progress : start.store.upgradeInfo = Option.some start.info := by
    refine (records _ _).upgradeInfo.trans (if_neg ?_)
    simpa using some
  obtain ⟨time, resumed⟩ : ∃ time, second =
      (old.entries part.info.lastCommand).foldl record (start.started old time implied) := by
    simp only [second, migrated]
    rw [show (part.closed state part.store.upgradeInfo).upgradeInfo = _ from progress]
    exact ⟨_, rfl⟩
  have recorded : (old.begun implied codeVersion first ((old.upTo count).initTime first)).Records
    ((old.commands.take count).filterMap old.entry) part := records _ _
  obtain ⟨injected, _, init, _⟩ := begun_injected old implied codeVersion
    ((old.upTo count).initTime first)
  have known : part.store.init = Option.some (m.intoInit old.init) := recorded.init.trans init
  have counted : implied.isSome → 0 < start.info.lastEvent := by
    intro implies
    have events := recorded.lastEvent
    rw [injected, implies] at events
    exact events
  have restarted : (start.started old time implied).core = part.core := by
    unfold Work.started
    split
    · next unstarted =>
        cases implied with
        | none => simp only [core, known]; rfl
        | some both => exact absurd (counted rfl) (by omega)
    · rfl
  have nonempty : old.commands.take count ≠ [] := fun none => some (by rw [none]; rfl)
  have split : once = ((old.commands.drop count).filterMap old.entry).foldl record
      (((old.commands.take count).filterMap old.entry).foldl record
        (old.begun implied codeVersion later (old.initTime later))) := by
    rw [← List.foldl_append, ← List.filterMap_append, List.take_append_drop]
  have started : (((old.commands.take count).filterMap old.entry).foldl record
      (old.begun implied codeVersion later (old.initTime later))).core = part.core := by
    refine core_recordAll _ ?_
    rw [initTime_upTo nonempty later]
    cases implied <;> rfl
  have updated (work : Work m) : (((old.commands.take count).filterMap old.entry).foldl record
      work).info.lastUpdate = part.info.lastUpdate := by
    obtain ⟨last, final⟩ := List.getLast?_isSome.mpr some |> Option.isSome_iff_exists.mp
    rw [(records _ work).lastUpdate, recorded.lastUpdate, final]
    rfl
  constructor
  · rintro ⟨same, _⟩
    refine of_length_entries convertible ?_
    have numbers : second.info.lastCommand = once.info.lastCommand := congrArg (·.2.2.2.2) same
    have startNumber : (start.started old time implied).info.lastCommand =
      part.info.lastCommand := congrArg (·.2.2.2.2) restarted
    have onceNumber : (((old.commands.take count).filterMap old.entry).foldl record
      (old.begun implied codeVersion later (old.initTime later))).info.lastCommand =
        part.info.lastCommand := congrArg (·.2.2.2.2) started
    rw [resumed, split, (records _ _).lastCommand, (records _ _).lastCommand, startNumber,
      onceNumber] at numbers
    omega
  · rintro ⟨before, after⟩
    rw [resumed, split, entries_eq before after]
    refine ⟨core_recordAll _ (restarted.trans started.symm), ?_⟩
    rw [(records _ _).lastUpdate, (records _ _).lastUpdate, updated]
    congr 1
    unfold Work.started
    split
    · cases implied <;> rfl
    · rfl

theorem repeated_iff (none : (old.commands.take count).filterMap old.entry = []) : let part := old.firstPart implied codeVersion count first
    let second := old.migrated implied later (part.closed state part.store.upgradeInfo)
    let once := (old.commands.filterMap old.entry).foldl record
      (old.begun implied codeVersion later (old.initTime later))
    (second.core = once.core ∧ second.info.lastUpdate = once.info.lastUpdate) ↔
      (implied.isSome → (old.upTo count).initTime first = old.initTime later) := by
  intro part second once
  let before := (old.upTo count).initTime first
  let begun := old.begun implied codeVersion first before
  let start : Work m := ⟨begun.closed state begun.store.upgradeInfo, .default later⟩
  have again : second = (old.commands.filterMap old.entry).foldl record
      (start.started old (old.initTime later) implied) := by
    have unprepared : start.store.upgradeInfo = Option.none :=
      (begun_injected old implied codeVersion before).2.2.2.2
    rw [← migrated_of_none old unprepared]
    simp only [second, part, firstPart, none]
    rfl
  have updated : second.info.lastUpdate = once.info.lastUpdate := by
    rw [again, (records _ _).lastUpdate, (records _ _).lastUpdate]
    cases implied <;> rfl
  rw [and_iff_left updated, again]
  cases implied with
  | none => exact iff_of_true (core_recordAll _ rfl) nofun
  | some both =>
    let key (time : Time) : CommandKey :=
      { sequence := 1, timestampSecs := time, label := m.label both.2 }
    let command (time : Time) : StoredCommand m.Details :=
      { actor := "krill"
        time
        handle := old.init.id
        version := 1
        sequence := 1
        details := both.2
        effect := .success [1] }
    let event : StoredEvent m.Event := { id := old.init.id, version := 1, details := both.1 }
    let time := old.initTime later
    have secondCore : (start.started old time (some both)).core = (some (m.intoInit old.init),
          Function.update (Function.update (fun _ => Option.none) 1 (some event)) 1 (some event),
          Function.update (Function.update (fun _ => Option.none) (key before)
            (some (command before))) (key time) (some (command time)), 1, 1) := rfl
    have onceCore : (old.begun (some both) codeVersion later time).core =
        (some (m.intoInit old.init), Function.update (fun _ => Option.none) 1 (some event),
          Function.update (fun _ => Option.none) (key time) (some (command time)), 1, 1) := rfl
    constructor
    · intro same _
      by_contra other
      have different : key before ≠ key time := by
        intro equal
        exact other (congrArg CommandKey.timestampSecs equal)
      have commands := congrArg (fun core => core.2.2.1 (key before)) same
      change (List.foldl record _ _).store.commands (key before) =
        once.store.commands (key before) at commands
      rw [(records _ _).commands (Nat.le_refl 1), (records _ _).commands (Nat.le_refl 1)]
        at commands
      change (start.started old time (some both)).core.2.2.1 (key before) =
        (old.begun (some both) codeVersion later time).core.2.2.1 (key before) at commands
      rw [secondCore, onceCore] at commands
      simp [Function.update_of_ne different] at commands
    · intro same
      refine core_recordAll _ ?_
      have equal : before = time := same rfl
      rw [secondCore, onceCore, equal, Function.update_idem, Function.update_idem]

end Resuming

theorem resumes_iff (env : Surroundings m) (mode : UpgradeMode) (first later : Time)
    (count : Nat) (convertible : old.Convertible) :
    (prepared env mode later old (prepared env .prepareOnly first (old.upTo count) .empty)).Same
      (prepared env mode later old .empty) ↔ old.Resumable count first later := by
  obtain ⟨⟨implied, converted⟩, commands⟩ := convertible
  have taken : ∀ command ∈ old.commands.take count, old.CommandConvertible command :=
    fun command member => commands command (List.mem_of_mem_take member)
  have injects : old.injects = implied.isSome := by
    rw [injects, converted]
    cases implied <;> rfl
  have firstEq := prepared_eq env .prepareOnly first
    (show m.implied (old.upTo count).init = .ok implied from converted) taken .empty
  have wiped : (Prepared.empty : Prepared m).preparationStorePrepare env.codeVersion =
      { Prepared.empty with version := some env.codeVersion } := rfl
  obtain ⟨onceState, onceProgress, onceEq, _⟩ := prepared_eq env mode later converted commands .empty
  obtain ⟨secondState, secondProgress, secondEq, _⟩ := prepared_eq env mode later converted commands
    (prepared env .prepareOnly first (old.upTo count) .empty)
  rw [wiped, migrated_of_none _ rfl] at firstEq onceEq
  obtain ⟨state, progress, firstEq, kept⟩ := firstEq
  have current : (prepared env .prepareOnly first (old.upTo count) .empty).version =
      some env.codeVersion := by
    rw [firstEq]
    refine (records _ _).version.trans ?_
    cases implied <;> rfl
  rw [Prepared.preparationStorePrepare, if_pos current] at secondEq
  rw [secondEq, onceEq, same_iff, firstEq, kept rfl]
  unfold OldLog.Resumable
  split
  · next some =>
      have progress : (old.commands.take count).filterMap old.entry ≠ [] := by
        rw [Ne, filterMap_entry_eq_nil taken, some]
        exact Bool.noConfusion
      have reached : (old.firstPart implied env.codeVersion count first).info.lastCommand =
          old.reached count := by
        rw [firstPart, (records _ _).lastCommand, length_entries taken, reached, injects]
        cases implied <;> rfl
      rw [← reached]
      exact continued_iff commands progress
  · next none =>
      have progress : (old.commands.take count).filterMap old.entry = [] :=
        (filterMap_entry_eq_nil taken).mpr (eq_false_of_ne_true none)
      refine (repeated_iff progress).trans ?_
      rw [injects]
      refine imp_congr_right fun _ => ?_
      by_cases empty : old.commands.take count = []
      · have time : (old.upTo count).initTime first = first := by
          change ((old.commands.take count).head?.map (·.stored.time)).getD first = first
          rw [empty]
          rfl
        rw [time]
        exact (or_iff_right (not_not.mpr empty)).symm
      · exact iff_of_true (initTime_upTo empty later) (.inl empty)

end Krill.Upgrades
