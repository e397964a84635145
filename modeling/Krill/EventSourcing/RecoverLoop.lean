import Mathlib.Data.List.TakeWhile
import Krill.EventSourcing.Crash

namespace Krill.EventSourcing

open Aggregate KeyValue AggregateStore Stateful

variable [Aggregate]

def readEvent (scope : Scope) (version : Nat) : Option Event :=
  (scope.get (.event version)).bind Document.asEvent

def readCommand (scope : Scope) (key : CommandKey) : Option StoredCommand :=
  (scope.get (.command key)).bind Document.asCommand

def StoredCommand.listed (stored : StoredCommand) : List Nat :=
  stored.effect.events.getD []

def intact (scope : Scope) (key : CommandKey) : Bool :=
  match readCommand scope key with
  | none => false
  | some stored => stored.listed.all fun version => (readEvent scope version).isSome

def intactPrefix (scope : Scope) (order : IterOrder) : List CommandKey :=
  (commandKeysAscending scope none order).takeWhile (intact scope)

def damagedRest (scope : Scope) (order : IterOrder) : List CommandKey :=
  (commandKeysAscending scope none order).dropWhile (intact scope)

def listedVersions (scope : Scope) (keys : List CommandKey) : List Nat :=
  keys.flatMap fun key =>
    match readCommand scope key with
    | none => []
    | some stored => stored.listed

def lastListed (scope : Scope) (keys : List CommandKey) : Nat :=
  (listedVersions scope keys).getLast?.getD 0

def lastSequence (keys : List CommandKey) : Nat :=
  (keys.getLast?.map CommandKey.sequence).getD 0

def replay : State → List Event → Option State
  | state, [] => some state
  | state, event :: rest =>
    if version state = eventVersion event then replay (apply state event) rest else none

namespace AggregateStore.RecoverState

abbrev start (now : Time) : RecoverState :=
  { lastGoodCmd := 0, lastGoodEvt := 0, lastUpdate := now, allOk := true }

abbrev checked (stored : StoredCommand) (lastGoodEvt : Nat) (allOk : Bool) : RecoverState :=
  { lastGoodCmd := stored.sequence, lastGoodEvt, lastUpdate := stored.time, allOk }

abbrev intactUntil (scope : Scope) (order : IterOrder) (lastUpdate : Time) : RecoverState :=
  { lastGoodCmd := lastSequence (intactPrefix scope order)
    lastGoodEvt := lastListed scope (intactPrefix scope order)
    lastUpdate
    allOk := true }

end AggregateStore.RecoverState

def lastReadable (scope : Scope) (versions : List Nat) (last : Nat) : Nat :=
  versions.foldl
    (fun last version => if (readEvent scope version).isSome then version else last) last

/-- What can be read in the scope is what was once stored for the aggregate: an
event is stored under its version, a snapshot is a state that the events led to,
and a command is stored under its number and lists events. -/
structure Genuine (scope : Scope) (initial : State) (history : List Event) : Prop where
  initStored : ∃ event, scope.get (.event 0) = some (.initEvent event) ∧
    init event = .ok initial
  numbered : ∀ {i event}, history[i]? = some event → eventVersion event = i + 1
  events : ∀ {version event}, readEvent scope version = some event →
    ∃ i, version = i + 1 ∧ history[i]? = some event
  snapshots : ∀ {key state}, key = .snapshot ∨ key = .backupSnapshot →
    scope.get key = some (.aggregate state) →
    ∃ count, count ≤ history.length ∧ state = applyAll initial (history.take count)
  commands : ∀ {key stored}, readCommand scope key = some stored →
    stored.sequence = key.sequence ∧ 0 ∉ stored.listed

/-- What is asked of recovery: exactly the intact commands and the events they
list are kept, and the aggregate, the cache, the snapshot and the info are those
that they lead to. -/
structure RecoveredTo (scope : Scope) (order : IterOrder) (initial : State)
    (after : AggregateStore) (aggregate : State) (info : StoredValueInfo) : Prop where
  replayed : replay initial ((listedVersions scope (intactPrefix scope order)).filterMap
    (readEvent scope)) = some aggregate
  cached : after.cache = some aggregate
  snapshot : after.scope.get .snapshot = some (.aggregate aggregate)
  infoStored : after.scope.get .info = some (.info info)
  lastCommand : info.lastCommand = lastSequence (intactPrefix scope order)
  lastEvent : info.lastEvent = lastListed scope (intactPrefix scope order)
  commands : ∀ key, after.scope.get (.command key) =
    if key ∈ intactPrefix scope order then scope.get (.command key) else none
  events : ∀ version, after.scope.get (.event version) =
    if version = 0 ∨ version ∈ listedVersions scope (intactPrefix scope order)
    then scope.get (.event version) else none

def RecoversPrefix (order : IterOrder) (now : Time) (initial : State)
    (store : AggregateStore) : Prop :=
  ∃ after aggregate info, recover order now store = .ok () after ∧
    RecoveredTo store.scope order initial after aggregate info

/-- The intact commands list the events from 1 on, one after the other. If a
command is not intact then the first one of those can be read, has the same number
as the last intact one, and lists no other last event that can be read. -/
def Recoverable (scope : Scope) (order : IterOrder) : Prop :=
  listedVersions scope (intactPrefix scope order) =
      List.range' 1 (listedVersions scope (intactPrefix scope order)).length ∧
    ∀ {key rest}, damagedRest scope order = key :: rest →
      ∃ stored, readCommand scope key = some stored ∧
        key.sequence = lastSequence (intactPrefix scope order) ∧
        lastReadable scope stored.listed (lastListed scope (intactPrefix scope order)) =
          lastListed scope (intactPrefix scope order)

theorem readEvent_eq_some {scope : Scope} {version : Nat} : readEvent scope version = some event ↔
      scope.get (.event version) = some (.event event) := by
  constructor
  · intro readable
    obtain ⟨document, found, parsed⟩ := Option.bind_eq_some_iff.mp readable
    cases document with
    | event other =>
      cases parsed
      exact found
    | _ => cases parsed
  · intro found
    rw [readEvent, found]
    rfl

def prune (scope : Scope) (version : Nat) : Scope :=
  if (scope.get (.event version)).isSome ∧ (readEvent scope version).isNone then
    scope.remove (.event version)
  else scope

section Events

variable {scope : Scope} {versions : List Nat}

theorem get_prune (version : Nat) : (prune scope version).get key =
    if key = .event version ∧ (readEvent scope version).isNone then none else scope.get key := by
  unfold prune
  split
  · next both => simp [HashMap.get_remove, both.2]
  · next other =>
      split
      · next unreadable =>
          obtain ⟨rfl, unreadable⟩ := unreadable
          exact Option.not_isSome_iff_eq_none.mp fun present => other ⟨present, unreadable⟩
      · rfl

theorem readEvent_prune (version : Nat) :
    readEvent (prune scope version) other = readEvent scope other := by
  unfold readEvent
  rw [get_prune]
  split
  · next unreadable =>
      obtain ⟨same, unreadable⟩ := unreadable
      cases same
      exact (Option.isNone_iff_eq_none.mp unreadable).symm
  · rfl

theorem get_pruned (versions : List Nat) (scope : Scope) :
    (versions.foldl prune scope).get key = scope.get key ∨ ∃ version ∈ versions,
      key = .event version ∧ readEvent scope version = none ∧
        (versions.foldl prune scope).get key = none := by
  induction versions generalizing scope with
  | nil => exact .inl rfl
  | cons first rest induction =>
    rw [List.foldl_cons]
    obtain same | ⟨version, member, named, unreadable, gone⟩ := induction (prune scope first)
    · rw [same, get_prune]
      split
      · next both =>
          exact .inr ⟨first, List.mem_cons_self, both.1, Option.isNone_iff_eq_none.mp both.2, rfl⟩
      · exact .inl rfl
    · rw [readEvent_prune] at unreadable
      exact .inr ⟨version, List.mem_cons_of_mem _ member, named, unreadable, gone⟩

theorem get_pruned_of_ne (other : ∀ version, key ≠ .event version) :
    (versions.foldl prune scope).get key = scope.get key :=
  (get_pruned versions scope).resolve_right fun ⟨version, _, named, _⟩ => other version named

theorem pruned_of_readable (readable : ∀ version ∈ versions, (readEvent scope version).isSome) :
    versions.foldl prune scope = scope := by
  induction versions with
  | nil => rfl
  | cons first rest induction =>
    have present := readable first List.mem_cons_self
    have same : prune scope first = scope := if_neg fun both => by
      rw [Option.isNone_iff_eq_none.mp both.2] at present
      cases present
    rw [List.foldl_cons, same]
    exact induction fun version member => readable version (List.mem_cons_of_mem _ member)

theorem attempt_run (done : action store = .ok value after) :
    attempt (F := F) action store = .ok (.ok value) after := by
  simp only [attempt, done]

theorem attempt_run_error {failure : E} (failed : action store = .error failure after) :
    attempt (F := F) action store = .ok (.error failure) after := by
  simp only [attempt, failed]

theorem recoverEvent_run (version : Nat) : recoverEvent state version store = .ok
      { state with
        lastGoodEvt := lastReadable store.scope [version] state.lastGoodEvt
        allOk := state.allOk && (readEvent store.scope version).isSome }
      { store with scope := prune store.scope version } := by
  unfold recoverEvent
  cases found : store.scope.get (.event version) with
  | none =>
    have run : getEvent version store = .ok none store := getEvent_run found
    rw [bind_of_ok (attempt_run run)]
    simp [lastReadable, prune, readEvent, found]
  | some document =>
    cases parsed : document.asEvent with
    | some event =>
      have run : getEvent version store = .ok (some event) store := by
        unfold getEvent
        rw [get_bind_run]
        simp [Entries.read, found, parsed]
      rw [bind_of_ok (attempt_run run)]
      simp [lastReadable, prune, readEvent, found, parsed]
    | none =>
      have run : getEvent version store = .error (.eventCorrupt version)
          { store with scope := store.scope.remove (.event version) } := by
        unfold getEvent
        rw [get_bind_run]
        simp only [Entries.read, found, parsed]
        rw [bind_of_ok (archive_run (Option.isSome_of_eq_some found))]
        rfl
      rw [bind_of_ok (attempt_run_error run)]
      simp [lastReadable, prune, readEvent, found, parsed]

theorem recoverEvents_run (versions : List Nat) : versions.foldlM recoverEvent state store = .ok
      { state with
        lastGoodEvt := lastReadable store.scope versions state.lastGoodEvt
        allOk := state.allOk &&
          versions.all fun version => (readEvent store.scope version).isSome }
      { store with scope := versions.foldl prune store.scope } := by
  induction versions generalizing state store with
  | nil =>
    rw [List.all_nil, Bool.and_true]
    rfl
  | cons version rest induction =>
    rw [List.foldlM_cons, bind_of_ok (recoverEvent_run version), induction]
    simp only [lastReadable, readEvent_prune, List.all_cons, Bool.and_assoc]
    rfl

theorem lastReadable_of_readable
    (readable : ∀ version ∈ versions, (readEvent scope version).isSome) (last : Nat) :
    lastReadable scope versions last = versions.getLast?.getD last := by
  induction versions generalizing last with
  | nil => rfl
  | cons version rest induction =>
    have later := induction
      (fun version member => readable version (List.mem_cons_of_mem _ member)) version
    have first : lastReadable scope (version :: rest) last = lastReadable scope rest version := by
      simp only [lastReadable, List.foldl_cons, readable version List.mem_cons_self, if_true]
    rw [first, later, List.getLast?_cons]
    rfl

end Events

section Commands

theorem checkCommand_run (readable : readCommand store.scope key = some stored)
    (state : RecoverState) :
    checkCommand state key store = .ok
      (.checked stored (lastReadable store.scope stored.listed state.lastGoodEvt)
        (state.allOk && intact store.scope key))
      { store with scope := stored.listed.foldl prune store.scope } := by
  have run : getCommand key store = .ok stored store := by
    obtain ⟨document, found, parsed⟩ := Option.bind_eq_some_iff.mp readable
    unfold getCommand
    rw [get_bind_run]
    simp [Entries.read, found, parsed]
  unfold checkCommand
  rw [bind_of_ok (attempt_run run)]
  refine (bind_of_ok (recoverEvents_run stored.listed)).trans ?_
  simp only [intact, readable]
  rfl

theorem recoverCommand_run_intact (whole : intact store.scope key = true)
    (fine : state.allOk = true) :
    ∃ stored, readCommand store.scope key = some stored ∧ recoverCommand state key store = .ok
        (.checked stored (stored.listed.getLast?.getD state.lastGoodEvt) true) store := by
  cases readable : readCommand store.scope key with
  | none => simp [intact, readable] at whole
  | some stored =>
    have run := checkCommand_run readable state
    have allRead : ∀ version ∈ stored.listed, (readEvent store.scope version).isSome := by
      simp only [intact, readable, List.all_eq_true] at whole
      exact whole
    rw [lastReadable_of_readable allRead, whole, fine, Bool.and_self,
      pruned_of_readable allRead] at run
    refine ⟨stored, rfl, ?_⟩
    unfold recoverCommand
    simp only [fine, if_true]
    rw [bind_of_ok run]
    rfl

theorem recoverCommand_run_damaged (readable : readCommand store.scope key = some stored)
    (damaged : intact store.scope key = false) (fine : state.allOk = true) :
    recoverCommand state key store = .ok
      (.checked stored (lastReadable store.scope stored.listed state.lastGoodEvt) false)
      { store with
        scope := (stored.listed.foldl prune store.scope).remove (.command key) } := by
  have run := checkCommand_run readable state
  rw [damaged, Bool.and_false] at run
  have present : ((stored.listed.foldl prune store.scope).get (.command key)).isSome := by
    obtain ⟨document, found, -⟩ := Option.bind_eq_some_iff.mp readable
    rw [get_pruned_of_ne (by simp), found]
    rfl
  unfold recoverCommand
  simp only [fine, if_true]
  rw [bind_of_ok run]
  exact bind_of_ok (archive_run present)

theorem recoverCommand_run_unreadable (unreadable : readCommand store.scope key = none)
    (present : (store.scope.get (.command key)).isSome) (fine : state.allOk = true) :
    ∃ failure after, recoverCommand state key store = .error failure after := by
  obtain ⟨document, found⟩ := Option.isSome_iff_exists.mp present
  have parsed : document.asCommand = none := by
    rw [readCommand, found] at unreadable
    exact unreadable
  have read : getCommand key store = .error (.commandCorrupt key)
      { store with scope := store.scope.remove (.command key) } := by
    unfold getCommand
    rw [get_bind_run]
    simp only [Entries.read, found, parsed]
    rw [bind_of_ok (archive_run present)]
    rfl
  have gone : Entries.archive (store.scope.remove (.command key)) (.command key) =
      .error (.unknownKey (.command key)) := by
    rw [Entries.archive, HashMap.get_remove_self]
  have checked : checkCommand state key store = .ok { state with allOk := false }
      { store with scope := store.scope.remove (.command key) } := by
    unfold checkCommand
    rw [bind_of_ok (attempt_run_error read)]
    rfl
  refine ⟨.keyStoreError (.unknownKey (.command key)),
    { store with scope := store.scope.remove (.command key) }, ?_⟩
  unfold recoverCommand
  simp only [fine, if_true]
  rw [bind_of_ok checked]
  exact bind_of_error (liftScope_run_error gone)

variable {keys : List CommandKey}

theorem recoverRest_run (store : AggregateStore) (wrong : state.allOk = false)
    (distinct : keys.Nodup) (present : ∀ key ∈ keys, (store.scope.get (.command key)).isSome) :
    keys.foldlM recoverCommand state store =
      .ok state { store with scope := store.scope.removeAll (keys.map Key.command) } := by
  induction keys generalizing store with
  | nil => rfl
  | cons key rest induction =>
    obtain ⟨fresh, distinctRest⟩ := List.nodup_cons.mp distinct
    have first : recoverCommand state key store =
        .ok state { store with scope := store.scope.remove (.command key) } := by
      unfold recoverCommand
      simp only [wrong, Bool.false_eq_true, if_false, not_false_eq_true, if_true, pure_bind]
      exact bind_of_ok (archive_run (present key List.mem_cons_self))
    rw [List.foldlM_cons, bind_of_ok first]
    apply induction { store with scope := store.scope.remove (.command key) } distinctRest
    intro later member
    have different : Key.command later ≠ .command key := by
      intro same
      cases same
      exact fresh member
    simp only [HashMap.get_remove, if_neg different]
    exact present later (List.mem_cons_of_mem _ member)

theorem recoverIntact_run (whole : ∀ key ∈ keys, intact store.scope key = true)
    (named : ∀ {key stored}, readCommand store.scope key = some stored →
      stored.sequence = key.sequence) (fine : state.allOk = true) :
    ∃ lastUpdate, keys.foldlM recoverCommand state store = .ok
      { lastGoodCmd := (keys.getLast?.map CommandKey.sequence).getD state.lastGoodCmd
        lastGoodEvt := (listedVersions store.scope keys).getLast?.getD state.lastGoodEvt
        lastUpdate := lastUpdate
        allOk := true } store := by
  induction keys generalizing state with
  | nil =>
    refine ⟨state.lastUpdate, ?_⟩
    rw [List.foldlM_nil, ← fine]
    rfl
  | cons key rest induction =>
    obtain ⟨stored, readable, first⟩ :=
      recoverCommand_run_intact (whole key List.mem_cons_self) fine
    obtain ⟨lastUpdate, run⟩ := induction
      (fun key member => whole key (List.mem_cons_of_mem _ member))
      (show (RecoverState.checked stored _ _).allOk = true from rfl)
    refine ⟨lastUpdate, ?_⟩
    rw [List.foldlM_cons, bind_of_ok first, run]
    simp only [listedVersions, List.flatMap_cons, readable, named readable,
      List.getLast?_append, List.getLast?_cons, Option.getD_or, Option.map_some,
      Option.getD_some]
    cases rest.getLast? with
    | none => rfl
    | some last => rfl

end Commands

section Loop

structure Checked (scope : Scope) (order : IterOrder) (after : Scope) : Prop where
  commands : ∀ key, after.get (.command key) =
    if key ∈ intactPrefix scope order then scope.get (.command key) else none
  events : ∀ version, after.get (.event version) = scope.get (.event version) ∨
    version ≠ 0 ∧ readEvent scope version = none ∧ after.get (.event version) = none
  snapshots : ∀ key : Key, key.IsSnapshot → after.get key = scope.get key

theorem prefix_append_rest (scope : Scope) : intactPrefix scope order ++ damagedRest scope order =
      commandKeysAscending scope none order :=
  List.takeWhile_append_dropWhile

variable {scope : Scope}

theorem mem_intactPrefix (member : key ∈ intactPrefix scope order) : intact scope key = true :=
  List.mem_takeWhile_imp member

theorem damagedRest_head (first : damagedRest scope order = key :: rest) :
    intact scope key = false := by
  have damaged := List.head?_dropWhile_not (intact scope) (commandKeysAscending scope none order)
  rw [show (commandKeysAscending scope none order).dropWhile (intact scope) = key :: rest
    from first] at damaged
  exact damaged

theorem rest_nodup (scope : Scope) :
    (intactPrefix scope order ++ damagedRest scope order).Nodup := by
  rw [prefix_append_rest]
  exact commandKeysAscending_nodup

theorem rest_present (member : key ∈ damagedRest scope order) :
    (scope.get (.command key)).isSome := by
  have listed : key ∈ commandKeysAscending scope none order := by
    rw [← prefix_append_rest]
    exact List.mem_append_right _ member
  exact (mem_commandKeysAscending.mp listed).1

theorem get_command_of_rest :
    (if key ∈ damagedRest scope order then none else scope.get (.command key)) =
      if key ∈ intactPrefix scope order then scope.get (.command key) else none := by
  by_cases inPrefix : key ∈ intactPrefix scope order
  · have notInRest : key ∉ damagedRest scope order := fun inRest =>
      List.disjoint_of_nodup_append (rest_nodup scope) inPrefix inRest
    rw [if_pos inPrefix, if_neg notInRest]
  · rw [if_neg inPrefix]
    by_cases inRest : key ∈ damagedRest scope order
    · rw [if_pos inRest]
    · rw [if_neg inRest]
      have unlisted : key ∉ commandKeysAscending scope none order := by
        rw [← prefix_append_rest, List.mem_append]
        exact fun either => either.elim inPrefix inRest
      rw [mem_commandKeysAscending] at unlisted
      simpa using unlisted

theorem checked_pruned {versions : List Nat} (positive : 0 ∉ versions) :
    Checked scope order ((versions.foldl prune scope).removeAll
      ((damagedRest scope order).map Key.command)) where
  commands := fun key => by
    rw [← get_command_of_rest, HashMap.get_removeAll, get_pruned_of_ne (by simp)]
    simp
  events := fun version => by
    rw [HashMap.get_removeAll_map_other (by simp)]
    refine (get_pruned versions scope).imp_right ?_
    rintro ⟨_, member, same, unreadable, gone⟩
    cases same
    exact ⟨fun zero => positive (zero ▸ member), unreadable, gone⟩
  snapshots := fun key isSnapshot => by
    rw [HashMap.get_removeAll_map_other (by rintro command rfl; exact isSnapshot),
      get_pruned_of_ne (by rintro version rfl; exact isSnapshot)]

theorem recoverPrefix_run (genuine : Genuine store.scope initial history) :
    ∃ lastUpdate, (intactPrefix store.scope order).foldlM recoverCommand (.start now) store =
      .ok (.intactUntil store.scope order lastUpdate) store :=
  recoverIntact_run (fun _ member => mem_intactPrefix member)
    (fun readable => (genuine.commands readable).1) rfl

theorem recoverLoop_run_intact (genuine : Genuine store.scope initial history)
    (order : IterOrder) (now : Time) (undamaged : damagedRest store.scope order = []) :
    ∃ lastUpdate, (commandKeysAscending store.scope none order).foldlM recoverCommand
        (.start now) store = .ok (.intactUntil store.scope order lastUpdate) store ∧
      Checked store.scope order store.scope := by
  obtain ⟨lastUpdate, run⟩ := recoverPrefix_run genuine
  have checked : Checked store.scope order _ := checked_pruned List.not_mem_nil
  rw [undamaged] at checked
  refine ⟨lastUpdate, ?_, checked⟩
  rw [← prefix_append_rest, undamaged, List.append_nil]
  exact run

theorem recoverLoop_run_damaged (genuine : Genuine store.scope initial history)
    (order : IterOrder) (now : Time) {stored : StoredCommand}
    (first : damagedRest store.scope order = key :: rest)
    (readable : readCommand store.scope key = some stored) :
    ∃ after, (commandKeysAscending store.scope none order).foldlM recoverCommand
        (.start now) store = .ok
          { lastGoodCmd := key.sequence
            lastGoodEvt := lastReadable store.scope stored.listed
              (lastListed store.scope (intactPrefix store.scope order))
            lastUpdate := stored.time
            allOk := false }
          { store with scope := after } ∧
      Checked store.scope order after := by
  obtain ⟨lastUpdate, run⟩ := recoverPrefix_run genuine
  obtain ⟨named, positive⟩ := genuine.commands readable
  have step := recoverCommand_run_damaged readable (damagedRest_head first)
    (show (RecoverState.intactUntil store.scope order lastUpdate).allOk = true from rfl)
  obtain ⟨-, distinct, -⟩ := List.nodup_append.mp (rest_nodup store.scope)
  rw [first] at distinct
  obtain ⟨fresh, distinctRest⟩ := List.nodup_cons.mp distinct
  refine ⟨_, ?_, checked_pruned positive⟩
  rw [← prefix_append_rest, List.foldlM_append, bind_of_ok run, first, List.foldlM_cons,
    bind_of_ok step, recoverRest_run _ rfl distinctRest, ← named]
  · rfl
  · intro other member
    have different : Key.command other ≠ .command key := by
      intro same
      cases same
      exact fresh member
    simp only [HashMap.get_remove, if_neg different]
    rw [get_pruned_of_ne (by simp)]
    exact rest_present (by rw [first]; exact List.mem_cons_of_mem _ member)

theorem recoverLoop_run_unreadable (genuine : Genuine store.scope initial history)
    (order : IterOrder) (now : Time) (first : damagedRest store.scope order = key :: rest)
    (unreadable : readCommand store.scope key = none) :
    ∃ failure after, (commandKeysAscending store.scope none order).foldlM recoverCommand
      (.start now) store = .error failure after := by
  obtain ⟨lastUpdate, run⟩ := recoverPrefix_run genuine
  obtain ⟨failure, after, failed⟩ := recoverCommand_run_unreadable unreadable
    (rest_present (by rw [first]; exact List.mem_cons_self))
    (show (RecoverState.intactUntil store.scope order lastUpdate).allOk = true from rfl)
  refine ⟨failure, after, ?_⟩
  rw [← prefix_append_rest, List.foldlM_append, bind_of_ok run, first, List.foldlM_cons,
    bind_of_error failed]

end Loop

end Krill.EventSourcing
