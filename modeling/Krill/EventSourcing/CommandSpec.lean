import Krill.EventSourcing.StoreWrites

namespace Krill.EventSourcing

open Aggregate KeyValue AggregateStore Stateful
open HashMap

variable [Aggregate]

namespace AggregateStore

def savedWrites (scope : Scope) (stored : StoredCommand) (events : List Event)
    (aggregate : State) (info : StoredValueInfo) : List (Write Key Document) :=
  .storeNew (.command (.forStored stored)) (.command stored) ::
    (eventWrites events ++
      (snapshotWrites scope aggregate ++ [.store .info (.info info)]))

def savedInfo (occasion : Occasion) (info : StoredValueInfo) (latest : State)
    (events : List Event) : StoredValueInfo :=
  { nextInfo occasion info with
    lastEvent := version latest + events.length - 1
    snapshotVersion := version (applyAll latest events) }

section Command

variable (handle : Handle) (occasion : Occasion) (cmd : Command)

def rejectedCommand (info : StoredValueInfo) (latest : State) (failure : Error) :
    StoredCommand :=
  buildCommand handle occasion cmd (version latest) (info.lastCommand + 1)
    (.error (errorMessage failure))

def acceptedCommand (info : StoredValueInfo) (latest : State) (events : List Event) :
    StoredCommand :=
  buildCommand handle occasion cmd (version latest) (info.lastCommand + 1)
    (.success (events.map eventVersion))

/-- The operations on the key-value store, in their order, that sending a command
to a store with this info and this aggregate performs. -/
def commandWrites (scope : Scope) (info : StoredValueInfo) (latest : State) :
    List (Write Key Document) :=
  if (commandVersion cmd).any (· ≠ version latest) then []
  else
    match processCommand latest cmd with
    | .error failure =>
      let stored := rejectedCommand handle occasion cmd info latest failure
      if scope.containsKey (.command (.forStored stored)) then []
      else
        [.storeNew (.command (.forStored stored)) (.command stored),
          .store .info (.info (nextInfo occasion info))]
    | .ok [] => []
    | .ok events =>
      let stored := acceptedCommand handle occasion cmd info latest events
      match checkEvents handle (version latest) events with
      | .error _ => []
      | .ok () =>
        if scope.containsKey (.command (.forStored stored)) then []
        else
          match occasion.listen (applyAll latest events) events with
          | .error _ => [.storeNew (.command (.forStored stored)) (.command stored)]
          | .ok () =>
            savedWrites scope stored events (applyAll latest events)
              (savedInfo occasion info latest events)

/-- The ways in which a command can end, with the operations it performs. -/
inductive CommandEnds (store : AggregateStore) (info : StoredValueInfo)
    (latest : State) :
    EStateM.Result CommandError AggregateStore State → List (Write Key Document) → Prop
  | conflict
      (stale : (commandVersion cmd).any (· ≠ version latest) = true) :
      CommandEnds store info latest
        (.error (.store .concurrentModification) { store with cache := some latest }) []
  | idle
      (current : (commandVersion cmd).any (· ≠ version latest) = false)
      (processed : processCommand latest cmd = .ok []) :
      CommandEnds store info latest (.ok latest { store with cache := some latest }) []
  | malformed (events : List Event) (problem : AggregateStoreError)
      (processed : processCommand latest cmd = .ok events)
      (wrong : checkEvents handle (version latest) events = .error problem) :
      CommandEnds store info latest
        (.error (.store problem) { store with cache := some latest }) []
  | unstorable (failure : Error)
      (processed : processCommand latest cmd = .error failure)
      (present : (store.scope.get (.command (.forStored
        (rejectedCommand handle occasion cmd info latest failure)))).isSome) :
      CommandEnds store info latest
        (.error (.store (.keyStoreError (.duplicateKey (.command (.forStored
          (rejectedCommand handle occasion cmd info latest failure))))))
          { store with cache := some latest }) []
  | failed (failure : Error)
      (processed : processCommand latest cmd = .error failure)
      (fresh : store.scope.get (.command (.forStored
        (rejectedCommand handle occasion cmd info latest failure))) = none) :
      CommandEnds store info latest
        (.error (.rejected failure)
          { scope := (store.scope.insert
              (.command (.forStored
                (rejectedCommand handle occasion cmd info latest failure)))
              (.command (rejectedCommand handle occasion cmd info latest failure))).insert
              .info (.info (nextInfo occasion info))
            cache := some latest })
        [.storeNew
          (.command (.forStored (rejectedCommand handle occasion cmd info latest failure)))
          (.command (rejectedCommand handle occasion cmd info latest failure)),
          .store .info (.info (nextInfo occasion info))]
  | exited (events : List Event)
      (processed : processCommand latest cmd = .ok events)
      (present : (store.scope.get (.command (.forStored
        (acceptedCommand handle occasion cmd info latest events)))).isSome) :
      CommandEnds store info latest
        (.error .exited { store with cache := some latest }) []
  | refused (events : List Event) (failure : Error)
      (current : (commandVersion cmd).any (· ≠ version latest) = false)
      (nonempty : events ≠ [])
      (processed : processCommand latest cmd = .ok events)
      (checked : checkEvents handle (version latest) events = .ok ())
      (fresh : store.scope.get (.command (.forStored
        (acceptedCommand handle occasion cmd info latest events))) = none)
      (heard : occasion.listen (applyAll latest events) events = .error failure) :
      CommandEnds store info latest
        (.error (.rejected failure)
          { scope := store.scope.insert
              (.command (.forStored
                (acceptedCommand handle occasion cmd info latest events)))
              (.command (acceptedCommand handle occasion cmd info latest events))
            cache := some latest })
        [.storeNew
          (.command (.forStored (acceptedCommand handle occasion cmd info latest events)))
          (.command (acceptedCommand handle occasion cmd info latest events))]
  | saved (events : List Event) (after : Scope)
      (nonempty : events ≠ [])
      (processed : processCommand latest cmd = .ok events)
      (checked : checkEvents handle (version latest) events = .ok ())
      (fresh : store.scope.get (.command (.forStored
        (acceptedCommand handle occasion cmd info latest events))) = none)
      (heard : occasion.listen (applyAll latest events) events = .ok ())
      (performed : Write.performAll store.scope (savedWrites store.scope
        (acceptedCommand handle occasion cmd info latest events) events
        (applyAll latest events) (savedInfo occasion info latest events)) = .ok after) :
      CommandEnds store info latest
        (.ok (applyAll latest events)
          { scope := after, cache := some (applyAll latest events) })
        (savedWrites store.scope
          (acceptedCommand handle occasion cmd info latest events) events
          (applyAll latest events) (savedInfo occasion info latest events))

end Command

namespace CommandEnds

theorem performed (ended : CommandEnds handle occasion cmd store info latest result writes) :
    Write.performAll store.scope writes = .ok (finalState result).scope := by
  cases ended with
  | conflict | idle | malformed | unstorable | exited => rfl
  | failed failure processed fresh =>
    exact Write.performAll_storeNew fresh _
  | refused new failure current nonempty processed checked fresh heard =>
    exact Write.performAll_storeNew fresh _
  | saved new after nonempty processed checked fresh heard performed => exact performed

theorem cached (ended : CommandEnds handle occasion cmd store info latest (.ok aggregate final)
      writes) : final.cache = some aggregate := by
  cases ended with
  | idle | saved => rfl

end CommandEnds

end AggregateStore

structure Sound (store : AggregateStore) (initial : State) (events : List Event)
    (info : StoredValueInfo) : Prop where
  logged : Logged store.scope initial events
  infoStored : store.scope.get .info = some (.info info)
  lastEvent : info.lastEvent = events.length
  snapshot : store.scope.get .snapshot = some (.aggregate (applyAll initial events))
  cached : Cached store (applyAll initial events)

section Runs

theorem mapError_run (done : action store = .ok value after) :
    mapError report action store = .ok value after := by
  simp only [mapError, done]

theorem mapError_run_error {failure : E} (failed : action store = .error failure after) :
    mapError report action store = .error (report failure) after := by
  simp only [mapError, failed]

variable {scope : Scope} {cache : Option State}

theorem storeCommand_run (fresh : scope.get (.command (.forStored stored)) = none) :
    storeCommand stored { scope, cache } = .ok ()
      { scope := scope.insert (.command (.forStored stored)) (.command stored), cache } :=
  liftScope_run (Entries.storeNew_eq_ok.mpr ⟨fresh, rfl⟩)

theorem storeCommand_run_present (present : (scope.get (.command (.forStored stored))).isSome) :
    storeCommand stored { scope, cache } =
      .error (.keyStoreError (.duplicateKey (.command (.forStored stored)))) { scope, cache } := by
  apply liftScope_run_error
  simp only [Entries.storeNew, containsKey, present, if_true]

theorem snapshotWrites_congr (same : ∀ key : Key, key.IsSnapshot → other.get key = scope.get key) :
    snapshotWrites other aggregate = snapshotWrites scope aggregate := by
  unfold snapshotWrites containsKey
  rw [same .snapshot trivial, same .backupSnapshot trivial]

end Runs

theorem Snapshots.congr {scope : Scope} (snapshots : Snapshots scope initial events)
    (same : other.get .snapshot = scope.get .snapshot)
    (sameBackup : other.get .backupSnapshot = scope.get .backupSnapshot) :
    Snapshots other initial events := by
  cases snapshots with
  | current count bound stored => exact .current count bound (same.trans stored)
  | backup count bound absent stored =>
    exact .backup count bound (same.trans absent) (sameBackup.trans stored)
  | nothing absent absentBackup =>
    exact .nothing (same.trans absent) (sameBackup.trans absentBackup)

namespace Sound

variable {store : AggregateStore} {initial : State} {events : List Event}
  {info : StoredValueInfo}

theorem snapshots (sound : Sound store initial events info) :
    Snapshots store.scope initial events := by
  refine .current events.length (Nat.le_refl _) ?_
  rw [List.take_length]
  exact sound.snapshot

theorem load (sound : Sound store initial events info) :
    Sound { store with cache := some (applyAll initial events) } initial events info where
  logged := sound.logged
  infoStored := sound.infoStored
  lastEvent := sound.lastEvent
  snapshot := sound.snapshot
  cached := .inr rfl

/-- What the first operations of saving a command leave behind, the command itself
and some more. -/
structure SavedUpTo (scope : Scope) (initial : State) (events new : List Event)
    (stored : StoredCommand) (info : StoredValueInfo) (count : Nat) (left : Scope) :
    Prop where
  logged : Logged left initial (events ++ new.take count)
  snapshots : Snapshots left initial (events ++ new.take count)
  commands : ∀ key, left.get (.command key) =
    if key = .forStored stored then some (.command stored) else scope.get (.command key)
  incomplete :
    count + 1 < (savedWrites scope stored new (applyAll initial (events ++ new))
      info).length →
    left.get .info = scope.get .info
  complete :
    (savedWrites scope stored new (applyAll initial (events ++ new)) info).length ≤
      count + 1 →
    left.get .info = some (.info info) ∧
      left.get .snapshot = some (.aggregate (applyAll initial (events ++ new)))

theorem savedWrites_length (scope : Scope) (stored : StoredCommand) (new : List Event)
    (aggregate : State) (newInfo : StoredValueInfo) :
    (savedWrites scope stored new aggregate newInfo).length =
      new.length + (snapshotWrites scope aggregate).length + 2 := by
  simp only [savedWrites, eventWrites, List.length_cons, List.length_append,
    List.length_map, List.length_nil]
  omega

theorem savedWrites_take (scope : Scope) :
    (savedWrites scope stored new aggregate newInfo).take (count + 1) =
      .storeNew (.command (.forStored stored)) (.command stored) :: (eventWrites (new.take count) ++
          ((snapshotWrites scope aggregate).take (count - new.length) ++
            [Write.store .info (.info newInfo)].take
              (count - new.length - (snapshotWrites scope aggregate).length))) := by
  simp only [savedWrites, List.take_succ_cons, List.take_append, eventWrites,
    List.map_take, List.length_map]

variable {scope : Scope}

theorem eventWrites_frame (performed : Write.performAll scope (eventWrites new) = .ok after)
    (other : ∀ version, key ≠ .event version) : after.get key = scope.get key := by
  refine Write.performAll_frame performed ?_
  intro write member touched
  obtain ⟨event, -, rfl⟩ := List.mem_map.mp member
  exact other _ touched

theorem snapshots_of_snapshot (sound : Sound store initial events info)
    (stored : scope.get .snapshot = store.scope.get .snapshot) (new : List Event) :
    Snapshots scope initial (events ++ new) := by
  refine .current events.length (by simp) ?_
  rw [List.take_left, stored, sound.snapshot]

theorem performAll_snapshotWrites_snapshots (sound : Sound store initial events info)
    (current : scope.get .snapshot = store.scope.get .snapshot) (new : List Event) (count : Nat) :
    ∃ after, Write.performAll scope ((snapshotWrites scope (applyAll initial
        (events ++ new))).take (count - new.length)) = .ok after ∧
      Snapshots after initial (events ++ new.take count) ∧
      ((snapshotWrites scope (applyAll initial (events ++ new))).length ≤ count - new.length →
        after.get .snapshot = some (.aggregate (applyAll initial (events ++ new)))) := by
  obtain ⟨after, performed, complete, states⟩ := performAll_snapshotWrites_take scope
    (applyAll initial (events ++ new)) (count - new.length)
  refine ⟨after, performed, ?_, complete⟩
  by_cases reached : new.length ≤ count
  · rw [List.take_of_length_le reached]
    rcases states with old | renewed | ⟨absent, backup⟩
    · exact sound.snapshots_of_snapshot (old.trans current) new
    · refine .current (events ++ new).length (Nat.le_refl _) ?_
      rw [List.take_length, renewed]
    · refine .backup events.length (by simp) absent ?_
      rw [List.take_left, backup, current, sound.snapshot]
  · rw [show count - new.length = 0 by omega, List.take_zero] at performed
    cases performed
    exact sound.snapshots_of_snapshot current _

theorem get_withCommand (different : ∀ other, key ≠ .command other) :
    (scope.insert (.command (.forStored stored)) (.command stored)).get key = scope.get key :=
  (get_insert ..).trans (if_neg (different _))

variable {handle : Handle}

theorem performAll_commandEvents (lawful : Lawful) (sound : Sound store initial events info)
    (checked : checkEvents handle (version (applyAll initial events)) new = .ok ())
    (stored : StoredCommand) (count : Nat) :
    ∃ after, Write.performAll (store.scope.insert (.command (.forStored stored))
        (.command stored)) (eventWrites (new.take count)) = .ok after ∧
      Logged after initial (events ++ new.take count) ∧
      (∀ key : Key, (∀ version, key ≠ .event version) → after.get key =
        (store.scope.insert (.command (.forStored stored)) (.command stored)).get key) ∧
      ∀ aggregate, snapshotWrites after aggregate = snapshotWrites store.scope aggregate := by
  have logged : Logged (store.scope.insert (.command (.forStored stored))
      (.command stored)) initial events :=
    sound.logged.congr fun version => get_withCommand (by simp)
  have consecutive : ∀ {i event}, (new.take count)[i]? = some event →
      eventVersion event = events.length + 1 + i := by
    intro i event found
    have inAll : new[i]? = some event := by
      rw [List.getElem?_take] at found
      split at found
      · exact found
      · cases found
    rw [checkEvents_eq_ok checked inAll, sound.logged.version_all lawful]
  obtain ⟨after, performed, extended⟩ := performAll_eventWrites logged consecutive
  have eventsOnly : ∀ key : Key, (∀ version, key ≠ .event version) → after.get key =
      (store.scope.insert (.command (.forStored stored)) (.command stored)).get key :=
    fun key other => eventWrites_frame performed other
  refine ⟨after, performed, extended, eventsOnly, ?_⟩
  intro aggregate
  apply snapshotWrites_congr
  intro key isSnapshot
  rw [eventsOnly key (by rintro version rfl; exact isSnapshot),
    get_withCommand (by rintro other rfl; exact isSnapshot)]

theorem performAll_savedWrites_take (lawful : Lawful) (sound : Sound store initial events info)
    (fresh : store.scope.get (.command (.forStored stored)) = none)
    (checked : checkEvents handle (version (applyAll initial events)) new = .ok ())
    (newInfo : StoredValueInfo) (count : Nat) :
    ∃ left, Write.performAll store.scope
        ((savedWrites store.scope stored new (applyAll initial (events ++ new))
          newInfo).take (count + 1)) = .ok left ∧
      SavedUpTo store.scope initial events new stored newInfo count left := by
  obtain ⟨withEvents, eventsDone, logged, eventsOnly, sameWrites⟩ :=
    sound.performAll_commandEvents lawful checked stored count
  obtain ⟨withSnapshot, snapshotDone, snapshots, snapshotComplete⟩ :=
    sound.performAll_snapshotWrites_snapshots
      (show withEvents.get .snapshot = store.scope.get .snapshot by
        rw [eventsOnly _ (by simp), get_withCommand (by simp)])
      new count
  have snapshotOnly : ∀ key : Key, ¬ key.IsSnapshot → withSnapshot.get key = withEvents.get key :=
    fun key other => snapshotWrites_take_frame snapshotDone other
  have performed : Write.performAll store.scope
      ((savedWrites store.scope stored new (applyAll initial (events ++ new))
        newInfo).take (count + 1)) =
      Write.performAll withSnapshot ([Write.store .info (.info newInfo)].take
        (count - new.length - (snapshotWrites store.scope
          (applyAll initial (events ++ new))).length)) := by
    rw [savedWrites_take, Write.performAll_storeNew fresh,
      Write.performAll_append eventsDone, ← sameWrites,
      Write.performAll_append snapshotDone]
  have loggedAfter : Logged withSnapshot initial (events ++ new.take count) :=
    logged.congr fun version => snapshotOnly _ id
  have commands : ∀ key, withSnapshot.get (.command key) =
      if key = .forStored stored then some (.command stored)
      else store.scope.get (.command key) := by
    intro key
    rw [snapshotOnly _ id, eventsOnly _ (by simp), get_insert]
    simp
  have length := savedWrites_length store.scope stored new
    (applyAll initial (events ++ new)) newInfo
  by_cases all : (savedWrites store.scope stored new (applyAll initial (events ++ new))
      newInfo).length ≤ count + 1
  · refine ⟨withSnapshot.insert .info (.info newInfo), ?_, ?_⟩
    · rw [performed, List.take_of_length_le (by simp; omega)]
      rfl
    · have infoOnly : ∀ key : Key, key ≠ .info →
          (withSnapshot.insert .info (.info newInfo)).get key = withSnapshot.get key := by
        intro key different
        rw [get_insert, if_neg different]
      refine ⟨loggedAfter.congr fun version => infoOnly _ (by simp), ?_, ?_, ?_, ?_⟩
      · exact snapshots.congr (infoOnly _ (by simp)) (infoOnly _ (by simp))
      · intro key
        rw [infoOnly _ (by simp), commands]
      · intro short
        omega
      · intro _
        refine ⟨get_insert_self .., ?_⟩
        rw [infoOnly _ (by simp)]
        exact snapshotComplete (by rw [sameWrites]; omega)
  · refine ⟨withSnapshot, ?_, loggedAfter, snapshots, commands, ?_, ?_⟩
    · rw [performed, show count - new.length - (snapshotWrites store.scope
        (applyAll initial (events ++ new))).length = 0 by omega]
      rfl
    · intro _
      rw [snapshotOnly _ id, eventsOnly _ (by simp), get_withCommand (by simp)]
    · intro complete
      omega

variable (handle : Handle) (occasion : Occasion) (cmd : Command)

theorem saveEvents_run (lawful : Lawful) (sound : Sound store initial events info)
    (checked : checkEvents handle (version (applyAll initial events)) new = .ok ())
    (fresh : store.scope.get (.command (.forStored (acceptedCommand handle occasion cmd
      info (applyAll initial events) new))) = none)
    (heard : occasion.listen (applyAll (applyAll initial events) new) new = .ok ()) :
    ∃ after, Write.performAll store.scope (savedWrites store.scope
        (acceptedCommand handle occasion cmd info (applyAll initial events) new) new
        (applyAll (applyAll initial events) new)
        (savedInfo occasion info (applyAll initial events) new)) = .ok after ∧
      saveEvents handle occasion cmd (applyAll initial events) (nextInfo occasion info) new store =
        .ok (applyAll (applyAll initial events) new)
          { scope := after, cache := some (applyAll (applyAll initial events) new) } := by
  obtain ⟨withEvents, eventsDone, -, -, sameWrites⟩ := sound.performAll_commandEvents
    lawful checked (acceptedCommand handle occasion cmd info (applyAll initial events) new)
    new.length
  rw [List.take_length] at eventsDone
  obtain ⟨withSnapshot, snapshotDone, snapshotRun, -⟩ := storeSnapshot_run
    { store with scope := withEvents } (applyAll (applyAll initial events) new)
  refine ⟨withSnapshot.insert .info
    (.info (savedInfo occasion info (applyAll initial events) new)), ?_, ?_⟩
  · rw [savedWrites, Write.performAll_storeNew fresh, Write.performAll_append eventsDone,
      ← sameWrites, Write.performAll_append snapshotDone]
    rfl
  · unfold saveEvents
    rw [checked]
    simp only
    refine (bind_of_ok (mapError_run (storeCommand_run fresh))).trans ?_
    simp only [heard]
    rw [bind_of_ok (mapError_run (forM_storeEvent_run eventsDone)),
      bind_of_ok (mapError_run snapshotRun)]
    rfl

variable {failure : Error}

theorem saveEvents_run_refused (checked : checkEvents handle (version latest) new = .ok ())
    (fresh : store.scope.get (.command (.forStored
      (acceptedCommand handle occasion cmd info latest new))) = none)
    (heard : occasion.listen (applyAll latest new) new = .error failure) :
    saveEvents handle occasion cmd latest (nextInfo occasion info) new
      { store with cache := some latest } =
      .error (.rejected failure)
        { cache := some latest
          scope := store.scope.insert
            (.command (.forStored (acceptedCommand handle occasion cmd info latest new)))
            (.command (acceptedCommand handle occasion cmd info latest new)) } := by
  unfold saveEvents
  rw [checked]
  refine (bind_of_ok (mapError_run (storeCommand_run fresh))).trans ?_
  simp only [heard]
  rfl

theorem command_ends (lawful : Lawful) (sound : Sound store initial events info) :
    CommandEnds handle occasion cmd store info (applyAll initial events)
      (command handle occasion cmd store)
      (commandWrites handle occasion cmd store.scope info (applyAll initial events)) := by
  unfold command commandWrites
  rw [bind_of_ok (mapError_run (getInfo_run sound.infoStored)),
    bind_of_ok (mapError_run (getLatest_run lawful sound.logged sound.snapshots sound.cached))]
  by_cases stale : (commandVersion cmd).any (· ≠ version (applyAll initial events)) = true
  · rw [if_pos stale, if_pos stale]
    exact .conflict stale
  rw [if_neg stale, if_neg stale]
  let loaded : AggregateStore := { store with cache := some (applyAll initial events) }
  cases processed : processCommand (applyAll initial events) cmd with
  | error failure =>
    by_cases present : store.scope.containsKey (.command (.forStored
        (rejectedCommand handle occasion cmd info (applyAll initial events) failure)))
    · simp only [present, if_true]
      have run : saveError handle occasion cmd (applyAll initial events)
          (nextInfo occasion info) failure loaded = _ :=
        bind_of_error (mapError_run_error (storeCommand_run_present present))
      rw [run]
      exact .unstorable failure processed present
    · have fresh := Option.not_isSome_iff_eq_none.mp present
      simp only [present, Bool.false_eq_true, if_false]
      have run : saveError handle occasion cmd (applyAll initial events)
          (nextInfo occasion info) failure loaded = _ :=
        bind_of_ok (mapError_run (storeCommand_run fresh))
      rw [run]
      exact .failed failure processed fresh
  | ok new =>
    cases new with
    | nil => exact .idle (Bool.eq_false_iff.mpr stale) processed
    | cons first rest =>
      cases checked : checkEvents handle (version (applyAll initial events)) (first :: rest) with
      | error problem =>
        simp only [saveEvents, checked]
        exact .malformed _ problem processed checked
      | ok _ =>
        simp only [checked]
        by_cases present : store.scope.containsKey (.command (.forStored
            (acceptedCommand handle occasion cmd info (applyAll initial events) (first :: rest))))
        · simp only [present, if_true]
          have run : saveEvents handle occasion cmd (applyAll initial events)
              (nextInfo occasion info) (first :: rest) loaded = .error .exited loaded := by
            rw [saveEvents, checked]
            exact bind_of_error (mapError_run_error (storeCommand_run_present present))
          rw [run]
          exact .exited _ processed present
        · have fresh := Option.not_isSome_iff_eq_none.mp present
          simp only [present, Bool.false_eq_true, if_false]
          cases heard : occasion.listen (applyAll (applyAll initial events)
              (first :: rest)) (first :: rest) with
          | error failure =>
            rw [saveEvents_run_refused handle occasion cmd checked fresh heard]
            exact .refused _ failure (Bool.eq_false_iff.mpr stale)
              (List.cons_ne_nil _ _) processed checked fresh heard
          | ok _ =>
            obtain ⟨after, performed, run⟩ := sound.load.saveEvents_run handle
              occasion cmd lawful checked fresh heard
            rw [run]
            exact .saved _ after (List.cons_ne_nil _ _) processed checked fresh heard performed

variable {handle : Handle} {occasion : Occasion} {cmd : Command}

theorem withCommand (sound : Sound store initial events info) (stored : StoredCommand) :
    Sound
      { scope := store.scope.insert (.command (.forStored stored)) (.command stored)
        cache := some (applyAll initial events) } initial events info where
  logged := sound.logged.congr fun version => get_withCommand (by simp)
  infoStored := (get_withCommand (by simp)).trans sound.infoStored
  lastEvent := sound.lastEvent
  snapshot := (get_withCommand (by simp)).trans sound.snapshot
  cached := .inr rfl

theorem withInfo (sound : Sound store initial events info)
    (sameEvent : newInfo.lastEvent = info.lastEvent) :
    Sound { store with scope := store.scope.insert .info (.info newInfo) } initial events
      newInfo where
  logged := sound.logged.congr fun version =>
    (get_insert ..).trans (if_neg (by simp))
  infoStored := get_insert_self ..
  lastEvent := sameEvent.trans sound.lastEvent
  snapshot := ((get_insert ..).trans (if_neg (by simp))).trans sound.snapshot
  cached := sound.cached

theorem saved (lawful : Lawful) (sound : Sound store initial events info)
    (fresh : store.scope.get (.command (.forStored stored)) = none)
    (checked : checkEvents handle (version (applyAll initial events)) new = .ok ())
    (performed : Write.performAll store.scope (savedWrites store.scope stored new
      (applyAll initial (events ++ new))
      (savedInfo occasion info (applyAll initial events) new)) = .ok after) :
    Sound { scope := after, cache := some (applyAll initial (events ++ new)) } initial
        (events ++ new) (savedInfo occasion info (applyAll initial events) new) ∧
      ∀ key, after.get (.command key) =
        if key = .forStored stored then some (.command stored)
        else store.scope.get (.command key) := by
  obtain ⟨left, done, part⟩ := sound.performAll_savedWrites_take lawful fresh checked
    (savedInfo occasion info (applyAll initial events) new)
    (savedWrites store.scope stored new (applyAll initial (events ++ new))
      (savedInfo occasion info (applyAll initial events) new)).length
  rw [List.take_of_length_le (Nat.le_succ _), performed] at done
  cases done
  obtain ⟨infoStored, snapshot⟩ := part.complete (Nat.le_succ _)
  have length := savedWrites_length store.scope stored new (applyAll initial (events ++ new))
    (savedInfo occasion info (applyAll initial events) new)
  have allEvents := part.logged
  rw [List.take_of_length_le (by omega)] at allEvents
  refine ⟨⟨allEvents, infoStored, ?_, snapshot, .inr rfl⟩, part.commands⟩
  simp only [savedInfo, sound.logged.version_all lawful, List.length_append]
  omega

theorem ends (lawful : Lawful) (sound : Sound store initial events info)
    (ended : CommandEnds handle occasion cmd store info (applyAll initial events) result writes) :
    ∃ new newInfo, Sound (finalState result) initial (events ++ new) newInfo ∧
      (finalState result).cache = some (applyAll initial (events ++ new)) := by
  have unchanged : Sound { store with cache := some (applyAll initial events) } initial
      (events ++ []) info := by
    rw [List.append_nil]
    exact sound.load
  cases ended with
  | conflict | idle | malformed | unstorable | exited =>
    exact ⟨[], info, unchanged, by rw [List.append_nil]; rfl⟩
  | failed failure processed fresh =>
    refine ⟨[], nextInfo occasion info, ?_, by rw [List.append_nil]; rfl⟩
    rw [List.append_nil]
    exact (sound.withCommand _).withInfo rfl
  | refused new failure current nonempty processed checked fresh heard =>
    refine ⟨[], info, ?_, by rw [List.append_nil]; rfl⟩
    rw [List.append_nil]
    exact sound.withCommand _
  | saved new after nonempty processed checked fresh heard performed =>
    rw [← applyAll_append] at performed ⊢
    exact ⟨new, _, (sound.saved lawful fresh checked performed).1, rfl⟩

end Sound

end Krill.EventSourcing
