import Krill.EventSourcing.RecoverLoop
import Krill.EventSourcing.Loading

namespace Krill.EventSourcing

open Aggregate AggregateStore Stateful

variable [Aggregate]

section Recover

variable {store : AggregateStore}

theorem rebuild_info (done : rebuild order state store = .ok () after) :
    ∃ info, after.scope.get .info = some (.info info) ∧
      info.lastEvent = state.lastGoodEvt ∧ info.lastCommand = state.lastGoodCmd := by
  obtain ⟨trimmed, archived, -, -⟩ :=
    archiveSurplusEvents_run store order (state.lastGoodEvt + 1)
  unfold rebuild at done
  rw [bind_of_ok archived] at done
  cases loaded : getAggregate (some state.lastGoodEvt) { store with scope := trimmed } with
  | error failure rebuilt =>
    rw [bind_of_error loaded] at done
    cases done
  | ok found rebuilt =>
    rw [bind_of_ok loaded] at done
    cases found with
    | none => cases done
    | some aggregate =>
      obtain ⟨saved, -, run, -, -⟩ := storeSnapshot_run rebuilt aggregate
      simp only at done
      rw [bind_of_ok run] at done
      cases done
      exact ⟨_, HashMap.get_insert_self .., rfl, rfl⟩

theorem rebuild_run (lawful : Lawful) (store : AggregateStore) (order : IterOrder)
    (bound : state.lastGoodEvt ≤ history.length)
    (initStored : ∃ event, store.scope.get (.event 0) = some (.initEvent event) ∧
      init event = .ok initial)
    (numbered : ∀ {i event}, history[i]? = some event → eventVersion event = i + 1)
    (readable : ∀ i < state.lastGoodEvt,
      store.scope.get (.event (i + 1)) = history[i]?.map Document.event)
    (current : GenuineSnapshot initial history store.scope .snapshot)
    (backup : GenuineSnapshot initial history store.scope .backupSnapshot) :
    ∃ after, rebuild order state store =
        .ok () { scope := after
                 cache := some (applyAll initial (history.take state.lastGoodEvt)) } ∧
      after.get .snapshot = some (.aggregate (applyAll initial (history.take state.lastGoodEvt))) ∧
      (∀ key, after.get (.command key) = store.scope.get (.command key)) ∧
      ∀ version, after.get (.event version) =
        if state.lastGoodEvt + 1 ≤ version then none
        else store.scope.get (.event version) := by
  obtain ⟨trimmed, archived, kept, others⟩ :=
    archiveSurplusEvents_run store order (state.lastGoodEvt + 1)
  have logged : Logged trimmed initial (history.take state.lastGoodEvt) := by
    obtain ⟨event, stored, started⟩ := initStored
    refine ⟨⟨event, ?_, started⟩, ?_, ?_⟩
    · rw [kept, if_neg (by omega), stored]
    · intro i
      rw [kept, List.getElem?_take]
      by_cases inside : i < state.lastGoodEvt
      · rw [if_neg (by omega), if_pos inside, readable i inside]
      · rw [if_pos (by omega), if_neg inside]
        rfl
    · intro i event found
      rw [List.getElem?_take] at found
      split at found
      · exact numbered found
      · cases found
  have length : (history.take state.lastGoodEvt).length = state.lastGoodEvt := by
    rw [List.length_take, Nat.min_eq_left bound]
  have reached : lastReplayed (some state.lastGoodEvt) history ≤
      (history.take state.lastGoodEvt).length := length.ge
  obtain ⟨rebuilt, loaded, same⟩ := getAggregate_run_limited lawful
    { store with scope := trimmed } logged (List.take_prefix _ _) reached
    (by
      intro state stored
      exact current ((others _ (by simp)).symm.trans stored))
    (by
      intro state stored
      exact backup ((others _ (by simp)).symm.trans stored))
  have replayed : (history.take state.lastGoodEvt).take
      (lastReplayed (some state.lastGoodEvt) (history.take state.lastGoodEvt)) =
      history.take state.lastGoodEvt := List.take_of_length_le length.le
  rw [replayed] at loaded
  obtain ⟨saved, -, run, snapshot, frame⟩ := storeSnapshot_run
    { store with scope := rebuilt } (applyAll initial (history.take state.lastGoodEvt))
  have infoOnly : ∀ (key : Key) (document : Document), key ≠ .info →
      (saved.insert .info document).get key = saved.get key := by
    intro key document different
    rw [HashMap.get_insert, if_neg different]
  refine ⟨saved.insert .info (.info
    { lastEvent := state.lastGoodEvt
      lastCommand := state.lastGoodCmd
      lastUpdate := state.lastUpdate
      snapshotVersion := version (applyAll initial (history.take state.lastGoodEvt)) }),
    ?_, ?_, ?_, ?_⟩
  · unfold rebuild
    rw [bind_of_ok archived, bind_of_ok loaded]
    simp only
    rw [bind_of_ok run]
    rfl
  · rw [infoOnly _ _ (by simp), snapshot]
  · intro key
    rw [infoOnly _ _ (by simp), frame _ id, same _ id, others _ (by simp)]
  · intro version
    rw [infoOnly _ _ (by simp), frame _ id, same _ id, kept]

theorem recover_of_loop (loop : (commandKeysAscending store.scope none order).foldlM recoverCommand
      (.start now) store = .ok state checked) :
    recover order now store = rebuild order state checked := by
  unfold recover
  rw [get_bind_run]
  exact bind_of_ok loop

theorem replay_eq_some (lawful : Lawful) (replayed : replay start events = some final) :
    final = applyAll start events ∧
      events.map eventVersion = List.range' (version start) events.length := by
  induction events generalizing start with
  | nil =>
    cases replayed
    exact ⟨rfl, rfl⟩
  | cons event rest induction =>
    unfold replay at replayed
    split at replayed
    · next fits =>
        obtain ⟨final, versions⟩ := induction replayed
        refine ⟨final, ?_⟩
        rw [List.map_cons, versions, lawful.version_apply, List.length_cons, List.range'_succ, fits]
    · cases replayed

theorem replay_of_numbered (lawful : Lawful)
    (numbered : events.map eventVersion = List.range' (version start) events.length) :
    replay start events = some (applyAll start events) := by
  induction events generalizing start with
  | nil => rfl
  | cons event rest induction =>
    rw [List.map_cons, List.length_cons, List.range'_succ] at numbered
    obtain ⟨fits, later⟩ := List.cons.inj numbered
    unfold replay
    rw [if_pos fits.symm]
    apply induction
    rw [lawful.version_apply]
    exact later

variable {scope : Scope}

theorem readable_of_listed {version : Nat}
    (member : version ∈ listedVersions scope (intactPrefix scope order)) :
    ∃ event, readEvent scope version = some event := by
  obtain ⟨key, inPrefix, listed⟩ := List.mem_flatMap.mp member
  have whole := mem_intactPrefix inPrefix
  cases readable : readCommand scope key with
  | none =>
    rw [readable] at listed
    cases listed
  | some stored =>
    rw [readable] at listed
    simp only [intact, readable, List.all_eq_true] at whole
    exact Option.isSome_iff_exists.mp (whole version listed)

theorem Genuine.eventVersions (genuine : Genuine store.scope initial history)
    {versions : List Nat}
    (readable : ∀ version ∈ versions, ∃ event, readEvent store.scope version = some event) :
    (versions.filterMap (readEvent store.scope)).map eventVersion = versions := by
  induction versions with
  | nil => rfl
  | cons version rest induction =>
    obtain ⟨event, found⟩ := readable version List.mem_cons_self
    obtain ⟨i, rfl, inHistory⟩ := genuine.events found
    rw [List.filterMap_cons_some found, List.map_cons, genuine.numbered inHistory,
      induction fun version member => readable version (List.mem_cons_of_mem _ member)]

theorem Genuine.events_eq_take (genuine : Genuine store.scope initial history)
    (readable : ∀ version ∈ List.range' 1 count,
      ∃ event, readEvent store.scope version = some event) :
    count ≤ history.length ∧
      (List.range' 1 count).filterMap (readEvent store.scope) = history.take count := by
  induction count with
  | zero => exact ⟨Nat.zero_le _, rfl⟩
  | succ count induction =>
    rw [List.range'_concat, Nat.one_mul, Nat.add_comm 1 count] at readable ⊢
    obtain ⟨bound, same⟩ := induction fun version member =>
      readable version (List.mem_append_left _ member)
    obtain ⟨event, found⟩ := readable (count + 1)
      (List.mem_append_right _ (List.mem_singleton_self _))
    obtain ⟨i, number, inHistory⟩ := genuine.events found
    cases number
    obtain ⟨inside, -⟩ := List.getElem?_eq_some_iff.mp inHistory
    refine ⟨inside, ?_⟩
    rw [List.filterMap_append, same, List.filterMap_cons_some found, List.filterMap_nil,
      List.take_add_one, inHistory]
    rfl

omit [Aggregate] in
theorem getLast_range'_one (count : Nat) : (List.range' 1 count).getLast?.getD 0 = count := by
  cases count with
  | zero => rfl
  | succ count =>
    rw [List.range'_concat, List.getLast?_concat, Option.getD_some]
    omega

theorem lastListed_eq_length (consecutive : listedVersions scope keys =
      List.range' 1 (listedVersions scope keys).length) :
    lastListed scope keys = (listedVersions scope keys).length := by
  have last := getLast_range'_one (listedVersions scope keys).length
  rw [← consecutive] at last
  exact last

/-- Recovery fails, or saves an info that does not fit, unless the first command
that is not intact looks just like the last one that is. -/
theorem recoverable_of_recovers (lawful : Lawful) (genuine : Genuine store.scope initial history)
    (recovers : RecoversPrefix order now initial store) :
    Recoverable store.scope order := by
  obtain ⟨after, aggregate, info, done, recovered⟩ := recovers
  obtain ⟨initEvent, -, started⟩ := genuine.initStored
  refine ⟨?_, ?_⟩
  · have versions := (replay_eq_some lawful recovered.replayed).2
    rw [genuine.eventVersions fun version member => readable_of_listed member,
      lawful.version_init started] at versions
    have length := congrArg List.length versions
    rw [List.length_range'] at length
    rw [length]
    exact versions
  · intro key rest first
    cases readable : readCommand store.scope key with
    | none =>
      obtain ⟨failure, broken, loop⟩ :=
        recoverLoop_run_unreadable genuine order now first readable
      have failed : recover order now store = .error failure broken := by
        unfold recover
        rw [get_bind_run]
        exact bind_of_error loop
      rw [failed] at done
      cases done
    | some stored =>
      obtain ⟨checked, loop, -⟩ := recoverLoop_run_damaged genuine order now first readable
      rw [recover_of_loop loop] at done
      obtain ⟨saved, infoStored, lastEvent, lastCommand⟩ := rebuild_info done
      rw [recovered.infoStored] at infoStored
      cases infoStored
      exact ⟨stored, rfl, lastCommand.symm.trans recovered.lastCommand,
        lastEvent.symm.trans recovered.lastEvent⟩

theorem Recoverable.loop (recoverable : Recoverable store.scope order)
    (genuine : Genuine store.scope initial history) (now : Time) :
    ∃ state checked, (commandKeysAscending store.scope none order).foldlM recoverCommand
        (.start now) store = .ok state { store with scope := checked } ∧
      state.lastGoodCmd = lastSequence (intactPrefix store.scope order) ∧
      state.lastGoodEvt = lastListed store.scope (intactPrefix store.scope order) ∧
      Checked store.scope order checked := by
  cases rest : damagedRest store.scope order with
  | nil =>
    obtain ⟨lastUpdate, run, kept⟩ := recoverLoop_run_intact genuine order now rest
    exact ⟨_, _, run, rfl, rfl, kept⟩
  | cons key rest' =>
    obtain ⟨stored, readable, number, last⟩ := recoverable.2 rest
    obtain ⟨checked, run, kept⟩ :=
      recoverLoop_run_damaged genuine order now rest readable
    exact ⟨_, checked, run, number, last, kept⟩

theorem recovers_of_recoverable (lawful : Lawful) (genuine : Genuine store.scope initial history)
    (recoverable : Recoverable store.scope order) :
    RecoversPrefix order now initial store := by
  obtain ⟨state, checked, loop, lastCommand, lastEvent, kept⟩ :=
    recoverable.loop genuine now
  have consecutive := recoverable.1
  have length := lastListed_eq_length consecutive
  rw [length] at lastEvent
  have readable : ∀ version ∈ List.range' 1 state.lastGoodEvt,
      ∃ event, readEvent store.scope version = some event := by
    intro version member
    rw [lastEvent, ← consecutive] at member
    exact readable_of_listed member
  obtain ⟨bound, events⟩ := genuine.events_eq_take readable
  have keptEvent : ∀ version, version ≤ state.lastGoodEvt →
      checked.get (.event version) = store.scope.get (.event version) := by
    intro version within
    rcases kept.events version with same | ⟨positive, unreadable, -⟩
    · exact same
    · obtain ⟨event, found⟩ := readable version
        (List.mem_range'_1.mpr ⟨Nat.one_le_iff_ne_zero.mpr positive, by omega⟩)
      rw [unreadable] at found
      cases found
  obtain ⟨after, run, snapshot, commands, eventFiles⟩ := rebuild_run lawful
    { store with scope := checked } order bound
    (by
      obtain ⟨event, stored, started⟩ := genuine.initStored
      exact ⟨event, (keptEvent 0 (Nat.zero_le _)).trans stored, started⟩)
    genuine.numbered
    (by
      intro i inside
      obtain ⟨event, found⟩ := readable (i + 1) (List.mem_range'_1.mpr (by omega))
      obtain ⟨j, number, inHistory⟩ := genuine.events found
      cases number
      rw [keptEvent (i + 1) inside, readEvent_eq_some.mp found, inHistory]
      rfl)
    (by
      intro snapshot stored
      rw [kept.snapshots .snapshot trivial] at stored
      exact genuine.snapshots (.inl rfl) stored)
    (by
      intro snapshot stored
      rw [kept.snapshots .backupSnapshot trivial] at stored
      exact genuine.snapshots (.inr rfl) stored)
  have done := (recover_of_loop loop).trans run
  obtain ⟨info, infoStored, infoEvent, infoCommand⟩ := rebuild_info run
  refine ⟨_, _, info, done, ?_, rfl, snapshot, infoStored, infoCommand.trans lastCommand,
    by rw [infoEvent, lastEvent, length], ?_, ?_⟩
  · obtain ⟨initEvent, -, started⟩ := genuine.initStored
    rw [consecutive, ← lastEvent, events]
    apply replay_of_numbered lawful
    rw [← events, genuine.eventVersions readable, lawful.version_init started, events,
      List.length_take, Nat.min_eq_left bound]
  · intro key
    rw [commands, kept.commands]
  · intro version
    have listed : version ∈ listedVersions store.scope (intactPrefix store.scope order) ↔
        1 ≤ version ∧ version < 1 + state.lastGoodEvt := by
      rw [consecutive, ← lastEvent, List.mem_range'_1]
    rw [eventFiles]
    simp only [listed]
    by_cases within : version ≤ state.lastGoodEvt
    · rw [if_neg (by omega), if_pos (by omega), keptEvent version within]
    · rw [if_pos (by omega), if_neg (by omega)]

/-- Recovery keeps just the intact commands and what they lead to if, and only if,
the scope is recoverable. -/
theorem recover_keeps_intact_prefix_iff (lawful : Lawful)
    (genuine : Genuine store.scope initial history) (order : IterOrder) (now : Time) :
    RecoversPrefix order now initial store ↔ Recoverable store.scope order :=
  ⟨recoverable_of_recovers lawful genuine, recovers_of_recoverable lawful genuine⟩

end Recover

end Krill.EventSourcing

namespace Krill.EventSourcing.Persons

open AggregateStore Stateful

def birthdayEvent : PersonEvent := { id := "alice", version := 1, details := .hadBirthday }

def birthdayCommand : StoredCommand where
  actor := "test"
  time := 1
  handle := "alice"
  version := 1
  sequence := 1
  details := PersonCommandDetails.goAroundTheSun
  effect := .success [1]

def birthdayKey : CommandKey := .forStored birthdayCommand

/-- The files of alice after a birthday, without the snapshots and the info, and
with something in the place of the command and of the event. -/
def birthdayFiles (command event : Document) : AggregateStore where
  scope := ((HashMap.empty.insert (.event 0) (.initEvent aliceSmith)).insert
    (.event 1) event).insert (.command birthdayKey) command
  cache := none

def newborn : Person := { id := "alice", version := 1, name := "alice smith", age := 0 }

theorem birthdayFiles_genuine {command : Document}
    (commandKnown : command = .command birthdayCommand ∨ command = .unreadable)
    (eventKnown : event = .event birthdayEvent ∨ event = .unreadable) :
    Genuine (birthdayFiles command event).scope newborn [birthdayEvent] := by
  refine ⟨⟨aliceSmith, rfl, rfl⟩, ?_, ?_, ?_, ?_⟩
  · intro i found known
    cases i with
    | zero =>
      cases known
      rfl
    | succ i => cases known
  · intro version found readable
    rw [readEvent_eq_some] at readable
    change HashMap.get (HashMap.insert _ _ _) _ = _ at readable
    rw [HashMap.get_insert, if_neg (by simp), HashMap.get_insert] at readable
    split at readable
    · next same =>
        cases same
        rcases eventKnown with rfl | rfl
        · cases readable
          exact ⟨0, rfl, rfl⟩
        · cases readable
    · rw [HashMap.get_insert, HashMap.get_empty] at readable
      split at readable <;> cases readable
  · intro key state isSnapshot stored
    rcases isSnapshot with rfl | rfl <;> cases stored
  · intro key stored readable
    obtain ⟨document, found, parsed⟩ := Option.bind_eq_some_iff.mp readable
    change HashMap.get (HashMap.insert _ _ _) _ = _ at found
    rw [HashMap.get_insert] at found
    split at found
    · next same =>
        cases same
        cases found
        rcases commandKnown with rfl | rfl
        · cases parsed
          exact ⟨rfl, by decide⟩
        · cases parsed
    · rw [HashMap.get_insert, if_neg (by simp), HashMap.get_insert, if_neg (by simp),
        HashMap.get_empty] at found
      cases found

theorem birthday_is_recovered :
    RecoversPrefix .stored 5 newborn
      (birthdayFiles (.command birthdayCommand) (.event birthdayEvent)) := by
  apply (recover_keeps_intact_prefix_iff lawful (birthdayFiles_genuine (.inl rfl) (.inl rfl))
    .stored 5).mpr
  refine ⟨rfl, ?_⟩
  intro key rest damaged
  cases damaged

/-- Recovery gives up on a command that cannot be read, and it takes a command for
the last good one although the event it lists is lost. -/
theorem damaged_birthday_is_not_recovered :
    Genuine (birthdayFiles .unreadable (.event birthdayEvent)).scope newborn
        [birthdayEvent] ∧
      ¬ RecoversPrefix .stored 5 newborn
        (birthdayFiles .unreadable (.event birthdayEvent)) ∧
      recover .stored 5 (birthdayFiles .unreadable (.event birthdayEvent)) =
        .error (.keyStoreError (.unknownKey (.command birthdayKey)))
          (finalState (recover .stored 5
            (birthdayFiles .unreadable (.event birthdayEvent)))) ∧
      Genuine (birthdayFiles (.command birthdayCommand) .unreadable).scope newborn
        [birthdayEvent] ∧
      ¬ RecoversPrefix .stored 5 newborn
        (birthdayFiles (.command birthdayCommand) .unreadable) ∧
      (finalState (recover .stored 5
        (birthdayFiles (.command birthdayCommand) .unreadable))).scope.get .info =
        some (.info
          { snapshotVersion := 1, lastEvent := 0, lastCommand := 1, lastUpdate := 1 }) ∧
      (finalState (recover .stored 5
        (birthdayFiles (.command birthdayCommand) .unreadable))).scope.get
          (.command birthdayKey) = none := by
  refine ⟨birthdayFiles_genuine (.inr rfl) (.inl rfl), ?_, rfl,
    birthdayFiles_genuine (.inl rfl) (.inr rfl), ?_, rfl, rfl⟩
  · rintro ⟨after, aggregate, info, done, -⟩
    cases done
  · rintro ⟨after, aggregate, info, done, recovered⟩
    cases done
    have known : some (Document.info
        { snapshotVersion := 1, lastEvent := 0, lastCommand := 1, lastUpdate := 1 }) =
        some (.info info) := recovered.infoStored
    cases known
    cases recovered.lastCommand

end Krill.EventSourcing.Persons
