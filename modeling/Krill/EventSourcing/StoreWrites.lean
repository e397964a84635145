import Krill.EventSourcing.StoreSpec

namespace Krill.EventSourcing

open Aggregate KeyValue AggregateStore Stateful
open HashMap (containsKey get_insert get_remove)

variable [Aggregate]

section Snapshot

/-- However far the writes of a snapshot come, either the snapshot is still the
old one, or it is the new one, or the old one is only there as the backup. -/
theorem performAll_snapshotWrites_take (scope : Scope) (aggregate : State) (count : Nat) :
    ∃ after, Write.performAll scope ((snapshotWrites scope aggregate).take count) = .ok after ∧
      ((snapshotWrites scope aggregate).length ≤ count →
        after.get .snapshot = some (.aggregate aggregate)) ∧
      (after.get .snapshot = scope.get .snapshot ∨
        after.get .snapshot = some (.aggregate aggregate) ∨
        (after.get .snapshot = none ∧ after.get .backupSnapshot = scope.get .snapshot)) := by
  cases backup : scope.get .backupSnapshot with
  | none =>
    cases current : scope.get .snapshot with
    | none =>
      simp only [snapshotWrites, containsKey, backup, current]
      rcases count with _ | _ | count <;>
        simp [Write.performAll, Write.perform, Entries.store, Entries.moveKey,
          get_insert, get_remove, current, bind, Except.bind]
    | some state =>
      simp only [snapshotWrites, containsKey, backup, current]
      rcases count with _ | _ | _ | count <;>
        simp [Write.performAll, Write.perform, Entries.store, Entries.moveKey,
          get_insert, get_remove, current, bind, Except.bind]
  | some state =>
    cases current : scope.get .snapshot with
    | none =>
      simp only [snapshotWrites, containsKey, backup, current]
      rcases count with _ | _ | _ | count <;>
        simp [Write.performAll, Write.perform, Entries.store, Entries.dropKey,
          Entries.moveKey, get_insert, get_remove, current, bind,
          Except.bind]
    | some state =>
      simp only [snapshotWrites, containsKey, backup, current]
      rcases count with _ | _ | _ | _ | count <;>
        simp [Write.performAll, Write.perform, Entries.store, Entries.dropKey,
          Entries.moveKey, get_insert, get_remove, current, bind,
          Except.bind]

def Key.IsSnapshot : Key → Prop
  | .snapshot => True
  | .backupSnapshot => True
  | .newSnapshot => True
  | .info => False
  | .event _ => False
  | .command _ => False

theorem snapshotWrites_touch {scope : Scope} (member : write ∈ snapshotWrites scope aggregate)
    (touched : write.Touches key) : key.IsSnapshot := by
  simp only [snapshotWrites, List.mem_append, List.mem_singleton] at member
  rcases member with ((rfl | dropped) | moved) | rfl
  · cases touched
    trivial
  · split at dropped
    · cases List.mem_singleton.mp dropped
      cases touched
      trivial
    · cases dropped
  · split at moved
    · cases List.mem_singleton.mp moved
      rcases touched with rfl | rfl <;> trivial
    · cases moved
  · rcases touched with rfl | rfl <;> trivial

theorem snapshotWrites_take_frame {scope : Scope}
    (performed : Write.performAll scope ((snapshotWrites scope aggregate).take count) =
      .ok after) (other : ¬ key.IsSnapshot) : after.get key = scope.get key := by
  refine Write.performAll_frame performed ?_
  intro write member touched
  exact other (snapshotWrites_touch (List.mem_of_mem_take member) touched)

theorem storeSnapshot_run (store : AggregateStore) (aggregate : State) :
    ∃ after, Write.performAll store.scope (snapshotWrites store.scope aggregate) = .ok after ∧
      storeSnapshot aggregate store = .ok () { store with scope := after } ∧
      after.get .snapshot = some (.aggregate aggregate) ∧
      ∀ key : Key, ¬ key.IsSnapshot → after.get key = store.scope.get key := by
  obtain ⟨after, performed, complete, -⟩ := performAll_snapshotWrites_take store.scope
    aggregate (snapshotWrites store.scope aggregate).length
  have frame : ∀ key : Key, ¬ key.IsSnapshot → after.get key = store.scope.get key :=
    fun key other => snapshotWrites_take_frame performed other
  rw [List.take_length] at performed
  refine ⟨after, performed, ?_, complete (Nat.le_refl _), frame⟩
  unfold storeSnapshot
  rw [get_bind_run]
  exact liftScope_run performed

end Snapshot

section Events

def eventWrites (events : List Event) : List (Write Key Document) :=
  events.map fun event => .storeNew (.event (eventVersion event)) (.event event)

theorem checkEvents_eq_ok (checked : checkEvents handle start events = .ok ())
    (found : events[i]? = some event) : eventVersion event = start + i := by
  induction events generalizing start i with
  | nil => simp at found
  | cons first rest induction =>
    unfold checkEvents at checked
    split at checked
    · cases checked
    · next fine =>
        have sameVersion : eventVersion first = start := by
          by_contra different
          exact fine (.inl different)
        cases i with
        | zero =>
          cases found
          exact sameVersion
        | succ i =>
          rw [List.getElem?_cons_succ] at found
          have later := induction checked found
          omega

theorem performAll_eventWrites {scope : Scope} (logged : Logged scope initial events)
    (consecutive : ∀ {i event}, new[i]? = some event → eventVersion event = events.length + 1 + i) :
    ∃ after, Write.performAll scope (eventWrites new) = .ok after ∧
      Logged after initial (events ++ new) := by
  induction new generalizing scope events with
  | nil =>
    refine ⟨scope, rfl, ?_⟩
    rw [List.append_nil]
    exact logged
  | cons event rest induction =>
    have first : eventVersion event = events.length + 1 := consecutive (i := 0) rfl
    have fresh : scope.get (.event (eventVersion event)) = none := by
      rw [first, logged.eventsStored, List.getElem?_eq_none (Nat.le_refl _)]
      rfl
    have extended : Logged (scope.insert (.event (eventVersion event)) (.event event))
        initial (events ++ [event]) := by
      obtain ⟨initEvent, initStored, started⟩ := logged.initStored
      refine ⟨⟨initEvent, ?_, started⟩, ?_, ?_⟩
      · rw [get_insert, if_neg (by rw [first]; simp), initStored]
      · intro i
        rw [get_insert, first]
        by_cases last : i = events.length
        · subst last
          simp
        · rw [if_neg (by simpa using last), logged.eventsStored]
          by_cases inside : i < events.length
          · rw [List.getElem?_append_left inside]
          · rw [List.getElem?_eq_none (by omega), List.getElem?_eq_none (by simp; omega)]
      · intro i other found
        by_cases inside : i < events.length
        · rw [List.getElem?_append_left inside] at found
          exact logged.numbered found
        · rw [List.getElem?_append_right (by omega)] at found
          obtain ⟨single, same⟩ := List.getElem?_eq_some_iff.mp found
          simp only [List.length_singleton] at single
          simp only [List.getElem_singleton] at same
          subst same
          omega
    have later : ∀ {i other}, rest[i]? = some other →
        eventVersion other = (events ++ [event]).length + 1 + i := by
      intro i other found
      have numbered := consecutive (i := i + 1) found
      rw [List.length_append, List.length_singleton]
      omega
    obtain ⟨after, performed, complete⟩ := induction extended later
    refine ⟨after, ?_, ?_⟩
    · exact (Write.performAll_storeNew fresh _).trans performed
    · rw [List.append_assoc] at complete
      exact complete

theorem forM_storeEvent_run
    (performed : Write.performAll store.scope (eventWrites events) = .ok after) :
    events.forM storeEvent store = .ok () { store with scope := after } := by
  induction events generalizing store with
  | nil =>
    cases performed
    rfl
  | cons event rest induction =>
    obtain ⟨next, first, later⟩ := Fallible.bind_eq_ok.mp performed
    have stored : storeEvent event store = .ok () { store with scope := next } :=
      liftScope_run first
    change (storeEvent event >>= fun _ => _) store = _
    rw [bind_of_ok stored]
    exact induction later

end Events

end Krill.EventSourcing
