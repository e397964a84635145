import Krill.EventSourcing.StoreWrites
import Krill.EventSourcing.Person

namespace Krill.EventSourcing

open Aggregate KeyValue AggregateStore Stateful

variable [Aggregate]

section Load

/-- A snapshot, if there is one, is a state that the events led to, maybe after
others that are no longer there. -/
def GenuineSnapshot (initial : State) (history : List Event) (scope : Scope)
    (key : Key) : Prop :=
  ∀ {state}, scope.get key = some (.aggregate state) →
    ∃ count, count ≤ history.length ∧ state = applyAll initial (history.take count)

theorem withinLimit_iff (lawful : Lawful) (started : version initial = 1)
    (bound : count ≤ history.length) :
    withinLimit limit (applyAll initial (history.take count)) = true ↔
      count ≤ lastReplayed limit history := by
  have length : version (applyAll initial (history.take count)) - 1 = count := by
    rw [version_applyAll lawful, started, List.length_take, Nat.min_eq_left bound]
    omega
  cases limit with
  | none => simp [withinLimit, lastReplayed, bound]
  | some last => simp [withinLimit, lastReplayed, length]

theorem getSnapshot_run_limited (lawful : Lawful) (started : version initial = 1)
    (store : AggregateStore) (genuine : GenuineSnapshot initial history store.scope key)
    (limit : Option Nat) :
    ∃ found after, getSnapshot limit key store = .ok found { store with scope := after } ∧
      (∀ state, found = some state → ∃ count, count ≤ lastReplayed limit history ∧
        state = applyAll initial (history.take count)) ∧
      ∀ other, other ≠ key → after.get other = store.scope.get other := by
  have dropped : ∀ other, other ≠ key →
      (store.scope.remove key).get other = store.scope.get other := by
    intro other different
    rw [HashMap.get_remove, if_neg different]
  have archived : (store.scope.get key).isSome →
      (archive key >>= fun _ => pure none : StoreM (Option State)) store =
        .ok none { store with scope := store.scope.remove key } := by
    intro present
    rw [bind_of_ok (archive_run present)]
    rfl
  cases found : store.scope.get key with
  | none =>
    refine ⟨none, store.scope, getSnapshot_run_absent found, ?_, fun _ _ => rfl⟩
    intro state same
    cases same
  | some document =>
    have present : (store.scope.get key).isSome := by
      rw [found]
      rfl
    cases parsed : document.asAggregate with
    | none =>
      refine ⟨none, _, ?_, ?_, dropped⟩
      · unfold getSnapshot
        rw [get_bind_run]
        simp only [Entries.read, found, parsed]
        exact archived present
      · intro state same
        cases same
    | some state =>
      have stored : store.scope.get key = some (.aggregate state) := by
        cases document with
        | aggregate other =>
          cases parsed
          exact found
        | _ => cases parsed
      by_cases usable : withinLimit limit state = true
      · refine ⟨some state, store.scope, getSnapshot_run stored usable, ?_, fun _ _ => rfl⟩
        intro other same
        cases same
        obtain ⟨count, bound, rfl⟩ := genuine stored
        exact ⟨count, (withinLimit_iff lawful started bound).mp usable, rfl⟩
      · refine ⟨none, _, ?_, ?_, dropped⟩
        · unfold getSnapshot
          rw [get_bind_run]
          simp only [Entries.read, stored, Document.asAggregate, usable,
            Bool.false_eq_true, if_false]
          exact archived present
        · intro other same
          cases same

theorem orElse_run_limited (lawful : Lawful) (logged : Logged store.scope initial events)
    (current : GenuineSnapshot initial history store.scope .snapshot)
    (backup : GenuineSnapshot initial history store.scope .backupSnapshot) (limit : Option Nat) :
    ∃ count scope, orElse (getSnapshot limit .snapshot)
      (orElse (getSnapshot limit .backupSnapshot) getInit) store =
        .ok (some (applyAll initial (history.take count))) { store with scope } ∧
      count ≤ lastReplayed limit history ∧
      ∀ key : Key, ¬ key.IsSnapshot → scope.get key = store.scope.get key := by
  have started := logged.version_initial lawful
  obtain ⟨found, first, run, origin, others⟩ :=
    getSnapshot_run_limited lawful started store current limit
  cases found with
  | some state =>
    obtain ⟨count, within, rfl⟩ := origin state rfl
    refine ⟨count, first, ?_, within, ?_⟩
    · unfold orElse
      rw [bind_of_ok run]
      rfl
    · intro key other
      exact others key (by rintro rfl; exact other trivial)
  | none =>
    have backupKept : GenuineSnapshot initial history first .backupSnapshot := by
      intro state stored
      rw [others _ (by simp)] at stored
      exact backup stored
    obtain ⟨found, second, runBackup, origin, othersBackup⟩ :=
      getSnapshot_run_limited lawful started { store with scope := first } backupKept limit
    have same : ∀ key : Key, ¬ key.IsSnapshot → second.get key = store.scope.get key := by
      intro key other
      rw [othersBackup key (by rintro rfl; exact other trivial),
        others key (by rintro rfl; exact other trivial)]
    cases found with
    | some state =>
      obtain ⟨count, within, rfl⟩ := origin state rfl
      refine ⟨count, second, ?_, within, same⟩
      unfold orElse
      rw [bind_of_ok run]
      simp only
      rw [bind_of_ok runBackup]
      rfl
    | none =>
      obtain ⟨event, stored, initialised⟩ := logged.initStored
      refine ⟨0, second, ?_, Nat.zero_le _, same⟩
      unfold orElse
      rw [bind_of_ok run]
      simp only
      rw [bind_of_ok runBackup]
      exact getInit_run ((same _ id).trans stored) initialised

theorem getAggregate_run_limited (lawful : Lawful) (store : AggregateStore)
    (logged : Logged store.scope initial events) (origin : events <+: history)
    (within : lastReplayed limit history ≤ events.length)
    (current : GenuineSnapshot initial history store.scope .snapshot)
    (backup : GenuineSnapshot initial history store.scope .backupSnapshot) :
    ∃ after, getAggregate limit store =
        .ok (some (applyAll initial (events.take (lastReplayed limit events))))
          { store with scope := after } ∧
      ∀ key : Key, ¬ key.IsSnapshot → after.get key = store.scope.get key := by
  obtain ⟨count, scope, run, bound, same⟩ :=
    orElse_run_limited lawful logged current backup limit
  have replayed : lastReplayed limit events = lastReplayed limit history := by
    cases limit with
    | none => exact Nat.le_antisymm origin.length_le within
    | some last => rfl
  have taken : history.take count = events.take count :=
    (List.prefix_iff_eq_take.mp origin ▸ List.take_take).symm ▸ by
      rw [Nat.min_eq_left (Nat.le_trans bound within)]
  have kept : Logged { store with scope }.scope initial events :=
    logged.congr fun version => same _ id
  have updated := updateAggregate_run lawful kept (replayed ▸ within) (replayed ▸ bound)
  refine ⟨scope, ?_, same⟩
  unfold getAggregate
  rw [bind_of_ok run]
  simp only
  rw [taken, bind_of_ok updated]
  rfl

def withoutSnapshots (store : AggregateStore) : AggregateStore :=
  { store with scope := (store.scope.remove .snapshot).remove .backupSnapshot }

/-- Whatever snapshots there are, loading gives the state after the init event and exactly the
events up to the limit, or after all of them, as it does without any snapshot. -/
theorem load_path_independent (lawful : Lawful) (limit : Option Nat) (store : AggregateStore)
    (logged : Logged store.scope initial events)
    (current : GenuineSnapshot initial events store.scope .snapshot)
    (backup : GenuineSnapshot initial events store.scope .backupSnapshot)
    (within : ∀ last, limit = some last → last ≤ events.length) :
    ∃ loaded, loaded = applyAll initial (events.take (limit.getD events.length)) ∧
      (∃ after, getAggregate limit store = .ok (some loaded) after) ∧
      ∃ after, getAggregate limit (withoutSnapshots store) = .ok (some loaded) after := by
  have reached : lastReplayed limit events ≤ events.length := by
    cases limit with
    | none => exact Nat.le_refl _
    | some last => exact within last rfl
  have bareCurrent : (withoutSnapshots store).scope.get .snapshot = none := by
    rw [withoutSnapshots, HashMap.get_remove, if_neg (by simp), HashMap.get_remove_self]
  have bareBackup : (withoutSnapshots store).scope.get .backupSnapshot = none :=
    HashMap.get_remove_self _ _
  have bareLogged : Logged (withoutSnapshots store).scope initial events := by
    apply logged.congr
    intro version
    rw [withoutSnapshots, HashMap.get_remove, if_neg (by simp), HashMap.get_remove,
      if_neg (by simp)]
  obtain ⟨after, loaded, -⟩ :=
    getAggregate_run_limited lawful store logged List.prefix_rfl reached current backup
  obtain ⟨bare, rebuilt, -⟩ := getAggregate_run_limited lawful (withoutSnapshots store)
    bareLogged List.prefix_rfl reached (by rw [GenuineSnapshot, bareCurrent]; nofun)
    (by rw [GenuineSnapshot, bareBackup]; nofun)
  exact ⟨_, rfl, ⟨_, loaded⟩, _, rebuilt⟩

end Load

end Krill.EventSourcing

namespace Krill.EventSourcing.Persons

open AggregateStore

def initAlice : InitPersonEvent := { id := "alice", name := "alice smith" }

def aliceAged (age : UInt8) : Person :=
  { id := "alice", version := age.toNat + 1, name := "alice smith", age }

def birthday (version : Nat) : PersonEvent :=
  { id := "alice", version, details := .hadBirthday }

/-- The files of alice after two birthdays, with a snapshot of the second and a backup that
cannot be read. -/
def snapshotOfSecond : AggregateStore where
  scope := ((((HashMap.empty.insert (.event 0) (.initEvent initAlice)).insert
    (.event 1) (.event (birthday 1))).insert (.event 2) (.event (birthday 2))).insert
    .snapshot (.aggregate (aliceAged 2))).insert .backupSnapshot .unreadable
  cache := none

theorem snapshotOfSecond_logged :
    Logged snapshotOfSecond.scope (aliceAged 0) [birthday 1, birthday 2] where
  initStored := ⟨initAlice, rfl, rfl⟩
  eventsStored := by
    rintro (_ | _ | i)
    · rfl
    · rfl
    · simp [snapshotOfSecond, HashMap.get_insert]
  numbered := by
    rintro (_ | _ | i) event known
    · cases known
      rfl
    · cases known
      rfl
    · simp at known

/-- Up to the first birthday, the snapshot of the second is of no use. -/
theorem first_birthday_loaded : ∃ after,
    getAggregate (some 1) snapshotOfSecond = .ok (some (aliceAged 1)) after := by
  have current : GenuineSnapshot (aliceAged 0) [birthday 1, birthday 2] snapshotOfSecond.scope
      .snapshot := by
    intro state stored
    cases stored
    exact ⟨2, Nat.le_refl _, rfl⟩
  have backup : GenuineSnapshot (aliceAged 0) [birthday 1, birthday 2] snapshotOfSecond.scope
      .backupSnapshot := by
    intro state stored
    cases stored
  obtain ⟨loaded, rfl, found, -⟩ := load_path_independent lawful (some 1)
    snapshotOfSecond snapshotOfSecond_logged current backup (by simp)
  exact found

end Krill.EventSourcing.Persons
