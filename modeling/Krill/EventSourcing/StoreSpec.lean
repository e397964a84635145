import Krill.Data.Stateful
import Krill.EventSourcing.AggregateStore

namespace Krill.EventSourcing

open Aggregate KeyValue AggregateStore Stateful

variable [Aggregate]

/-- The scope has the init event and exactly these events, each under its own
version. -/
structure Logged (scope : Scope) (initial : State) (events : List Event) : Prop where
  initStored : ∃ event, scope.get (.event 0) = some (.initEvent event) ∧
    init event = .ok initial
  eventsStored : ∀ i, scope.get (.event (i + 1)) = events[i]?.map Document.event
  numbered : ∀ {i event}, events[i]? = some event → eventVersion event = i + 1

namespace Logged

variable {scope : Scope}

theorem congr (logged : Logged scope initial events)
    (same : ∀ version, other.get (.event version) = scope.get (.event version)) :
    Logged other initial events where
  initStored := by
    obtain ⟨event, stored, started⟩ := logged.initStored
    exact ⟨event, by rw [same]; exact stored, started⟩
  eventsStored := by
    intro i
    rw [same]
    exact logged.eventsStored i
  numbered := logged.numbered

theorem version_initial (lawful : Lawful) (logged : Logged scope initial events) :
    version initial = 1 := by
  obtain ⟨event, -, started⟩ := logged.initStored
  exact lawful.version_init started

theorem version_take (lawful : Lawful) (logged : Logged scope initial events)
    (bound : count ≤ events.length) :
    version (applyAll initial (events.take count)) = count + 1 := by
  rw [version_applyAll lawful, logged.version_initial lawful, List.length_take,
    Nat.min_eq_left bound, Nat.add_comm]

theorem version_all (lawful : Lawful) (logged : Logged scope initial events) :
    version (applyAll initial events) = events.length + 1 := by
  have all := logged.version_take lawful (Nat.le_refl events.length)
  rw [List.take_length] at all
  exact all

theorem length_le (logged : Logged scope initial events) :
    events.length ≤ scope.entries.length := by
  have distinct : ((List.range events.length).map fun i => Key.event (i + 1)).Nodup := by
    apply List.Nodup.map _ List.nodup_range
    intro left right same
    cases same
    rfl
  have present : ∀ key ∈ (List.range events.length).map fun i => Key.event (i + 1),
      (scope.get key).isSome := by
    intro key member
    obtain ⟨i, inside, rfl⟩ := List.mem_map.mp member
    rw [logged.eventsStored, List.getElem?_eq_getElem (List.mem_range.mp inside)]
    rfl
  have bounded := HashMap.length_le_entries distinct present
  rw [List.length_map, List.length_range] at bounded
  exact bounded

end Logged

section Reads

theorem getEvent_run {version : Nat}
    (stored : store.scope.get (.event version) = found.map Document.event) :
    getEvent version store = .ok found store := by
  unfold getEvent
  rw [get_bind_run]
  cases found with
  | none => simp [Entries.read, stored]
  | some event => simp [Entries.read, stored, Document.asEvent]

theorem getInfo_run (stored : store.scope.get .info = some (.info info)) :
    getInfo store = .ok info store := by
  unfold getInfo
  rw [get_bind_run]
  simp [Entries.read, stored, Document.asInfo]

theorem getSnapshot_run (stored : store.scope.get key = some (.aggregate state))
    (usable : withinLimit limit state = true) :
    getSnapshot limit key store = .ok (some state) store := by
  unfold getSnapshot
  rw [get_bind_run]
  simp [Entries.read, stored, Document.asAggregate, usable]

theorem getSnapshot_run_absent (absent : store.scope.get key = none) :
    getSnapshot limit key store = .ok none store := by
  unfold getSnapshot
  rw [get_bind_run]
  simp [Entries.read, absent]

theorem getInit_run (stored : store.scope.get (.event 0) = some (.initEvent event))
    (started : init event = .ok state) : getInit store = .ok (some state) store := by
  unfold getInit
  rw [get_bind_run]
  simp [Entries.read, stored, Document.asInitEvent, started]

theorem liftScope_run (done : operation store.scope = .ok after) :
    liftScope operation store = .ok () { store with scope := after } := by
  unfold liftScope
  rw [get_bind_run, done]
  rfl

theorem liftScope_run_error {failure : KeyValueError Key}
    (failed : operation store.scope = .error failure) :
    liftScope operation store = .error (.keyStoreError failure) store := by
  unfold liftScope
  rw [get_bind_run, failed]
  rfl

theorem archive_run (present : (store.scope.get key).isSome) :
    archive key store = .ok () { store with scope := store.scope.remove key } := by
  obtain ⟨value, found⟩ := Option.isSome_iff_exists.mp present
  apply liftScope_run
  simp [Entries.archive, found]

theorem forM_archive_run (key : A → Key) {items : List A} (distinct : (items.map key).Nodup)
    (present : ∀ item ∈ items, (store.scope.get (key item)).isSome) :
    items.forM (fun item => archive (key item)) store =
      .ok () { store with scope := store.scope.removeAll (items.map key) } := by
  induction items generalizing store with
  | nil => rfl
  | cons item rest induction =>
    simp only [List.map_cons, List.nodup_cons] at distinct
    change (archive (key item) >>= fun _ => _) store = _
    rw [bind_of_ok (archive_run (present item List.mem_cons_self))]
    apply induction distinct.2
    intro later member
    have different : key later ≠ key item := by
      intro same
      exact distinct.1 (same ▸ List.mem_map_of_mem member)
    simp only [HashMap.get_remove, if_neg different]
    exact present later (List.mem_cons_of_mem _ member)

end Reads

section Replay

variable {store : AggregateStore} {events : List Event}

theorem applyAll_take_succ (next : events[count]? = some event) :
    apply (applyAll initial (events.take count)) event =
      applyAll initial (events.take (count + 1)) := by
  rw [List.take_add_one, next]
  simp [applyAll]

def lastReplayed (limit : Option Nat) (events : List Event) : Nat := limit.getD events.length

theorem updateLoop_run (lawful : Lawful) (logged : Logged store.scope initial events)
    (within : lastReplayed limit events ≤ events.length)
    (bound : count ≤ lastReplayed limit events)
    (enough : lastReplayed limit events - count < fuel) :
    updateLoop limit fuel (applyAll initial (events.take count)) store =
      .ok (applyAll initial (events.take (lastReplayed limit events))) store := by
  induction fuel generalizing count with
  | zero => omega
  | succ fuel induction =>
    unfold updateLoop
    simp only [logged.version_take lawful (Nat.le_trans bound within), Nat.add_sub_cancel]
    by_cases finished : count = lastReplayed limit events
    · subst finished
      split
      · rfl
      next unlimited =>
        -- the loop only passes the limit if there is none, and then the log ends here
        have ended : events.length ≤ lastReplayed limit events := by
          cases limit with
          | none => exact Nat.le_refl _
          | some last => exact absurd rfl unlimited
        have absent : store.scope.get (.event (lastReplayed limit events + 1)) =
            (none : Option Event).map Document.event := by
          rw [logged.eventsStored, List.getElem?_eq_none ended]
        rw [bind_of_ok (getEvent_run absent)]
        rfl
    · have inside : count < events.length := by omega
      have continued : limit ≠ some count := by
        rintro rfl
        exact finished rfl
      have next : events[count]? = some events[count] :=
        List.getElem?_eq_getElem inside
      have present := logged.eventsStored count
      rw [next] at present
      rw [if_neg continued, bind_of_ok (getEvent_run present)]
      simp only [logged.numbered next, ne_eq, not_true, if_false]
      rw [applyAll_take_succ next]
      exact induction (by omega) (by omega)

theorem updateAggregate_run (lawful : Lawful) (logged : Logged store.scope initial events)
    (within : lastReplayed limit events ≤ events.length)
    (bound : count ≤ lastReplayed limit events) :
    updateAggregate limit (applyAll initial (events.take count)) store =
      .ok (applyAll initial (events.take (lastReplayed limit events))) store := by
  have length := logged.length_le
  unfold updateAggregate
  rw [get_bind_run]
  exact updateLoop_run lawful logged within bound (by omega)

theorem withinLimit_take (lawful : Lawful) (logged : Logged store.scope initial events)
    (unlimited : limit = none ∨ limit = some events.length) (bound : count ≤ events.length) :
    withinLimit limit (applyAll initial (events.take count)) = true := by
  rcases unlimited with rfl | rfl
  · rfl
  · simp only [withinLimit, logged.version_take lawful bound, Nat.add_sub_cancel, decide_eq_true_eq]
    exact bound

/-- The snapshots of the scope: a usable one, or only a usable backup, or none. -/
inductive Snapshots (scope : Scope) (initial : State) (events : List Event) : Prop
  | current (count : Nat) (bound : count ≤ events.length)
      (stored : scope.get .snapshot = some (.aggregate (applyAll initial (events.take count))))
  | backup (count : Nat) (bound : count ≤ events.length)
      (absent : scope.get .snapshot = none)
      (stored : scope.get .backupSnapshot =
        some (.aggregate (applyAll initial (events.take count))))
  | nothing (absent : scope.get .snapshot = none)
      (absentBackup : scope.get .backupSnapshot = none)

theorem getAggregate_run (lawful : Lawful) (logged : Logged store.scope initial events)
    (snapshots : Snapshots store.scope initial events)
    (unlimited : limit = none ∨ limit = some events.length) :
    getAggregate limit store = .ok (some (applyAll initial events)) store := by
  have found : ∃ count, count ≤ events.length ∧ orElse (getSnapshot limit .snapshot)
        (orElse (getSnapshot limit .backupSnapshot) getInit) store =
        .ok (some (applyAll initial (events.take count))) store := by
    cases snapshots with
    | current count bound stored =>
      refine ⟨count, bound, ?_⟩
      unfold orElse
      rw [bind_of_ok (getSnapshot_run stored (withinLimit_take lawful logged unlimited bound))]
      rfl
    | backup count bound absent stored =>
      refine ⟨count, bound, ?_⟩
      unfold orElse
      rw [bind_of_ok (getSnapshot_run_absent absent)]
      simp only
      rw [bind_of_ok (getSnapshot_run stored (withinLimit_take lawful logged unlimited bound))]
      rfl
    | nothing absent absentBackup =>
      obtain ⟨event, stored, started⟩ := logged.initStored
      refine ⟨0, Nat.zero_le _, ?_⟩
      unfold orElse
      rw [bind_of_ok (getSnapshot_run_absent absent)]
      simp only
      rw [bind_of_ok (getSnapshot_run_absent absentBackup)]
      exact getInit_run stored started
  obtain ⟨count, bound, loaded⟩ := found
  have all : lastReplayed limit events = events.length := by
    rcases unlimited with rfl | rfl <;> rfl
  have updated := updateAggregate_run lawful logged all.le (all ▸ bound)
  rw [all, List.take_length] at updated
  unfold getAggregate
  rw [bind_of_ok loaded]
  simp only
  rw [bind_of_ok updated]
  rfl

def Cached (store : AggregateStore) (state : State) : Prop :=
  store.cache = none ∨ store.cache = some state

theorem getLatest_run (lawful : Lawful) (logged : Logged store.scope initial events)
    (snapshots : Snapshots store.scope initial events)
    (cached : Cached store (applyAll initial events)) :
    getLatest store = .ok (applyAll initial events)
      { store with cache := some (applyAll initial events) } := by
  unfold getLatest
  rw [get_bind_run]
  rcases cached with missing | hit
  · simp only [missing]
    rw [bind_of_ok (getAggregate_run lawful logged snapshots (.inl rfl))]
    rfl
  · have absent : store.scope.get (.event (version (applyAll initial events))) =
        (none : Option Event).map Document.event := by
      rw [logged.version_all lawful, logged.eventsStored, List.getElem?_eq_none (Nat.le_refl _)]
    simp only [hit]
    rw [bind_of_ok (getEvent_run absent), ← hit]
    rfl

end Replay

end Krill.EventSourcing
