import Krill.EventSourcing.CommandSpec

namespace Krill.EventSourcing

open Aggregate AggregateStore Stateful

theorem Key.event_injective : Function.Injective Key.event := by
  intro left right same
  cases same
  rfl

theorem Key.command_injective : Function.Injective Key.command := by
  intro left right same
  cases same
  rfl

theorem Key.commandAfter_eq_some {key : Key} : key.commandAfter after = some found ↔
      key = .command found ∧ ∀ sequence, after = some sequence → sequence < found.sequence := by
  cases key with
  | command other =>
    cases after with
    | none => simp [commandAfter]
    | some sequence =>
      by_cases later : other.sequence > sequence
      · simp only [commandAfter, later, if_true, Option.some.injEq, Key.command.injEq]
        constructor
        · rintro rfl
          exact ⟨rfl, by rintro _ rfl; exact later⟩
        · exact fun both => both.1
      · simp only [commandAfter, later, if_false, Option.some.injEq,
          Key.command.injEq, reduceCtorEq, false_iff, not_and]
        rintro rfl bounded
        exact later (bounded sequence rfl)
  | _ => simp [commandAfter]

variable [Aggregate]

section Listings

variable {scope : Scope}

theorem mem_eventVersions {version : Nat} :
    version ∈ eventVersions scope order ↔ (scope.get (.event version)).isSome := by
  rw [eventVersions, HashMap.mem_selectKeys]
  constructor
  · rintro ⟨key, present, selected⟩
    cases key with
    | event other =>
      cases selected
      exact present
    | _ => cases selected
  · intro present
    exact ⟨_, present, rfl⟩

theorem eventVersions_nodup : (eventVersions scope order).Nodup := by
  apply HashMap.selectKeys_nodup
  intro left right version first second
  cases left with
  | event _ =>
    cases right with
    | event _ =>
      cases first
      cases second
      rfl
    | _ => cases second
  | _ => cases first

theorem mem_commandKeysAscending : key ∈ commandKeysAscending scope after order ↔
      (scope.get (.command key)).isSome ∧ ∀ sequence, after = some sequence →
        sequence < key.sequence := by
  rw [commandKeysAscending, List.mem_insertionSort, HashMap.mem_selectKeys]
  simp only [Key.commandAfter_eq_some]
  constructor
  · rintro ⟨_, present, rfl, later⟩
    exact ⟨present, later⟩
  · rintro ⟨present, later⟩
    exact ⟨_, present, rfl, later⟩

theorem commandKeysAscending_nodup : (commandKeysAscending scope after order).Nodup := by
  rw [commandKeysAscending, (List.perm_insertionSort _ _).nodup_iff]
  apply HashMap.selectKeys_nodup
  intro left right key first second
  rw [(Key.commandAfter_eq_some.mp first).1, (Key.commandAfter_eq_some.mp second).1]

end Listings

section Archiving

variable (store : AggregateStore)

theorem archiveSurplusEvents_run (order : IterOrder) (start : Nat) :
    ∃ after, archiveSurplusEvents order start store = .ok () { store with scope := after } ∧
      (∀ version, after.get (.event version) =
        if start ≤ version then none else store.scope.get (.event version)) ∧
      ∀ key : Key, (∀ version, key ≠ .event version) → after.get key = store.scope.get key := by
  have selected : ∀ version, version ∈ (eventVersions store.scope order).filter
      (fun version => version ≥ start) ↔
      (store.scope.get (.event version)).isSome ∧ start ≤ version := by
    intro version
    rw [List.mem_filter, mem_eventVersions, decide_eq_true_eq]
  have distinct : (((eventVersions store.scope order).filter
      fun version => version ≥ start).map Key.event).Nodup :=
    (eventVersions_nodup.filter _).map Key.event_injective
  refine ⟨store.scope.removeAll (((eventVersions store.scope order).filter
    fun version => version ≥ start).map Key.event), ?_, ?_, ?_⟩
  · unfold archiveSurplusEvents
    rw [get_bind_run, forM_if]
    exact forM_archive_run Key.event distinct fun version member =>
      ((selected version).mp member).1
  · exact HashMap.get_removeAll_map Key.event_injective selected
  · exact fun key other => HashMap.get_removeAll_map_other other

theorem archiveIncompleteCommands_run (order : IterOrder) (last : Nat) :
    ∃ after, archiveIncompleteCommands order last store = .ok () { store with scope := after } ∧
      (∀ key : CommandKey, after.get (.command key) =
        if key.sequence ≤ last then store.scope.get (.command key) else none) ∧
      ∀ key : Key, (∀ command, key ≠ .command command) → after.get key = store.scope.get key := by
  have selected : ∀ key : CommandKey, key ∈ commandKeysAscending store.scope (some last) order ↔
      (store.scope.get (.command key)).isSome ∧ last < key.sequence := by
    intro key
    simp [mem_commandKeysAscending]
  refine ⟨store.scope.removeAll ((commandKeysAscending store.scope (some last)
    order).map Key.command), ?_, ?_, ?_⟩
  · exact forM_archive_run Key.command (commandKeysAscending_nodup.map Key.command_injective)
      fun key member => ((selected key).mp member).1
  · intro key
    rw [HashMap.get_removeAll_map Key.command_injective selected]
    by_cases recorded : key.sequence ≤ last
    · rw [if_neg (Nat.not_lt.mpr recorded), if_pos recorded]
    · rw [if_pos (Nat.lt_of_not_le recorded), if_neg recorded]
  · exact fun key other => HashMap.get_removeAll_map_other other

end Archiving

section Warm

theorem Logged.keep {scope : Scope} (logged : Logged scope initial events) (last : Nat)
    (kept : ∀ version, after.get (.event version) =
      if last + 1 ≤ version then none else scope.get (.event version)) :
    Logged after initial (events.take last) where
  initStored := by
    obtain ⟨event, stored, started⟩ := logged.initStored
    exact ⟨event, by rw [kept, if_neg (by omega), stored], started⟩
  eventsStored := by
    intro i
    rw [kept, List.getElem?_take]
    by_cases inside : i < last
    · rw [if_neg (by omega), if_pos inside, logged.eventsStored]
    · rw [if_pos (by omega), if_neg inside]
      rfl
  numbered := by
    intro i event found
    rw [List.getElem?_take] at found
    split at found
    · exact logged.numbered found
    · cases found

structure Warmed (before : Scope) (initial : State) (events : List Event)
    (info : StoredValueInfo) (after : Scope) : Prop where
  logged : Logged after initial (events.take info.lastEvent)
  infoStored : after.get .info = some (.info info)
  commands : ∀ key : CommandKey, after.get (.command key) =
    if key.sequence ≤ info.lastCommand then before.get (.command key) else none
  snapshot : after.get .snapshot = before.get .snapshot ∨
    after.get .snapshot = some (.aggregate (applyAll initial events))

theorem archiveIncompleteEvents_run (store : AggregateStore)
    (logged : Logged store.scope initial events) (last : Nat) :
    ∃ after, archiveIncompleteEvents order last store = .ok () { store with scope := after } ∧
      Logged after initial (events.take last) ∧
      ∀ key : Key, (∀ version, key ≠ .event version) → after.get key = store.scope.get key := by
  unfold archiveIncompleteEvents
  rw [bind_of_ok (getEvent_run (logged.eventsStored last))]
  cases next : events[last]? with
  | none =>
    refine ⟨store.scope, rfl, ?_, fun key other => rfl⟩
    rw [List.take_of_length_le (List.getElem?_eq_none_iff.mp next)]
    exact logged
  | some event =>
    obtain ⟨after, run, kept, others⟩ :=
      archiveSurplusEvents_run store order (last + 1)
    exact ⟨after, run, logged.keep last kept, others⟩

theorem warmAggregate_run (lawful : Lawful) (order : IterOrder)
    (logged : Logged store.scope initial events)
    (snapshots : Snapshots store.scope initial events)
    (cached : Cached store (applyAll initial events))
    (infoStored : store.scope.get .info = some (.info info)) :
    ∃ after, warmAggregate order store =
        .ok () { scope := after, cache := some (applyAll initial events) } ∧
      Warmed store.scope initial events info after := by
  have infoRun : getInfo { store with cache := some (applyAll initial events) } =
      .ok info { store with cache := some (applyAll initial events) } :=
    getInfo_run infoStored
  obtain ⟨trimmed, eventsRun, trimmedLog, eventsOnly⟩ := archiveIncompleteEvents_run
    { store with cache := some (applyAll initial events) } logged
    info.lastEvent
  obtain ⟨rest, commandsRun, commands, commandsOnly⟩ := archiveIncompleteCommands_run
    { scope := trimmed, cache := some (applyAll initial events) } order
    info.lastCommand
  have kept : Warmed store.scope initial events info rest := by
    refine ⟨trimmedLog.congr fun version => commandsOnly _ (by simp), ?_, ?_, .inl ?_⟩
    · rw [commandsOnly _ (by simp), eventsOnly _ (by simp), infoStored]
    · intro key
      rw [commands, eventsOnly _ (by simp)]
    · rw [commandsOnly _ (by simp), eventsOnly _ (by simp)]
  unfold warmAggregate
  rw [bind_of_ok (mapError_run (getLatest_run lawful logged snapshots cached)),
    bind_of_ok infoRun, bind_of_ok eventsRun, bind_of_ok commandsRun]
  split
  · obtain ⟨after, -, run, renewed, others⟩ := storeSnapshot_run
      { scope := rest, cache := some (applyAll initial events) } (applyAll initial events)
    refine ⟨after, run, kept.logged.congr fun version => others _ id, ?_, ?_, .inr renewed⟩
    · rw [others _ id, kept.infoStored]
    · intro key
      rw [others _ id, kept.commands]
  · exact ⟨rest, rfl, kept⟩

end Warm

end Krill.EventSourcing
