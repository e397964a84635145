import Mathlib.Logic.Relation
import Krill.EventSourcing.WarmUp
import Krill.EventSourcing.Person

namespace Krill.EventSourcing

open Aggregate KeyValue AggregateStore Stateful

variable [Aggregate]

def CommandStep (store next : AggregateStore) : Prop :=
  ∃ handle occasion cmd, next = finalState (command handle occasion cmd store)

inductive Reached : AggregateStore → Prop
  | added {event : InitEvent} {now : Time} {aggregate : State} {store : AggregateStore}
      (done : add event now { scope := .empty, cache := none } = .ok aggregate store) :
      Reached store
  | command {store next : AggregateStore} (reached : Reached store)
      (step : CommandStep store next) : Reached next

def commandOperations (handle : Handle) (occasion : Occasion) (cmd : Command)
    (store : AggregateStore) : List (Write Key Document) :=
  match getInfo store, getLatest store with
  | .ok info _, .ok latest _ =>
    commandWrites handle occasion cmd store.scope info latest
  | _, _ => []

/-- The store that is found after a crash: some of the operations were performed,
and the cache is lost. -/
def crash (handle : Handle) (occasion : Occasion) (cmd : Command)
    (store : AggregateStore) (count : Nat) :
    Except (KeyValueError Key) AggregateStore := do
  let scope ← Write.performAll store.scope
    ((commandOperations handle occasion cmd store).take count)
  return { scope, cache := none }

/-- What is asked of a store that was warmed up after a crash: the log, the
commands, the cache and the snapshot are those that the info tells of, and every
later command that succeeds leaves a log without gaps that leads to the aggregate. -/
structure RecoveredAs (found after : AggregateStore) (initial : State)
    (events : List Event) (info : StoredValueInfo) : Prop where
  infoStored : after.scope.get .info = some (.info info)
  lastEvent : info.lastEvent = events.length
  logged : Logged after.scope initial events
  commands : ∀ key : CommandKey, after.scope.get (.command key) =
    if key.sequence ≤ info.lastCommand then found.scope.get (.command key) else none
  cached : after.cache = some (applyAll initial events)
  snapshot : after.scope.get .snapshot = some (.aggregate (applyAll initial events))
  later : ∀ {store final : AggregateStore} {handle occasion cmd aggregate},
    Relation.ReflTransGen CommandStep after store →
    command handle occasion cmd store = .ok aggregate final →
    ∃ events, Logged final.scope initial events ∧
      aggregate = applyAll initial events ∧ final.cache = some aggregate

def Recovers (order : IterOrder) (found : AggregateStore) : Prop :=
  ∃ after initial events info, warmAggregate order found = .ok () after ∧
    RecoveredAs found after initial events info

theorem add_sound (lawful : Lawful)
    (done : add event now { scope := .empty, cache := none } = .ok aggregate store) :
    Sound store aggregate [] (.default now) ∧ store.cache = some aggregate ∧
      ∀ key : CommandKey, store.scope.get (.command key) = none := by
  have initStored : liftScope (fun scope => scope.storeNew
      (.event (initVersion event)) (.initEvent event)) { scope := .empty, cache := none } =
      .ok () { scope := HashMap.empty.insert (.event 0) (.initEvent event)
               cache := none } := by
    apply liftScope_run
    rw [lawful.initVersion]
    exact Entries.storeNew_eq_ok.mpr ⟨HashMap.get_empty _, rfl⟩
  unfold add at done
  rw [bind_of_ok initStored] at done
  cases started : init event with
  | error failure =>
    rw [started] at done
    cases done
  | ok state =>
    obtain ⟨withSnapshot, -, run, snapshot, others⟩ := storeSnapshot_run
      { scope := HashMap.empty.insert (.event 0) (.initEvent event), cache := none }
      state
    rw [started] at done
    simp only at done
    rw [bind_of_ok run] at done
    cases done
    have events : ∀ version, (withSnapshot.insert .info (.info (.default now))).get
        (.event version) = if version = 0 then some (.initEvent event) else none := by
      intro version
      rw [HashMap.get_insert, if_neg (by simp), others _ id, HashMap.get_insert, HashMap.get_empty]
      simp
    refine ⟨⟨⟨⟨event, events 0, started⟩, ?_, ?_⟩, ?_, rfl, ?_, .inr rfl⟩, rfl, ?_⟩
    · intro i
      exact events (i + 1)
    · intro i event found
      cases found
    · exact HashMap.get_insert_self ..
    · exact ((HashMap.get_insert ..).trans (if_neg (by simp))).trans snapshot
    · intro key
      refine ((HashMap.get_insert ..).trans (if_neg (by simp))).trans ?_
      rw [others _ id, HashMap.get_insert, if_neg (by simp), HashMap.get_empty]

section Reached

theorem CommandStep.sound (lawful : Lawful) (step : CommandStep store next)
    (sound : Sound store initial events info) : ∃ events info, Sound next initial events info := by
  obtain ⟨handle, occasion, cmd, rfl⟩ := step
  obtain ⟨new, newInfo, after, -⟩ :=
    sound.ends lawful (sound.command_ends handle occasion cmd lawful)
  exact ⟨_, _, after⟩

theorem Reached.sound (lawful : Lawful) (reached : Reached store) :
    ∃ initial events info, Sound store initial events info := by
  induction reached with
  | added done => exact ⟨_, _, _, (add_sound lawful done).1⟩
  | command reached step induction =>
    obtain ⟨initial, events, info, sound⟩ := induction
    obtain ⟨_, _, next⟩ := step.sound lawful sound
    exact ⟨_, _, _, next⟩

theorem sound_of_run (lawful : Lawful) (sound : Sound start initial events info)
    (run : Relation.ReflTransGen CommandStep start store) :
    ∃ events info, Sound store initial events info := by
  induction run with
  | refl => exact ⟨_, _, sound⟩
  | tail run step induction =>
    obtain ⟨_, _, before⟩ := induction
    exact step.sound lawful before

theorem commandOperations_eq (lawful : Lawful) (sound : Sound store initial events info) :
    commandOperations handle occasion cmd store =
      commandWrites handle occasion cmd store.scope info (applyAll initial events) := by
  unfold commandOperations
  rw [getInfo_run sound.infoStored, getLatest_run lawful sound.logged sound.snapshots sound.cached]

end Reached

section Recovery

theorem Sound.restart (sound : Sound store initial events info) :
    Sound { store with cache := none } initial events info where
  logged := sound.logged
  infoStored := sound.infoStored
  lastEvent := sound.lastEvent
  snapshot := sound.snapshot
  cached := .inl rfl

theorem Sound.later (lawful : Lawful) (sound : Sound store initial events info)
    (done : command handle occasion cmd store = .ok aggregate final) :
    ∃ events, Logged final.scope initial events ∧
      aggregate = applyAll initial events ∧ final.cache = some aggregate := by
  have ended := sound.command_ends handle occasion cmd lawful
  obtain ⟨new, newInfo, after, cached⟩ := sound.ends lawful ended
  rw [done] at ended after cached
  have live : final.cache = some aggregate := ended.cached
  exact ⟨_, after.logged, Option.some.inj (live.symm.trans cached), live⟩

theorem Sound.recovers (lawful : Lawful) (order : IterOrder)
    (sound : Sound store initial events info) :
    Recovers order { store with cache := none } := by
  obtain ⟨after, run, warmed⟩ := warmAggregate_run lawful order sound.restart.logged
    sound.restart.snapshots sound.restart.cached sound.restart.infoStored
  have logged := warmed.logged
  rw [sound.lastEvent, List.take_length] at logged
  have snapshot : after.get .snapshot = some (.aggregate (applyAll initial events)) := by
    rcases warmed.snapshot with same | renewed
    · exact same.trans sound.snapshot
    · exact renewed
  have soundAfter : Sound { scope := after, cache := some (applyAll initial events) }
      initial events info :=
    ⟨logged, warmed.infoStored, sound.lastEvent, snapshot, .inr rfl⟩
  refine ⟨_, initial, events, info, run, warmed.infoStored, sound.lastEvent, logged,
    warmed.commands, rfl, snapshot, ?_⟩
  intro store final handle occasion cmd aggregate steps done
  obtain ⟨_, _, before⟩ := sound_of_run lawful soundAfter steps
  exact before.later lawful done

theorem not_recovers_of_surplus (lawful : Lawful) (logged : Logged store.scope initial events)
    (snapshots : Snapshots store.scope initial events)
    (cached : Cached store (applyAll initial events))
    (infoStored : store.scope.get .info = some (.info info))
    (surplus : info.lastEvent < events.length) : ¬ Recovers order store := by
  rintro ⟨after, otherInitial, others, otherInfo, run, recovered⟩
  obtain ⟨scope, ran, warmed⟩ :=
    warmAggregate_run lawful order logged snapshots cached infoStored
  rw [ran] at run
  cases run
  have sameInfo := recovered.infoStored
  rw [show _ = _ from warmed.infoStored] at sameInfo
  cases sameInfo
  have sameState : applyAll initial events = applyAll otherInitial others :=
    Option.some.inj recovered.cached
  have versions := congrArg version sameState
  rw [logged.version_all lawful, recovered.logged.version_all lawful] at versions
  have length := recovered.lastEvent
  omega

theorem Sound.first_operation (sound : Sound store initial events info)
    (ended : CommandEnds handle occasion cmd store info (applyAll initial events) result writes) :
    ∃ scope, Write.performAll store.scope (writes.take 1) = .ok scope ∧
      Sound { scope, cache := some (applyAll initial events) } initial events info := by
  cases ended with
  | conflict | idle | malformed | unstorable | exited => exact ⟨_, rfl, sound.load⟩
  | failed failure processed fresh =>
    exact ⟨_, Write.performAll_storeNew fresh _, sound.withCommand _⟩
  | refused new failure current nonempty processed checked fresh heard =>
    exact ⟨_, Write.performAll_storeNew fresh _, sound.withCommand _⟩
  | saved new after nonempty processed checked fresh heard performed =>
    exact ⟨_, Write.performAll_storeNew fresh _, sound.withCommand _⟩

theorem Sound.cut_short (lawful : Lawful) (sound : Sound store initial events info)
    (ended : CommandEnds handle occasion cmd store info (applyAll initial events) result
      writes) (short : count + 2 < writes.length) :
    ∃ scope surplus, Write.performAll store.scope (writes.take (count + 2)) = .ok scope ∧
      surplus ≠ [] ∧ Logged scope initial (events ++ surplus) ∧
      Snapshots scope initial (events ++ surplus) ∧
      scope.get .info = some (.info info) := by
  cases ended with
  | conflict | idle | malformed | unstorable | exited => cases short
  | failed | refused =>
    simp only [List.length_cons, List.length_nil] at short
    omega
  | saved new after nonempty processed checked fresh heard performed =>
    rw [← applyAll_append] at short ⊢
    obtain ⟨scope, done, part⟩ := sound.performAll_savedWrites_take lawful fresh checked
      (savedInfo occasion info (applyAll initial events) new) (count + 1)
    refine ⟨scope, new.take (count + 1), done, ?_, part.logged, part.snapshots,
      (part.incomplete short).trans sound.infoStored⟩
    cases new with
    | nil => exact absurd rfl nonempty
    | cons event rest => exact List.cons_ne_nil _ _

theorem Sound.recovers_iff (lawful : Lawful) (order : IterOrder)
    (sound : Sound store initial events info)
    (ended : CommandEnds handle occasion cmd store info (applyAll initial events) result
      writes) (count : Nat) :
    ∃ scope, Write.performAll store.scope (writes.take count) = .ok scope ∧
      (Recovers order { scope, cache := none } ↔ count ≤ 1 ∨ writes.length ≤ count) := by
  by_cases all : writes.length ≤ count
  · obtain ⟨new, newInfo, after, -⟩ := sound.ends lawful ended
    rw [List.take_of_length_le all]
    exact ⟨_, ended.performed, iff_of_true (after.recovers lawful order) (.inr all)⟩
  rcases count with _ | _ | count
  · exact ⟨_, rfl, iff_of_true (sound.recovers lawful order) (.inl (Nat.zero_le 1))⟩
  · obtain ⟨scope, done, withCommand⟩ := sound.first_operation ended
    exact ⟨scope, done, iff_of_true (withCommand.recovers lawful order) (.inl (Nat.le_refl 1))⟩
  · obtain ⟨scope, surplus, done, nonempty, logged, snapshots, infoStored⟩ :=
      sound.cut_short lawful ended (Nat.lt_of_not_le all)
    refine ⟨scope, done, iff_of_false ?_ ?_⟩
    · apply not_recovers_of_surplus lawful logged snapshots (.inl rfl) infoStored
      have positive := List.length_pos_iff.mpr nonempty
      rw [sound.lastEvent, List.length_append]
      omega
    · rintro (early | late)
      · omega
      · exact all late

end Recovery

/-- After a crash in the middle of a command, warming up recovers the store just
if the crash came before the first event was stored or after the info was. -/
theorem crash_recovers_iff (lawful : Lawful) {store : AggregateStore}
    (reached : Reached store) (handle : Handle) (occasion : Occasion) (cmd : Command)
    (order : IterOrder) (count : Nat) :
    ∃ found, crash handle occasion cmd store count = .ok found ∧ (Recovers order found ↔
        count ≤ 1 ∨ (commandOperations handle occasion cmd store).length ≤ count) := by
  obtain ⟨initial, events, info, sound⟩ := reached.sound lawful
  obtain ⟨scope, done, recovers⟩ := sound.recovers_iff lawful order
    (sound.command_ends handle occasion cmd lawful) count
  rw [← commandOperations_eq lawful sound] at done recovers
  refine ⟨{ scope, cache := none }, ?_, recovers⟩
  unfold crash
  rw [done]
  rfl

end Krill.EventSourcing

namespace Krill.EventSourcing.Persons

open AggregateStore Stateful

def aliceSmith : InitPersonEvent := { id := "alice", name := "alice smith" }

def alice : AggregateStore := finalState (add aliceSmith 0 { scope := .empty, cache := none })

theorem alice_reached : Reached alice := 
  .added (show add aliceSmith 0 _ = .ok _ alice from rfl)

def goAroundSun : PersonCommand := { version := none, details := .goAroundTheSun }

def quietly : Occasion where
  now := 1
  time := 1
  listen _ _ := .ok ()

theorem crash_before_birthday_recovers :
    ∃ found, crash "alice" quietly goAroundSun alice 1 = .ok found ∧
      Recovers .stored found := by
  obtain ⟨found, crashed, recovers⟩ :=
    crash_recovers_iff lawful alice_reached "alice" quietly goAroundSun .stored 1
  exact ⟨found, crashed, recovers.mpr (.inl (Nat.le_refl 1))⟩

def aliceLeftBehind : AggregateStore :=
  match crash "alice" quietly goAroundSun alice 2 with
  | .ok found => found
  | .error _ => alice

/-- The cached aggregate then has the birthday that is no longer in the log. -/
theorem crash_after_birthday_is_not_recovered :
    crash "alice" quietly goAroundSun alice 2 = .ok aliceLeftBehind ∧
      ¬ Recovers .stored aliceLeftBehind ∧
      (finalState (warmAggregate .stored aliceLeftBehind)).cache =
        some { id := "alice", version := 2, name := "alice smith", age := 1 } ∧
      (finalState (warmAggregate .stored aliceLeftBehind)).scope.get (.event 1) = none := by
  obtain ⟨initial, events, info, sound⟩ := alice_reached.sound lawful
  obtain ⟨scope, done, recovers⟩ := sound.recovers_iff lawful .stored
    (sound.command_ends "alice" quietly goAroundSun lawful) 2
  rw [← commandOperations_eq lawful sound] at done recovers
  have length : (commandOperations "alice" quietly goAroundSun alice).length = 6 := rfl
  have left : aliceLeftBehind = { scope, cache := none } := by
    unfold aliceLeftBehind crash
    rw [done]
    rfl
  refine ⟨rfl, ?_, rfl, rfl⟩
  rw [left, recovers, length]
  omega

end Krill.EventSourcing.Persons
