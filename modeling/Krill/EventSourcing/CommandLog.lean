import Krill.EventSourcing.Crash

namespace Krill.EventSourcing

open Aggregate AggregateStore Stateful

variable [Aggregate]

/-! The log of commands, as long as there are no crashes. A command is stored
before the pre-save listeners are asked, so what follows is about commands that
they do not object to. -/

/-- The listeners accept the events of the command, if it gets that far. -/
def Unopposed (handle : Handle) (occasion : Occasion) (cmd : Command) (latest : State) :
    Prop :=
  ∀ events, (commandVersion cmd).any (· ≠ version latest) = false →
    processCommand latest cmd = .ok events → events ≠ [] →
    checkEvents handle (version latest) events = .ok () →
    occasion.listen (applyAll latest events) events = .ok ()

def UnopposedStep (store next : AggregateStore) : Prop :=
  ∃ handle occasion cmd,
    (∀ latest, store.cache = some latest → Unopposed handle occasion cmd latest) ∧
    next = finalState (command handle occasion cmd store)

/-- A command that is for the current version, that the aggregate accepts and that
the listeners do not object to. -/
def Valid (handle : Handle) (occasion : Occasion) (cmd : Command) (latest : State) :
    Prop :=
  (commandVersion cmd).any (· ≠ version latest) = false ∧
    ∃ events, processCommand latest cmd = .ok events ∧
      (events ≠ [] → checkEvents handle (version latest) events = .ok () ∧
        occasion.listen (applyAll latest events) events = .ok ())

/-- The stored commands have the sequence numbers from 1 up to the last one, each
of them once, and succeeded commands only name events of the log. -/
structure CommandLog (scope : Scope) (count last : Nat) : Prop where
  recorded : ∀ {key document}, scope.get (.command key) = some document →
    ∃ stored, document = .command stored ∧ key = .forStored stored ∧
      ∀ {versions version}, stored.effect = .success versions → version ∈ versions →
        1 ≤ version ∧ version ≤ count
  numbers : ∀ sequence, (1 ≤ sequence ∧ sequence ≤ last) ↔
    ∃ key : CommandKey, (scope.get (.command key)).isSome ∧ key.sequence = sequence
  distinct : ∀ {left right : CommandKey}, (scope.get (.command left)).isSome →
    (scope.get (.command right)).isSome → left.sequence = right.sequence → left = right

namespace CommandLog

variable {scope : Scope}

theorem bounded (log : CommandLog scope count last) (present : (scope.get (.command key)).isSome) :
    key.sequence ≤ last :=
  ((log.numbers key.sequence).mpr ⟨key, present, rfl⟩).2

theorem append (log : CommandLog scope count last) (grown : count ≤ more)
    (commands : ∀ key, after.get (.command key) =
      if key = .forStored stored then some (.command stored) else scope.get (.command key))
    (next : stored.sequence = last + 1)
    (listed : ∀ {versions version}, stored.effect = .success versions →
      version ∈ versions → 1 ≤ version ∧ version ≤ more) : CommandLog after more (last + 1) := by
  have present : ∀ key : CommandKey, (after.get (.command key)).isSome ↔
      key = .forStored stored ∨ (scope.get (.command key)).isSome := by
    intro key
    rw [commands]
    by_cases new : key = .forStored stored <;> simp [new]
  have number : (CommandKey.forStored stored).sequence = last + 1 := next
  refine ⟨?_, ?_, ?_⟩
  · intro key document found
    rw [commands] at found
    split at found
    · next new =>
        cases found
        exact ⟨stored, rfl, new, listed⟩
    · obtain ⟨old, same, named, inLog⟩ := log.recorded found
      refine ⟨old, same, named, ?_⟩
      intro versions version succeeded member
      obtain ⟨positive, bound⟩ := inLog succeeded member
      exact ⟨positive, Nat.le_trans bound grown⟩
  · intro sequence
    constructor
    · rintro ⟨positive, bound⟩
      by_cases new : sequence = last + 1
      · exact ⟨_, (present _).mpr (.inl rfl), number.trans new.symm⟩
      · obtain ⟨key, old, numbered⟩ := (log.numbers sequence).mp ⟨positive, by omega⟩
        exact ⟨key, (present key).mpr (.inr old), numbered⟩
    · rintro ⟨key, inAfter, rfl⟩
      rcases (present key).mp inAfter with rfl | old
      · omega
      · obtain ⟨positive, bound⟩ := (log.numbers key.sequence).mpr ⟨key, old, rfl⟩
        omega
  · intro left right inLeft inRight same
    rcases (present left).mp inLeft with rfl | oldLeft
    · rcases (present right).mp inRight with rfl | oldRight
      · rfl
      · have bound := log.bounded oldRight
        omega
    · rcases (present right).mp inRight with rfl | oldRight
      · have bound := log.bounded oldLeft
        omega
      · exact log.distinct oldLeft oldRight same

end CommandLog

/-- A sound store with its aggregate in the cache and an intact log of commands. -/
structure Intact (store : AggregateStore) (initial : State) (events : List Event)
    (info : StoredValueInfo) : Prop where
  sound : Sound store initial events info
  cached : store.cache = some (applyAll initial events)
  log : CommandLog store.scope events.length info.lastCommand

namespace Intact

theorem unchanged (intact : Intact store initial events info) :
    Intact { store with cache := some (applyAll initial events) } initial events info where
  sound := intact.sound.load
  cached := rfl
  log := intact.log

theorem fresh (intact : Intact store initial events info)
    (next : key.sequence = info.lastCommand + 1) : ¬ (store.scope.get (.command key)).isSome := by
  intro present
  have bound := intact.log.bounded present
  omega

theorem ends (lawful : Lawful) (intact : Intact store initial events info)
    (unopposed : Unopposed handle occasion cmd (applyAll initial events))
    (ended : CommandEnds handle occasion cmd store info (applyAll initial events) result writes) :
    ∃ new newInfo, Intact (finalState result) initial (events ++ new) newInfo := by
  cases ended with
  | conflict | idle | malformed =>
    exact ⟨[], info, by rw [List.append_nil]; exact intact.unchanged⟩
  | unstorable failure processed present => exact absurd present (intact.fresh rfl)
  | exited new processed present => exact absurd present (intact.fresh rfl)
  | failed failure processed fresh =>
    refine ⟨[], nextInfo occasion info, ?_⟩
    rw [List.append_nil]
    refine ⟨(intact.sound.withCommand _).withInfo rfl, rfl, ?_⟩
    have commands : ∀ key, ((store.scope.insert
        (.command (.forStored (rejectedCommand handle occasion cmd info
          (applyAll initial events) failure)))
        (.command (rejectedCommand handle occasion cmd info (applyAll initial events)
          failure))).insert .info (.info (nextInfo occasion info))).get (.command key) =
        if key = .forStored (rejectedCommand handle occasion cmd info
          (applyAll initial events) failure)
        then some (.command (rejectedCommand handle occasion cmd info
          (applyAll initial events) failure))
        else store.scope.get (.command key) := by
      intro key
      rw [HashMap.get_insert, if_neg (by simp), HashMap.get_insert]
      simp
    refine intact.log.append (Nat.le_refl _) commands rfl ?_
    intro versions version succeeded
    cases succeeded
  | refused new failure current nonempty processed checked fresh heard =>
    have accepted := unopposed new current processed nonempty checked
    rw [heard] at accepted
    cases accepted
  | saved new after nonempty processed checked fresh heard performed =>
    rw [← applyAll_append] at performed ⊢
    obtain ⟨sound, commands⟩ := intact.sound.saved lawful fresh checked performed
    refine ⟨new, _, sound, rfl, ?_⟩
    refine intact.log.append (by simp) commands rfl ?_
    intro versions version succeeded member
    cases succeeded
    obtain ⟨event, inNew, rfl⟩ := List.mem_map.mp member
    obtain ⟨i, found⟩ := List.mem_iff_getElem?.mp inNew
    obtain ⟨inside, -⟩ := List.getElem?_eq_some_iff.mp found
    rw [checkEvents_eq_ok checked found, intact.sound.logged.version_all lawful, List.length_append]
    omega

theorem run (lawful : Lawful) (intact : Intact start initial events info)
    (steps : Relation.ReflTransGen UnopposedStep start store) :
    ∃ events info, Intact store initial events info := by
  induction steps with
  | refl => exact ⟨_, _, intact⟩
  | tail steps step induction =>
    obtain ⟨_, _, before⟩ := induction
    obtain ⟨handle, occasion, cmd, unopposed, rfl⟩ := step
    obtain ⟨_, _, after⟩ := before.ends lawful (unopposed _ before.cached)
      (before.sound.command_ends handle occasion cmd lawful)
    exact ⟨_, _, after⟩

theorem add (lawful : Lawful)
    (done : add event now { scope := .empty, cache := none } = .ok aggregate store) :
    Intact store aggregate [] (.default now) := by
  obtain ⟨sound, cached, commands⟩ := add_sound lawful done
  refine ⟨sound, cached, ?_, ?_, ?_⟩
  · intro key document found
    rw [commands] at found
    cases found
  · intro sequence
    constructor
    · rintro ⟨positive, bound⟩
      exact absurd positive (Nat.not_le.mpr (Nat.lt_succ_of_le bound))
    · rintro ⟨key, present, -⟩
      rw [commands] at present
      cases present
  · intro left right present
    rw [commands] at present
    cases present

end Intact

/-- What is asked of the log of commands: its numbers, that succeeded commands
are backed by events that were applied, and that commands that fail do no harm. -/
structure LogIntegrity (store : AggregateStore) (initial : State) (events : List Event)
    (info : StoredValueInfo) : Prop where
  infoStored : store.scope.get .info = some (.info info)
  numbers : ∀ sequence, (1 ≤ sequence ∧ sequence ≤ info.lastCommand) ↔
    ∃ key : CommandKey, (store.scope.get (.command key)).isSome ∧ key.sequence = sequence
  distinct : ∀ {left right : CommandKey}, (store.scope.get (.command left)).isSome →
    (store.scope.get (.command right)).isSome → left.sequence = right.sequence →
    left = right
  readable : ∀ {key : CommandKey}, (store.scope.get (.command key)).isSome →
    ∃ stored, store.scope.get (.command key) = some (.command stored) ∧
      stored.sequence = key.sequence
  succeeded : ∀ {key stored versions version},
    store.scope.get (.command key) = some (.command stored) →
    stored.effect = .success versions → version ∈ versions →
    ∃ i event, version = i + 1 ∧ events[i]? = some event ∧
      store.scope.get (.event version) = some (.event event)
  applied : store.cache = some (applyAll initial events)
  harmless : ∀ {handle occasion cmd failure} {final : AggregateStore},
    command handle occasion cmd store = .error failure final →
    (∀ version, final.scope.get (.event version) = store.scope.get (.event version)) ∧
      final.scope.get .snapshot = store.scope.get .snapshot ∧
      final.cache = store.cache ∧
      ∃ after, final.scope.get .info = some (.info after) ∧ after.lastEvent = info.lastEvent
  accepted : ∀ {handle occasion cmd}, Valid handle occasion cmd (applyAll initial events) →
    ∃ aggregate final, command handle occasion cmd store = .ok aggregate final
  alive : ∀ {handle occasion cmd final},
    command handle occasion cmd store ≠ .error .exited final

namespace Intact

theorem harmless (intact : Intact store initial events info) {failure : CommandError}
    (ended : CommandEnds handle occasion cmd store info (applyAll initial events)
      (.error failure final) writes) :
    (∀ version, final.scope.get (.event version) = store.scope.get (.event version)) ∧
      final.scope.get .snapshot = store.scope.get .snapshot ∧
      final.cache = store.cache ∧
      ∃ after, final.scope.get .info = some (.info after) ∧ after.lastEvent = info.lastEvent := by
  have same := intact.cached.symm
  cases ended with
  | conflict | malformed => exact ⟨fun _ => rfl, rfl, same, info, intact.sound.infoStored, rfl⟩
  | unstorable failure processed present => exact absurd present (intact.fresh rfl)
  | exited new processed present => exact absurd present (intact.fresh rfl)
  | failed failure processed fresh =>
    have framed : ∀ key : Key, key ≠ .info → (∀ command, key ≠ .command command) →
        ((store.scope.insert (.command (.forStored (rejectedCommand handle occasion cmd
          info (applyAll initial events) failure))) (.command (rejectedCommand handle
          occasion cmd info (applyAll initial events) failure))).insert .info
          (.info (nextInfo occasion info))).get key = store.scope.get key := by
      intro key notInfo notCommand
      rw [HashMap.get_insert, if_neg notInfo, HashMap.get_insert, if_neg (notCommand _)]
    exact ⟨fun version => framed _ (by simp) (by simp), framed _ (by simp) (by simp),
      same, _, HashMap.get_insert_self .., rfl⟩
  | refused new failure current nonempty processed checked fresh heard =>
    exact ⟨fun version => Sound.get_withCommand (by simp),
      Sound.get_withCommand (by simp), same, info,
      (Sound.get_withCommand (by simp)).trans intact.sound.infoStored, rfl⟩

theorem accepted (intact : Intact store initial events info)
    (valid : Valid handle occasion cmd (applyAll initial events))
    (ended : CommandEnds handle occasion cmd store info (applyAll initial events) result
      writes) : ∃ aggregate final, result = .ok aggregate final := by
  obtain ⟨fitting, new, produced, passes⟩ := valid
  cases ended with
  | conflict stale =>
    rw [fitting] at stale
    cases stale
  | idle current processed => exact ⟨_, _, rfl⟩
  | malformed other problem processed wrong =>
    rw [produced] at processed
    cases processed
    have nonempty : new ≠ [] := by
      rintro rfl
      cases wrong
    rw [(passes nonempty).1] at wrong
    cases wrong
  | unstorable failure processed present => exact absurd present (intact.fresh rfl)
  | exited other processed present => exact absurd present (intact.fresh rfl)
  | failed failure processed fresh =>
    rw [produced] at processed
    cases processed
  | refused other failure current nonempty processed checked fresh heard =>
    rw [produced] at processed
    cases processed
    rw [(passes nonempty).2] at heard
    cases heard
  | saved other after nonempty processed checked fresh heard performed =>
    exact ⟨_, _, rfl⟩

theorem alive (intact : Intact store initial events info) :
    ¬ CommandEnds handle occasion cmd store info (applyAll initial events)
      (.error .exited final) writes := by
  intro ended
  cases ended with
  | exited new processed present => exact absurd present (intact.fresh rfl)

theorem integrity (lawful : Lawful) (intact : Intact store initial events info) :
    LogIntegrity store initial events info where
  infoStored := intact.sound.infoStored
  numbers := intact.log.numbers
  distinct := intact.log.distinct
  readable := by
    intro key present
    obtain ⟨document, found⟩ := Option.isSome_iff_exists.mp present
    obtain ⟨stored, rfl, rfl, -⟩ := intact.log.recorded found
    exact ⟨stored, found, rfl⟩
  succeeded := by
    intro key stored versions version found success member
    obtain ⟨same, document, -, listed⟩ := intact.log.recorded found
    cases document
    obtain ⟨positive, bound⟩ := listed success member
    have stored := intact.sound.logged.eventsStored (version - 1)
    have inside : version - 1 < events.length := by omega
    rw [Nat.sub_add_cancel positive, List.getElem?_eq_getElem inside] at stored
    exact ⟨version - 1, _, by omega, List.getElem?_eq_getElem inside, stored⟩
  applied := intact.cached
  harmless := by
    intro handle occasion cmd failure final failed
    have ended := intact.sound.command_ends handle occasion cmd lawful
    rw [failed] at ended
    exact intact.harmless ended
  accepted := by
    intro handle occasion cmd valid
    exact intact.accepted valid (intact.sound.command_ends handle occasion cmd lawful)
  alive := by
    intro handle occasion cmd final exited
    have ended := intact.sound.command_ends handle occasion cmd lawful
    rw [exited] at ended
    exact intact.alive ended

end Intact

/-- The log of commands is intact after every run of commands to which the
listeners do not object. -/
theorem command_log_integrity (lawful : Lawful) {event : InitEvent} {now : Time}
    {aggregate : State} {start store : AggregateStore}
    (added : add event now { scope := .empty, cache := none } = .ok aggregate start)
    (steps : Relation.ReflTransGen UnopposedStep start store) :
    ∃ initial events info, LogIntegrity store initial events info := by
  obtain ⟨_, _, intact⟩ := (Intact.add lawful added).run lawful steps
  exact ⟨_, _, _, intact.integrity lawful⟩

end Krill.EventSourcing

namespace Krill.EventSourcing.Persons

open AggregateStore Stateful

theorem birthday_log_integrity : ∃ initial events info,
      LogIntegrity (finalState (command "alice" quietly goAroundSun alice)) initial events
        info := by
  apply command_log_integrity lawful (show add aliceSmith 0 _ = .ok _ alice from rfl)
  refine .single ⟨"alice", quietly, goAroundSun, ?_, rfl⟩
  intro latest _ events _ _ _ _
  rfl

def objecting : Occasion where
  now := 1
  time := 1
  listen _ _ := .error (.custom "not today")

def aliceRefused : AggregateStore :=
  finalState (command "alice" objecting goAroundSun alice)

/-- The command is in the log as succeeded, under a number that the info does not
know, and a valid command then exits the process. -/
theorem refused_birthday_breaks_log : command "alice" objecting goAroundSun alice =
        .error (.rejected (.custom "not today")) aliceRefused ∧
      (∃ stored, aliceRefused.scope.get (.command
          { sequence := 1, timestampSecs := 1, label := "person-around-sun" }) =
          some (.command stored) ∧ stored.effect = .success [1]) ∧
      aliceRefused.scope.get (.event 1) = none ∧
      (¬ ∃ initial events info, LogIntegrity aliceRefused initial events info) ∧
      (∀ latest, aliceRefused.cache = some latest → Valid "alice" quietly goAroundSun latest) ∧
      command "alice" quietly goAroundSun aliceRefused = .error .exited aliceRefused := by
  refine ⟨rfl, ⟨_, rfl, rfl⟩, rfl, ?_, ?_, rfl⟩
  · rintro ⟨initial, events, info, integrity⟩
    have known : some (Document.info (.default 0)) = some (.info info) :=
      integrity.infoStored
    cases known
    obtain ⟨-, bound⟩ := (integrity.numbers 1).mpr
      ⟨{ sequence := 1, timestampSecs := 1, label := "person-around-sun" }, rfl, rfl⟩
    cases bound
  · intro latest cached
    cases cached
    exact ⟨rfl, _, rfl, fun _ => ⟨rfl, rfl⟩⟩

end Krill.EventSourcing.Persons
