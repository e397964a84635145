import Krill.EventSourcing.WalRuns

namespace Krill.Wal

open Phases WalSupport

variable [WalSupport]

namespace WalStore

/-- What is left when `store_new` is cut off: nothing, or a file with what was written. -/
def cutOff (store : WalStore) (key : WalKey) (written : Option (List Char)) : WalStore :=
  match written with
  | none => store
  | some text => store.storeKey key text

/-- The latest instance is found, and a command that is valid for it succeeds. -/
structure Usable (store : WalStore) (latest : State) : Prop where
  getLatest : ∃ after, Returns GetLatest.advance store .readCache after (.ok latest)
  sendCommand : ∀ {command changes}, processCommand latest command = .ok changes →
    ∃ after state, Returns SendCommand.advance store (.start command) after (.ok state)

/-- `warm` gets the latest instance of a scope that exists, and caches it. -/
def Warms (store after : WalStore) : Prop :=
  match store.scope with
  | none => after = store
  | some _ => ∃ between latest, Returns GetLatest.advance store .readCache between (.ok latest) ∧
      after = { between with cache := some latest }

end WalStore

/-- The phase of a command in which it stores its set fails, or is cut off by a crash. -/
def SendCommand.failStoring (store : WalStore) (latest : State) (written : Option (List Char)) :
    WalStore × Progress SendCommand (Except SendError State) :=
  (store.cutOff (.walSet (revision latest)) written, .done (.error (.store .ioError)))

section Usable

theorem Sound.usable (sound : Sound first sets store.entries start)
    (cached : Cached first sets store) : store.Usable (replay first sets) := by
  obtain ⟨cache, loads⟩ := sound.returns_getLatest cached
  refine ⟨⟨_, loads⟩, ?_⟩
  intro command changes processed
  cases changes with
  | nil =>
    have ends : SendCommand.process command (replay first sets) =
        .done (.ok (replay first sets)) := by
      simp only [SendCommand.process, processed]
    exact ⟨_, _, loads.within_done (fun _ _ => rfl) ends⟩
  | cons change rest =>
    obtain ⟨after, returns, -⟩ := sound.returns_sendCommand cached processed (by simp)
    exact ⟨after, _, returns⟩

theorem Sound.warms (sound : Sound first sets store.entries start)
    (cached : Cached first sets store) :
    ∃ after, store.Warms after ∧ after.Usable (replay first sets) := by
  obtain ⟨cache, loads⟩ := sound.returns_getLatest cached
  have warm : Sound first sets
      ({ store with cache := some (replay first sets) } : WalStore).entries start := sound
  refine ⟨{ store with cache := some (replay first sets) }, ?_, warm.usable ?_⟩
  · unfold WalStore.Warms
    split
    · next missing =>
        have snapshot := sound.snapshot
        simp [WalStore.entries, missing] at snapshot
    · exact ⟨_, _, loads, rfl⟩
  · intro state held
    cases held
    rfl

end Usable

structure Torn (first : State) (sets : List (WalSet Change)) (start : Nat) (store : WalStore) :
    Prop where
  within : start ≤ sets.length
  snapshot : store.entries.get .snapshot = some (stateJson (replay first (sets.take start)))
  present : ∀ {index set}, start ≤ index → sets[index]? = some set →
    store.entries.get (.walSet (revision first + index)) = some (setJson set)
  torn : ∃ text, store.entries.get (.walSet (revision first + sets.length)) = some text ∧
    setFromJson text = none

theorem Sound.torn {store : WalStore} (sound : Sound first sets store.entries start)
    (unreadable : setFromJson text = none) :
    Torn first sets start (store.cutOff (.walSet (revision first + sets.length)) (some text)) where
  within := sound.within
  snapshot := (HashMap.get_insert ..).trans ((if_neg (by simp)).trans sound.snapshot)
  present := by
    intro index set later found
    have within := (List.getElem?_eq_some_iff.mp found).1
    exact (HashMap.get_insert ..).trans
      ((if_neg (by simp; omega)).trans (sound.present later found))
  torn := ⟨text, HashMap.get_insert_self .., unreadable⟩

def GetLatest.Behind (first : State) (sets : List (WalSet Change)) (start : Nat) :
    GetLatest → Prop
  | .readCache => True
  | .getSnapshot => True
  | .hasNext state | .getNext state =>
    ∃ index, start ≤ index ∧ index ≤ sets.length ∧ state = replay first (sets.take index)

section Torn

theorem Torn.advance (torn : Torn first sets start store) (cached : Cached first sets store)
    {get : GetLatest} (behind : get.Behind first sets start) :
    (∃ later, get.advance store = (store, .next later) ∧ later.Behind first sets start) ∨
      ∃ error, get.advance store = (store, .done (.error error)) := by
  cases get with
  | readCache =>
    simp only [GetLatest.advance]
    cases held : store.cache with
    | none => exact .inl ⟨_, rfl, trivial⟩
    | some state =>
      refine .inl ⟨_, rfl, sets.length, torn.within, Nat.le_refl _, ?_⟩
      rw [List.take_length, cached held]
  | getSnapshot =>
    simp only [GetLatest.advance, WalStore.read_of_get torn.snapshot (stateFromJson_json _)]
    exact .inl ⟨_, rfl, start, Nat.le_refl _, torn.within, rfl⟩
  | hasNext state =>
    obtain ⟨index, later, within, rfl⟩ := behind
    have present : (store.entries.get (.walSet (revision first + index))).isSome := by
      rcases Nat.lt_or_eq_of_le within with more | rfl
      · rw [torn.present later (List.getElem?_eq_getElem more)]
        rfl
      · obtain ⟨text, found, -⟩ := torn.torn
        rw [found]
        rfl
    refine .inl ⟨.getNext (replay first (sets.take index)), ?_, index, later, within, rfl⟩
    rw [GetLatest.advance, WalStore.has_eq, revision_replay_take within, if_pos present]
  | getNext state =>
    obtain ⟨index, later, within, rfl⟩ := behind
    simp only [GetLatest.advance, revision_replay_take within]
    rcases Nat.lt_or_eq_of_le within with more | rfl
    · have found := List.getElem?_eq_getElem more
      simp only [WalStore.read_of_get (torn.present later found) (setFromJson_json _)]
      exact .inl ⟨_, rfl, index + 1, by omega, more, (replay_take_succ found).symm⟩
    · obtain ⟨text, found, unreadable⟩ := torn.torn
      simp only [WalStore.read_of_unreadable found unreadable]
      exact .inr ⟨_, rfl⟩

theorem Torn.returns_error (torn : Torn first sets start store) (cached : Cached first sets store)
    {get : GetLatest} (behind : get.Behind first sets start)
    (returns : Returns GetLatest.advance store get after result) :
    ∃ error, result = .error error := by
  generalize same : store = before at returns
  induction returns with
  | done ends =>
    subst same
    rcases torn.advance cached behind with ⟨later, goesOn, -⟩ | ⟨error, failed⟩
    · rw [goesOn] at ends
      cases ends
    · rw [failed] at ends
      cases ends
      exact ⟨error, rfl⟩
  | next goesOn _ induction =>
    subst same
    rcases torn.advance cached behind with ⟨later, advanced, behind⟩ | ⟨error, failed⟩
    · rw [advanced] at goesOn
      cases goesOn
      exact induction behind rfl
    · rw [failed] at goesOn
      cases goesOn

theorem Torn.not_usable (torn : Torn first sets start store) (cached : Cached first sets store)
    (latest : State) : ¬ store.Usable latest := by
  intro usable
  obtain ⟨after, returns⟩ := usable.getLatest
  have start : GetLatest.Behind first sets start .readCache := trivial
  obtain ⟨error, impossible⟩ := torn.returns_error cached start returns
  cases impossible

theorem Torn.not_warms (torn : Torn first sets start store) (cold : store.cache = none)
    (warm : WalStore) : ¬ store.Warms warm := by
  intro warms
  unfold WalStore.Warms at warms
  split at warms
  · next missing =>
      have snapshot := torn.snapshot
      simp [WalStore.entries, missing] at snapshot
  · obtain ⟨between, latest, returns, -⟩ := warms
    have start : GetLatest.Behind first sets start .readCache := trivial
    have cached : Cached first sets store := by simp [Cached, cold]
    obtain ⟨error, impossible⟩ := torn.returns_error cached start returns
    cases impossible

end Torn

theorem Consistent.torn {set : WalSet Change} (consistent : Consistent first start system)
    (storing : system.command = some (.storing latest set)) (isPart : text <+: setJson set)
    (isProper : text ≠ setJson set) :
    Torn first system.history start
      (system.store.cutOff (.walSet (revision latest)) (some text)) := by
  have stored : system.stored = system.history := SharedStore.stored_of_ne (by simp [storing])
  have sound := consistent.sound
  rw [stored] at sound
  obtain ⟨rfl, -⟩ := consistent.command storing
  rw [revision_replay]
  exact sound.torn (setFromJson_torn set text isPart isProper)

/-- A command whose set could not be stored does no harm if no file was created for it. -/
theorem SharedStore.torn_set_harmless_iff {first latest : State} {set : WalSet Change}
    {store : WalStore} {system : SharedStore} {written : Option (List Char)}
    (added : (WalStore.mk none none).add first = .ok store)
    (run : SharedStore.Run (·.keepsInstance = true) (SharedStore.idle store) system)
    (storing : system.command = some (.storing latest set))
    (proper : ∀ {text}, written = some text → text <+: setJson set ∧ text ≠ setJson set) :
    (∃ after error,
        SendCommand.failStoring system.store latest written = (after, .done (.error error)) ∧
        after.Usable (replay first system.history) ∧
        ∃ warm, { after with cache := none }.Warms warm ∧
          warm.Usable (replay first system.history)) ↔
      written = none := by
  obtain ⟨start, consistent⟩ := (Consistent.added added).run run
  constructor
  · rintro ⟨after, error, failed, usable, -⟩
    cases written with
    | none => rfl
    | some text =>
      obtain ⟨isPart, isProper⟩ := proper rfl
      cases failed
      have torn := consistent.torn storing isPart isProper
      exact absurd usable (torn.not_usable consistent.cached _)
  · rintro rfl
    have stored : system.stored = system.history := SharedStore.stored_of_ne (by simp [storing])
    have sound := consistent.sound
    rw [stored] at sound
    have cold : Sound first system.history
        ({ system.store with cache := none } : WalStore).entries start := sound
    refine ⟨system.store, _, rfl, sound.usable consistent.cached, cold.warms ?_⟩
    intro state held
    cases held

end Krill.Wal

namespace Krill.Wal.Tally

open WalSupport SharedStore

def aboutToStore : List Action := [.send (2 : Nat), .advanceCommand, .advanceCommand]

def storingFirst : SharedStore :=
  { idle fresh with command := some (.storing first ⟨0, "add", [(), ()]⟩) }

theorem storingFirst_run : Run (·.keepsInstance = true) (idle fresh) storingFirst := by
  have performed : (idle fresh).performAll aboutToStore = some storingFirst := rfl
  exact performAll_run performed (by simp [aboutToStore, Action.keepsInstance])

theorem unwritten_set_harmless : ∃ after error,
    SendCommand.failStoring storingFirst.store first none = (after, .done (.error error)) ∧
    after.Usable first ∧
    ∃ warm, { after with cache := none }.Warms warm ∧ warm.Usable first := by
  have added : (WalStore.mk none none).add first = .ok fresh := rfl
  have storing : storingFirst.command = some (.storing first ⟨0, "add", [(), ()]⟩) := rfl
  exact (torn_set_harmless_iff added storingFirst_run storing (by simp)).mpr rfl

/-- The disk is full when the file has been created and nothing has been written. -/
theorem torn_set_not_harmless : ∃ after error,
    Run (·.keepsInstance = true) (idle fresh) storingFirst ∧
    storingFirst.command = some (.storing first ⟨0, "add", [(), ()]⟩) ∧
    [] <+: setJson ⟨0, "add", [(), ()]⟩ ∧ [] ≠ setJson ⟨0, "add", [(), ()]⟩ ∧
    SendCommand.failStoring storingFirst.store first (some []) =
      (after, .done (.error error)) ∧
    ¬ after.Usable first ∧ ∀ warm, ¬ { after with cache := none }.Warms warm := by
  have added : (WalStore.mk none none).add first = .ok fresh := rfl
  obtain ⟨start, consistent⟩ := (Consistent.added added).run storingFirst_run
  have proper : [] ≠ setJson ⟨0, "add", [(), ()]⟩ := by decide
  have torn := consistent.torn rfl List.nil_prefix proper
  have cold : Torn first storingFirst.history start
      { storingFirst.store.cutOff (.walSet (revision first)) (some []) with cache := none } :=
    ⟨torn.within, torn.snapshot, torn.present, torn.torn⟩
  exact ⟨_, _, storingFirst_run, rfl, List.nil_prefix, proper, rfl,
    torn.not_usable consistent.cached first, cold.not_warms rfl⟩

end Krill.Wal.Tally
