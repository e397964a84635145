import Krill.EventSourcing.WalStore

namespace Krill.Wal

open KeyValue Phases WalSupport
open WalStore
open GetLatest

variable [WalSupport]

def replay (state : State) (sets : List (WalSet Change)) : State := sets.foldl apply state

@[simp] theorem replay_concat (state : State) (sets : List (WalSet Change))
    (set : WalSet Change) : replay state (sets ++ [set]) = apply (replay state sets) set := by
  simp [replay]

@[simp] theorem revision_replay (state : State) (sets : List (WalSet Change)) :
    revision (replay state sets) = revision state + sets.length := by
  induction sets using List.reverseRecOn with
  | nil => rfl
  | append_singleton sets set induction =>
    rw [replay_concat, revision_apply, induction, List.length_append, List.length_singleton]
    omega

variable {sets : List (WalSet Change)}

theorem replay_take_succ {set : WalSet Change} (found : sets[index]? = some set) :
    replay first (sets.take (index + 1)) = apply (replay first (sets.take index)) set := by
  rw [List.take_add_one, found, Option.toList_some, replay_concat]

theorem revision_replay_take (within : index ≤ sets.length) :
    revision (replay first (sets.take index)) = revision first + index := by
  rw [revision_replay, List.length_take, min_eq_left within]

structure Sound (first : State) (sets : List (WalSet Change))
    (entries : Entries WalKey (List Char)) (start : Nat) : Prop where
  within : start ≤ sets.length
  snapshot : entries.get .snapshot = some (stateJson (replay first (sets.take start)))
  present : ∀ {index set}, start ≤ index → sets[index]? = some set →
    entries.get (.walSet (revision first + index)) = some (setJson set)
  absent : ∀ {index}, sets.length ≤ index →
    entries.get (.walSet (revision first + index)) = none

namespace WalStore

variable {store : WalStore}

theorem read_of_get (found : store.entries.get key = some value)
    (parses : parse value = some document) : store.read parse key = .ok (some document) := by
  simp [read, Entries.read, found, parses, Except.mapError]

theorem read_of_absent (absent : store.entries.get key = none) :
    store.read parse key = .ok none := by
  simp [read, Entries.read, absent, Except.mapError]

theorem read_of_unreadable (found : store.entries.get key = some value)
    (unreadable : parse value = none) :
    store.read parse key = .error (.keyStoreError (.jsonError key)) := by
  simp [read, Entries.read, found, unreadable, Except.mapError]

theorem has_eq : store.has key = (store.entries.get key).isSome := rfl

theorem storeNew_of_absent (store : WalStore) (value : List Char)
    (absent : store.entries.get key = none) :
    store.storeNew key value =
      .ok { store with scope := some (store.entries.insert key value) } := by
  rw [storeNew, Entries.storeNew_eq_ok.mpr ⟨absent, rfl⟩]

end WalStore

section Loading

def GetLatest.Follows (first : State) (sets : List (WalSet Change)) (start : Nat)
    (store : WalStore) : GetLatest → Prop
  | .readCache => True
  | .getSnapshot => store.cache = none
  | .hasNext state =>
    store.cache = some state ∨ store.cache = none ∧ state = replay first (sets.take start)
  | .getNext state =>
    store.cache = none ∧ ∃ index, start ≤ index ∧ index ≤ sets.length ∧
      state = replay first (sets.take index)

def Cached (first : State) (sets : List (WalSet Change)) (store : WalStore) : Prop :=
  ∀ {state}, store.cache = some state → state = replay first sets

inductive GetLatest.Yields (first : State) (sets : List (WalSet Change)) (start : Nat)
    (store : WalStore) :
    WalStore × Progress GetLatest (Except WalStoreError State) → Prop where
  | next {get : GetLatest} (follows : get.Follows first sets start store) :
      Yields first sets start store (store, .next get)
  | found (full : store.cache = none → start = sets.length) :
      Yields first sets start store (store, .done (.ok (replay first sets)))
  | refreshed :
      Yields first sets start store
        ({ store with cache := some (replay first sets) }, .done (.ok (replay first sets)))

theorem GetLatest.Follows.advance {get : GetLatest} (follows : get.Follows first sets start store)
    (sound : Sound first sets store.entries start) (cached : Cached first sets store) :
    GetLatest.Yields first sets start store (get.advance store) := by
  cases get with
  | readCache =>
    cases held : store.cache with
    | none =>
      simp only [GetLatest.advance, held]
      exact .next held
    | some state =>
      simp only [GetLatest.advance, held]
      exact .next (.inl held)
  | getSnapshot =>
    simp only [GetLatest.advance, read_of_get sound.snapshot (stateFromJson_json _)]
    exact .next (.inr ⟨follows, rfl⟩)
  | hasNext state =>
    rcases follows with held | ⟨none, rfl⟩
    · obtain rfl := cached held
      have absent := sound.absent (Nat.le_refl sets.length)
      rw [← revision_replay] at absent
      simp only [GetLatest.advance, has_eq, absent]
      exact .found fun none => by simp [held] at none
    · rw [GetLatest.advance, has_eq, revision_replay_take sound.within]
      rcases Nat.lt_or_eq_of_le sound.within with more | full
      · have found := sound.present (Nat.le_refl start) (List.getElem?_eq_getElem more)
        rw [found, Option.isSome_some, if_pos rfl]
        exact .next ⟨none, start, Nat.le_refl start, sound.within, rfl⟩
      · subst full
        rw [sound.absent (Nat.le_refl _), Option.isSome_none, List.take_length]
        exact .found fun _ => rfl
  | getNext state =>
    obtain ⟨none, index, later, within, rfl⟩ := follows
    simp only [GetLatest.advance, revision_replay_take within]
    rcases Nat.lt_or_eq_of_le within with more | full
    · have found := List.getElem?_eq_getElem more
      simp only [read_of_get (sound.present later found) (setFromJson_json _)]
      exact .next ⟨none, index + 1, by omega, by omega, (replay_take_succ found).symm⟩
    · subst full
      simp only [read_of_absent (sound.absent (Nat.le_refl _)), List.take_length]
      exact .refreshed

theorem returns_getNext (sound : Sound first sets store.entries start) (later : start ≤ index)
    (within : index ≤ sets.length) :
    Returns advance store (.getNext (replay first (sets.take index)))
      { store with cache := some (replay first sets) } (.ok (replay first sets)) := by
  -- One set is applied in each phase until none is left.
  induction left : sets.length - index generalizing index with
  | zero =>
    obtain rfl : index = sets.length := by omega
    refine .done ?_
    simp only [advance, List.take_length, revision_replay,
      read_of_absent (sound.absent (Nat.le_refl _))]
  | succ left induction =>
    have more : index < sets.length := by omega
    have found := List.getElem?_eq_getElem more
    have rest := induction (later.trans (Nat.le_succ index)) more (by omega)
    rw [replay_take_succ found] at rest
    refine .next ?_ rest
    simp only [advance, revision_replay_take within,
      read_of_get (sound.present later found) (setFromJson_json _)]

theorem returns_hasNext (sound : Sound first sets store.entries start) (later : start ≤ index)
    (within : index ≤ sets.length) :
    ∃ cache, Returns advance store (.hasNext (replay first (sets.take index)))
      { store with cache } (.ok (replay first sets)) := by
  rcases Nat.lt_or_eq_of_le within with more | rfl
  · have found := sound.present later (List.getElem?_eq_getElem more)
    have step : advance store (.hasNext (replay first (sets.take index))) =
        (store, .next (.getNext (replay first (sets.take index)))) := by
      simp only [advance, has_eq, revision_replay_take within, found, Option.isSome_some, if_true]
    exact ⟨_, .next step (returns_getNext sound later within)⟩
  · refine ⟨store.cache, .done ?_⟩
    simp [advance, has_eq, sound.absent (Nat.le_refl sets.length)]

theorem Sound.returns_getLatest (sound : Sound first sets store.entries start)
    (cached : Cached first sets store) :
    ∃ cache, Returns advance store .readCache { store with cache } (.ok (replay first sets)) := by
  cases held : store.cache with
  | some state =>
    have step : advance store .readCache = (store, .next (.hasNext state)) := by
      simp only [advance, held]
    obtain ⟨cache, rest⟩ := returns_hasNext sound sound.within (Nat.le_refl sets.length)
    rw [List.take_length, ← cached held] at rest
    rw [← cached held]
    exact ⟨cache, .next step rest⟩
  | none =>
    have missed : advance store .readCache = (store, .next .getSnapshot) := by
      simp only [advance, held]
    have loaded : advance store .getSnapshot =
        (store, .next (.hasNext (replay first (sets.take start)))) := by
      simp only [advance, read_of_get sound.snapshot (stateFromJson_json _)]
    obtain ⟨cache, rest⟩ := returns_hasNext sound (Nat.le_refl start) sound.within
    exact ⟨cache, .next missed (.next loaded rest)⟩

theorem Sound.returns_sendCommand (sound : Sound first sets store.entries start)
    (cached : Cached first sets store)
    (processed : processCommand (replay first sets) command = .ok changes)
    (changed : changes ≠ []) :
    ∃ after, Returns SendCommand.advance store (.start command) after
        (.ok (apply (replay first sets) ⟨revision first + sets.length, summary command, changes⟩)) ∧
      after.entries = store.entries.insert (.walSet (revision first + sets.length))
        (setJson ⟨revision first + sets.length, summary command, changes⟩) := by
  obtain ⟨cache, loads⟩ := sound.returns_getLatest cached
  have next : SendCommand.process command (replay first sets) = .next (.storing (replay first sets)
        ⟨revision first + sets.length, summary command, changes⟩) := by
    unfold SendCommand.process
    rw [processed, revision_replay]
    cases changes with
    | nil => exact absurd rfl changed
    | cons change rest => rfl
  have absent := sound.absent (Nat.le_refl sets.length)
  have stores : SendCommand.advance { store with cache }
      (.storing (replay first sets) ⟨revision first + sets.length, summary command, changes⟩) =
      ({ scope := some (store.entries.insert (.walSet (revision first + sets.length))
          (setJson ⟨revision first + sets.length, summary command, changes⟩)), cache },
        .next (.returning (replay first sets)
          ⟨revision first + sets.length, summary command, changes⟩)) := by
    have stored := storeNew_of_absent { store with cache }
      (setJson ⟨revision first + sets.length, summary command, changes⟩) absent
    simp only [SendCommand.advance, revision_replay, stored]
    rfl
  have returned := Returns.next stores (.done rfl)
  exact ⟨_, loads.within_next (fun _ _ => rfl) next returned, rfl⟩

end Loading

end Krill.Wal
