import Mathlib.Logic.Relation
import Krill.EventSourcing.WalLog

namespace Krill.Wal

open KeyValue Phases WalSupport

variable [WalSupport]

/-! Calls on one handle that run side by side. A crash takes the calls and the cache away. -/

structure SharedStore where
  store : WalStore
  command : Option SendCommand
  update : Option UpdateSnapshot
  removal : Option Remove
  /-- The sets of the commands that returned, and of those that a crash cut off after their set
  was stored. -/
  history : List (WalSet Change)

inductive Action where
  | send (command : Command)
  | advanceCommand
  | startUpdate (archive : Bool)
  | advanceUpdate (order : IterOrder)
  | startRemove
  | advanceRemove
  | add (state : State)
  | crash

def UpdateSnapshot.isLoading (self : UpdateSnapshot) : Bool :=
  match self.phase with
  | .loading _ => true
  | _ => false

namespace SharedStore

def idle (store : WalStore) : SharedStore := ⟨store, none, none, none, []⟩

/-- The sets that are stored: those of the history, and that of a command that has stored its
set and is about to return. -/
def stored (self : SharedStore) : List (WalSet Change) :=
  match self.command with
  | some (.returning _ set) => self.history ++ [set]
  | _ => self.history

/-- The write lock of the handle is free if nobody has the read lock either. -/
def isFree (self : SharedStore) : Bool :=
  self.command.isNone && !self.update.any UpdateSnapshot.isLoading

def restarted (self : SharedStore) : SharedStore :=
  { store := { self.store with cache := none }
    command := none
    update := none
    removal := none
    history := self.stored }

def withCommand (self : SharedStore) :
    WalStore × Progress SendCommand (Except SendError State) → SharedStore
  | (store, .next call) => { self with store, command := some call }
  | (store, .done _) => { self with store, command := none, history := self.stored }

def advanceCommand (self : SharedStore) (call : SendCommand) : SharedStore :=
  self.withCommand (call.advance self.store)

def withUpdate (self : SharedStore) :
    WalStore × Progress UpdateSnapshot (Except WalStoreError Unit) → SharedStore
  | (store, .next call) => { self with store, update := some call }
  | (store, .done _) => { self with store, update := none }

def advanceUpdate (self : SharedStore) (order : IterOrder) (call : UpdateSnapshot) : SharedStore :=
  self.withUpdate (call.advance order self.store)

def advanceRemove (self : SharedStore) (call : Remove) : SharedStore :=
  match call.advance self.store with
  | (store, .next call) => { self with store, removal := some call }
  | (store, .done _) => { self with store, removal := none }

def perform (self : SharedStore) : Action → Option SharedStore
  | .send command =>
    if self.isFree then some { self with command := some (.start command) } else none
  | .advanceCommand => self.command.map self.advanceCommand
  | .startUpdate archive =>
    if self.command.isNone && self.update.isNone then
      some { self with update := some (.start archive) }
    else none
  | .advanceUpdate order => self.update.map (self.advanceUpdate order)
  | .startRemove =>
    if self.removal.isNone then some { self with removal := some .checking } else none
  | .advanceRemove =>
    match self.removal with
    | none => none
    | some .checking => some (self.advanceRemove .checking)
    | some .dropping => if self.isFree then some (self.advanceRemove .dropping) else none
  | .add state =>
    if self.isFree then
      match self.store.add state with
      | .ok store => some { self with store, history := [] }
      | .error _ => some self
    else none
  | .crash => some self.restarted

def Step (allowed : Action → Prop) (before after : SharedStore) : Prop :=
  ∃ action, allowed action ∧ before.perform action = some after

abbrev Run (allowed : Action → Prop) : SharedStore → SharedStore → Prop :=
  Relation.ReflTransGen (Step allowed)

def performAll (self : SharedStore) : List Action → Option SharedStore
  | [] => some self
  | action :: rest => (self.perform action).bind (performAll · rest)

theorem performAll_run (performed : self.performAll actions = some after)
    (all : ∀ action ∈ actions, allowed action) : Run allowed self after := by
  induction actions generalizing self with
  | nil =>
    cases performed
    exact .refl
  | cons action rest induction =>
    obtain ⟨next, first, later⟩ := Option.bind_eq_some_iff.mp performed
    refine .head ⟨action, all action List.mem_cons_self, first⟩ (induction later ?_)
    intro other member
    exact all other (List.mem_cons_of_mem _ member)

end SharedStore

def Action.keepsInstance : Action → Bool
  | .startRemove | .advanceRemove | .add _ => false
  | _ => true

def SendCommand.Follows (first : State) (history : List (WalSet Change)) (start : Nat)
    (store : WalStore) : SendCommand → Prop
  | .loading _ get => get.Follows first history start store
  | .storing latest set => latest = replay first history ∧ set.revision = revision latest
  | .returning latest set => latest = replay first history ∧ set.revision = revision latest

def UpdatePhase.Follows (first : State) (history : List (WalSet Change)) (start : Nat)
    (store : WalStore) : UpdatePhase → Prop
  | .loading get => get.Follows first history start store
  | .storing latest => ∃ index, start ≤ index ∧ index ≤ history.length ∧
      latest = replay first (history.take index) ∧ (store.cache = none → index = start)
  | .listing latest => revision latest ≤ revision first + start
  | .clearing latest _ => revision latest ≤ revision first + start

structure Consistent (first : State) (start : Nat) (system : SharedStore) : Prop where
  sound : Sound first system.stored system.store.entries start
  numbered : ∀ {index set}, system.stored[index]? = some set →
    set.revision = revision first + index
  cached : Cached first system.history system.store
  command : ∀ {call}, system.command = some call →
    call.Follows first system.history start system.store
  update : ∀ {call}, system.update = some call →
    call.phase.Follows first system.history start system.store
  locked : system.command.isSome → system.update.any UpdateSnapshot.isLoading = false

omit [WalSupport] in
theorem getElem?_concat (member : (items ++ [last])[index]? = some found) :
    items[index]? = some found ∨ index = items.length ∧ found = last := by
  have within := (List.getElem?_eq_some_iff.mp member).1
  rw [List.length_append, List.length_singleton] at within
  rcases Nat.lt_or_eq_of_le (Nat.le_of_lt_succ within) with earlier | rfl
  · rw [List.getElem?_append_left earlier] at member
    exact .inl member
  · rw [List.getElem?_concat_length] at member
    cases member
    exact .inr ⟨rfl, rfl⟩

namespace Sound

theorem congr (sound : Sound first sets entries start)
    (snapshot : after.get .snapshot = entries.get .snapshot)
    (later : ∀ index, start ≤ index → after.get (.walSet (revision first + index)) =
      entries.get (.walSet (revision first + index))) : Sound first sets after start where
  within := sound.within
  snapshot := snapshot.trans sound.snapshot
  present := fun isLater found => (later _ isLater).trans (sound.present isLater found)
  absent := fun beyond => (later _ (sound.within.trans beyond)).trans (sound.absent beyond)

theorem insert_set (sound : Sound first sets entries start) (set : WalSet Change) :
    Sound first (sets ++ [set])
      (entries.insert (.walSet (revision first + sets.length)) (setJson set)) start where
  within := by
    rw [List.length_append]
    exact sound.within.trans (Nat.le_add_right ..)
  snapshot := by
    rw [HashMap.get_insert, if_neg (by simp), sound.snapshot,
      List.take_append_of_le_length sound.within]
  present := by
    intro index other later found
    rw [HashMap.get_insert]
    rcases getElem?_concat found with earlier | ⟨rfl, rfl⟩
    · have within := (List.getElem?_eq_some_iff.mp earlier).1
      rw [if_neg (by simp; omega), sound.present later earlier]
    · exact if_pos rfl
  absent := by
    intro index beyond
    rw [List.length_append, List.length_singleton] at beyond
    rw [HashMap.get_insert, if_neg (by simp; omega), sound.absent (by omega)]

theorem insert_snapshot (sound : Sound first sets entries start) (later : start ≤ index)
    (within : index ≤ sets.length) :
    Sound first sets (entries.insert .snapshot (stateJson (replay first (sets.take index))))
      index where
  within := within
  snapshot := HashMap.get_insert_self ..
  present := fun isLater found => by
    rw [HashMap.get_insert, if_neg (by simp), sound.present (later.trans isLater) found]
  absent := fun beyond => by
    rw [HashMap.get_insert, if_neg (by simp), sound.absent beyond]

end Sound

theorem WalStore.get_dropKey (store : WalStore) : (store.dropKey key).entries.get other =
      if other = key then none else store.entries.get other := by
  unfold dropKey entries
  cases store.scope with
  | none => simp
  | some entries => exact HashMap.get_remove ..

theorem WalStore.archiveSet_eq_ok {store : WalStore}
    (archived : store.archiveSet number = .ok after) :
    after.cache = store.cache ∧ ∀ key, key ≠ .walSet number → key ≠ .archivedSet number →
      after.entries.get key = store.entries.get key := by
  unfold archiveSet Entries.moveKey at archived
  cases found : store.entries.get (.walSet number) with
  | none => simp [found] at archived
  | some value =>
    simp only [found] at archived
    cases archived
    refine ⟨rfl, fun key notSet notArchived => ?_⟩
    exact (HashMap.get_insert ..).trans ((if_neg notArchived).trans
      ((HashMap.get_remove ..).trans (if_neg notSet)))

theorem UpdatePhase.Follows.grow {phase : UpdatePhase}
    (follows : phase.Follows first history start store) (unlocked : ∀ get, phase ≠ .loading get)
    (grows : history <+: longer) (keeps : after.cache = none → store.cache = none) :
    phase.Follows first longer start after := by
  cases phase with
  | loading get => exact absurd rfl (unlocked get)
  | storing latest =>
    obtain ⟨index, later, within, rfl, cold⟩ := follows
    obtain ⟨more, rfl⟩ := grows
    refine ⟨index, later, ?_, ?_, fun none => cold (keeps none)⟩
    · rw [List.length_append]
      omega
    · rw [List.take_append_of_le_length within]
  | _ => exact follows

theorem SendCommand.Follows.moved {call : SendCommand} {start : Nat}
    (follows : call.Follows first history start store) (sameCache : after.cache = store.cache)
    (cold : store.cache = none → later = start) : call.Follows first history later after := by
  cases call with
  | storing | returning => exact follows
  | loading command get =>
    cases get with
    | readCache => trivial
    | getSnapshot => exact sameCache.trans follows
    | hasNext state =>
      rcases follows with held | ⟨none, rfl⟩
      · exact .inl (sameCache.trans held)
      · rw [← cold none]
        exact .inr ⟨sameCache.trans none, rfl⟩
    | getNext state =>
      obtain ⟨none, rest⟩ := follows
      rw [← cold none] at rest
      exact ⟨sameCache.trans none, rest⟩

namespace SharedStore

variable {self : SharedStore}

theorem notLoading (present : self.update = some call)
    (unlocked : self.update.any UpdateSnapshot.isLoading = false) :
    ∀ get, call.phase ≠ .loading get := by
  intro get isLoading
  rw [present, Option.any_some, UpdateSnapshot.isLoading, isLoading] at unlocked
  cases unlocked

theorem stored_of_ne (notReturning : ∀ latest set, self.command ≠ some (.returning latest set)) :
    self.stored = self.history := by
  unfold stored
  split
  · next latest set returning => exact absurd returning (notReturning latest set)
  · rfl

theorem isFree_iff : self.isFree = true ↔
      self.command = none ∧ self.update.any UpdateSnapshot.isLoading = false := by
  simp [isFree]

theorem history_prefix (self : SharedStore) : self.history <+: self.stored := by
  unfold stored
  split
  · exact List.prefix_append ..
  · exact List.prefix_refl _

end SharedStore

namespace Consistent

theorem restarted (consistent : Consistent first start system) :
    Consistent first start system.restarted where
  sound := consistent.sound
  numbered := consistent.numbered
  cached := by simp [Cached, SharedStore.restarted]
  command := by simp [SharedStore.restarted]
  update := by simp [SharedStore.restarted]
  locked := by simp [SharedStore.restarted]

theorem changed_command (consistent : Consistent first start system)
    (active : system.command = some call)
    (sound : Sound first ({ system with store, command := next, history } : SharedStore).stored
      store.entries start) (numbered : ∀ {index set},
      ({ system with store, command := next, history } : SharedStore).stored[index]? = some set →
        set.revision = revision first + index) (cached : Cached first history store)
    (follows : ∀ {call}, next = some call → call.Follows first history start store)
    (grows : system.history <+: history) (keeps : store.cache = none → system.store.cache = none) :
    Consistent first start { system with store, command := next, history } where
  sound := sound
  numbered := numbered
  cached := cached
  command := follows
  update := fun present => (consistent.update present).grow
    (SharedStore.notLoading present (consistent.locked (by simp [active]))) grows keeps
  locked := fun _ => consistent.locked (by simp [active])

variable {get : GetLatest}

theorem processed (consistent : Consistent first start system) {command : Command}
    (active : system.command = some (.loading command get))
    (sameScope : store.entries = system.store.entries)
    (cached : Cached first system.history store)
    (keeps : store.cache = none → system.store.cache = none) :
    Consistent first start (system.withCommand
        (store, SendCommand.process command (replay first system.history))) := by
  have stored : system.stored = system.history := SharedStore.stored_of_ne (by simp [active])
  have sound := consistent.sound
  have numbered := @consistent.numbered
  rw [stored, ← sameScope] at sound
  rw [stored] at numbered
  have unchanged : Consistent first start
      { system with store, command := none, history := system.history } :=
    consistent.changed_command active sound numbered cached (by simp) (List.prefix_refl _) keeps
  unfold SendCommand.process
  split
  · simpa only [SharedStore.withCommand, stored] using unchanged
  · simpa only [SharedStore.withCommand, stored] using unchanged
  · exact consistent.changed_command active sound numbered cached
      (fun same => Option.some.inj same ▸ ⟨rfl, rfl⟩) (List.prefix_refl _) keeps

theorem advanceCommand (consistent : Consistent first start system)
    (active : system.command = some call) :
    Consistent first start (system.advanceCommand call) := by
  have follows := consistent.command active
  cases call with
  | loading command get =>
    have stored : system.stored = system.history := SharedStore.stored_of_ne (by simp [active])
    have sound := consistent.sound
    rw [stored] at sound
    have yields := GetLatest.Follows.advance follows sound consistent.cached
    rcases outcome : get.advance system.store with ⟨store, progress⟩
    rw [outcome] at yields
    simp only [SharedStore.advanceCommand, SendCommand.advance, outcome]
    cases yields with
    | next follows =>
      exact consistent.changed_command active (stored ▸ consistent.sound)
        (stored ▸ consistent.numbered) consistent.cached
        (fun same => Option.some.inj same ▸ follows) (List.prefix_refl _) id
    | found full => exact consistent.processed active rfl consistent.cached id
    | refreshed =>
      exact consistent.processed active rfl (fun same => (Option.some.inj same).symm) (by simp)
  | storing latest set =>
    obtain ⟨rfl, numbered⟩ := follows
    have stored : system.stored = system.history := SharedStore.stored_of_ne (by simp [active])
    have sound := consistent.sound
    have earlier := @consistent.numbered
    rw [stored] at sound earlier
    have absent := sound.absent (Nat.le_refl _)
    rw [revision_replay] at numbered
    simp only [SharedStore.advanceCommand, SendCommand.advance, revision_replay,
      WalStore.storeNew_of_absent _ _ absent]
    refine consistent.changed_command active (sound.insert_set set) ?_ consistent.cached
      (fun same => Option.some.inj same ▸ ⟨rfl, by rw [numbered, revision_replay]⟩)
      (List.prefix_refl _) id
    intro index other (found : (system.history ++ [set])[index]? = some other)
    rcases getElem?_concat found with before | ⟨last, rfl⟩
    · exact earlier before
    · rw [last, numbered]
  | returning latest set =>
    obtain ⟨rfl, numbered⟩ := follows
    have stored : system.stored = system.history ++ [set] := by
      simp only [SharedStore.stored, active]
    have sound := consistent.sound
    have earlier := @consistent.numbered
    rw [stored] at sound earlier
    simp only [SharedStore.advanceCommand, SendCommand.advance, SharedStore.withCommand, stored]
    refine consistent.changed_command active sound earlier ?_ (by simp)
      (List.prefix_append ..) (by simp)
    intro state held
    cases held
    exact (replay_concat ..).symm

theorem changed_update (consistent : Consistent first start system)
    (sound : Sound first system.stored store.entries start)
    (sameCache : store.cache = system.store.cache)
    (follows : ∀ {call}, next = some call → call.phase.Follows first system.history start store)
    (locked : system.command.isSome → next.any UpdateSnapshot.isLoading = false) :
    Consistent first start { system with store, update := next } where
  sound := sound
  numbered := consistent.numbered
  cached := fun held => consistent.cached (sameCache ▸ held)
  command := fun active => (consistent.command active).moved sameCache fun _ => rfl
  update := follows
  locked := locked

theorem advanceUpdate_loading (consistent : Consistent first start system)
    (active : system.update = some ⟨archive, .loading get⟩) (order : IterOrder) :
    Consistent first start (system.advanceUpdate order ⟨archive, .loading get⟩) := by
  have follows : get.Follows first system.history start system.store := consistent.update active
  have free : system.command = none := by
    cases running : system.command with
    | none => rfl
    | some call =>
      have unlocked := consistent.locked (by simp [running])
      rw [active] at unlocked
      cases unlocked
  have stored : system.stored = system.history := SharedStore.stored_of_ne (by simp [free])
  have sound := consistent.sound
  rw [stored] at sound
  have yields := follows.advance sound consistent.cached
  rcases outcome : get.advance system.store with ⟨store, progress⟩
  rw [outcome] at yields
  simp only [SharedStore.advanceUpdate, UpdateSnapshot.advance, outcome]
  cases yields with
  | next follows =>
    exact consistent.changed_update consistent.sound rfl
      (fun same => Option.some.inj same ▸ follows) (by simp [free])
  | found full =>
    refine consistent.changed_update consistent.sound rfl
      (fun same => Option.some.inj same ▸ ?_) (by simp [free])
    exact ⟨system.history.length, sound.within, Nat.le_refl _, by rw [List.take_length],
      fun none => (full none).symm⟩
  | refreshed =>
    simp only [Progress.within, SharedStore.withUpdate]
    refine ⟨consistent.sound, consistent.numbered, ?_, by simp [free], ?_, by simp [free]⟩
    · intro state held
      cases held
      rfl
    · intro call isCall
      cases isCall
      refine ⟨system.history.length, sound.within, Nat.le_refl _, by rw [List.take_length], ?_⟩
      intro impossible
      cases impossible

theorem advanceUpdate_storing (consistent : Consistent first start system)
    (active : system.update = some ⟨archive, .storing latest⟩) (order : IterOrder) :
    ∃ later, Consistent first later (system.advanceUpdate order ⟨archive, .storing latest⟩) := by
  obtain ⟨index, later, within, rfl, cold⟩ := consistent.update active
  have sameTake : system.stored.take index = system.history.take index := by
    obtain ⟨more, same⟩ := system.history_prefix
    rw [← same, List.take_append_of_le_length within]
  have sound := consistent.sound.insert_snapshot later
    (within.trans system.history_prefix.length_le)
  rw [sameTake] at sound
  exact ⟨index, sound, consistent.numbered, consistent.cached,
    fun isCall => (consistent.command isCall).moved rfl cold,
    fun same => Option.some.inj same ▸ (revision_replay_take within).le, fun _ => rfl⟩

theorem advanceUpdate_listing (consistent : Consistent first start system)
    (active : system.update = some ⟨archive, .listing latest⟩) (order : IterOrder) :
    Consistent first start (system.advanceUpdate order ⟨archive, .listing latest⟩) := by
  have bound : revision latest ≤ revision first + start := consistent.update active
  simp only [SharedStore.advanceUpdate, UpdateSnapshot.advance]
  cases system.store.keys order with
  | error error => exact consistent.changed_update consistent.sound rfl (by simp) (by simp)
  | ok keys =>
    exact consistent.changed_update consistent.sound rfl
      (fun same => Option.some.inj same ▸ bound) (fun _ => rfl)

theorem advanceUpdate_clearing (consistent : Consistent first start system)
    (active : system.update = some ⟨archive, .clearing latest keys⟩) (order : IterOrder) :
    Consistent first start (system.advanceUpdate order ⟨archive, .clearing latest keys⟩) := by
  have bound : revision latest ≤ revision first + start := consistent.update active
  have ended : Consistent first start { system with update := none } :=
    consistent.changed_update consistent.sound rfl (by simp) (by simp)
  cases keys with
  | nil => exact ended
  | cons key keys =>
    have goesOn : ∀ {store : WalStore}, store.cache = system.store.cache →
        Sound first system.stored store.entries start → Consistent first start
          { system with store, update := some ⟨archive, .clearing latest keys⟩ } := by
      intro store sameCache sound
      exact consistent.changed_update sound sameCache
        (fun same => Option.some.inj same ▸ bound) (fun _ => rfl)
    simp only [SharedStore.advanceUpdate, UpdateSnapshot.advance]
    by_cases old : key < revision latest
    · rw [if_pos old]
      have other : ∀ index, start ≤ index →
          WalKey.walSet (revision first + index) ≠ .walSet key := by
        intro index later same
        cases same
        omega
      by_cases archived : archive = true
      · rw [if_pos archived]
        cases moved : system.store.archiveSet key with
        | error error => exact ended
        | ok store =>
          obtain ⟨sameCache, frame⟩ := WalStore.archiveSet_eq_ok moved
          refine goesOn sameCache (consistent.sound.congr (frame _ (by simp) (by simp)) ?_)
          intro index later
          exact frame _ (other index later) (by simp)
      · rw [if_neg archived]
        refine goesOn rfl (consistent.sound.congr ?_ ?_)
        · exact (WalStore.get_dropKey ..).trans (if_neg (by simp))
        · intro index later
          exact (WalStore.get_dropKey ..).trans (if_neg (other index later))
    · rw [if_neg old]
      exact goesOn rfl consistent.sound

theorem perform (consistent : Consistent first start system) (keeps : action.keepsInstance = true)
    (performed : system.perform action = some after) : ∃ later, Consistent first later after := by
  cases action with
  | send command =>
    obtain ⟨isFree, same⟩ := Option.ite_none_right_eq_some.mp performed
    cases same
    obtain ⟨free, unlocked⟩ := SharedStore.isFree_iff.mp isFree
    have stored : system.stored = system.history := SharedStore.stored_of_ne (by simp [free])
    have sound := consistent.sound
    have numbered := @consistent.numbered
    rw [stored] at sound numbered
    exact ⟨start, sound, numbered, consistent.cached,
      fun same => Option.some.inj same ▸ trivial, consistent.update, fun _ => unlocked⟩
  | advanceCommand =>
    obtain ⟨call, active, rfl⟩ := Option.map_eq_some_iff.mp performed
    exact ⟨start, consistent.advanceCommand active⟩
  | startUpdate archive =>
    obtain ⟨isFree, same⟩ := Option.ite_none_right_eq_some.mp performed
    cases same
    rw [Bool.and_eq_true, Option.isNone_iff_eq_none] at isFree
    exact ⟨start, consistent.changed_update consistent.sound rfl
      (fun same => Option.some.inj same ▸ trivial) (by simp [isFree.1])⟩
  | advanceUpdate order =>
    obtain ⟨⟨archive, phase⟩, active, rfl⟩ := Option.map_eq_some_iff.mp performed
    cases phase with
    | loading get => exact ⟨start, consistent.advanceUpdate_loading active order⟩
    | storing latest => exact consistent.advanceUpdate_storing active order
    | listing latest => exact ⟨start, consistent.advanceUpdate_listing active order⟩
    | clearing latest keys => exact ⟨start, consistent.advanceUpdate_clearing active order⟩
  | crash =>
    cases performed
    exact ⟨start, consistent.restarted⟩
  | _ => cases keeps

theorem run (consistent : Consistent first start before)
    (run : SharedStore.Run (·.keepsInstance = true) before after) :
    ∃ later, Consistent first later after := by
  induction run with
  | refl => exact ⟨start, consistent⟩
  | tail _ step induction =>
    obtain ⟨between, earlier⟩ := induction
    obtain ⟨action, keeps, performed⟩ := step
    exact earlier.perform keeps performed

theorem added (added : (WalStore.mk none none).add first = .ok store) :
    Consistent first 0 (SharedStore.idle store) := by
  cases added
  refine ⟨⟨Nat.le_refl _, HashMap.get_insert_self .., nofun, fun _ => ?_⟩, nofun,
    fun same => (Option.some.inj same).symm, nofun, nofun, nofun⟩
  exact (HashMap.get_insert ..).trans (by simp [WalStore.entries])

end Consistent

/-- Whatever a crash interrupts, the restarted store has the instance that the returned commands
left, or one more set if that was already stored, and the next set goes under a new key. -/
theorem SharedStore.wal_durable {first : State} {store : WalStore} {system : SharedStore}
    (added : (WalStore.mk none none).add first = .ok store)
    (run : SharedStore.Run (·.keepsInstance = true) (SharedStore.idle store) system) :
    ∃ sets, (sets = system.history ∨ ∃ latest set,
        system.command = some (.returning latest set) ∧ sets = system.history ++ [set]) ∧
      (∀ index set, sets[index]? = some set → set.revision = revision first + index) ∧
      (∃ after, Returns GetLatest.advance system.restarted.store .readCache after
        (.ok (replay first sets))) ∧
      ∀ command changes, processCommand (replay first sets) command = .ok changes →
        changes ≠ [] →
        ∃ set after, set = ⟨revision (replay first sets), summary command, changes⟩ ∧
          set.revision = revision first + sets.length ∧
          system.restarted.store.entries.get (.walSet set.revision) = none ∧
          Returns SendCommand.advance system.restarted.store (.start command) after
            (.ok (apply (replay first sets) set)) ∧
          after.entries =
            system.restarted.store.entries.insert (.walSet set.revision) (setJson set) := by
  obtain ⟨start, consistent⟩ := (Consistent.added added).run run
  have again := consistent.restarted
  refine ⟨system.stored, ?_, fun index set => consistent.numbered, ?_, ?_⟩
  · unfold SharedStore.stored
    split
    · next latest set returning => exact .inr ⟨latest, set, returning, rfl⟩
    · exact .inl rfl
  · obtain ⟨cache, returns⟩ := again.sound.returns_getLatest again.cached
    exact ⟨_, returns⟩
  · intro command changes processed changed
    obtain ⟨after, returns, stored⟩ :=
      again.sound.returns_sendCommand again.cached processed changed
    refine ⟨_, after, rfl, revision_replay .., ?_, ?_, ?_⟩
    · rw [revision_replay]
      exact again.sound.absent (Nat.le_refl _)
    · rw [revision_replay]
      exact returns
    · rw [revision_replay]
      exact stored

end Krill.Wal

namespace Krill.Wal.Tally

open Phases WalSupport SharedStore

def first : State := ((0, 0) : Nat × Nat)

def fresh : WalStore :=
  ⟨some (HashMap.empty.insert .snapshot (stateJson first)), some first⟩

/-- A command is cut off when its set is stored, while a snapshot is being written. -/
def cutOff : List Action :=
  [.startUpdate false, .advanceUpdate .stored, .advanceUpdate .stored, .send (2 : Nat),
   .advanceCommand, .advanceCommand, .advanceUpdate .stored, .advanceCommand]

theorem cutOff_recovers : ∃ system sets after, (idle fresh).performAll cutOff = some system ∧
    (sets = system.history ∨ ∃ latest set,
      system.command = some (.returning latest set) ∧ sets = system.history ++ [set]) ∧
    Returns GetLatest.advance system.restarted.store .readCache after
      (.ok (replay first sets)) := by
  have added : (WalStore.mk none none).add first = .ok fresh := rfl
  have present : ((idle fresh).performAll cutOff).isSome := by decide +kernel
  obtain ⟨system, performed⟩ := Option.isSome_iff_exists.mp present
  have run : Run (·.keepsInstance = true) (idle fresh) system :=
    performAll_run performed (by simp [cutOff, Action.keepsInstance])
  obtain ⟨sets, cases, -, ⟨after, returns⟩, -⟩ := wal_durable added run
  exact ⟨system, sets, after, performed, cases, returns⟩

end Krill.Wal.Tally
