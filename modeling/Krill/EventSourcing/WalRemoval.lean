import Krill.EventSourcing.WalRuns

namespace Krill.Wal

open Phases WalSupport
open UpdateSnapshot

variable [WalSupport]

def Action.isNotAdd : Action → Bool
  | .add _ => false
  | _ => true

def GetLatest.isNew : GetLatest → Bool
  | .readCache | .getSnapshot => true
  | _ => false

def SendCommand.isNew : SendCommand → Bool
  | .loading _ get => get.isNew
  | _ => false

/-- An update that will not write any more, or has found nothing yet. -/
def UpdateSnapshot.isHarmless (self : UpdateSnapshot) : Bool :=
  match self.phase with
  | .loading get => get.isNew
  | .storing _ => false
  | .listing _ | .clearing _ _ => true

/-- An update that has its copy of the instance and has not stored it. -/
def UpdateSnapshot.isStoring (self : UpdateSnapshot) : Bool :=
  match self.phase with
  | .storing _ => true
  | _ => false

structure Gone (system : SharedStore) : Prop where
  store : system.store = ⟨none, none⟩
  command : system.command.all SendCommand.isNew
  update : system.update.all isHarmless

theorem GetLatest.advance_gone {get : GetLatest} (isNew : get.isNew = true) :
    (∃ later, get.advance ⟨none, none⟩ = (⟨none, none⟩, .next later) ∧ later.isNew = true) ∨
      ∃ error, get.advance ⟨none, none⟩ = (⟨none, none⟩, .done (.error error)) := by
  cases get with
  | readCache => exact .inl ⟨.getSnapshot, rfl, rfl⟩
  | getSnapshot => exact .inr ⟨.unknown, rfl⟩
  | _ => cases isNew

namespace Gone

theorem advanceCommand (gone : Gone system) {call : SendCommand}
    (active : system.command = some call) : Gone (system.advanceCommand call) := by
  have isNew := gone.command
  rw [active, Option.all_some] at isNew
  cases call with
  | storing | returning => cases isNew
  | loading command get =>
    simp only [SharedStore.advanceCommand, SendCommand.advance, gone.store]
    rcases GetLatest.advance_gone isNew with ⟨later, goesOn, isNew⟩ | ⟨error, failed⟩
    · rw [goesOn]
      exact ⟨rfl, isNew, gone.update⟩
    · rw [failed]
      exact ⟨rfl, rfl, gone.update⟩

theorem advanceUpdate (gone : Gone system) {call : UpdateSnapshot}
    (active : system.update = some call) (order : IterOrder) :
    Gone (system.advanceUpdate order call) := by
  have harmless := gone.update
  rw [active, Option.all_some] at harmless
  obtain ⟨archive, phase⟩ := call
  cases phase with
  | storing latest => cases harmless
  | loading get =>
    simp only [SharedStore.advanceUpdate, advance, gone.store]
    rcases GetLatest.advance_gone harmless with ⟨later, goesOn, isNew⟩ | ⟨error, failed⟩
    · rw [goesOn]
      exact ⟨rfl, gone.command, isNew⟩
    · rw [failed]
      exact ⟨rfl, gone.command, rfl⟩
  | listing latest =>
    simp only [SharedStore.advanceUpdate, advance, gone.store]
    exact ⟨rfl, gone.command, rfl⟩
  | clearing latest keys =>
    cases keys with
    | nil => exact ⟨gone.store, gone.command, rfl⟩
    | cons key keys =>
      simp only [SharedStore.advanceUpdate, advance, gone.store]
      split
      · split <;> exact ⟨rfl, gone.command, rfl⟩
      · exact ⟨rfl, gone.command, rfl⟩

theorem perform (gone : Gone system) (isNotAdd : action.isNotAdd = true)
    (performed : system.perform action = some after) : Gone after := by
  cases action with
  | send command =>
    obtain ⟨-, same⟩ := Option.ite_none_right_eq_some.mp performed
    cases same
    exact ⟨gone.store, rfl, gone.update⟩
  | advanceCommand =>
    obtain ⟨call, active, rfl⟩ := Option.map_eq_some_iff.mp performed
    exact gone.advanceCommand active
  | startUpdate archive =>
    obtain ⟨-, same⟩ := Option.ite_none_right_eq_some.mp performed
    cases same
    exact ⟨gone.store, gone.command, rfl⟩
  | advanceUpdate order =>
    obtain ⟨call, active, rfl⟩ := Option.map_eq_some_iff.mp performed
    exact gone.advanceUpdate active order
  | startRemove =>
    obtain ⟨-, same⟩ := Option.ite_none_right_eq_some.mp performed
    cases same
    exact ⟨gone.store, gone.command, gone.update⟩
  | advanceRemove =>
    have checked : Gone (system.advanceRemove .checking) := by
      simp only [SharedStore.advanceRemove, Remove.advance, gone.store]
      exact ⟨rfl, gone.command, gone.update⟩
    have dropped : Gone (system.advanceRemove .dropping) :=
      ⟨rfl, gone.command, gone.update⟩
    simp only [SharedStore.perform] at performed
    split at performed
    · cases performed
    · cases performed
      exact checked
    · obtain ⟨-, same⟩ := Option.ite_none_right_eq_some.mp performed
      cases same
      exact dropped
  | add state => cases isNotAdd
  | crash =>
    cases performed
    refine ⟨?_, rfl, rfl⟩
    simp only [SharedStore.restarted, gone.store]

theorem run (gone : Gone before) (run : SharedStore.Run (·.isNotAdd = true) before after) :
    Gone after := by
  induction run with
  | refl => exact gone
  | tail _ step induction =>
    obtain ⟨action, isNotAdd, performed⟩ := step
    exact induction.perform isNotAdd performed

end Gone

/-- Nothing of the handle is left, and an instance that is added is what the store then has, with
the cache or without. -/
structure WalStore.Cleared (store : WalStore) : Prop where
  has : store.has .snapshot = false
  noData : store.scope = none
  add : ∀ state, ∃ after, store.add state = .ok after ∧
    ∀ cache, cache = after.cache ∨ cache = none →
      ∃ loaded, Returns GetLatest.advance { after with cache } .readCache loaded (.ok state)

theorem Gone.cleared (gone : Gone system) : system.store.Cleared := by
  rw [gone.store]
  refine ⟨rfl, rfl, fun state => ?_⟩
  obtain ⟨after, added⟩ : ∃ after, (WalStore.mk none none).add state = .ok after := ⟨_, rfl⟩
  refine ⟨after, added, fun cache held => ?_⟩
  have consistent := Consistent.added added
  have sound : Sound state [] ({ after with cache } : WalStore).entries 0 := consistent.sound
  have cached : Cached state [] { after with cache } := by
    intro found isCached
    rcases held with rfl | rfl
    · exact consistent.cached isCached
    · cases isCached
  obtain ⟨_, returns⟩ := sound.returns_getLatest cached
  exact ⟨_, returns⟩

namespace SharedStore

def isFinished (self : SharedStore) : Bool :=
  self.command.isNone && self.update.isNone && self.removal.isNone

theorem stored_after_removal {system : SharedStore} (isFree : system.isFree = true)
    (storing : system.update.any isStoring = true) :
    ∃ later, Run (·.isNotAdd = true) (system.advanceRemove .dropping) later ∧
      later.isFinished = true ∧ later.store.has .snapshot = true := by
  obtain ⟨free, -⟩ := isFree_iff.mp isFree
  obtain ⟨store, command, update, removal, history⟩ := system
  cases free
  cases update with
  | none => cases storing
  | some call =>
    obtain ⟨archive, phase⟩ := call
    cases phase with
    | loading get => cases storing
    | listing latest => cases storing
    | clearing latest keys => cases storing
    | storing latest =>
      have performed : performAll
          (advanceRemove ⟨store, none, some ⟨archive, .storing latest⟩, removal, history⟩ .dropping)
          [.advanceUpdate .stored, .advanceUpdate .stored, .advanceUpdate .stored] =
          some ⟨⟨some (HashMap.empty.insert .snapshot (stateJson latest)), none⟩, none, none,
            none, history⟩ := rfl
      exact ⟨_, performAll_run performed (by simp [Action.isNotAdd]), rfl, rfl⟩

/-- What is removed stays away, however calls go on, exactly if no update had a copy that it had
yet to store. -/
theorem removal_final_iff {system : SharedStore} (dropping : system.removal = some .dropping)
    (isFree : system.isFree = true) :
    (∀ after later, system.perform .advanceRemove = some after →
        Run (·.isNotAdd = true) after later → later.isFinished = true → later.store.Cleared) ↔
      system.update.any UpdateSnapshot.isStoring = false := by
  have performed : system.perform .advanceRemove = some (system.advanceRemove .dropping) := by
    simp [perform, dropping, isFree]
  obtain ⟨free, unlocked⟩ := isFree_iff.mp isFree
  constructor
  · intro final
    cases storing : system.update.any UpdateSnapshot.isStoring with
    | false => rfl
    | true =>
      obtain ⟨later, run, finished, present⟩ := stored_after_removal isFree storing
      have cleared := final _ later performed run finished
      rw [cleared.has] at present
      cases present
  · intro notStoring after later isAfter run _
    rw [performed] at isAfter
    cases isAfter
    have gone : Gone (system.advanceRemove .dropping) := by
      refine ⟨rfl, ?_, ?_⟩
      · change system.command.all SendCommand.isNew = true
        rw [free]
        rfl
      · change system.update.all UpdateSnapshot.isHarmless = true
        cases updating : system.update with
        | none => rfl
        | some call =>
          rw [updating, Option.any_some] at unlocked notStoring
          obtain ⟨archive, phase⟩ := call
          cases phase with
          | loading get => cases unlocked
          | storing latest => cases notStoring
          | listing latest => rfl
          | clearing latest keys => rfl
    exact (gone.run run).cleared

end SharedStore

end Krill.Wal

namespace Krill.Wal.Tally

open SharedStore

def removing : SharedStore := { idle fresh with removal := some .dropping }

theorem removing_final : removing.isFree = true ∧
    ∀ after later, removing.perform .advanceRemove = some after →
      Run (·.isNotAdd = true) after later → later.isFinished = true → later.store.Cleared :=
  ⟨rfl, (removal_final_iff (by rfl : removing.removal = some .dropping) rfl).mpr rfl⟩

def removedMeanwhile : List Action :=
  [.startUpdate false, .advanceUpdate .stored, .advanceUpdate .stored, .startRemove,
   .advanceRemove, .advanceRemove]

def resurrected : List Action :=
  [.advanceUpdate .stored, .advanceUpdate .stored, .advanceUpdate .stored]

theorem snapshot_comes_back : ∃ removed later,
    (idle fresh).performAll removedMeanwhile = some removed ∧
    removed.removal.isNone ∧ removed.store.scope.isNone ∧
    removed.performAll resurrected = some later ∧ later.isFinished = true ∧
    later.store.has .snapshot = true ∧ ¬ later.store.Cleared := by
  refine ⟨_, _, rfl, rfl, rfl, rfl, rfl, rfl, fun cleared => ?_⟩
  have missing := cleared.has
  cases missing

end Krill.Wal.Tally
