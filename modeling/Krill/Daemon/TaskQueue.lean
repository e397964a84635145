import Mathlib.Data.List.MinMax
import Krill.Ca.Api

namespace Krill.Daemon

open EventSourcing (Time)
open Ca (CaHandle ParentHandle ResourceClassName RevocationRequest)
open HashMap

variable [Ca.Rpki]

inductive Task where
  | queueStartTasks
  | syncRepo (ca : CaHandle)
  | syncParent (ca : CaHandle) (parent : ParentHandle)
  | suspendChildrenIfNeeded (ca : CaHandle)
  | republishIfNeeded
  | renewObjectsIfNeeded
  | refreshAnnouncementsInfo
  | updateSnapshots
  | rrdpUpdateIfNeeded
  | sweepLoginCache
  | resourceClassRemoved (ca : CaHandle) (parent : ParentHandle) (rcn : ResourceClassName)
      (revocationRequests : List RevocationRequest)
  | unexpectedKey (ca : CaHandle) (rcn : ResourceClassName)
      (revocationRequest : RevocationRequest)
  deriving DecidableEq

def Task.ca : Task → Option CaHandle
  | .syncRepo ca => some ca
  | .syncParent ca _ => some ca
  | .suspendChildrenIfNeeded ca => some ca
  | .resourceClassRemoved ca _ _ _ => some ca
  | .unexpectedKey ca _ _ => some ca
  | _ => none

/-- The time at which a task is due. The soonest has the highest priority. -/
abbrev Priority := Time

local instance : Preorder Priority := Int.instLinearOrder.toPreorder

structure TaskQueue where
  q : HashMap Task Priority

namespace TaskQueue

def default : TaskQueue := ⟨.empty⟩

/-- A task with the highest priority. Which one, if there are several, depends on the order in
which the tasks were stored. -/
def peek (self : TaskQueue) (order : IterOrder) : Option (Task × Priority) :=
  (self.q.iter order).argmin Prod.snd

def pop (self : TaskQueue) (order : IterOrder) (dueBefore : Priority) :
    Option (Task × TaskQueue) :=
  match self.peek order with
  | some (task, priority) =>
    if priority < dueBefore then some (task, ⟨self.q.remove task⟩) else none
  | none => none

/-- If the task is already present then it gets the highest of the two priorities. -/
def schedule (self : TaskQueue) (task : Task) (priority : Priority) : TaskQueue :=
  match self.q.get task with
  | none => ⟨self.q.insert task priority⟩
  | some existing => if priority < existing then ⟨self.q.insert task priority⟩ else self

def removeTasksForCa (self : TaskQueue) (removed : CaHandle) : TaskQueue :=
  ⟨self.q.filter fun task _ => task.ca ≠ some removed⟩

def dropSyncParent (self : TaskQueue) (ca : CaHandle) (parent : ParentHandle) : TaskQueue :=
  ⟨self.q.remove (.syncParent ca parent)⟩

def Queued (queue : TaskQueue) (task : Task) : Prop := queue.q.get task ≠ none

instance (queue : TaskQueue) (task : Task) : Decidable (queue.Queued task) :=
  inferInstanceAs (Decidable (_ ≠ _))

variable {queue : TaskQueue}

theorem get_schedule (queue : TaskQueue) (task other : Task) :
    (queue.schedule task priority).q.get other =
      if other = task then some ((queue.q.get task).elim priority (min priority))
      else queue.q.get other := by
  unfold schedule
  cases present : queue.q.get task with
  | none => exact get_insert ..
  | some existing =>
    simp only [Option.elim_some]
    split
    · next earlier => rw [get_insert, min_eq_left earlier.le]
    · next notEarlier =>
        rw [min_eq_right (not_lt.mp notEarlier)]
        split
        · next same => rw [same, present]
        · rfl

theorem queued_schedule :
    (queue.schedule other priority).Queued task ↔ queue.Queued task ∨ task = other := by
  unfold Queued
  rw [get_schedule]
  split <;> simp [*]

theorem Queued.schedule (queued : queue.Queued task) (other : Task) (priority : Priority) :
    (queue.schedule other priority).Queued task :=
  queued_schedule.mpr (.inl queued)

theorem queued_schedule_self (queue : TaskQueue) (task : Task) (priority : Priority) :
    (queue.schedule task priority).Queued task :=
  queued_schedule.mpr (.inr rfl)

theorem get_removeTasksForCa : (queue.removeTasksForCa removed).q.get task =
      if task.ca = some removed then none else queue.q.get task := by
  unfold removeTasksForCa
  rw [get_filter]
  cases queue.q.get task with
  | none => simp
  | some priority => simp [Option.filter]

theorem queued_removeTasksForCa : (queue.removeTasksForCa removed).Queued task ↔
      queue.Queued task ∧ task.ca ≠ some removed := by
  unfold Queued
  rw [get_removeTasksForCa]
  split <;> simp [*]

theorem queued_dropSyncParent : (queue.dropSyncParent ca parent).Queued task ↔
      queue.Queued task ∧ task ≠ .syncParent ca parent := by
  unfold Queued dropSyncParent
  rw [get_remove]
  split <;> simp [*]

theorem pop_eq_some : queue.pop order dueBefore = some (other, rest) ↔
    ∃ priority < dueBefore, queue.peek order = some (other, priority) ∧
      rest = ⟨queue.q.remove other⟩ := by
  unfold pop
  cases queue.peek order with
  | none => simp
  | some first =>
    simp only
    split
    · next due =>
        constructor
        · rintro ⟨⟩
          exact ⟨first.2, due, rfl, rfl⟩
        · rintro ⟨priority, due, ⟨⟩, rfl⟩
          rfl
    · next notDue =>
        constructor
        · rintro ⟨⟩
        · rintro ⟨priority, due, ⟨⟩, -⟩
          exact absurd due notDue

theorem get_of_peek (peeked : queue.peek order = some (other, priority)) :
    queue.q.get other = some priority :=
  mem_iter.mp (List.argmin_mem peeked)

theorem queued_of_pop (popped : queue.pop order dueBefore = some (other, rest))
    (queued : queue.Queued task) :
    task = other ∨ rest.Queued task := by
  obtain ⟨priority, -, -, rfl⟩ := pop_eq_some.mp popped
  unfold Queued
  rw [get_remove]
  split
  · next same => exact .inl same
  · exact .inr queued

theorem queued_before_pop (popped : queue.pop order dueBefore = some (other, rest)) :
    queue.Queued other ∧ ∀ task, rest.Queued task → queue.Queued task := by
  obtain ⟨priority, -, peeked, rfl⟩ := pop_eq_some.mp popped
  refine ⟨?_, fun task queued => ?_⟩
  · unfold Queued
    rw [get_of_peek peeked]
    exact Option.some_ne_none priority
  · obtain ⟨priority, present⟩ := Option.ne_none_iff_exists'.mp queued
    exact Option.ne_none_iff_exists'.mpr ⟨priority, get_of_remove present⟩

inductive Operation where
  | schedule (task : Task) (priority : Priority)
  | pop (order : IterOrder) (dueBefore : Priority)
  | removeTasksForCa (removed : CaHandle)
  | dropSyncParent (ca : CaHandle) (parent : ParentHandle)

/-- A queue and the times that each task was scheduled for since it was last popped or
removed. -/
structure Watched where
  queue : TaskQueue
  times : Task → List Priority

def Watched.perform (self : Watched) : Operation → Watched
  | .schedule task priority =>
    { queue := self.queue.schedule task priority
      times := Function.update self.times task (priority :: self.times task) }
  | .pop order dueBefore =>
    match self.queue.pop order dueBefore with
    | none => self
    | some (task, rest) => { queue := rest, times := Function.update self.times task [] }
  | .removeTasksForCa removed =>
    { queue := self.queue.removeTasksForCa removed
      times := fun task => if task.ca = some removed then [] else self.times task }
  | .dropSyncParent ca parent =>
    { queue := self.queue.dropSyncParent ca parent
      times := Function.update self.times (.syncParent ca parent) [] }

def Watched.run (operations : List Operation) : Watched :=
  operations.foldl perform { queue := default, times := fun _ => [] }

def Watched.Exact (watched : Watched) : Prop :=
  ∀ task, watched.queue.q.get task = (watched.times task).min?

theorem Watched.Exact.removed {watched : Watched} (exact : watched.Exact) (task : Task) :
    Watched.Exact ⟨⟨watched.queue.q.remove task⟩, Function.update watched.times task []⟩ := by
  intro other
  simp only [get_remove, Function.update_apply]
  split
  · rfl
  · exact exact other

theorem Watched.Exact.perform {watched : Watched} (exact : watched.Exact)
    (operation : Operation) : (watched.perform operation).Exact := by
  cases operation with
  | schedule task priority =>
    intro other
    simp only [Watched.perform, get_schedule, Function.update_apply, exact task]
    split
    · exact List.min?_cons.symm
    · exact exact other
  | pop order dueBefore =>
    cases popped : watched.queue.pop order dueBefore with
    | none =>
      simp only [Watched.perform, popped]
      exact exact
    | some first =>
      obtain ⟨-, -, -, left⟩ := pop_eq_some.mp popped
      simp only [Watched.perform, popped, left]
      exact exact.removed first.1
  | removeTasksForCa removed =>
    intro task
    simp only [Watched.perform, get_removeTasksForCa, exact task]
    split <;> rfl
  | dropSyncParent ca parent => exact exact.removed _

/-- The queue as its users know it. -/
structure Watched.Specified (watched : Watched) : Prop where
  once : ∀ order, ((watched.queue.q.iter order).map Prod.fst).Nodup
  earliest : watched.Exact
  pops : ∀ order now, (watched.queue.pop order now).isSome ↔
    ∃ task, ∃ time < now, watched.queue.q.get task = some time
  first : ∀ {order now task rest}, watched.queue.pop order now = some (task, rest) →
    ∃ time, watched.queue.q.get task = some time ∧
      ∀ other later, watched.queue.q.get other = some later → time ≤ later
  removes : ∀ ca task, (watched.queue.removeTasksForCa ca).q.get task =
    if task.ca = some ca then none else watched.queue.q.get task

theorem le_of_peek (peeked : queue.peek order = some (other, priority))
    (queued : queue.q.get task = some later) : priority ≤ later :=
  List.le_of_mem_argmin (mem_iter.mpr queued) peeked

theorem pop_isSome_iff : (queue.pop order dueBefore).isSome ↔
    ∃ task, ∃ time < dueBefore, queue.q.get task = some time := by
  constructor
  · intro popped
    obtain ⟨first, popped⟩ := Option.isSome_iff_exists.mp popped
    obtain ⟨time, due, peeked, -⟩ := pop_eq_some.mp popped
    exact ⟨first.1, time, due, get_of_peek peeked⟩
  · rintro ⟨task, time, due, queued⟩
    cases peeked : queue.peek order with
    | none =>
      have listed : (task, time) ∈ queue.q.iter order := mem_iter.mpr queued
      rw [List.argmin_eq_none.mp peeked] at listed
      cases listed
    | some first =>
      exact Option.isSome_iff_exists.mpr
        ⟨_, pop_eq_some.mpr ⟨first.2, (le_of_peek peeked queued).trans_lt due, peeked, rfl⟩⟩

/-- After any operations, a task is queued once, for the earliest of its times. The queue gives
away what is due, the earliest first, and forgets just the tasks of a CA that is removed. -/
theorem queue_specified (operations : List Operation) : (Watched.run operations).Specified where
  once := fun order => HashMap.iter_keys_nodup _ order
  earliest := List.foldlRecOn operations Watched.perform (fun _ => rfl)
    fun _ exact operation _ => exact.perform operation
  pops := fun _ _ => pop_isSome_iff
  first := fun popped => by
    obtain ⟨time, -, peeked, -⟩ := pop_eq_some.mp popped
    exact ⟨time, get_of_peek peeked, fun _ _ queued => le_of_peek peeked queued⟩
  removes := fun _ _ => get_removeTasksForCa

end TaskQueue

end Krill.Daemon
