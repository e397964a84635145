import Mathlib.Logic.Basic

namespace Krill.EventSourcing

abbrev Handle := String

abbrev Time := Int

class Aggregate where
  State : Type
  Command : Type
  StorableDetails : Type
  Event : Type
  InitEvent : Type
  Error : Type
  init : InitEvent → Except Error State
  version : State → Nat
  apply : State → Event → State
  processCommand : State → Command → Except Error (List Event)
  eventHandle : Event → Handle
  eventVersion : Event → Nat
  initVersion : InitEvent → Nat
  commandVersion : Command → Option Nat
  actor : Command → String
  details : Command → StorableDetails
  label : StorableDetails → String
  errorMessage : Error → String

open Aggregate

/-- What implementations of aggregates promise: the init event has version 0, and
applying the event for version x takes an aggregate from version x to x + 1. -/
structure Lawful [Aggregate] : Prop where
  initVersion : ∀ event : InitEvent, Aggregate.initVersion event = 0
  version_init : ∀ {event : InitEvent} {state}, init event = .ok state → version state = 1
  version_apply : ∀ (state : State) (event : Event),
    version (apply state event) = version state + 1

variable [Aggregate]

def applyAll (state : State) (events : List Event) : State := events.foldl apply state

theorem applyAll_append (state : State) (first second : List Event) :
    applyAll state (first ++ second) = applyAll (applyAll state first) second :=
  List.foldl_append

theorem version_applyAll (lawful : Lawful) (state : State) (events : List Event) :
    version (applyAll state events) = version state + events.length := by
  induction events generalizing state with
  | nil => rfl
  | cons event rest induction =>
    have first := lawful.version_apply state event
    have later := induction (apply state event)
    change version (applyAll (apply state event) rest) = _
    rw [later, first, List.length_cons]
    omega

end Krill.EventSourcing
