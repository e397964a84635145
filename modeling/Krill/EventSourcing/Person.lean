import Krill.EventSourcing.AggregateStore

namespace Krill.EventSourcing.Persons

structure Person where
  id : Handle
  version : Nat
  name : String
  age : UInt8
  deriving DecidableEq

inductive PersonEventDetails where
  | nameChanged (name : String)
  | hadBirthday
  deriving DecidableEq

structure PersonEvent where
  id : Handle
  version : Nat
  details : PersonEventDetails
  deriving DecidableEq

structure InitPersonEvent where
  id : Handle
  name : String
  deriving DecidableEq

inductive PersonCommandDetails where
  | changeName (name : String)
  | goAroundTheSun
  deriving DecidableEq

structure PersonCommand where
  version : Option Nat
  details : PersonCommandDetails
  deriving DecidableEq

inductive PersonError where
  | tooOld
  | custom (message : String)
  deriving DecidableEq

def PersonError.message : PersonError → String
  | .tooOld => "No person can live longer than 255 years"
  | .custom message => message

def PersonCommandDetails.label : PersonCommandDetails → String
  | .changeName _ => "person-change-name"
  | .goAroundTheSun => "person-around-sun"

def apply (person : Person) (event : PersonEvent) : Person :=
  match event.details with
  | .nameChanged name => { person with name, version := person.version + 1 }
  | .hadBirthday =>
    { person with age := person.age + 1, version := person.version + 1 }

def processCommand (person : Person) (command : PersonCommand) :
    Except PersonError (List PersonEvent) :=
  match command.details with
  | .changeName name =>
    .ok [{ id := person.id, version := person.version, details := .nameChanged name }]
  | .goAroundTheSun =>
    if person.age = 255 then .error .tooOld
    else .ok [{ id := person.id, version := person.version, details := .hadBirthday }]

scoped instance : Aggregate where
  State := Person
  Command := PersonCommand
  StorableDetails := PersonCommandDetails
  Event := PersonEvent
  InitEvent := InitPersonEvent
  Error := PersonError
  init event := .ok { id := event.id, version := 1, name := event.name, age := 0 }
  version := Person.version
  apply := apply
  processCommand := processCommand
  eventHandle := PersonEvent.id
  eventVersion := PersonEvent.version
  initVersion _ := 0
  commandVersion := PersonCommand.version
  actor _ := "test"
  details := PersonCommand.details
  label := PersonCommandDetails.label
  errorMessage := PersonError.message

theorem lawful : Lawful where
  initVersion _ := rfl
  version_init := by
    intro event state started
    cases started
    rfl
  version_apply := by
    intro person event
    change (apply person event).version = person.version + 1
    unfold apply
    split <;> rfl

end Krill.EventSourcing.Persons
