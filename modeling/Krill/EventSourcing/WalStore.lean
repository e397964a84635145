import Krill.Data.KeyValue
import Krill.Data.Phases

namespace Krill.Wal

open KeyValue Phases

/-! The store for types with write-ahead logging, for one handle: its scope in the key-value
store and its entry in the cache. Handles share nothing else. Calls are modelled in phases with
one key-value operation each. -/

structure WalSet (Change : Type) where
  revision : Nat
  summary : String
  changes : List Change
  deriving DecidableEq

/-- What a type supplies to be kept in a store. Values are stored as JSON, which reads back as
the same value, and which cannot be read when its end is missing. -/
class WalSupport where
  State : Type
  Command : Type
  Change : Type
  Error : Type
  revision : State → Nat
  apply : State → WalSet Change → State
  revision_apply : ∀ state set, revision (apply state set) = revision state + 1
  summary : Command → String
  processCommand : State → Command → Except Error (List Change)
  stateJson : State → List Char
  stateFromJson : List Char → Option State
  stateFromJson_json : ∀ state, stateFromJson (stateJson state) = some state
  setJson : WalSet Change → List Char
  setFromJson : List Char → Option (WalSet Change)
  setFromJson_json : ∀ set, setFromJson (setJson set) = some set
  setFromJson_torn : ∀ set torn, torn <+: setJson set → torn ≠ setJson set →
    setFromJson torn = none

open WalSupport

inductive WalKey where
  | snapshot
  | walSet (revision : Nat)
  | archivedSet (revision : Nat)
  deriving DecidableEq

/-- The revision in the name of a change set, as `update_snapshot` parses it. -/
def WalKey.asRevision : WalKey → Option Nat
  | .walSet revision => some revision
  | _ => none

inductive WalStoreError where
  | keyStoreError (error : KeyValueError WalKey)
  | ioError
  | unknown
  deriving DecidableEq

variable [WalSupport]

structure WalStore where
  scope : Option (Entries WalKey (List Char))
  cache : Option State

namespace WalStore

/-- The files of the scope. There are none if the directory does not exist. -/
def entries (store : WalStore) : Entries WalKey (List Char) := store.scope.getD .empty

def has (store : WalStore) (key : WalKey) : Bool := store.entries.containsKey key

def read {D : Type} (store : WalStore) (parse : List Char → Option D) (key : WalKey) :
    Except WalStoreError (Option D) :=
  (store.entries.read parse key).mapError .keyStoreError

def storeKey (store : WalStore) (key : WalKey) (value : List Char) : WalStore :=
  { store with scope := some (store.entries.store key value) }

def storeNew (store : WalStore) (key : WalKey) (value : List Char) :
    Except WalStoreError WalStore :=
  match store.entries.storeNew key value with
  | .ok entries => .ok { store with scope := some entries }
  | .error error => .error (.keyStoreError error)

def dropKey (store : WalStore) (key : WalKey) : WalStore :=
  { store with scope := store.scope.map (·.dropKey key) }

def archiveSet (store : WalStore) (revision : Nat) : Except WalStoreError WalStore :=
  match store.entries.moveKey (.walSet revision) (.archivedSet revision) with
  | .ok entries => .ok { store with scope := some entries }
  | .error error => .error (.keyStoreError error)

def dropScope (store : WalStore) : WalStore := { store with scope := none }

def keys (store : WalStore) (order : IterOrder) : Except WalStoreError (List Nat) :=
  match store.scope with
  | none => .error .ioError
  | some entries => .ok (entries.selectKeys order WalKey.asRevision)

def add (store : WalStore) (state : State) : Except WalStoreError WalStore := do
  let store ← store.storeNew .snapshot (stateJson state)
  return { store with cache := some state }

end WalStore

inductive GetLatest where
  | readCache
  | getSnapshot
  | hasNext (state : State)
  | getNext (state : State)

def GetLatest.advance (store : WalStore) :
    GetLatest → WalStore × Progress GetLatest (Except WalStoreError State)
  | .readCache =>
    match store.cache with
    | none => (store, .next .getSnapshot)
    | some state => (store, .next (.hasNext state))
  | .getSnapshot =>
    match store.read stateFromJson .snapshot with
    | .error error => (store, .done (.error error))
    | .ok none => (store, .done (.error .unknown))
    | .ok (some state) => (store, .next (.hasNext state))
  | .hasNext state =>
    if store.has (.walSet (revision state)) then (store, .next (.getNext state))
    else (store, .done (.ok state))
  | .getNext state =>
    match store.read setFromJson (.walSet (revision state)) with
    | .error error => (store, .done (.error error))
    | .ok (some set) => (store, .next (.getNext (apply state set)))
    | .ok none => ({ store with cache := some state }, .done (.ok state))

/-! `send_command` holds the write lock of the handle from its first phase to its last. -/

inductive SendError where
  | store (error : WalStoreError)
  | rejected (error : Error)

inductive SendCommand where
  | loading (command : Command) (get : GetLatest)
  | storing (latest : State) (set : WalSet Change)
  | returning (latest : State) (set : WalSet Change)

namespace SendCommand

def start (command : Command) : SendCommand := .loading command .readCache

def process (command : Command) (latest : State) :
    Progress SendCommand (Except SendError State) :=
  match processCommand latest command with
  | .error error => .done (.error (.rejected error))
  | .ok [] => .done (.ok latest)
  | .ok changes =>
    .next (.storing latest
      { revision := revision latest, summary := summary command, changes })

def advance (store : WalStore) :
    SendCommand → WalStore × Progress SendCommand (Except SendError State)
  | .loading command get =>
    let (store, progress) := get.advance store
    (store, progress.within (.loading command) fun
      | .error error => .done (.error (.store error))
      | .ok latest => process command latest)
  | .storing latest set =>
    match store.storeNew (.walSet (revision latest)) (setJson set) with
    | .error error => (store, .done (.error (.store error)))
    | .ok store => (store, .next (.returning latest set))
  | .returning latest set =>
    let latest := apply latest set
    ({ store with cache := some latest }, .done (.ok latest))

end SendCommand

/-! `update_snapshot` holds the read lock of the handle while it gets the latest instance, and
no lock afterwards. -/

inductive UpdatePhase where
  | loading (get : GetLatest)
  | storing (latest : State)
  | listing (latest : State)
  | clearing (latest : State) (keys : List Nat)

structure UpdateSnapshot where
  archive : Bool
  phase : UpdatePhase

namespace UpdateSnapshot

def start (archive : Bool) : UpdateSnapshot := ⟨archive, .loading .readCache⟩

def advance (order : IterOrder) (store : WalStore) (update : UpdateSnapshot) :
    WalStore × Progress UpdateSnapshot (Except WalStoreError Unit) :=
  match update.phase with
  | .loading get =>
    let (store, progress) := get.advance store
    (store, progress.within (fun get => { update with phase := .loading get }) fun
      | .error error => .done (.error error)
      | .ok latest => .next { update with phase := .storing latest })
  | .storing latest =>
    (store.storeKey .snapshot (stateJson latest), .next { update with phase := .listing latest })
  | .listing latest =>
    match store.keys order with
    | .error error => (store, .done (.error error))
    | .ok keys => (store, .next { update with phase := .clearing latest keys })
  | .clearing _ [] => (store, .done (.ok ()))
  | .clearing latest (key :: keys) =>
    let later := { update with phase := .clearing latest keys }
    if key < revision latest then
      if update.archive then
        match store.archiveSet key with
        | .error error => (store, .done (.error error))
        | .ok store => (store, .next later)
      else (store.dropKey (.walSet key), .next later)
    else (store, .next later)

end UpdateSnapshot

/-! `remove` looks whether there is an instance, and then takes the write lock of the handle to
drop it from the cache and from the key-value store. -/

inductive Remove where
  | checking
  | dropping

namespace Remove

def advance (store : WalStore) : Remove → WalStore × Progress Remove (Except WalStoreError Unit)
  | .checking =>
    if store.has .snapshot then (store, .next .dropping)
    else (store, .done (.error .unknown))
  | .dropping => ({ store.dropScope with cache := none }, .done (.ok ()))

end Remove

end Krill.Wal

namespace Krill.Wal.Tally

/-! A small type to run the store with: a revision and a total, which each change increases by
one. Numbers are written in unary with a dot at the end, and texts after their length. -/

def unary (number : Nat) : List Char := List.replicate number 'I' ++ ['.']

def takeUnary : List Char → Option (Nat × List Char)
  | 'I' :: rest => (takeUnary rest).map fun (number, rest) => (number + 1, rest)
  | '.' :: rest => some (0, rest)
  | _ => none

theorem takeUnary_unary (rest : List Char) :
    takeUnary (unary number ++ rest) = some (number, rest) := by
  induction number with
  | zero => rfl
  | succ number induction =>
    change (takeUnary (unary number ++ rest)).map _ = _
    rw [induction]
    rfl

theorem takeUnary_append (more : List Char) (taken : takeUnary text = some (number, rest)) :
    takeUnary (text ++ more) = some (number, rest ++ more) := by
  fun_induction takeUnary text generalizing number rest with
  | case1 text induction =>
    obtain ⟨⟨less, left⟩, found, same⟩ := Option.map_eq_some_iff.mp taken
    cases same
    change (takeUnary (text ++ more)).map _ = _
    rw [induction found]
    rfl
  | case2 text =>
    cases taken
    rfl
  | case3 => cases taken

def setJson (set : WalSet Unit) : List Char :=
  unary set.revision ++ (unary set.changes.length ++
    (unary set.summary.toList.length ++ set.summary.toList))

def setFromJson (text : List Char) : Option (WalSet Unit) := do
  let (revision, rest) ← takeUnary text
  let (changes, rest) ← takeUnary rest
  let (length, rest) ← takeUnary rest
  if rest.length = length then
    some ⟨revision, String.ofList rest, List.replicate changes ()⟩
  else none

theorem setFromJson_json (set : WalSet Unit) : setFromJson (setJson set) = some set := by
  have changes : List.replicate set.changes.length () = set.changes :=
    (List.eq_replicate_of_mem fun _ _ => rfl).symm
  simp [setFromJson, setJson, takeUnary_unary, changes]

theorem setFromJson_torn (set : WalSet Unit) (torn : List Char) (isPart : torn <+: setJson set)
    (proper : torn ≠ setJson set) : setFromJson torn = none := by
  obtain ⟨more, whole⟩ := isPart
  apply Option.eq_none_iff_forall_ne_some.mpr
  intro found parsed
  simp only [setFromJson, Option.bind_eq_bind, Option.bind_eq_some_iff] at parsed
  obtain ⟨⟨revision, one⟩, first, ⟨changes, two⟩, second, ⟨length, three⟩, third, last⟩ := parsed
  obtain ⟨complete, -⟩ := Option.ite_none_right_eq_some.mp last
  have first := takeUnary_append more first
  have second := takeUnary_append more second
  have third := takeUnary_append more third
  rw [whole, setJson, takeUnary_unary] at first
  obtain ⟨-, restOne⟩ := Prod.mk.inj (Option.some.inj first)
  rw [← restOne, takeUnary_unary] at second
  obtain ⟨-, restTwo⟩ := Prod.mk.inj (Option.some.inj second)
  rw [← restTwo, takeUnary_unary] at third
  obtain ⟨sameLength, restThree⟩ := Prod.mk.inj (Option.some.inj third)
  -- The text that is left has its full length, so nothing is missing.
  have nothing : more = [] := by
    have lengths := congrArg List.length restThree
    rw [List.length_append] at lengths
    have full : three.length = length := complete
    exact List.eq_nil_of_length_eq_zero (by omega)
  rw [nothing, List.append_nil] at whole
  exact proper whole

scoped instance : WalSupport where
  State := Nat × Nat
  Command := Nat
  Change := Unit
  Error := Unit
  revision := Prod.fst
  apply := fun (revision, total) set => (revision + 1, total + set.changes.length)
  revision_apply := fun _ _ => rfl
  summary := fun _ => "add"
  processCommand := fun _ amount =>
    if amount < 10 then .ok (List.replicate amount ()) else .error ()
  stateJson := fun (revision, total) => unary revision ++ unary total
  stateFromJson := fun text => do
    let (revision, rest) ← takeUnary text
    let (total, _) ← takeUnary rest
    return (revision, total)
  stateFromJson_json := by
    intro (revision, total)
    have last : takeUnary (unary total) = some (total, []) := by
      simpa using takeUnary_unary []
    simp [takeUnary_unary, last]
  setJson := setJson
  setFromJson := setFromJson
  setFromJson_json := setFromJson_json
  setFromJson_torn := setFromJson_torn

end Krill.Wal.Tally
