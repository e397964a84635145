import Krill.Data.HashMap
import Krill.Data.Fallible

namespace Krill.KeyValue

/-! A key-value store whose operations are atomic, one at a time. A list of them
that is cut short is what a crash leaves behind. -/

variable {V : Type} [DecidableEq K]

inductive KeyValueError (K : Type) where
  | jsonError (key : K)
  | unknownKey (key : K)
  | duplicateKey (key : K)
  deriving DecidableEq

abbrev Entries (K V : Type) := HashMap K V

namespace Entries

/-- Read a value as a document of some kind. A value that is present and not of
that kind is an error. -/
def read {D : Type} (entries : Entries K V) (parse : V → Option D) (key : K) :
    Except (KeyValueError K) (Option D) :=
  match entries.get key with
  | none => .ok none
  | some value =>
    match parse value with
    | some document => .ok (some document)
    | none => .error (.jsonError key)

def store (entries : Entries K V) (key : K) (value : V) : Entries K V :=
  entries.insert key value

def storeNew (entries : Entries K V) (key : K) (value : V) :
    Except (KeyValueError K) (Entries K V) :=
  if entries.containsKey key then .error (.duplicateKey key)
  else .ok (entries.insert key value)

theorem storeNew_eq_ok {entries : Entries K V} : entries.storeNew key value = .ok after ↔
      entries.get key = none ∧ entries.insert key value = after := by
  unfold storeNew
  cases found : entries.get key with
  | none | some => simp [HashMap.containsKey, found]

def dropKey (entries : Entries K V) (key : K) : Entries K V := entries.remove key

def moveKey (entries : Entries K V) (source target : K) :
    Except (KeyValueError K) (Entries K V) :=
  match entries.get source with
  | none => .error (.unknownKey source)
  | some value => .ok ((entries.remove source).insert target value)

def archive (entries : Entries K V) (key : K) : Except (KeyValueError K) (Entries K V) :=
  match entries.get key with
  | none => .error (.unknownKey key)
  | some _ => .ok (entries.remove key)

end Entries

inductive Write (K V : Type) where
  | store (key : K) (value : V)
  | storeNew (key : K) (value : V)
  | dropKey (key : K)
  | moveKey (source target : K)

namespace Write

def perform (entries : Entries K V) : Write K V → Except (KeyValueError K) (Entries K V)
  | .store key value => .ok (entries.store key value)
  | .storeNew key value => entries.storeNew key value
  | .dropKey key => .ok (entries.dropKey key)
  | .moveKey source target => entries.moveKey source target

def performAll (entries : Entries K V) :
    List (Write K V) → Except (KeyValueError K) (Entries K V)
  | [] => .ok entries
  | write :: rest => do
    let entries ← write.perform entries
    performAll entries rest

variable {key : K}

theorem performAll_storeNew (fresh : entries.get key = none) (rest : List (Write K V)) :
    performAll entries (.storeNew key value :: rest) =
      performAll (entries.insert key value) rest := by
  have first : perform entries (.storeNew key value) = .ok (entries.insert key value) :=
    Entries.storeNew_eq_ok.mpr ⟨fresh, rfl⟩
  rw [performAll, first]
  rfl

theorem performAll_append (performed : performAll entries first = .ok next)
    (second : List (Write K V)) :
    performAll entries (first ++ second) = performAll next second := by
  induction first generalizing entries with
  | nil =>
    cases performed
    rfl
  | cons write rest induction =>
    obtain ⟨middle, done, later⟩ := Fallible.bind_eq_ok.mp performed
    simp only [List.cons_append, performAll]
    rw [done]
    exact induction later

def Touches : Write K V → K → Prop
  | .store key _, other => other = key
  | .storeNew key _, other => other = key
  | .dropKey key, other => other = key
  | .moveKey source target, other => other = source ∨ other = target

theorem perform_frame {write : Write K V} (performed : write.perform entries = .ok after)
    (untouched : ¬ write.Touches key) : after.get key = entries.get key := by
  cases write with
  | store other value =>
    cases performed
    exact (HashMap.get_insert ..).trans (if_neg untouched)
  | storeNew other value =>
    obtain ⟨-, rfl⟩ := Entries.storeNew_eq_ok.mp performed
    exact (HashMap.get_insert ..).trans (if_neg untouched)
  | dropKey other =>
    cases performed
    exact (HashMap.get_remove ..).trans (if_neg untouched)
  | moveKey source target =>
    have notSource : key ≠ source := fun same => untouched (.inl same)
    have notTarget : key ≠ target := fun same => untouched (.inr same)
    simp only [perform, Entries.moveKey] at performed
    split at performed
    · cases performed
    · cases performed
      rw [HashMap.get_insert, if_neg notTarget, HashMap.get_remove, if_neg notSource]

theorem performAll_frame (performed : performAll entries writes = .ok after)
    (untouched : ∀ write ∈ writes, ¬ write.Touches key) : after.get key = entries.get key := by
  induction writes generalizing entries with
  | nil =>
    cases performed
    rfl
  | cons write rest induction =>
    obtain ⟨next, first, later⟩ := Fallible.bind_eq_ok.mp performed
    rw [induction later (fun write member => untouched write (List.mem_cons_of_mem _ member)),
      perform_frame first (untouched write List.mem_cons_self)]

end Write

end Krill.KeyValue
