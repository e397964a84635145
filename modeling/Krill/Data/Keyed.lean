import Krill.Data.HashMap

namespace Krill

/-! Hash maps that keep every value under the value's own key. -/

structure Keyed {K V : Type} [DecidableEq K] (key : V → K) where
  map : HashMap K V
  keyed : ∀ {position value}, map.get position = some value → key value = position

namespace Keyed

variable [DecidableEq K] {key : V → K}

def empty : Keyed key where
  map := .empty
  keyed := fun found => by
    rw [HashMap.get_empty] at found
    cases found

instance : Inhabited (Keyed key) := ⟨empty⟩

def get (self : Keyed key) (position : K) : Option V := self.map.get position

def containsKey (self : Keyed key) (position : K) : Bool := (self.get position).isSome

def isEmpty (self : Keyed key) : Bool := self.map.isEmpty

def values (self : Keyed key) (order : IterOrder) : List V := self.map.intoValues order

def keys (self : Keyed key) (order : IterOrder) : List K := (self.map.iter order).map Prod.fst

def insert (self : Keyed key) (value : V) : Keyed key where
  map := self.map.insert (key value) value
  keyed := fun {position other} found => by
    rw [HashMap.get_insert] at found
    by_cases same : position = key value
    · rw [if_pos same] at found
      cases found
      exact same.symm
    · rw [if_neg same] at found
      exact self.keyed found

def remove (self : Keyed key) (position : K) : Keyed key where
  map := self.map.remove position
  keyed := fun {other value} found => by
    rw [HashMap.get_remove] at found
    by_cases same : other = position
    · rw [if_pos same] at found
      cases found
    · rw [if_neg same] at found
      exact self.keyed found

@[simp] theorem get_empty (position : K) : (empty : Keyed key).get position = none :=
  HashMap.get_empty position

variable {self : Keyed key}

theorem key_of_get (found : self.get position = some value) :
    key value = position := self.keyed found

theorem get_insert (self : Keyed key) (value : V) (position : K) :
    (self.insert value).get position =
      if position = key value then some value else self.get position :=
  HashMap.get_insert self.map (key value) position value

theorem get_remove (self : Keyed key) (removed position : K) : (self.remove removed).get position =
      if position = removed then none else self.get position :=
  HashMap.get_remove self.map removed position

theorem mem_values : value ∈ self.values order ↔ self.get (key value) = some value := by
  rw [values, HashMap.mem_intoValues]
  constructor
  · intro listed
    obtain ⟨position, found⟩ := listed
    rw [self.keyed found]
    exact found
  · intro found
    exact ⟨key value, found⟩

theorem mem_keys : position ∈ self.keys order ↔ self.get position ≠ none := by
  rw [keys, List.mem_map]
  constructor
  · intro listed
    obtain ⟨⟨_, value⟩, member, rfl⟩ := listed
    rw [get, HashMap.mem_iter.mp member]
    exact Option.some_ne_none value
  · intro present
    obtain ⟨value, found⟩ := Option.ne_none_iff_exists'.mp present
    exact ⟨(position, value), HashMap.mem_iter.mpr found, rfl⟩

theorem get_insert_self (self : Keyed key) (value : V) :
    (self.insert value).get (key value) = some value := by
  rw [get_insert, if_pos rfl]

theorem get_foldl_insert_eq_some {added : List V}
    (found : (added.foldl insert self).get position = some value) :
    value ∈ added ∨ position ∉ added.map key ∧ self.get position = some value := by
  induction added generalizing self with
  | nil => exact .inr ⟨List.not_mem_nil, found⟩
  | cons first rest induction =>
    obtain later | ⟨absent, before⟩ := induction found
    · exact .inl (List.mem_cons_of_mem _ later)
    · rw [get_insert] at before
      by_cases same : position = key first
      · rw [if_pos same, Option.some.injEq] at before
        exact .inl (before ▸ List.mem_cons_self)
      · rw [if_neg same] at before
        refine .inr ⟨fun listed => ?_, before⟩
        obtain equal | later := List.mem_cons.mp listed
        · exact same equal
        · exact absent later

theorem get_foldl_remove (self : Keyed key) (removed : List K) :
    (removed.foldl remove self).get position =
      if position ∈ removed then none else self.get position := by
  induction removed generalizing self with
  | nil => rfl
  | cons first rest induction =>
    rw [List.foldl_cons, induction, get_remove]
    by_cases later : position ∈ rest
    · rw [if_pos later, if_pos (List.mem_cons_of_mem _ later)]
    · by_cases same : position = first
      · subst same
        rw [if_neg later, if_pos rfl, if_pos List.mem_cons_self]
      · rw [if_neg later, if_neg same, if_neg (by simp [same, later])]

theorem get_foldl_remove_eq_some {removed : List K}
    (found : (removed.foldl remove self).get position = some value) :
    position ∉ removed ∧ self.get position = some value := by
  rw [get_foldl_remove] at found
  obtain ⟨kept, found⟩ := Option.ite_none_left_eq_some.mp found
  exact ⟨kept, found⟩

theorem get_foldl_insert_remove_eq_some {added : List V} {removed : List K}
    (found : (removed.foldl remove (added.foldl insert self)).get position = some value) :
    position ∉ removed ∧
      (value ∈ added ∨ position ∉ added.map key ∧ self.get position = some value) :=
  (get_foldl_remove_eq_some found).imp_right get_foldl_insert_eq_some

end Keyed

end Krill
