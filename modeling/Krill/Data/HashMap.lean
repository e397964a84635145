import Mathlib.Data.List.AList
import Mathlib.Data.List.Rotate
import Krill.Data.Stateful

namespace Krill

/-! Finite maps as the standard library's `HashMap` offers them. The order in
which a hash map lists its entries is not part of its contract, so iteration
takes that order as an argument. -/

/-- One choice of iteration order: a permutation of every listing. -/
structure IterOrder where
  arrange : {α : Type} → List α → List α
  perm : ∀ {α : Type} (listing : List α), (arrange listing).Perm listing

namespace IterOrder

def stored : IterOrder := ⟨id, fun listing => .refl listing⟩

def reversed : IterOrder := ⟨List.reverse, List.reverse_perm⟩

@[simp] theorem mem_arrange (order : IterOrder) : item ∈ order.arrange listing ↔ item ∈ listing :=
  (order.perm listing).mem_iff

def rotated (places : Nat) : IterOrder :=
  ⟨fun listing => listing.rotate places, fun listing => listing.rotate_perm places⟩

theorem exists_last (member : item ∈ listing) :
    ∃ order : IterOrder, ∃ before, order.arrange listing = before ++ [item] := by
  obtain ⟨front, back, rfl⟩ := List.append_of_mem member
  refine ⟨rotated (front ++ [item]).length, back ++ front, ?_⟩
  change (front ++ item :: back).rotate _ = _
  rw [← List.singleton_append, ← List.append_assoc, List.rotate_append_length_eq, List.append_assoc]

end IterOrder

structure HashMap (K V : Type) where
  alist : AList (fun _ : K => V)

namespace HashMap

variable {K V : Type}

def empty : HashMap K V := ⟨∅⟩

instance : Inhabited (HashMap K V) := ⟨empty⟩

def entries (map : HashMap K V) : List (K × V) :=
  map.alist.entries.map fun entry => (entry.1, entry.2)

def keys (map : HashMap K V) : List K := map.entries.map Prod.fst

def values (map : HashMap K V) : List V := map.entries.map Prod.snd

def isEmpty (map : HashMap K V) : Bool := map.entries.isEmpty

def iter (map : HashMap K V) (order : IterOrder) : List (K × V) :=
  order.arrange map.entries

def intoValues (map : HashMap K V) (order : IterOrder) : List V :=
  (map.iter order).map Prod.snd

theorem keys_nodup (map : HashMap K V) : map.keys.Nodup := by
  have same : map.keys = map.alist.keys := by
    simp [keys, entries, AList.keys, List.keys, List.map_map, Function.comp_def]
  rw [same]
  exact map.alist.keys_nodup

theorem iter_keys_nodup (map : HashMap K V) (order : IterOrder) :
    ((map.iter order).map Prod.fst).Nodup :=
  ((order.perm map.entries).map Prod.fst).nodup_iff.mpr map.keys_nodup

def selectKeys {A : Type} (map : HashMap K V) (order : IterOrder) (select : K → Option A) :
    List A :=
  (map.iter order).filterMap fun entry => select entry.1

theorem selectKeys_nodup (map : HashMap K V) (order : IterOrder)
    (injective : ∀ {left right item}, select left = some item →
      select right = some item → left = right) : (map.selectKeys order select).Nodup := by
  have keys : map.selectKeys order select = ((map.iter order).map Prod.fst).filterMap select := by
    rw [List.filterMap_map]
    rfl
  rw [keys]
  exact (map.iter_keys_nodup order).filterMap fun left right item first second =>
    injective first second

section Lookup

variable [DecidableEq K]

def get (map : HashMap K V) (key : K) : Option V := map.alist.lookup key

def containsKey (map : HashMap K V) (key : K) : Bool := (map.get key).isSome

def insert (map : HashMap K V) (key : K) (value : V) : HashMap K V :=
  ⟨map.alist.insert key value⟩

def remove (map : HashMap K V) (key : K) : HashMap K V := ⟨map.alist.erase key⟩

instance [DecidableEq V] : DecidableEq (HashMap K V) := fun left right =>
  decidable_of_iff (left.alist.entries = right.alist.entries) ⟨fun same => by
      cases left
      cases right
      exact congrArg HashMap.mk (AList.ext same),
     fun same => congrArg (fun map => map.alist.entries) same⟩

@[simp] theorem get_empty (key : K) : (empty : HashMap K V).get key = none :=
  AList.lookup_empty key

theorem get_insert (map : HashMap K V) (key other : K) (value : V) :
    (map.insert key value).get other =
      if other = key then some value else map.get other := by
  by_cases same : other = key
  · subst same
    simp [get, insert]
  · simp [get, insert, same]

@[simp] theorem get_insert_self (map : HashMap K V) (key : K) (value : V) :
    (map.insert key value).get key = some value := by
  simp [get_insert]

theorem get_remove (map : HashMap K V) (key other : K) :
    (map.remove key).get other = if other = key then none else map.get other := by
  by_cases same : other = key
  · subst same
    simp [get, remove]
  · simp [get, remove, same]

@[simp] theorem get_remove_self (map : HashMap K V) (key : K) :
    (map.remove key).get key = none := by
  simp [get_remove]

variable {map : HashMap K V}

@[simp] theorem containsKey_eq_false : map.containsKey key = false ↔ map.get key = none := by
  simp [containsKey]

theorem get_insert_eq_some (present : (map.insert key value).get other = some found) :
    other = key ∧ found = value ∨ map.get other = some found := by
  rw [get_insert] at present
  by_cases same : other = key
  · rw [if_pos same] at present
    cases present
    exact .inl ⟨same, rfl⟩
  · rw [if_neg same] at present
    exact .inr present

theorem get_of_remove (present : (map.remove key).get other = some found) :
    map.get other = some found := by
  rw [get_remove] at present
  by_cases same : other = key
  · rw [if_pos same] at present
    cases present
  · rwa [if_neg same] at present

theorem isSome_get_insert :
    ((map.insert key value).get other).isSome ↔ other = key ∨ (map.get other).isSome := by
  rw [get_insert]
  split <;> simp [*]

theorem isSome_get_remove :
    ((map.remove key).get other).isSome ↔ other ≠ key ∧ (map.get other).isSome := by
  rw [get_remove]
  split <;> simp [*]

theorem mem_entries : (key, value) ∈ map.entries ↔ map.get key = some value := by
  have listed : (key, value) ∈ map.entries ↔
      (⟨key, value⟩ : Sigma fun _ : K => V) ∈ map.alist.entries := by
    constructor
    · intro member
      obtain ⟨⟨first, second⟩, stored, same⟩ := List.mem_map.mp member
      cases same
      exact stored
    · intro stored
      exact List.mem_map.mpr ⟨_, stored, rfl⟩
  rw [listed, ← AList.mem_lookup_iff]
  exact Option.mem_def

@[simp] theorem mem_iter : (key, value) ∈ map.iter order ↔ map.get key = some value := by
  rw [iter, IterOrder.mem_arrange, mem_entries]

theorem mem_iter_keys : key ∈ (map.iter order).map Prod.fst ↔ (map.get key).isSome := by
  simp [Option.isSome_iff_exists]

variable {A : Type}

theorem mem_selectKeys : item ∈ map.selectKeys order select ↔
      ∃ key, (map.get key).isSome ∧ select key = some item := by
  simp [selectKeys, Option.isSome_iff_exists]

theorem mem_intoValues : value ∈ map.intoValues order ↔ ∃ key, map.get key = some value := by
  simp [intoValues]

theorem entries_perm {one other : HashMap K V} (same : ∀ key, one.get key = other.get key) :
    one.entries.Perm other.entries := by
  apply List.Perm.map
  apply List.lookup_ext one.alist.nodupKeys other.alist.nodupKeys
  intro key value
  exact iff_of_eq (congrArg (value ∈ ·) (same key))

def removeAll (map : HashMap K V) (keys : List K) : HashMap K V :=
  keys.foldl remove map

theorem get_removeAll (map : HashMap K V) (keys : List K) (key : K) :
    (map.removeAll keys).get key = if key ∈ keys then none else map.get key := by
  induction keys generalizing map with
  | nil => simp [removeAll]
  | cons first rest induction =>
    change ((map.remove first).removeAll rest).get key = _
    rw [induction, get_remove]
    by_cases inRest : key ∈ rest <;> simp [inRest]

variable {items : List A}

theorem get_removeAll_map (injective : Function.Injective name) [DecidablePred condition]
    (selected : ∀ item, item ∈ items ↔ (map.get (name item)).isSome ∧ condition item) (item : A) :
    (map.removeAll (items.map name)).get (name item) =
      if condition item then none else map.get (name item) := by
  simp only [get_removeAll, List.mem_map_of_injective injective, selected]
  by_cases surplus : condition item
  · cases found : map.get (name item) with
    | none => simp
    | some value => simp [surplus]
  · rw [if_neg (fun both => surplus both.2), if_neg surplus]

theorem get_removeAll_map_other (other : ∀ item, key ≠ name item) :
    (map.removeAll (items.map name)).get key = map.get key := by
  rw [get_removeAll, if_neg]
  intro member
  obtain ⟨item, -, same⟩ := List.mem_map.mp member
  exact other item same.symm

def filter (map : HashMap K V) (condition : K → V → Bool) : HashMap K V :=
  map.removeAll ((map.entries.filter fun entry => !condition entry.1 entry.2).map Prod.fst)

theorem get_filter (map : HashMap K V) (condition : K → V → Bool) (key : K) :
    (map.filter condition).get key = (map.get key).filter (condition key) := by
  rw [filter, get_removeAll]
  cases found : map.get key with
  | none => simp
  | some value =>
    have dropped : key ∈ (map.entries.filter fun entry =>
        !condition entry.1 entry.2).map Prod.fst ↔ condition key value = false := by
      rw [List.mem_map]
      constructor
      · rintro ⟨⟨_, other⟩, member, rfl⟩
        rw [List.mem_filter, mem_entries, found] at member
        obtain ⟨same, surplus⟩ := member
        cases same
        simpa using surplus
      · intro surplus
        refine ⟨(key, value), List.mem_filter.mpr ⟨mem_entries.mpr found, ?_⟩, rfl⟩
        simp [surplus]
    cases holds : condition key value with
    | true => simp [dropped, holds, Option.filter]
    | false => simp [dropped, holds, Option.filter]

def mapValues {W : Type} (map : HashMap K V) (change : V → W) : HashMap K W where
  alist :=
    { entries := map.alist.entries.map fun entry => ⟨entry.1, change entry.2⟩
      nodupKeys := by
        have keys := map.alist.nodupKeys
        rw [List.NodupKeys, List.keys] at keys ⊢
        rwa [List.map_map] }

theorem get_mapValues (map : HashMap K V) (change : V → W) (key : K) :
    (map.mapValues change).get key = (map.get key).map change := by
  have listed : ∀ entries : List (Sigma fun _ : K => V), List.dlookup key (entries.map fun entry =>
        (⟨entry.1, change entry.2⟩ : Sigma fun _ : K => W)) =
      (List.dlookup key entries).map change := by
    intro entries
    induction entries with
    | nil => rfl
    | cons entry rest induction =>
      obtain ⟨first, value⟩ := entry
      by_cases same : first = key
      · subst same
        simp [List.dlookup_cons_eq]
      · simp [List.dlookup_cons_ne, Ne.symm same, induction]
  exact listed map.alist.entries

def insertAll (map : HashMap K V) (added : List (K × V)) : HashMap K V :=
  added.foldl (fun map entry => map.insert entry.1 entry.2) map

variable {added : List (K × V)}

theorem get_insertAll_of_notMem (absent : key ∉ added.map Prod.fst) :
    (map.insertAll added).get key = map.get key := by
  induction added generalizing map with
  | nil => rfl
  | cons entry rest induction =>
    rw [List.map_cons, List.mem_cons, not_or] at absent
    change ((map.insert entry.1 entry.2).insertAll rest).get key = _
    rw [induction absent.2, get_insert, if_neg absent.1]

theorem get_insertAll_of_mem (distinct : (added.map Prod.fst).Nodup)
    (member : (key, value) ∈ added) :
    (map.insertAll added).get key = some value := by
  induction added generalizing map with
  | nil => exact absurd member List.not_mem_nil
  | cons entry rest induction =>
    obtain ⟨fresh, distinctRest⟩ := List.nodup_cons.mp distinct
    change ((map.insert entry.1 entry.2).insertAll rest).get key = _
    obtain rfl | later := List.mem_cons.mp member
    · rw [get_insertAll_of_notMem fresh, get_insert_self]
    · exact induction distinctRest later

theorem get_insertAll_eq_some (found : (map.insertAll added).get key = some value) :
    (key, value) ∈ added ∨ key ∉ added.map Prod.fst ∧ map.get key = some value := by
  induction added generalizing map with
  | nil => exact .inr ⟨List.not_mem_nil, found⟩
  | cons entry rest induction =>
    change ((map.insert entry.1 entry.2).insertAll rest).get key = some value at found
    obtain later | ⟨absent, before⟩ := induction found
    · exact .inl (List.mem_cons_of_mem _ later)
    · rw [get_insert] at before
      by_cases same : key = entry.1
      · rw [if_pos same, Option.some.injEq] at before
        subst same before
        exact .inl List.mem_cons_self
      · rw [if_neg same] at before
        refine .inr ⟨fun listed => ?_, before⟩
        obtain first | later := List.mem_cons.mp listed
        · exact same first
        · exact absent later

theorem mem_of_get_insertAll (found : (empty.insertAll added).get key = some value) :
    (key, value) ∈ added := by
  obtain listed | ⟨_, before⟩ := get_insertAll_eq_some found
  · exact listed
  · rw [get_empty] at before
    cases before

theorem get_insertAll_of_last (last : added = before ++ [(key, value)]) :
    (map.insertAll added).get key = some value := by
  rw [last, insertAll, List.foldl_append]
  exact get_insert_self ..

theorem get_insertAll (map : HashMap K V) (added : List (K × V)) (key : K) :
    (map.insertAll added).get key = ((empty.insertAll added).get key).or (map.get key) := by
  induction added generalizing map with
  | nil => rw [insertAll, insertAll, List.foldl_nil, List.foldl_nil, get_empty, Option.none_or]
  | cons entry rest induction =>
    change ((map.insert entry.1 entry.2).insertAll rest).get key =
      (((empty.insert entry.1 entry.2).insertAll rest).get key).or (map.get key)
    rw [induction (map.insert entry.1 entry.2), induction (empty.insert entry.1 entry.2),
      get_insert, get_insert]
    by_cases same : key = entry.1 <;> simp [same]

theorem isSome_get_insertAll : ((map.insertAll added).get key).isSome ↔
      key ∈ added.map Prod.fst ∨ (map.get key).isSome := by
  induction added generalizing map with
  | nil => simp [insertAll]
  | cons entry rest induction =>
    change (((map.insert entry.1 entry.2).insertAll rest).get key).isSome ↔ _
    rw [induction, isSome_get_insert, List.map_cons, List.mem_cons, or_left_comm, or_assoc]

theorem notMem_of_get_insertAll (absent : (map.insertAll added).get key = none) :
    key ∉ added.map Prod.fst := by
  intro listed
  have present := isSome_get_insertAll.mpr (.inl listed : _ ∨ (map.get key).isSome)
  rw [absent] at present
  cases present

theorem get_insertAll_ne_none :
    (empty.insertAll added).get key ≠ none ↔ key ∈ added.map Prod.fst := by
  simp [Option.ne_none_iff_isSome, isSome_get_insertAll]

theorem get_insertAll_iter (map other : HashMap K V) (order : IterOrder) (key : K) :
    (map.insertAll (other.iter order)).get key = (other.get key).or (map.get key) := by
  cases found : other.get key with
  | some value =>
    exact get_insertAll_of_mem (iter_keys_nodup other order) (mem_iter.mpr found)
  | none => exact get_insertAll_of_notMem (by simp [mem_iter_keys, found])

theorem get_insertAll_removeAll_eq_some {added : HashMap K V}
    (found : ((map.insertAll (added.iter order)).removeAll removed).get key = some value) :
    key ∉ removed ∧
      (added.get key = some value ∨ added.get key = none ∧ map.get key = some value) := by
  rw [get_removeAll, get_insertAll_iter] at found
  by_cases gone : key ∈ removed
  · rw [if_pos gone] at found
    cases found
  · rw [if_neg gone] at found
    refine ⟨gone, ?_⟩
    cases replaced : added.get key with
    | some other =>
      rw [replaced] at found
      exact .inl found
    | none =>
      rw [replaced] at found
      exact .inr ⟨rfl, found⟩

theorem get_insertAll_removeAll_eq_none {added : HashMap K V} (noneAdded : added.get key = none)
    (gone : key ∉ removed → map.get key = none) :
    ((map.insertAll (added.iter order)).removeAll removed).get key = none := by
  rw [get_removeAll, get_insertAll_iter, noneAdded, Option.none_or]
  split
  · rfl
  · next kept => exact gone kept

theorem rel_insertAll
    (paired : List.Forall₂ (fun entry result => result.1 = entry.1 ∧ related entry.2 result.2)
      (map.iter order) results) (key : K) :
    Option.Rel related (map.get key) ((map.insertAll results).get key) := by
  have keys : results.map Prod.fst = (map.iter order).map Prod.fst := by
    generalize map.iter order = entries at paired
    induction paired with
    | nil => rfl
    | cons same _ induction => rw [List.map_cons, List.map_cons, same.1, induction]
  have distinct : (results.map Prod.fst).Nodup := keys ▸ map.iter_keys_nodup order
  cases found : map.get key with
  | none =>
    rw [get_insertAll_of_notMem (by simp [keys, mem_iter_keys, found]), found]
    exact .none
  | some value =>
    have listed : (key, value) ∈ map.iter order := mem_iter.mpr found
    obtain ⟨⟨_, result⟩, member, rfl, holds⟩ := Stateful.Yields.exists_of_paired paired.flip listed
    rw [get_insertAll_of_mem distinct member]
    exact .some holds

variable {keys : List K}

theorem length_le_entries (distinct : keys.Nodup) (present : ∀ key ∈ keys, (map.get key).isSome) :
    keys.length ≤ map.entries.length := by
  have listed : keys ⊆ (map.iter .stored).map Prod.fst := fun key member =>
    mem_iter_keys.mpr (present key member)
  have bounded := (List.subperm_of_subset distinct listed).length_le
  rwa [List.length_map] at bounded

theorem isEmpty_iff : map.isEmpty = true ↔ ∀ key, map.get key = none := by
  rw [isEmpty, List.isEmpty_iff, List.eq_nil_iff_forall_not_mem]
  simp [Option.eq_none_iff_forall_ne_some, mem_entries]

variable (collect : Option V → List A)

theorem flatMap_filter_isSome (map : HashMap K V) (nothing : collect none = []) (keys : List K) :
    (keys.filter fun key => (map.get key).isSome).flatMap (fun key => collect (map.get key)) =
      keys.flatMap fun key => collect (map.get key) := by
  induction keys with
  | nil => rfl
  | cons key rest induction =>
    cases found : map.get key with
    | none => simp [found, nothing, induction]
    | some value => simp [found, induction]

theorem perm_flatMap (map : HashMap K V) (order : IterOrder) (nothing : collect none = [])
    (distinct : keys.Nodup) (all : ∀ key, (map.get key).isSome → key ∈ keys) :
    ((map.iter order).flatMap fun entry => collect (some entry.2)).Perm
      (keys.flatMap fun key => collect (map.get key)) := by
  have byKey : (map.iter order).flatMap (fun entry => collect (some entry.2)) =
      ((map.iter order).map Prod.fst).flatMap fun key => collect (map.get key) := by
    rw [List.flatMap_map]
    refine List.flatMap_congr fun entry member => ?_
    rw [mem_iter.mp (show (entry.1, entry.2) ∈ map.iter order from member)]
  rw [byKey, ← flatMap_filter_isSome collect map nothing keys]
  refine List.Perm.flatMap_right _ ((List.perm_ext_iff_of_nodup (map.iter_keys_nodup order)
    (distinct.filter _)).mpr fun key => ?_)
  rw [List.mem_filter, mem_iter_keys]
  exact ⟨fun present => ⟨all key present, present⟩, And.right⟩

end Lookup

end HashMap

end Krill
