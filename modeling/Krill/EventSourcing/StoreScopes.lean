import Krill.Data.KeyValue
import Mathlib.Data.List.Infix

namespace Krill.Scopes

open KeyValue
open HashMap

abbrev Path := List String

def isHandle (text : String) : Bool :=
  0 < text.toList.length && text.toList.length < 256 && text.toList.all fun char =>
    char.isAlphanum || char == '-' || char == '_' || char == '/' || char == '\\'

@[ext] structure Handle where
  text : String
  valid : isHandle text = true
  deriving DecidableEq

def Handle.fromStr (text : String) : Option Handle :=
  if valid : isHandle text = true then some ⟨text, valid⟩ else none

theorem Handle.fromStr_eq_some : fromStr name = some handle ↔ name = handle.text := by
  simp only [fromStr, Option.dite_none_right_eq_some, Option.some.injEq, Handle.ext_iff]
  refine ⟨fun ⟨_, same⟩ => same, ?_⟩
  rintro rfl
  exact ⟨handle.valid, rfl⟩

/-- The names in a path, where slashes in a row are one. -/
def components (text : String) : Path :=
  ((text.toList.splitOn '/').filter (· ≠ [])).map String.ofList

/-- Directories by their paths, with the files in each. -/
abbrev Dirs (V : Type) := HashMap Path (Entries String V)

def createDirAll (path : Path) (dirs : Dirs V) : Dirs V :=
  path.inits.foldl (fun dirs dir => if dirs.containsKey dir then dirs else dirs.insert dir .empty) dirs

structure KeyValueStoreDiskImpl (V : Type) where
  base : Path
  dirs : Dirs V

inductive DiskError where
  | keyValueError (error : KeyValueError String)
  | ioError

namespace KeyValueStoreDiskImpl

variable (self : KeyValueStoreDiskImpl V)

/-- A scope that starts with a slash replaces the base. -/
def scopePath (scope : String) : Path :=
  if scope.toList.head? = some '/' then components scope else self.base ++ components scope

def isFile (path : Path) : Bool :=
  match path.getLast? with
  | some name => ((self.dirs.get path.dropLast).getD .empty).containsKey name
  | none => false

def pathExists (path : Path) : Bool := self.dirs.containsKey path || self.isFile path

def hasScope (scope : String) : Bool := self.pathExists (self.scopePath scope)

def dropScope (scope : String) : Except DiskError (KeyValueStoreDiskImpl V) :=
  if !self.pathExists (self.scopePath scope) then .ok self
  else if !self.dirs.containsKey (self.scopePath scope) then .error .ioError
  else .ok { self with
    dirs := self.dirs.filter fun path _ => !(self.scopePath scope).isPrefixOf path }

/-- The names of the directories in the base directory. -/
def scopes (order : IterOrder) : List String :=
  self.dirs.selectKeys order fun path =>
    if path.dropLast = self.base then path.getLast? else none

end KeyValueStoreDiskImpl

abbrev AggregateStore := KeyValueStoreDiskImpl

namespace AggregateStore

/-- The files of a new aggregate: its first event, its snapshot and the information on it. -/
def filesForNew (files : Entries String V) (init aggregate info : V) :
    Except (KeyValueError String) (Entries String V) := do
  let stored ← files.storeNew "delta-0.json" init
  let dropped := (stored.store "snapshot-new.json" aggregate).dropKey "snapshot-bk.json"
  let moved ← if dropped.containsKey "snapshot.json" then
    dropped.moveKey "snapshot.json" "snapshot-bk.json" else .ok dropped
  let current ← moved.moveKey "snapshot-new.json" "snapshot.json"
  return current.store "info.json" info

variable (self : AggregateStore V)

def add (handle : Handle) (init aggregate info : V) : Except DiskError (AggregateStore V) :=
  let path := self.scopePath handle.text
  if path.inits.any self.isFile then .error .ioError
  else
    match filesForNew ((self.dirs.get path).getD .empty) init aggregate info with
    | .ok files => .ok { self with dirs := (createDirAll path self.dirs).insert path files }
    | .error error => .error (.keyValueError error)

def dropAggregate (handle : Handle) : Except DiskError (AggregateStore V) :=
  self.dropScope handle.text

def has (handle : Handle) : Bool := self.hasScope handle.text

def list (order : IterOrder) : List Handle := (self.scopes order).filterMap Handle.fromStr

def data (handle : Handle) : Option (Entries String V) := self.dirs.get (self.scopePath handle.text)

end AggregateStore

inductive Operation (V : Type) where
  | add (handle : Handle) (init aggregate info : V)
  | dropAggregate (handle : Handle)

def Operation.handle : Operation V → Handle
  | .add handle .. => handle
  | .dropAggregate handle => handle

/-- A store with the handles that were added and not dropped since. -/
structure Tracked (V : Type) where
  store : AggregateStore V
  live : List Handle

namespace Tracked

def perform (self : Tracked V) : Operation V → Tracked V
  | .add handle init aggregate info =>
    match self.store.add handle init aggregate info with
    | .ok store => ⟨store, handle :: self.live⟩
    | .error _ => self
  | .dropAggregate handle =>
    match self.store.dropAggregate handle with
    | .ok store => ⟨store, self.live.filter (· ≠ handle)⟩
    | .error _ => self

/-- A store in a new directory, with the file for its version if there is one. -/
def new (base : Path) (version : Option V) : Tracked V where
  store :=
    { base
      dirs := (createDirAll base .empty).insert base
        (version.elim .empty (HashMap.empty.insert "version")) }
  live := []

def run (base : Path) (version : Option V) (operations : List (Operation V)) : Tracked V :=
  operations.foldl perform (new base version)

/-- The store lists what it holds, for the handles that are asked about. -/
structure Listed (tracked : Tracked V) (asked : Handle → Prop) : Prop where
  nodup : ∀ order, (tracked.store.list order).Nodup
  mem_list : ∀ order handle, handle ∈ tracked.store.list order ↔ handle ∈ tracked.live
  has_iff : ∀ handle, asked handle → (tracked.store.has handle ↔ handle ∈ tracked.live)
  dropped : ∀ handle other after, asked handle → asked other → other ≠ handle →
    tracked.store.dropAggregate handle = .ok after → after.data other = tracked.store.data other

end Tracked

/-- The handle is a single name, other than that of the file for the version. -/
def Handle.Flat (self : Handle) : Prop := '/' ∉ self.text.toList ∧ self.text ≠ "version"

theorem scopePath_of_flat {store : AggregateStore V} {handle : Handle} (flat : handle.Flat) :
    store.scopePath handle.text = store.base ++ [handle.text] := by
  have nonempty : handle.text.toList ≠ [] := by
    have valid := handle.valid
    unfold isHandle at valid
    rintro none
    simp [none] at valid
  have relative : handle.text.toList.head? ≠ some '/' :=
    fun first => flat.1 (List.mem_of_mem_head? first)
  rw [KeyValueStoreDiskImpl.scopePath, if_neg relative, components,
    List.splitOn_eq_singleton flat.1]
  simp [nonempty]

theorem get_createDirAll {path dir : Path} {dirs : Dirs V} : (createDirAll path dirs).get dir =
    (dirs.get dir).or (if dir <+: path then some .empty else none) := by
  rw [createDirAll]
  simp only [← List.mem_inits]
  induction path.inits generalizing dirs with
  | nil => simp
  | cons first rest induction =>
    rw [List.foldl_cons, induction]
    by_cases same : dir = first
    · subst same
      cases found : dirs.get dir with
      | none | some => simp [containsKey, found]
    · simp only [List.mem_cons, same, false_or]
      split
      · rfl
      · rw [get_insert, if_neg same]

theorem AggregateStore.get_dropAggregate {store : AggregateStore V} {handle : Handle}
    (flat : handle.Flat) (dropped : store.dropAggregate handle = .ok after) :
    after.base = store.base ∧ after.dirs.get (store.base ++ [handle.text]) = none ∧
      ∀ dir, ¬store.base ++ [handle.text] <+: dir → after.dirs.get dir = store.dirs.get dir := by
  unfold dropAggregate KeyValueStoreDiskImpl.dropScope at dropped
  rw [scopePath_of_flat flat] at dropped
  split at dropped
  · next absent =>
      cases dropped
      refine ⟨rfl, ?_, fun _ _ => rfl⟩
      simp only [KeyValueStoreDiskImpl.pathExists, Bool.not_eq_true', Bool.or_eq_false_iff] at absent
      exact containsKey_eq_false.mp absent.1
  · split at dropped
    · cases dropped
    · cases dropped
      refine ⟨rfl, ?_, fun dir outside => ?_⟩ <;> rw [get_filter]
      · simp
      · rw [← List.isPrefixOf_iff_prefix] at outside
        cases store.dirs.get dir with
        | none | some => simp [Option.filter, outside]

namespace Tracked

variable {tracked : Tracked V}

/-- What is in the base directory. -/
structure Holds (tracked : Tracked V) : Prop where
  dirs : (tracked.store.dirs.get (tracked.store.base ++ [name])).isSome ↔
    name ∈ tracked.live.map Handle.text
  files : tracked.store.isFile (tracked.store.base ++ [name]) → name = "version"

namespace Holds

theorem new (base : Path) (version : Option V) : (Tracked.new base version).Holds where
  dirs {name} := by
    have below : ¬base ++ [name] <+: base := fun above => by
      simpa using above.length_le.trans_lt (Nat.lt_succ_self _)
    simp [Tracked.new, get_insert, get_createDirAll, below]
  files held := by
    simp only [Tracked.new, KeyValueStoreDiskImpl.isFile, List.getLast?_concat,
      List.dropLast_concat, get_insert_self, Option.getD_some] at held
    cases version with
    | none => simp [containsKey] at held
    | some version => simpa [containsKey, get_insert] using held

theorem add (holds : tracked.Holds) (flat : handle.Flat)
    (added : tracked.store.add handle init aggregate info = .ok after) :
    Holds ⟨after, handle :: tracked.live⟩ := by
  simp only [AggregateStore.add, scopePath_of_flat flat] at added
  split at added
  · cases added
  · split at added
    · cases added
      refine ⟨fun {name} => ?_, fun {name} held => holds.files ?_⟩
      · rw [isSome_get_insert, get_createDirAll, List.map_cons, List.mem_cons, ← holds.dirs]
        simp
        tauto
      · simpa [KeyValueStoreDiskImpl.isFile, get_insert, get_createDirAll] using held
    · cases added

theorem dropAggregate (holds : tracked.Holds) (flat : handle.Flat)
    (dropped : tracked.store.dropAggregate handle = .ok after) :
    Holds ⟨after, tracked.live.filter (· ≠ handle)⟩ := by
  obtain ⟨base, gone, others⟩ := AggregateStore.get_dropAggregate flat dropped
  refine ⟨fun {name} => ?_, fun {name} held => holds.files ?_⟩
  · rw [base]
    by_cases same : name = handle.text
    · subst same
      simp [gone, Handle.ext_iff]
    · rw [others _ (by simpa using Ne.symm same), holds.dirs]
      simp only [List.mem_map, List.mem_filter, decide_eq_true_eq]
      constructor
      · rintro ⟨live, member, rfl⟩
        exact ⟨live, ⟨member, fun equal => same (congrArg _ equal)⟩, rfl⟩
      · rintro ⟨live, ⟨member, _⟩, rfl⟩
        exact ⟨live, member, rfl⟩
  · have same := others tracked.store.base fun above => by
      simpa using above.length_le.trans_lt (Nat.lt_succ_self _)
    simpa [base, KeyValueStoreDiskImpl.isFile, same] using held

theorem perform (holds : tracked.Holds) (operation : Operation V) (flat : operation.handle.Flat) :
    (tracked.perform operation).Holds := by
  cases operation with
  | add handle init aggregate info =>
    simp only [Tracked.perform]
    split
    · next added => exact holds.add flat added
    · exact holds
  | dropAggregate handle =>
    simp only [Tracked.perform]
    split
    · next dropped => exact holds.dropAggregate flat dropped
    · exact holds

end Holds

end Tracked

end Krill.Scopes
