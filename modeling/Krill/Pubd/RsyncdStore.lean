import Krill.Data.Program
import Krill.Pubd.Rrdp

namespace Krill.Pubd

open Rpki
open HashMap

/-! The files for rsync. Every snapshot is written to a directory of its own, which
then takes the place of the current one. Renaming a directory onto one that is not
empty fails, all other operations succeed. -/

/-- What the library and the file system know of paths and contents. -/
class RsyncFiles [Rpki] where
  RelPath : Type
  Bytes : Type
  [decEqRelPath : DecidableEq RelPath]
  [decEqBytes : DecidableEq Bytes]
  relativeTo : Uri → Uri → Option RelPath
  toBytes : Base64 → Bytes
  noBytes : Bytes
  /-- The directories on the way to a file. -/
  parents : RelPath → List RelPath

open RsyncFiles

variable [Rpki] [RsyncFiles]

instance : DecidableEq RelPath := decEqRelPath
instance : DecidableEq Bytes := decEqBytes

structure Directory where
  files : HashMap RelPath Bytes
  dirs : List RelPath
  deriving DecidableEq

namespace Directory

def empty : Directory := ⟨.empty, []⟩

def isEmpty (self : Directory) : Bool := self.files.isEmpty && self.dirs.isEmpty

def createParents (self : Directory) (path : RelPath) : Directory :=
  { self with dirs := self.dirs ++ (parents path).filter fun dir => dir ∉ self.dirs }

def put (self : Directory) (path : RelPath) (bytes : Bytes) : Directory :=
  { self with files := self.files.insert path bytes }

def removeFile (self : Directory) (path : RelPath) : Directory :=
  { self with files := self.files.remove path }

def removeDir (self : Directory) (dir : RelPath) : Directory :=
  { self with dirs := self.dirs.erase dir }

end Directory

inductive RsyncDir where
  | tmp (serial : Nat)
  | current
  | old
  deriving DecidableEq

abbrev RsyncDisk := HashMap RsyncDir Directory

inductive RsyncError where
  | publishingOutsideJail (uri jail : Uri)
  | couldNotRename (source target : RsyncDir)
  | couldNotSave (path : RelPath)
  deriving DecidableEq

abbrev RsyncProgram := Program RsyncDisk RsyncError

namespace RsyncDisk

def modify (self : RsyncDisk) (dir : RsyncDir) (change : Directory → Directory) : RsyncDisk :=
  match self.get dir with
  | some directory => self.insert dir (change directory)
  | none => self

def createDirAll (self : RsyncDisk) (dir : RsyncDir) : RsyncDisk :=
  if self.containsKey dir then self else self.insert dir .empty

def rename (self : RsyncDisk) (source target : RsyncDir) : Except RsyncError RsyncDisk :=
  match self.get source with
  | none => .error (.couldNotRename source target)
  | some directory =>
    match self.get target with
    | some present =>
      if present.isEmpty then .ok ((self.remove source).insert target directory)
      else .error (.couldNotRename source target)
    | none => .ok ((self.remove source).insert target directory)

end RsyncDisk

open Program

def change (dir : RsyncDir) (change : Directory → Directory) : RsyncProgram Unit :=
  perform fun disk => .ok (RsyncDisk.modify disk dir change)

/-- Create the file, with the directories on the way to it, and write its content. -/
def save (dir : RsyncDir) (path : RelPath) (bytes : Bytes) : RsyncProgram Unit := do
  change dir fun directory => directory.createParents path
  change dir fun directory => directory.put path noBytes
  change dir fun directory => directory.put path bytes

def removeDirAll (dir : RsyncDir) (order : IterOrder) : RsyncProgram Unit := do
  let found ← view fun disk => HashMap.get disk dir
  let directory := found.getD .empty
  forEach (fun entry => change dir fun directory => directory.removeFile entry.1)
    (directory.files.iter order)
  forEach (fun inner => change dir fun directory => directory.removeDir inner)
    (order.arrange directory.dirs)
  perform fun disk => .ok (HashMap.remove disk dir)

def renameIfExists (source target : RsyncDir) : RsyncProgram Unit := do
  let present ← view fun disk => HashMap.containsKey disk source
  if present then perform fun disk => RsyncDisk.rename disk source target

def removeIfExists (dir : RsyncDir) (order : IterOrder) : RsyncProgram Unit := do
  let present ← view fun disk => HashMap.containsKey disk dir
  if present then removeDirAll dir order

structure RsyncdStore where
  baseUri : Uri

namespace RsyncdStore

def saveElement (self : RsyncdStore) (dir : RsyncDir) (publish : PublishElement) :
    RsyncProgram Unit :=
  match relativeTo publish.uri self.baseUri with
  | none => fail (.publishingOutsideJail publish.uri self.baseUri)
  | some rel => save dir rel (toBytes publish.base64)

def switchOver (serial : Nat) (order : IterOrder) : RsyncProgram Unit := do
  renameIfExists .current .old
  perform fun disk => RsyncDisk.rename disk (.tmp serial) .current
  removeIfExists .old order

/-- Write all the files to a new directory, then switch things over. -/
def write (self : RsyncdStore) (serial : Nat) (snapshot : SnapshotData) (order : IterOrder) :
    RsyncProgram Unit := do
  perform fun disk => .ok (RsyncDisk.createDirAll disk (.tmp serial))
  forEach (self.saveElement (.tmp serial)) (snapshot.currentObjects.elements order)
  switchOver serial order

section Runs

theorem run_change (present : disk.get dir = some directory) :
    (change dir edit).run disk = (.ok (), disk.insert dir (edit directory)) := by
  simp [change, run_perform, RsyncDisk.modify, present]

theorem run_save_eq (present : disk.get dir = some directory) (path : RelPath) (bytes : Bytes) :
    (save dir path bytes).run disk = (.ok (),
      ((disk.insert dir (directory.createParents path)).insert dir
        ((directory.createParents path).put path noBytes)).insert dir
          (((directory.createParents path).put path noBytes).put path bytes)) := by
  unfold save
  rw [run_bind_of_ok (run_change present), run_bind_of_ok (run_change (get_insert_self ..))]
  exact run_change (get_insert_self ..)

theorem run_save (present : disk.get dir = some directory) :
    ∃ after saved, (save dir path bytes).run disk = (.ok (), after) ∧ after.get dir = some saved ∧
      (∀ other, other ≠ dir → after.get other = disk.get other) ∧
      ∀ other, saved.files.get other = (directory.files.insert path bytes).get other := by
  refine ⟨_, _, run_save_eq present path bytes, get_insert_self .., ?_, ?_⟩
  · intro other different
    simp only [get_insert, if_neg different]
  · intro other
    simp only [Directory.put, Directory.createParents, get_insert]
    by_cases same : other = path <;> simp [same]

variable (self : RsyncdStore)

def entry (publish : PublishElement) : Option (RelPath × Bytes) :=
  (relativeTo publish.uri self.baseUri).map fun rel => (rel, toBytes publish.base64)

/-- The files of some objects, where a later one replaces an earlier one. -/
def files (elements : List PublishElement) : HashMap RelPath Bytes :=
  HashMap.empty.insertAll (elements.filterMap self.entry)

theorem run_saves (present : disk.get dir = some directory) :
    (∀ element ∈ elements, relativeTo element.uri self.baseUri ≠ none) ∧
      (∃ after saved, (forEach (self.saveElement dir) elements).run disk = (.ok (), after) ∧
        after.get dir = some saved ∧
        (∀ other, other ≠ dir → after.get other = disk.get other) ∧
        ∀ path, saved.files.get path =
          ((self.files elements).get path).or (directory.files.get path)) ∨
    (¬ ∀ element ∈ elements, relativeTo element.uri self.baseUri ≠ none) ∧ ∃ failure after,
        (forEach (self.saveElement dir) elements).run disk = (.error failure, after) := by
  induction elements generalizing disk directory with
  | nil =>
    exact .inl ⟨List.forall_mem_nil _, disk, directory, rfl, present, fun _ _ => rfl, fun _ => rfl⟩
  | cons first rest induction =>
    cases found : relativeTo first.uri self.baseUri with
    | none =>
      have fails : (self.saveElement dir first).run disk =
          (.error (.publishingOutsideJail first.uri self.baseUri), disk) := by
        rw [saveElement, found]
        rfl
      exact .inr ⟨fun relative => relative first List.mem_cons_self found, _, _,
        run_bind_of_error fails _⟩
    | some rel =>
      obtain ⟨middle, between, ran, kept, others, contents⟩ :=
        run_save present
      have saves : (self.saveElement dir first).run disk = (.ok (), middle) := by
        rw [saveElement, found]
        exact ran
      obtain ⟨relative, after, saved, looped, stays, same, total⟩ |
        ⟨outside, failure, after, looped⟩ := induction kept
      · refine .inl ⟨List.forall_mem_cons.mpr ⟨found ▸ nofun, relative⟩, after, saved,
          (run_bind_of_ok saves _).trans looped, stays, ?_, ?_⟩
        · intro other different
          rw [same other different, others other different]
        · intro path
          have listed : (first :: rest).filterMap self.entry =
              (rel, toBytes first.base64) :: rest.filterMap self.entry := by
            rw [List.filterMap_cons, entry, found]
            rfl
          have split : (self.files (first :: rest)).get path = ((self.files rest).get path).or
                ((empty.insert rel (toBytes first.base64)).get path) := by
            rw [files, listed]
            exact get_insertAll (empty.insert rel (toBytes first.base64)) _ path
          rw [total, contents, split, get_insert, get_insert]
          by_cases replaced : path = rel <;> simp [replaced]
      · exact .inr ⟨fun relative => outside (List.forall_mem_cons.mp relative).2, failure, after,
          (run_bind_of_ok saves _).trans looped⟩

theorem run_changes (present : disk.get dir = some directory) (edit : A → Directory → Directory)
    (items : List A) :
    ∃ after edited, (forEach (fun item => change dir (edit item)) items).run disk =
      (.ok (), after) ∧ after.get dir = some edited ∧
      ∀ other, other ≠ dir → after.get other = disk.get other := by
  induction items generalizing disk directory with
  | nil => exact ⟨disk, directory, rfl, present, fun _ _ => rfl⟩
  | cons first rest induction =>
    obtain ⟨after, edited, looped, stays, same⟩ :=
      induction (get_insert_self disk dir (edit first directory))
    refine ⟨after, edited, (run_bind_of_ok (run_change present) _).trans looped, stays, ?_⟩
    intro other different
    rw [same other different, get_insert, if_neg different]

theorem run_removeDirAll (present : disk.get dir = some directory) (order : IterOrder) :
    ∃ after, (removeDirAll dir order).run disk = (.ok (), after) ∧
      ∀ other, other ≠ dir → after.get other = disk.get other := by
  obtain ⟨emptied, left, filesGone, stays, sameFiles⟩ := run_changes present
    (fun entry directory => directory.removeFile entry.1) (directory.files.iter order)
  obtain ⟨bare, rest, dirsGone, -, sameDirs⟩ := run_changes stays
    (fun inner directory => directory.removeDir inner) (order.arrange directory.dirs)
  refine ⟨bare.remove dir, ?_, ?_⟩
  · unfold removeDirAll
    rw [run_view_bind]
    simp only [present, Option.getD_some]
    rw [run_bind_of_ok filesGone, run_bind_of_ok dirsGone]
    rfl
  · intro other different
    rw [get_remove, if_neg different, sameDirs other different, sameFiles other different]

end Runs

section Write

variable {self : RsyncdStore}

/-- The directory that the files are saved in, with what an earlier call left there. -/
def leftover (disk : RsyncDisk) (serial : Nat) : Directory :=
  (HashMap.get disk (.tmp serial)).getD .empty

theorem get_createDirAll (disk : RsyncDisk) (serial : Nat) :
    get (RsyncDisk.createDirAll disk (.tmp serial)) (.tmp serial) =
      some (leftover disk serial) := by
  unfold RsyncDisk.createDirAll leftover containsKey
  cases found : get disk (.tmp serial) with
  | none => exact get_insert_self ..
  | some directory => exact found

theorem get_createDirAll_of_ne (different : other ≠ dir) :
    get (RsyncDisk.createDirAll disk dir) other = get disk other := by
  unfold RsyncDisk.createDirAll
  split
  · rfl
  · rw [get_insert, if_neg different]

def Blocked (disk : RsyncDisk) : Prop :=
  (HashMap.get disk .current).isSome ∧
    ∃ directory, HashMap.get disk .old = some directory ∧ directory.isEmpty = false

theorem run_removeIfExists (disk : RsyncDisk) (order : IterOrder) : ∃ after,
    (removeIfExists .old order).run disk = (.ok (), after) ∧
      ∀ other, other ≠ .old → after.get other = disk.get other := by
  unfold removeIfExists
  rw [run_view_bind]
  cases found : get disk .old with
  | none =>
    rw [containsKey_eq_false.mpr found]
    exact ⟨disk, rfl, fun _ _ => rfl⟩
  | some directory =>
    have present : containsKey disk .old = true := by
      rw [containsKey, found]
      rfl
    rw [present]
    exact run_removeDirAll found order

theorem run_renameIfExists (free : ¬ Blocked disk) : ∃ cleared : RsyncDisk,
    (renameIfExists .current .old).run disk = (.ok (), cleared) ∧ cleared.get .current = none ∧
      cleared.get (.tmp serial) = get disk (.tmp serial) := by
  unfold renameIfExists
  rw [run_view_bind]
  cases found : get disk .current with
  | none =>
    rw [containsKey_eq_false.mpr found]
    exact ⟨disk, rfl, found, rfl⟩
  | some current =>
    have present : containsKey disk .current = true := by
      rw [containsKey, found]
      rfl
    have renamed : RsyncDisk.rename disk .current .old =
        .ok ((disk.remove .current).insert .old current) := by
      unfold RsyncDisk.rename
      rw [found]
      cases target : get disk .old with
      | none => rfl
      | some old =>
        have empty : old.isEmpty = true := by
          rw [← Bool.not_eq_false]
          intro full
          exact free ⟨by rw [found]; rfl, old, target, full⟩
        simp only [empty, if_true]
    refine ⟨(disk.remove .current).insert .old current, ?_, ?_, ?_⟩
    · rw [present]
      simp [run_perform, renamed]
    · rw [get_insert, if_neg (by decide), get_remove_self]
    · rw [get_insert, if_neg (by simp), get_remove, if_neg (by simp)]

theorem run_switchOver (saved : disk.get (.tmp serial) = some directory) (free : ¬ Blocked disk)
    (order : IterOrder) :
    ∃ after, (switchOver serial order).run disk = (.ok (), after) ∧
      after.get .current = some directory := by
  obtain ⟨cleared, moved, absent, stays⟩ := run_renameIfExists free
  rw [saved] at stays
  have renamed : (perform fun disk => RsyncDisk.rename disk (.tmp serial) .current :
      RsyncProgram Unit).run cleared =
        (.ok (), (cleared.remove (.tmp serial)).insert .current directory) := by
    simp [run_perform, RsyncDisk.rename, stays, absent]
  obtain ⟨after, cleaned, others⟩ :=
    run_removeIfExists ((cleared.remove (.tmp serial)).insert .current directory) order
  refine ⟨after, ?_, ?_⟩
  · unfold switchOver
    rw [run_bind_of_ok moved, run_bind_of_ok renamed]
    exact cleaned
  · rw [others .current (by decide), get_insert_self]

theorem run_switchOver_blocked (blocked : Blocked disk) :
    (switchOver serial order).run disk = (.error (.couldNotRename .current .old), disk) := by
  obtain ⟨present, old, target, full⟩ := blocked
  obtain ⟨current, found⟩ := Option.isSome_iff_exists.mp present
  have exists_ : containsKey disk .current = true := present
  have fails : (renameIfExists .current .old).run disk =
      (.error (.couldNotRename .current .old), disk) := by
    unfold renameIfExists
    rw [run_view_bind, exists_]
    simp [run_perform, RsyncDisk.rename, found, target, full]
  unfold switchOver
  rw [run_bind_of_error fails]

/-- A call that runs to the end succeeds and leaves the current directory with exactly the
files of its snapshot if and only if all objects are below the base URI, the old directory of
an earlier call is not in the way, and no other file was left in the new directory. -/
theorem write_publishes_iff :
    (∃ after directory, (self.write serial snapshot order).run disk = (.ok (), after) ∧
      after.get .current = some directory ∧
      ∀ path, directory.files.get path =
        (self.files (snapshot.currentObjects.elements order)).get path) ↔
    (∀ element ∈ snapshot.currentObjects.elements order,
      relativeTo element.uri self.baseUri ≠ none) ∧
    ¬ Blocked disk ∧
    ∀ path, (leftover disk serial).files.get path ≠ none →
      ∃ element ∈ snapshot.currentObjects.elements order,
        relativeTo element.uri self.baseUri = some path := by
  have created : (perform fun disk => .ok (RsyncDisk.createDirAll disk (.tmp serial)) :
      RsyncProgram Unit).run disk = (.ok (), RsyncDisk.createDirAll disk (.tmp serial)) := rfl
  have written : (self.write serial snapshot order).run disk =
      (forEach (self.saveElement (.tmp serial)) (snapshot.currentObjects.elements order) >>=
        fun _ => switchOver serial order).run (RsyncDisk.createDirAll disk (.tmp serial)) :=
    run_bind_of_ok created _
  obtain ⟨relative, filled, saved, looped, stays, others, contents⟩ |
    ⟨outside, failure, filled, failed⟩ := run_saves self (get_createDirAll disk serial)
  · rw [run_bind_of_ok looped] at written
    have sameOthers : ∀ other, other ≠ .tmp serial → filled.get other = disk.get other := by
      intro other different
      rw [others other different, get_createDirAll_of_ne different]
    have sameBlocked : Blocked filled ↔ Blocked disk := by
      unfold Blocked
      rw [sameOthers .current (by simp), sameOthers .old (by simp)]
    -- the files are those of the snapshot unless something else was left there
    have exact_ : (∀ path, saved.files.get path =
        (self.files (snapshot.currentObjects.elements order)).get path) ↔
        ∀ path, (leftover disk serial).files.get path ≠ none →
          ∃ element ∈ snapshot.currentObjects.elements order,
            relativeTo element.uri self.baseUri = some path := by
      have listed : ∀ path,
          (self.files (snapshot.currentObjects.elements order)).get path ≠ none ↔
            ∃ element ∈ snapshot.currentObjects.elements order,
              relativeTo element.uri self.baseUri = some path := by
        intro path
        rw [files, get_insertAll_ne_none]
        simp [entry]
      refine forall_congr' fun path => ?_
      rw [contents, ← listed]
      cases (self.files (snapshot.currentObjects.elements order)).get path with
      | none | some => simp
    constructor
    · rintro ⟨after, directory, ran, current, same⟩
      have free : ¬ Blocked disk := by
        intro blocked
        rw [written, run_switchOver_blocked (sameBlocked.mpr blocked)] at ran
        cases ran
      obtain ⟨final, switched, published⟩ :=
        run_switchOver stays (mt sameBlocked.mp free) order
      rw [written, switched] at ran
      cases ran
      rw [published] at current
      cases current
      exact ⟨relative, free, exact_.mp same⟩
    · rintro ⟨-, free, nothingElse⟩
      obtain ⟨final, switched, published⟩ :=
        run_switchOver stays (mt sameBlocked.mp free) order
      exact ⟨final, saved, written.trans switched, published, exact_.mpr nothingElse⟩
  · constructor
    · rintro ⟨after, directory, ran, -⟩
      rw [written, run_bind_of_error failed] at ran
      cases ran
    · rintro ⟨inside, -⟩
      exact absurd inside outside

end Write

end RsyncdStore

end Krill.Pubd

namespace Krill.Pubd.Flat

open Rpki

scoped instance : RsyncFiles where
  RelPath := Nat
  Bytes := Nat
  relativeTo := fun uri base => if uri.1 == base.1 then some uri.2 else none
  toBytes := id
  noBytes := (0 : Nat)
  parents := fun _ => []

def rsync : RsyncdStore := ⟨jail "alice"⟩

def snapshotOf (content file : Nat) : SnapshotData :=
  (SnapshotData.create "").withDelta "" ⟨[⟨content, ("alice", file)⟩], [], []⟩

def firstWritten : RsyncDisk := ((rsync.write 1 (snapshotOf 1 1) .stored).run .empty).2

/-- The second call was stopped when the new directory was in place already. -/
def stoppedBeforeCleaning : RsyncDisk :=
  HashMap.insert (HashMap.insert .empty .old ⟨HashMap.empty.insert (1 : Nat) (1 : Nat), []⟩)
    .current ⟨HashMap.empty.insert (2 : Nat) (2 : Nat), []⟩

theorem write_fails_after_stop :
    ((rsync.write 1 (snapshotOf 1 1) .stored).run .empty).1 = .ok () ∧
    stoppedBeforeCleaning ∈
      (rsync.write 2 (snapshotOf 2 2) .stored).visited firstWritten ∧
    (rsync.write 3 (snapshotOf 3 3) .stored).run stoppedBeforeCleaning =
      (.error (.couldNotRename .current .old),
        HashMap.insert stoppedBeforeCleaning (.tmp 3)
          ⟨HashMap.empty.insert (3 : Nat) (3 : Nat), []⟩) := by
  refine ⟨by decide, by decide, by decide⟩

end Krill.Pubd.Flat
