import Krill.Pubd.RsyncdStore
import Krill.Pubd.Agreement
import Krill.Pubd.PublisherIsolation

namespace Krill.Pubd

open Rpki RsyncFiles UriText Program
open HashMap
open RepositoryContent

variable [Rpki] [RsyncFiles]

class RsyncPaths where
  /-- The path is empty or ends with a slash. -/
  isDir : RelPath → Bool

open RsyncPaths

variable [RsyncPaths]

def Directory.refuses (self : Directory) (path : RelPath) : Bool :=
  isDir path || self.dirs.contains path ||
    (parents path).any fun dir => self.files.containsKey dir

def trySave (dir : RsyncDir) (path : RelPath) (bytes : Bytes) : RsyncProgram Unit := do
  let found ← view fun disk => HashMap.get disk dir
  if (found.getD .empty).refuses path then fail (.couldNotSave path) else save dir path bytes

namespace RsyncdStore

def trySaveElement (self : RsyncdStore) (dir : RsyncDir) (publish : PublishElement) :
    RsyncProgram Unit :=
  match relativeTo publish.uri self.baseUri with
  | none => fail (.publishingOutsideJail publish.uri self.baseUri)
  | some rel => trySave dir rel (toBytes publish.base64)

def tryWrite (self : RsyncdStore) (serial : Nat) (snapshot : SnapshotData) (order : IterOrder) :
    RsyncProgram Unit := do
  perform fun disk => .ok (RsyncDisk.createDirAll disk (.tmp serial))
  forEach (self.trySaveElement (.tmp serial)) (snapshot.currentObjects.elements order)
  switchOver serial order

structure LaidOut (store : RsyncdStore) (uris : Set Uri) : Prop where
  inside : ∀ uri ∈ uris, ∃ path, relativeTo uri store.baseUri = some path
  file : ∀ uri ∈ uris, ∀ path, relativeTo uri store.baseUri = some path → isDir path = false
  apart : ∀ outer ∈ uris, ∀ inner ∈ uris, ∀ above below,
    relativeTo outer store.baseUri = some above → relativeTo inner store.baseUri = some below →
    above ∉ parents below

/-- The directory has no other files than those of the URIs and the directories they need. -/
structure Holds (store : RsyncdStore) (uris : Set Uri) (directory : Directory) : Prop where
  files : ∀ path, (directory.files.get path).isSome →
    ∃ uri ∈ uris, relativeTo uri store.baseUri = some path
  dirs : ∀ dir ∈ directory.dirs,
    ∃ uri ∈ uris, ∃ path, relativeTo uri store.baseUri = some path ∧ dir ∈ parents path

variable {store : RsyncdStore}

theorem LaidOut.sub (laidOut : store.LaidOut uris) (sub : fewer ⊆ uris) : store.LaidOut fewer :=
  ⟨fun uri member => laidOut.inside uri (sub member),
    fun uri member => laidOut.file uri (sub member),
    fun outer isOuter inner isInner => laidOut.apart outer (sub isOuter) inner (sub isInner)⟩

theorem LaidOut.accepts (laidOut : store.LaidOut uris) (holds : store.Holds uris directory)
    (member : uri ∈ uris) (relative : relativeTo uri store.baseUri = some path) :
    directory.refuses path = false := by
  have noDir : path ∉ directory.dirs := by
    intro listed
    obtain ⟨inner, isIn, below, inside, above⟩ := holds.dirs path listed
    exact laidOut.apart uri member inner isIn path below relative inside above
  have noFile : ∀ dir ∈ parents path, directory.files.containsKey dir = false := by
    intro dir above
    apply Bool.eq_false_of_not_eq_true
    intro present
    obtain ⟨outer, isIn, inside⟩ := holds.files dir present
    exact laidOut.apart outer isIn uri member dir path inside relative above
  unfold Directory.refuses
  rw [laidOut.file uri member path relative, List.contains_eq_mem, decide_eq_false noDir,
    List.any_eq_false.mpr]
  · rfl
  · intro dir above
    simp [noFile dir above]

omit [RsyncPaths] in
theorem Holds.save (holds : store.Holds uris directory) (member : uri ∈ uris)
    (relative : relativeTo uri store.baseUri = some path) (bytes : Bytes) :
    store.Holds uris (((directory.createParents path).put path noBytes).put path bytes) := by
  constructor
  · intro other present
    by_cases same : other = path
    · subst same
      exact ⟨uri, member, relative⟩
    · apply holds.files other
      simpa [Directory.put, Directory.createParents, get_insert, same] using present
  · intro dir listed
    rcases List.mem_append.mp listed with before | added
    · exact holds.dirs dir before
    · exact ⟨uri, member, path, relative, List.mem_of_mem_filter added⟩

theorem trySaveElement_eq (laidOut : store.LaidOut uris) (holds : store.Holds uris directory)
    (present : disk.get dir = some directory) (member : element.uri ∈ uris) :
    (store.trySaveElement dir element).run disk = (store.saveElement dir element).run disk := by
  obtain ⟨path, relative⟩ := laidOut.inside element.uri member
  have accepts := laidOut.accepts holds member relative
  unfold trySaveElement saveElement trySave
  rw [relative]
  simp only [run_view_bind, present, Option.getD_some, accepts]
  rfl

theorem trySaves_eq (laidOut : store.LaidOut uris) (holds : store.Holds uris directory)
    (present : disk.get dir = some directory) (members : ∀ element ∈ elements, element.uri ∈ uris) :
    (forEach (store.trySaveElement dir) elements).run disk =
      (forEach (store.saveElement dir) elements).run disk := by
  induction elements generalizing disk directory with
  | nil => rfl
  | cons first rest induction =>
    have member := members first List.mem_cons_self
    obtain ⟨path, relative⟩ := laidOut.inside first.uri member
    have saves : (store.saveElement dir first).run disk = (.ok (),
        ((disk.insert dir (directory.createParents path)).insert dir
          ((directory.createParents path).put path noBytes)).insert dir
            (((directory.createParents path).put path noBytes).put path
              (toBytes first.base64))) := by
      unfold saveElement
      rw [relative]
      exact run_save_eq present path _
    have tries := (trySaveElement_eq laidOut holds present member).trans saves
    refine (run_bind_of_ok tries _).trans (.trans ?_ (run_bind_of_ok saves _).symm)
    apply induction (holds.save member relative _) (get_insert_self ..)
    intro element later
    exact members element (List.mem_cons_of_mem _ later)

theorem tryWrite_succeeds
    (laidOut : store.LaidOut { uri | ∃ hash, snapshot.currentObjects.Names hash uri })
    (free : ¬ Blocked disk) (unused : get disk (.tmp serial) = none) :
    ∃ after, (store.tryWrite serial snapshot order).run disk = (.ok (), after) := by
  have elements : ∀ element ∈ snapshot.currentObjects.elements order,
      element.uri ∈ { uri | ∃ hash, snapshot.currentObjects.Names hash uri } := by
    intro element listed
    obtain ⟨hash, found⟩ := mem_intoValues.mp listed
    exact ⟨hash, element, found, rfl⟩
  have relative : ∀ element ∈ snapshot.currentObjects.elements order,
      relativeTo element.uri store.baseUri ≠ none := by
    intro element listed
    obtain ⟨path, inside⟩ := laidOut.inside element.uri (elements element listed)
    rw [inside]
    exact Option.some_ne_none path
  have created : get (RsyncDisk.createDirAll disk (.tmp serial)) (.tmp serial) = some .empty := by
    rw [get_createDirAll, leftover, unused]
    rfl
  have holds : store.Holds { uri | ∃ hash, snapshot.currentObjects.Names hash uri } .empty :=
    ⟨nofun, nofun⟩
  obtain ⟨-, filled, saved, looped, stays, others, -⟩ | ⟨outside, -⟩ := run_saves store created
  swap
  · exact absurd relative outside
  have stillFree : ¬ Blocked filled := by
    unfold Blocked
    rw [others .current (by simp), others .old (by simp), get_createDirAll_of_ne (by simp),
      get_createDirAll_of_ne (by simp)]
    exact free
  obtain ⟨after, switched, -⟩ := run_switchOver stays stillFree order
  refine ⟨after, ?_⟩
  have tries := (trySaves_eq laidOut holds created elements).trans looped
  have made : (perform fun disk => .ok (RsyncDisk.createDirAll disk (.tmp serial)) :
      RsyncProgram Unit).run disk = (.ok (), RsyncDisk.createDirAll disk (.tmp serial)) := rfl
  exact (run_bind_of_ok made _).trans ((run_bind_of_ok tries _).trans switched)

end RsyncdStore

namespace RepositoryContent

omit [RsyncFiles] [RsyncPaths]

def InPlay (self : RepositoryContent) (uri : Uri) : Prop := ∃ hash, self.Names hash uri

variable {before : RepositoryContent}

theorem not_inPlay_init (env : Surroundings) (uri : Uri) : ¬ (init env).InPlay uri := by
  rintro ⟨hash, ⟨_, _, found, _⟩ | ⟨_, found, _⟩ | ⟨_, found, _⟩⟩
  · cases found
  · cases found
  · cases found

theorem Sent.keyed (sent : before.Sent env command after)
    (keyed : before.rrdp.stagedElements.Keyed) : after.rrdp.stagedElements.Keyed := by
  cases sent with
  | removed | published => exact StagedElements.stage_keyed keyed _
  | updated => exact nofun
  | _ => exact keyed

theorem InPlay.origin (sent : before.Sent env command after)
    (keyed : before.rrdp.stagedElements.Keyed) (inPlay : after.InPlay uri) :
    before.InPlay uri ∨ ∃ publisher delta, command = .publish publisher delta ∧
      ∃ element ∈ delta.toList, element.uri = uri := by
  obtain ⟨hash, names⟩ := inPlay
  cases sent with
  | reset | unknown | unneeded => exact .inl ⟨hash, names⟩
  | added =>
    obtain ⟨other, objects, known, named⟩ | rest := names
    · obtain ⟨rfl, rfl⟩ | known := get_insert_eq_some known
      · obtain ⟨element, present, -⟩ := named
        cases present
      · exact .inl ⟨hash, .inl ⟨other, objects, known, named⟩⟩
    · exact .inl ⟨hash, .inr rest⟩
  | @removed publisher objects known =>
    obtain ⟨other, held, found, named⟩ | served | staged := names
    · exact .inl ⟨hash, .inl ⟨other, held, get_of_remove found, named⟩⟩
    · exact .inl ⟨hash, .inr (.inl served)⟩
    · rcases StagedElements.stage_names staged with earlier | ⟨element, member, same, -⟩
      · exact .inl ⟨hash, .inr (.inr earlier)⟩
      -- a withdraw is staged for each object that the publisher had
      · obtain ⟨p, listed, -⟩ | ⟨u, listed, -⟩ | ⟨w, listed, rfl⟩ :=
          DeltaElements.mem_toList.mp member
        · cases listed
        · cases listed
        · obtain ⟨object, withdrawn, rfl⟩ := List.mem_map.mp listed
          obtain ⟨own, found⟩ := mem_intoValues.mp withdrawn
          exact .inl ⟨own, .inl ⟨publisher, objects, known, object, found, same⟩⟩
  | @published publisher objects delta known =>
    obtain ⟨other, held, found, named⟩ | served | staged := names
    · obtain ⟨rfl, rfl⟩ | found := get_insert_eq_some found
      · rcases CurrentObjects.applyDelta_names named with named | ⟨element, member, same, -⟩
        · exact .inl ⟨hash, .inl ⟨other, objects, known, named⟩⟩
        · exact .inr ⟨other, delta, rfl, element, member, same⟩
      · exact .inl ⟨hash, .inl ⟨other, held, found, named⟩⟩
    · exact .inl ⟨hash, .inr (.inl served)⟩
    · rcases StagedElements.stage_names staged with earlier | ⟨element, member, same, -⟩
      · exact .inl ⟨hash, .inr (.inr earlier)⟩
      · exact .inr ⟨publisher, delta, rfl, element, member, same⟩
  | updated =>
    obtain held | served | ⟨element, found, -⟩ := names
    · exact .inl ⟨hash, .inl held⟩
    · rw [RrdpServer.applyRrdpUpdated_currentObjects] at served
      rcases CurrentObjects.applyDelta_names served with names | ⟨element, member, rfl, named⟩
      · exact .inl ⟨hash, .inr (.inl names)⟩
      · have found := (StagedElements.mem_intoDeltaElements keyed).mp member
        exact .inl ⟨hash, .inr (.inr ⟨element, found, named⟩)⟩
    · cases found

theorem inPlay_of_verified (verified : before.verifyRequest publisher delta jail = .ok ())
    (member : element ∈ delta.toList) :
    before.InPlay element.uri ∨ ∃ p ∈ delta.publishes, p.uri = element.uri := by
  obtain ⟨objects, known, accepted⟩ := verifyRequest_eq_ok.mp verified
  obtain ⟨-, updates, withdraws⟩ := CurrentObjects.verifyDelta_eq_ok.mp accepted
  rcases DeltaElements.mem_toList.mp member with ⟨p, listed, rfl⟩ | ⟨u, listed, rfl⟩ |
    ⟨w, listed, rfl⟩
  · exact .inr ⟨p, listed, rfl⟩
  · obtain ⟨object, found, same⟩ := CurrentObjects.hasMatch_eq_true.mp (updates u listed).2
    exact .inl ⟨u.hash, .inl ⟨publisher, objects, known, object, found, same⟩⟩
  · obtain ⟨object, found, same⟩ := CurrentObjects.hasMatch_eq_true.mp (withdraws w listed).2
    exact .inl ⟨w.hash, .inl ⟨publisher, objects, known, object, found, same⟩⟩

end RepositoryContent

variable [UriText]

def FindsPaths : Prop :=
  ∀ {base uri : Uri}, (canonical base).getLast? = some '/' → canonical base <+: canonical uri →
    ∃ path, relativeTo uri base = some path

namespace RepositoryStores

def rsync (self : RepositoryStores) : RsyncdStore := ⟨self.access.rsyncBase⟩

/-- Objects are only published where neither they nor any other one would be a directory. -/
def Plain (stores : RepositoryStores) : RepositoryRequest → Prop
  | .publish _ delta =>
    (canonical stores.access.rsyncBase).getLast? = some '/' ∧
    ∀ p ∈ (DeltaElements.from delta).publishes, ∀ path,
      relativeTo p.uri stores.access.rsyncBase = some path → isDir path = false ∧
      ∀ other, (stores.content.InPlay other ∨
          ∃ q ∈ (DeltaElements.from delta).publishes, q.uri = other) →
        ∀ place, relativeTo other stores.access.rsyncBase = some place →
          path ∉ parents place ∧ place ∉ parents path
  | _ => True

structure Arranged (stores : RepositoryStores) : Prop where
  derived : ∀ {name publisher}, stores.access.publishers.get name = some publisher →
    fromStr (toText stores.access.rsyncBase ++ (name ++ "/")) = some publisher.baseUri
  keyed : stores.content.rrdp.stagedElements.Keyed
  laidOut : stores.rsync.LaidOut { uri | stores.content.InPlay uri }

variable {stores : RepositoryStores}

theorem Arranged.init (rsyncBase : Uri) (env : Surroundings) :
    (RepositoryStores.init rsyncBase env).Arranged := by
  have nothing := not_inPlay_init env
  exact ⟨nofun, nofun, fun uri member => absurd member (nothing uri),
    fun uri member => absurd member (nothing uri),
    fun uri member => absurd member (nothing uri)⟩

variable {content : RepositoryContent}

theorem Arranged.published (laws : UriLaws) (finds : FindsPaths) (arranged : stores.Arranged)
    (plain : stores.Plain (.publish name delta))
    (known : stores.access.publishers.get name = some publisher)
    (verified : stores.content.verifyRequest name (.from delta) publisher.baseUri = .ok ())
    (sent : stores.content.sendCommand env (.publish name (.from delta)) = .ok content) :
    stores.rsync.LaidOut { uri | content.InPlay uri } := by
  obtain ⟨slash, apart⟩ := plain
  obtain ⟨objects, -, accepted⟩ := verifyRequest_eq_ok.mp verified
  have origin {uri : Uri} (inPlay : content.InPlay uri) : stores.content.InPlay uri ∨
      ∃ p ∈ (DeltaElements.from delta).publishes, p.uri = uri := by
    obtain before | ⟨_, _, same, element, member, rfl⟩ :=
      inPlay.origin (sent_of_ok sent) arranged.keyed
    · exact .inl before
    · cases same
      exact inPlay_of_verified verified member
  refine ⟨?_, ?_, ?_⟩
  · intro uri inPlay
    rcases origin inPlay with before | ⟨p, listed, rfl⟩
    · exact arranged.laidOut.inside uri before
    · apply finds slash
      have inside := laws.isParentOf ((CurrentObjects.verifyDelta_eq_ok.mp accepted).1 p listed).1
      rw [laws.canonical_fromStr (arranged.derived known)] at inside
      exact (List.prefix_append _ _).trans inside
  · intro uri inPlay path relative
    rcases origin inPlay with before | ⟨p, listed, rfl⟩
    · exact arranged.laidOut.file uri before path relative
    · exact (apart p listed path relative).1
  · intro outer outerInPlay inner innerInPlay above below outside inside
    rcases origin outerInPlay with outerBefore | ⟨p, listed, rfl⟩
    · rcases origin innerInPlay with innerBefore | ⟨q, alsoListed, rfl⟩
      · exact arranged.laidOut.apart outer outerBefore inner innerBefore above below outside inside
      · exact ((apart q alsoListed below inside).2 outer (origin outerInPlay) above outside).2
    · exact ((apart p listed above outside).2 inner (origin innerInPlay) below inside).1

theorem Arranged.changed {access : RepositoryAccess} (arranged : stores.Arranged)
    (sent : stores.content.sendCommand env command = .ok content)
    (other : ∀ name delta, command ≠ .publish name delta)
    (sameBase : access.rsyncBase = stores.access.rsyncBase)
    (derived : ∀ {name publisher}, access.publishers.get name = some publisher →
      fromStr (toText stores.access.rsyncBase ++ (name ++ "/")) = some publisher.baseUri) :
    Arranged ⟨access, content⟩ := by
  have sent := sent_of_ok sent
  have kept : stores.rsync.LaidOut { uri | content.InPlay uri } :=
    arranged.laidOut.sub fun uri inPlay => (inPlay.origin sent arranged.keyed).resolve_right
      fun ⟨name, delta, same, _⟩ => other name delta same
  rw [rsync, ← sameBase] at kept
  rw [← sameBase] at derived
  exact ⟨derived, sent.keyed arranged.keyed, kept⟩

theorem Arranged.step (laws : UriLaws) (finds : FindsPaths) (arranged : stores.Arranged)
    (plain : stores.Plain request) (serves : stores.Serves env request after) :
    after.Arranged := by
  cases serves with
  | refused => exact arranged
  | created unknown derived sent =>
    refine arranged.changed sent nofun rfl fun known => ?_
    obtain ⟨rfl, rfl⟩ | known := get_insert_eq_some known
    · exact derived
    · exact arranged.derived known
  | removed sent rest =>
    obtain rfl | rfl := rest
    · exact arranged.changed sent nofun rfl arranged.derived
    · exact arranged.changed sent nofun rfl fun known =>
        arranged.derived (get_of_remove known)
  | published known verified sent =>
    have laidOut := arranged.published laws finds plain known verified sent
    exact ⟨arranged.derived, (sent_of_ok sent).keyed arranged.keyed, laidOut⟩
  | updated sent => exact arranged.changed sent nofun rfl arranged.derived
  | reset sent => exact arranged.changed sent nofun rfl arranged.derived

end RepositoryStores

end Krill.Pubd

namespace Krill.Pubd.Texts

open RepositoryStores

scoped instance : RsyncFiles where
  RelPath := List Char
  Bytes := Nat
  relativeTo := fun uri base =>
    if base.toList.isPrefixOf uri.toList then some (uri.toList.drop base.toList.length) else none
  toBytes := id
  noBytes := (0 : Nat)
  parents := fun path =>
    ((List.range path.length).filter fun place => path[place]? = some '/').map path.take

scoped instance : RsyncPaths where
  isDir := fun path => path.isEmpty || path.getLast? == some '/'

theorem findsPaths : FindsPaths := by
  intro (base : String) (uri : String) _ below
  refine ⟨uri.toList.drop base.toList.length, ?_⟩
  exact if_pos (List.isPrefixOf_iff_prefix.mpr below)

def config : RrdpUpdatesConfig where
  rrdpDeltaFilesMinNr := 1
  rrdpDeltaFilesMinSeconds := 0
  rrdpDeltaFilesMaxNr := 10
  rrdpDeltaFilesMaxSeconds := 10
  rrdpDeltaIntervalMinSeconds := 0

def onePublished : List RepositoryRequest :=
  [add "alice", put "alice" "rsync://localhost/repo/alice/1" 1, .updateRrdp config]

theorem onePublished_plain : Meets Plain env start onePublished := by
  refine ⟨by decide, trivial, by decide, ⟨by decide, ?_⟩, by decide, trivial, trivial⟩
  intro p listed path relative
  cases List.mem_singleton.mp listed
  cases relative
  refine ⟨by decide, ?_⟩
  rintro other (inPlay | ⟨q, alsoListed, rfl⟩) place inside
  · have added : start.content.Sent env (.addPublisher "alice")
        (start.serve env (add "alice")).2.content := .added
    obtain before | ⟨_, _, same, _⟩ := inPlay.origin added nofun
    · exact absurd before (RepositoryContent.not_inPlay_init env other)
    · cases same
  · cases List.mem_singleton.mp alsoListed
    cases inside
    decide

/-- One publisher publishes a file, and another one as if the first were a directory. -/
def blocking : RepositoryStores := start.serveAll env [add "alice", add "bob",
  put "alice" "rsync://localhost/repo/alice/1" 1, put "bob" "rsync://localhost/repo/bob/1" 2,
  put "bob" "rsync://localhost/repo/bob/1/2" 3, .updateRrdp config]

end Krill.Pubd.Texts
