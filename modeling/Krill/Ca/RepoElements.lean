import Krill.Ca.Revisions

namespace Krill.Ca

open Rpki

variable [Rpki]

structure PublishElement where
  base64 : Base64
  uri : Rsync
  deriving DecidableEq

abbrev RepoElements := HashMap RepositoryContact (List PublishElement)

def PublishedItem.publishElement (self : PublishedItem) (uri : Rsync) : PublishElement :=
  { base64 := self.base64, uri }

namespace KeyObjectSet

def publishesIn (self : KeyObjectSet) (dfltRepo : RepositoryContact) : RepositoryContact :=
  self.oldRepo.getD dfltRepo

def elements (self : KeyObjectSet) (order : IterOrder) : List PublishElement :=
  [self.manifest.publishElement self.signingCert.mftUri,
    self.crl.publishElement self.signingCert.crlUri] ++
  (self.publishedObjects.iter order).map fun (name, object) =>
    object.publishElement (self.signingCert.uriForName name)

def addElements (self : KeyObjectSet) (order : IterOrder) (dfltRepo : RepositoryContact)
    (map : RepoElements) : RepoElements :=
  let repo := self.publishesIn dfltRepo
  map.insert repo ((map.get repo).getD [] ++ self.elements order)

end KeyObjectSet

def ResourceClassObjects.addElements (self : ResourceClassObjects) (order : IterOrder)
    (dfltRepo : RepositoryContact) (map : RepoElements) : RepoElements :=
  match self.keys with
  | .current set => set.addElements order dfltRepo map
  | .staging new set => new.addElements order dfltRepo (set.addElements order dfltRepo map)
  | .old set old => old.addElements order dfltRepo (set.addElements order dfltRepo map)

/-- There is usually one repository. Others are there for keys with an old repository. -/
def CaObjects.repoElementsMap (self : CaObjects) (order : IterOrder) : RepoElements :=
  match self.repo with
  | none => .empty
  | some repo => (self.classes.intoValues order).foldl
      (fun map rco => rco.addElements order repo map) (HashMap.empty.insert repo [])

def RepoElements.elementsIn (map : RepoElements) (contact : RepositoryContact) :
    List PublishElement :=
  (map.get contact).getD []

def KeyObjectSet.elementsIn (self : KeyObjectSet) (order : IterOrder)
    (dfltRepo contact : RepositoryContact) : List PublishElement :=
  if self.publishesIn dfltRepo = contact then self.elements order else []

theorem KeyObjectSet.elementsIn_add (set : KeyObjectSet) (map : RepoElements) :
    (set.addElements order dfltRepo map).elementsIn contact =
      map.elementsIn contact ++ set.elementsIn order dfltRepo contact := by
  unfold addElements RepoElements.elementsIn elementsIn
  dsimp only
  rw [HashMap.get_insert]
  by_cases here : contact = set.publishesIn dfltRepo
  · rw [if_pos here, if_pos here.symm, here]
    rfl
  · rw [if_neg here, if_neg (Ne.symm here), List.append_nil]

theorem ResourceClassObjects.elementsIn_add (rco : ResourceClassObjects) (map : RepoElements) :
    ((rco.addElements order dfltRepo map).elementsIn contact).Perm (map.elementsIn contact ++
      rco.sets.flatMap fun set => set.elementsIn order dfltRepo contact) := by
  obtain ⟨set | ⟨new, set⟩ | ⟨set, old⟩⟩ := rco
  · simp [addElements, sets, KeyObjectSet.elementsIn_add]
  · simp [addElements, sets, KeyObjectSet.elementsIn_add, List.perm_append_left_iff,
      List.perm_append_comm]
  · simp [addElements, sets, KeyObjectSet.elementsIn_add]

theorem KeyObjectSet.elements_perm (set : KeyObjectSet) (order order' : IterOrder) :
    (set.elements order).Perm (set.elements order') := by
  unfold elements
  refine List.Perm.append_left _ (List.Perm.map _ ?_)
  exact (order.perm _).trans (order'.perm _).symm

theorem KeyObjectSet.elementsIn_perm (set : KeyObjectSet) (order order' : IterOrder) :
    (set.elementsIn order dfltRepo contact).Perm (set.elementsIn order' dfltRepo contact) := by
  unfold elementsIn
  split
  · exact set.elements_perm order order'
  · exact .refl _

namespace CaObjects

variable {objects : CaObjects}

def setsNamed (objects : CaObjects) (names : List ResourceClassName) : List KeyObjectSet :=
  names.flatMap fun rcn => setsOf (objects.classes.get rcn)

theorem elementsIn_perm (hasRepo : objects.repo = some dfltRepo) (distinct : names.Nodup)
    (all : ∀ rcn, (objects.classes.get rcn).isSome → rcn ∈ names) :
    ((objects.repoElementsMap order).elementsIn contact).Perm ((objects.setsNamed names).flatMap
      fun set => set.elementsIn order dfltRepo contact) := by
  have added (values : List ResourceClassObjects) (map : RepoElements) :
      ((values.foldl (fun map rco => rco.addElements order dfltRepo map) map).elementsIn
        contact).Perm (map.elementsIn contact ++ values.flatMap fun rco =>
          rco.sets.flatMap fun set => set.elementsIn order dfltRepo contact) := by
    induction values generalizing map with
    | nil => rw [List.flatMap_nil, List.append_nil]; rfl
    | cons rco rest induction =>
      rw [List.foldl_cons, List.flatMap_cons, ← List.append_assoc]
      exact (induction _).trans ((rco.elementsIn_add map).append_right _)
  have start : RepoElements.elementsIn (HashMap.empty.insert dfltRepo []) contact = [] := by
    unfold RepoElements.elementsIn
    rw [HashMap.get_insert]
    split <;> rfl
  have listed := added (objects.classes.intoValues order) (HashMap.empty.insert dfltRepo [])
  rw [start, List.nil_append, HashMap.intoValues, List.flatMap_map] at listed
  unfold repoElementsMap setsNamed
  rw [hasRepo, List.flatMap_assoc]
  exact listed.trans (HashMap.perm_flatMap (fun entry => (setsOf entry).flatMap fun set =>
    set.elementsIn order dfltRepo contact) objects.classes order rfl distinct all)

/-- Without a repository, or without classes, nothing is published. -/
def Silent (objects : CaObjects) : Prop :=
  objects.repo = none ∨ ∀ rcn, objects.classes.get rcn = none

theorem Silent.elementsIn (silent : objects.Silent) :
    (objects.repoElementsMap order).elementsIn contact = [] := by
  cases hasRepo : objects.repo with
  | none =>
    unfold repoElementsMap
    rw [hasRepo]
    rfl
  | some dfltRepo =>
    have noClasses := silent.resolve_left (by simp [hasRepo])
    exact List.Perm.eq_nil (elementsIn_perm hasRepo List.nodup_nil fun rcn present => by
      simp [noClasses rcn] at present)

/-- The same elements in all repositories, and the same repositories to clean. -/
def SameElements (before after : CaObjects) : Prop :=
  (∀ order order' contact, ((before.repoElementsMap order).elementsIn contact).Perm
    ((after.repoElementsMap order').elementsIn contact)) ∧
  after.deprecatedRepos.map DeprecatedRepository.contact =
    before.deprecatedRepos.map DeprecatedRepository.contact

variable {before : CaObjects}

theorem SameElements.trans (first : before.SameElements middle)
    (second : middle.SameElements after) : before.SameElements after :=
  ⟨fun order order' contact => (first.1 order .stored contact).trans
    (second.1 .stored order' contact), second.2.trans first.2⟩

theorem SameElements.of_silent (silentBefore : before.Silent) (silentAfter : after.Silent)
    (deprecatedRepos : after.deprecatedRepos = before.deprecatedRepos) :
    before.SameElements after := by
  refine ⟨fun order order' contact => ?_, congrArg _ deprecatedRepos⟩
  rw [silentBefore.elementsIn, silentAfter.elementsIn]

theorem SameElements.of_classes (repo : after.repo = before.repo)
    (classes : ∀ rcn, after.classes.get rcn = before.classes.get rcn)
    (deprecatedRepos : after.deprecatedRepos = before.deprecatedRepos) :
    before.SameElements after := by
  cases hasRepo : before.repo with
  | none => exact .of_silent (.inl hasRepo) (.inl (repo.trans hasRepo)) deprecatedRepos
  | some dfltRepo =>
    refine ⟨fun order order' contact => ?_, congrArg _ deprecatedRepos⟩
    let names := (before.classes.iter .stored).map Prod.fst
    have distinct : names.Nodup := HashMap.iter_keys_nodup _ _
    have all (rcn : ResourceClassName) (present : (before.classes.get rcn).isSome) :
        rcn ∈ names := HashMap.mem_iter_keys.mpr present
    have listed : ((after.repoElementsMap order').elementsIn contact).Perm _ :=
      elementsIn_perm (repo.trans hasRepo) distinct fun rcn present =>
        all rcn (classes rcn ▸ present)
    unfold setsNamed at listed
    simp only [classes] at listed
    exact (elementsIn_perm hasRepo distinct all).trans (.trans (List.Perm.flatMap_left _
      fun set _ => set.elementsIn_perm order order') listed.symm)

theorem SameElements.refl (objects : CaObjects) : objects.SameElements objects :=
  .of_classes rfl (fun _ => rfl) rfl

end CaObjects

end Krill.Ca
