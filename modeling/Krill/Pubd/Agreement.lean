import Mathlib.Logic.Relation
import Krill.Pubd.RepositoryContent
import Krill.Pubd.UriView

namespace Krill.Pubd

open Rpki Changeset
open HashMap
open StagedElements

variable [Rpki]

namespace RepositoryContent

def Accepts (jail : PublisherHandle → Uri) (self : RepositoryContent) :
    RepositoryContentCommand → Prop
  | .addPublisher publisher => self.publishers.get publisher = none
  | .publish publisher delta =>
    self.verifyRequest publisher delta (jail publisher) = .ok ()
  | .removePublisher _ => True
  | .createRrdpDelta _ => True
  | .resetSession => True

instance (jail : PublisherHandle → Uri) (self : RepositoryContent) :
    (command : RepositoryContentCommand) → Decidable (self.Accepts jail command)
  | .addPublisher publisher =>
    inferInstanceAs (Decidable (self.publishers.get publisher = none))
  | .publish publisher delta =>
    match verified : self.verifyRequest publisher delta (jail publisher) with
    | .ok () => isTrue verified
    | .error _ => isFalse (fun accepted => by
      rw [Accepts, verified] at accepted
      cases accepted)
  | .removePublisher _ => isTrue trivial
  | .createRrdpDelta _ => isTrue trivial
  | .resetSession => isTrue trivial

def Step (jail : PublisherHandle → Uri)
    (condition : RepositoryContent → RepositoryContentCommand → Prop)
    (before after : RepositoryContent) : Prop :=
  ∃ env command, before.Accepts jail command ∧ condition before command ∧
    before.sendCommand env command = .ok after

abbrev Run (jail : PublisherHandle → Uri)
    (condition : RepositoryContent → RepositoryContentCommand → Prop) :
    RepositoryContent → RepositoryContent → Prop :=
  Relation.ReflTransGen (Step jail condition)

def replay (jail : PublisherHandle → Uri) (self : RepositoryContent) :
    List (Surroundings × RepositoryContentCommand) → Option RepositoryContent
  | [] => some self
  | (env, command) :: rest =>
    if self.Accepts jail command then
      match self.sendCommand env command with
      | .ok next => next.replay jail rest
      | .error _ => none
    else none

theorem replay_run (replayed : self.replay jail commands = some after) :
    Run jail (fun _ _ => True) self after := by
  induction commands generalizing self with
  | nil =>
    cases replayed
    exact .refl
  | cons first rest induction =>
    obtain ⟨env, command⟩ := first
    unfold replay at replayed
    split at replayed
    · next accepted =>
        split at replayed
        · next next sent =>
            exact .head ⟨env, command, accepted, trivial, sent⟩ (induction replayed)
        · cases replayed
    · cases replayed

def publishedPairs (self : RepositoryContent) : Set (Uri × Base64) :=
  { pair | ∃ publisher objects,
    self.publishers.get publisher = some objects ∧ pair ∈ objects.pairs }

def snapshotPairs (self : RepositoryContent) : Set (Uri × Base64) :=
  self.rrdp.snapshot.currentObjects.pairs

/-- A hash is in use for a URI: by a publisher, in the snapshot or staged. -/
def Names (self : RepositoryContent) (hash : Hash) (uri : Uri) : Prop :=
  (∃ publisher objects, self.publishers.get publisher = some objects ∧
    objects.Names hash uri) ∨
  self.rrdp.snapshot.currentObjects.Names hash uri ∨
  self.rrdp.stagedElements.Names hash uri

def SnapshotAllows (self : RepositoryContent) (withdraw : WithdrawElement) : Prop :=
  ∀ base64, (withdraw.uri, base64) ∈ self.snapshotPairs → toHash base64 = withdraw.hash

def SnapshotHolds (self : RepositoryContent) (withdraw : WithdrawElement) : Prop :=
  ∃ base64, (withdraw.uri, base64) ∈ self.snapshotPairs ∧ toHash base64 = withdraw.hash

/-- The condition under which staging loses nothing: a delta names every URI
once, publishes where the publisher has nothing, uses no hash for two URIs, and
whatever is withdrawn is as the snapshot allows. -/
def Orderly (allowed : RepositoryContent → WithdrawElement → Prop)
    (self : RepositoryContent) : RepositoryContentCommand → Prop
  | .publish publisher delta =>
    (delta.toList.map DeltaElement.uri).Nodup ∧
    (∀ p ∈ delta.publishes, ∀ objects base64, self.publishers.get publisher = some objects →
        (p.uri, base64) ∉ objects.pairs) ∧
    (Relator.RightUnique fun hash uri =>
      self.Names hash uri ∨ delta.Names hash uri) ∧
    ∀ w ∈ delta.withdraws, allowed self w
  | .removePublisher publisher => ∀ objects hash element,
      self.publishers.get publisher = some objects →
        objects.map.get hash = some element → allowed self element.asWithdraw
  | .addPublisher _ => True
  | .createRrdpDelta _ => True
  | .resetSession => True

def within (jail : Uri) (content : ContentMap) : ContentMap :=
  fun uri => if isParentOf jail uri then content uri else none

def DisjointJails (jail : PublisherHandle → Uri) : Prop :=
  ∀ first second uri, isParentOf (jail first) uri = true →
    isParentOf (jail second) uri = true → first = second

structure Consistent (jail : PublisherHandle → Uri)
    (matching : Hash → Option Base64 → Prop) (content : RepositoryContent)
    (published snapshot : ContentMap) : Prop where
  objects : ∀ {publisher objects}, content.publishers.get publisher = some objects →
    objects.Shows (within (jail publisher) published)
  owned : ∀ {uri base64}, published uri = some base64 →
    ∃ publisher objects, content.publishers.get publisher = some objects ∧
      isParentOf (jail publisher) uri = true
  shown : content.rrdp.snapshot.currentObjects.Shows snapshot
  keyed : content.rrdp.stagedElements.Keyed
  pending : Pending matching snapshot published content.rrdp.stagedElements.changeAt
  oneHome : Relator.RightUnique content.Names

namespace Consistent

variable {jail : PublisherHandle → Uri} {matching : Hash → Option Base64 → Prop}
  {self : RepositoryContent} {published snapshot : ContentMap}

theorem init (env : Surroundings) : Consistent jail matching (RepositoryContent.init env)
      (fun _ => none) (fun _ => none) where
  objects := by
    intro publisher objects found
    simp [RepositoryContent.init] at found
  owned := by
    intro uri base64 impossible
    cases impossible
  shown := CurrentObjects.shows_default
  keyed := by
    intro uri element found
    simp [RepositoryContent.init, RrdpServer.create, StagedElements.default] at found
  pending := by
    have empty : (RepositoryContent.init env).rrdp.stagedElements.changeAt =
        fun _ => none := by
      funext uri
      simp [RepositoryContent.init, RrdpServer.create, StagedElements.default,
        StagedElements.changeAt]
    rw [empty]
    exact Pending.flush matching _
  oneHome := by
    intro hash left right names
    rcases names with ⟨publisher, objects, found, -⟩ | ⟨element, found, -⟩ |
      ⟨element, found, -⟩
    · simp [RepositoryContent.init] at found
    · simp [RepositoryContent.init, RrdpServer.create, SnapshotData.create,
        CurrentObjects.default] at found
    · simp [RepositoryContent.init, RrdpServer.create, StagedElements.default] at found

section Views

variable (consistent : Consistent jail matching self published snapshot)

include consistent

theorem mem_publishedPairs : (uri, base64) ∈ self.publishedPairs ↔ published uri = some base64 := by
  constructor
  · intro member
    obtain ⟨publisher, objects, found, held⟩ := member
    rw [(consistent.objects found).mem_pairs, within] at held
    split at held
    · exact held
    · cases held
  · intro present
    obtain ⟨publisher, objects, found, inside⟩ := consistent.owned present
    refine ⟨publisher, objects, found, ?_⟩
    rw [(consistent.objects found).mem_pairs, within, if_pos inside]
    exact present

theorem mem_snapshotPairs : (uri, base64) ∈ self.snapshotPairs ↔ snapshot uri = some base64 :=
  consistent.shown.mem_pairs

theorem pairs_eq_of_unstaged (unstaged : self.rrdp.stagedElements.map.isEmpty = true) :
    self.snapshotPairs = self.publishedPairs := by
  ext ⟨uri, base64⟩
  have nothing : self.rrdp.stagedElements.changeAt uri = none := by
    simp [changeAt, isEmpty_iff.mp unstaged uri]
  rw [consistent.mem_snapshotPairs, consistent.mem_publishedPairs,
    consistent.pending.current_eq_base nothing]

theorem stage (implied : ∀ hash present, Exactly toHash hash present → matching hash present)
    (distinct : (delta.toList.map DeltaElement.uri).Nodup) (fits : ∀ element ∈ delta.toList,
      element.change.Fits (Exactly toHash) (published element.uri))
    (withdrawn : ∀ w ∈ delta.withdraws, matching w.hash (snapshot w.uri)) :
    (self.rrdp.stagedElements.stage delta).Keyed ∧ Pending matching snapshot
        (patch delta.changeAt published)
        (self.rrdp.stagedElements.stage delta).changeAt := by
  rw [stage_eq_foldl]
  refine ⟨foldl_stageElement_keyed consistent.keyed, ?_⟩
  rw [foldl_stageElement_changeAt distinct]
  apply consistent.pending.stage implied
  · intro uri change found
    obtain ⟨element, member, same⟩ := List.mem_map.mp (lookup_mem found)
    cases same
    exact fits element member
  · intro uri hash found
    obtain ⟨element, member, same⟩ := List.mem_map.mp (lookup_mem found)
    rcases DeltaElements.mem_toList.mp member with
      ⟨p, -, rfl⟩ | ⟨u, -, rfl⟩ | ⟨w, listed, rfl⟩
    · cases same
    · cases same
    · cases same
      exact withdrawn w listed

end Views

end Consistent

variable {delta : DeltaElements}

theorem mem_changes_uri {change : Change Base64 Hash} (found : delta.changeAt uri = some change) :
    ∃ element ∈ delta.toList, element.uri = uri ∧ element.change = change := by
  obtain ⟨element, member, same⟩ := List.mem_map.mp (lookup_mem found)
  cases same
  exact ⟨element, member, rfl, rfl⟩

theorem within_patch_inside
    (inside : ∀ element ∈ delta.toList, isParentOf jail element.uri = true) :
    within jail (patch delta.changeAt content) = patch delta.changeAt (within jail content) := by
  funext uri
  cases found : delta.changeAt uri with
  | none => simp only [within, patch, found, Option.map_none, Option.getD_none]
  | some change =>
    obtain ⟨element, member, sameUri, -⟩ := mem_changes_uri found
    have inJail := inside element member
    rw [sameUri] at inJail
    simp only [within, patch, found, inJail, if_true, Option.map_some, Option.getD_some]

theorem within_patch_outside
    (outside : ∀ element ∈ delta.toList, isParentOf jail element.uri = false) :
    within jail (patch delta.changeAt content) = within jail content := by
  funext uri
  cases found : delta.changeAt uri with
  | none => simp only [within, patch, found, Option.map_none, Option.getD_none]
  | some change =>
    obtain ⟨element, member, sameUri, -⟩ := mem_changes_uri found
    have inJail := outside element member
    rw [sameUri] at inJail
    simp [within, inJail]

/-- A condition on withdraws that guarantees how they match the snapshot. -/
structure WithdrawRule (matching : Hash → Option Base64 → Prop)
    (allowed : RepositoryContent → WithdrawElement → Prop) : Prop where
  ofExactly : ∀ hash present, Exactly toHash hash present → matching hash present
  atMost : ∀ hash present, matching hash present → AtMost toHash hash present
  allows : ∀ {content snapshot w},
    content.rrdp.snapshot.currentObjects.Shows snapshot → allowed content w →
      matching w.hash (snapshot w.uri)

theorem lenientRule : WithdrawRule (AtMost toHash) SnapshotAllows where
  ofExactly := fun _ _ exactly => exactly.atMost
  atMost := fun _ _ atMost => atMost
  allows := fun shows allowed base64 present =>
    allowed base64 (shows.mem_pairs.mpr present)

theorem strictRule : WithdrawRule (Exactly toHash) SnapshotHolds where
  ofExactly := fun _ _ exactly => exactly
  atMost := fun _ _ exactly => exactly.atMost
  allows := by
    intro content snapshot w shows allowed
    obtain ⟨base64, member, named⟩ := allowed
    exact ⟨base64, shows.mem_pairs.mp member, named⟩

theorem rightUnique_of_imp {small large : Hash → Uri → Prop} (unique : Relator.RightUnique large)
    (narrow : ∀ {hash uri}, small hash uri → large hash uri) : Relator.RightUnique small :=
  fun _ _ _ left right => unique (narrow left) (narrow right)

theorem DisjointJails.outside {jail : PublisherHandle → Uri} (disjoint : DisjointJails jail)
    (different : other ≠ publisher) (inside : isParentOf (jail publisher) uri = true) :
    isParentOf (jail other) uri = false :=
  Bool.eq_false_of_not_eq_true fun elsewhere => different (disjoint _ _ _ elsewhere inside)

namespace Consistent

variable {jail : PublisherHandle → Uri} {matching : Hash → Option Base64 → Prop}
  {self : RepositoryContent} {published snapshot : ContentMap} {objects : CurrentObjects}

theorem addPublisher (consistent : Consistent jail matching self published snapshot)
    (disjoint : DisjointJails jail) (fresh : self.publishers.get publisher = none)
    (revision : Nat) :
    Consistent jail matching
      { self with
        revision
        publishers := self.publishers.insert publisher .default }
      published snapshot where
  objects := by
    intro other objects found
    simp only [get_insert] at found
    split at found
    · next same =>
        subst same
        cases found
        have nothing : within (jail other) published = fun _ => none := by
          funext uri
          unfold within
          split
          · next inside =>
              cases present : published uri with
              | none => rfl
              | some base64 =>
                obtain ⟨owner, held, known, owns⟩ := consistent.owned present
                rw [disjoint _ _ _ owns inside, fresh] at known
                cases known
          · rfl
        rw [nothing]
        exact CurrentObjects.shows_default
    · exact consistent.objects found
  owned := by
    intro uri base64 present
    obtain ⟨owner, held, known, owns⟩ := consistent.owned present
    have different : owner ≠ publisher := by
      intro same
      rw [same, fresh] at known
      cases known
    refine ⟨owner, held, ?_, owns⟩
    simp only [get_insert, if_neg different]
    exact known
  shown := consistent.shown
  keyed := consistent.keyed
  pending := consistent.pending
  oneHome := by
    refine rightUnique_of_imp consistent.oneHome fun {hash uri} names => ?_
    rcases names with ⟨owner, held, known, ⟨element, found, same⟩⟩ | others
    · simp only [get_insert] at known
      split at known
      · cases known
        simp [CurrentObjects.default] at found
      · exact .inl ⟨owner, held, known, element, found, same⟩
    · exact .inr others

theorem publish (rule : WithdrawRule matching allowed)
    (disjoint : DisjointJails jail)
    (consistent : Consistent jail matching self published snapshot)
    (known : self.publishers.get publisher = some objects)
    (verified : objects.verifyDelta delta (jail publisher) = .ok ())
    (orderly : self.Orderly allowed (.publish publisher delta)) (revision : Nat) :
    Consistent jail matching
      { revision
        publishers := self.publishers.insert publisher (objects.applyDelta delta)
        rrdp := self.rrdp.applyRrdpStaged delta }
      (patch delta.changeAt published) snapshot := by
  obtain ⟨distinct, absent, oneHome, withdrawn⟩ := orderly
  have shows := consistent.objects known
  have inside (element : DeltaElement) (member : element ∈ delta.toList) :=
    CurrentObjects.verifyDelta_inside verified member
  have fits (element : DeltaElement) (member : element ∈ delta.toList) :
      element.change.Fits (Exactly toHash) (published element.uri) := by
    have fits := shows.verified_fits verified
      (fun p listed base64 => absent p listed objects base64 known) member
    rwa [within, if_pos (inside element member)] at fits
  obtain ⟨keyed, pending⟩ := consistent.stage rule.ofExactly distinct
    (fun element member => fits element member)
    (fun w listed => rule.allows consistent.shown (withdrawn w listed))
  refine
    { objects := ?_, owned := ?_, shown := consistent.shown, keyed, pending,
      oneHome := ?_ }
  · intro other held found
    simp only [get_insert] at found
    split at found
    · next same =>
        subst same
        cases found
        rw [within_patch_inside inside]
        apply shows.applyDelta distinct
        · exact rightUnique_of_imp oneHome fun names =>
            names.imp_left fun named => .inl ⟨other, objects, known, named⟩
        · intro element member
          rw [within, if_pos (inside element member)]
          exact (fits element member).weaken fun hash exactly => exactly.atMost
    · next different =>
        rw [within_patch_outside fun element member =>
          disjoint.outside different (inside element member)]
        exact consistent.objects found
  · intro uri base64 present
    have owner : ∃ owner held, self.publishers.get owner = some held ∧
        isParentOf (jail owner) uri = true := by
      cases found : delta.changeAt uri with
      | none =>
        rw [patch_none found] at present
        exact consistent.owned present
      | some change =>
        obtain ⟨element, member, rfl, -⟩ := mem_changes_uri found
        exact ⟨publisher, objects, known, inside element member⟩
    obtain ⟨owner, held, found, owns⟩ := owner
    by_cases same : owner = publisher
    · subst same
      exact ⟨owner, _, get_insert_self .., owns⟩
    · refine ⟨owner, held, ?_, owns⟩
      simp only [get_insert, if_neg same]
      exact found
  · refine rightUnique_of_imp oneHome fun {hash uri} names => ?_
    rcases names with ⟨owner, held, found, named⟩ | named | named
    · simp only [get_insert] at found
      split at found
      · cases found
        exact (CurrentObjects.applyDelta_names named).imp_left
          fun earlier => .inl ⟨publisher, objects, known, earlier⟩
      · exact .inl (.inl ⟨owner, held, found, named⟩)
    · exact .inl (.inr (.inl named))
    · exact (stage_names named).imp_left fun earlier => .inr (.inr earlier)

abbrev withdrawAll (objects : CurrentObjects) (order : IterOrder) : DeltaElements :=
  ⟨[], [], (objects.elements order).map PublishElement.asWithdraw⟩

theorem mem_withdrawAll (member : element ∈ (withdrawAll objects order).toList) :
    ∃ hash held, objects.map.get hash = some held ∧ element = .withdraw held.asWithdraw := by
  rcases DeltaElements.mem_toList.mp member with
    ⟨p, listed, -⟩ | ⟨u, listed, -⟩ | ⟨w, listed, rfl⟩
  · cases listed
  · cases listed
  · obtain ⟨held, inObjects, rfl⟩ := List.mem_map.mp listed
    obtain ⟨hash, found⟩ := mem_intoValues.mp inObjects
    exact ⟨hash, held, found, rfl⟩

theorem withdrawAll_distinct (shows : objects.Shows content) (order : IterOrder) :
    ((withdrawAll objects order).toList.map DeltaElement.uri).Nodup := by
  have sameUris : (withdrawAll objects order).toList.map DeltaElement.uri =
      (objects.elements order).map PublishElement.uri := by
    simp [DeltaElements.toList, DeltaElement.uri, PublishElement.asWithdraw, Function.comp_def]
  rw [sameUris]
  exact shows.elements_distinct order

theorem removePublisher (rule : WithdrawRule matching allowed) (disjoint : DisjointJails jail)
    (consistent : Consistent jail matching self published snapshot)
    (known : self.publishers.get publisher = some objects)
    (orderly : self.Orderly allowed (.removePublisher publisher))
    (order : IterOrder) (revision : Nat) :
    Consistent jail matching
      { revision
        publishers := self.publishers.remove publisher
        rrdp := self.rrdp.applyRrdpStaged (withdrawAll objects order) }
      (patch (withdrawAll objects order).changeAt published) snapshot := by
  have shows := consistent.objects known
  have distinct := withdrawAll_distinct shows order
  have present : ∀ {hash held}, objects.map.get hash = some held →
      isParentOf (jail publisher) held.uri = true ∧ published held.uri = some held.base64 := by
    intro hash held found
    have inside := shows.mem_pairs.mp ⟨hash, found⟩
    unfold within at inside
    split at inside
    · next jailed => exact ⟨jailed, inside⟩
    · cases inside
  have fits : ∀ element ∈ (withdrawAll objects order).toList,
      element.change.Fits (Exactly toHash) (published element.uri) := by
    intro element member
    obtain ⟨hash, held, found, rfl⟩ := mem_withdrawAll member
    exact ⟨held.base64, (present found).2, rfl⟩
  have withdrawn : ∀ w ∈ (withdrawAll objects order).withdraws,
      matching w.hash (snapshot w.uri) := by
    intro w listed
    obtain ⟨held, inObjects, rfl⟩ := List.mem_map.mp listed
    obtain ⟨hash, found⟩ := mem_intoValues.mp inObjects
    exact rule.allows consistent.shown (orderly objects hash held known found)
  obtain ⟨keyed, pending⟩ :=
    consistent.stage rule.ofExactly distinct fits withdrawn
  refine
    { objects := ?_, owned := ?_, shown := consistent.shown, keyed, pending,
      oneHome := ?_ }
  · intro other held found
    simp only [get_remove] at found
    split at found
    · cases found
    · next different =>
        rw [within_patch_outside fun element member => ?_]
        · exact consistent.objects found
        · obtain ⟨hash, held, inObjects, rfl⟩ := mem_withdrawAll member
          exact disjoint.outside different (present inObjects).1
  · intro uri base64 remaining
    cases listed : (withdrawAll objects order).changeAt uri with
    | some change =>
      obtain ⟨element, member, -, rfl⟩ := mem_changes_uri listed
      obtain ⟨hash, held, -, rfl⟩ := mem_withdrawAll member
      rw [patch_some listed] at remaining
      cases remaining
    | none =>
      rw [patch_none listed] at remaining
      obtain ⟨owner, held, found, owns⟩ := consistent.owned remaining
      have different : owner ≠ publisher := by
        intro same
        subst same
        have inObjects : (uri, base64) ∈ objects.pairs := by
          rw [shows.mem_pairs, within, if_pos owns]
          exact remaining
        obtain ⟨hash, inMap⟩ := inObjects
        have member : (uri, Change.withdraw (toHash base64)) ∈
            (withdrawAll objects order).changes := by
          apply List.mem_map.mpr
          refine ⟨.withdraw ⟨uri, toHash base64⟩, ?_, rfl⟩
          apply DeltaElements.mem_toList.mpr
          refine .inr (.inr ⟨_, List.mem_map.mpr ⟨⟨base64, uri⟩, ?_, rfl⟩, rfl⟩)
          exact mem_intoValues.mpr ⟨hash, inMap⟩
        have someListed : (withdrawAll objects order).changeAt uri = some _ :=
          mem_lookup (by rw [DeltaElements.changes, List.map_map]; exact distinct) member
        rw [listed] at someListed
        cases someListed
      refine ⟨owner, held, ?_, owns⟩
      simp only [get_remove, if_neg different]
      exact found
  · refine rightUnique_of_imp consistent.oneHome fun {hash uri} names => ?_
    rcases names with ⟨owner, held, found, named⟩ | named | named
    · exact .inl ⟨owner, held, get_of_remove found, named⟩
    · exact .inr (.inl named)
    · rcases stage_names named with earlier | ⟨element, member, rfl, now⟩
      · exact .inr (.inr earlier)
      · obtain ⟨key, held, found, rfl⟩ := mem_withdrawAll member
        have sameKey : hash = key := now.trans (shows.keyed found)
        subst sameKey
        exact .inl ⟨publisher, objects, known, held, found, rfl⟩

theorem sessionReset (consistent : Consistent jail matching self published snapshot)
    (env : Surroundings) (revision : Nat) :
    Consistent jail matching
      { self with
        revision
        rrdp := self.rrdp.applySessionReset (self.rrdp.resetSession env) }
      published snapshot where
  objects := consistent.objects
  owned := consistent.owned
  shown := consistent.shown
  keyed := consistent.keyed
  pending := consistent.pending
  oneHome := consistent.oneHome

section Staged

variable (consistent : Consistent jail matching self published snapshot)

include consistent

theorem staged_names {hash : Hash}
    (names : (self.rrdp.stagedElements.intoDeltaElements order).Names hash uri) :
    self.rrdp.stagedElements.Names hash uri := by
  obtain ⟨element, member, rfl, named⟩ := names
  exact ⟨element, (mem_intoDeltaElements consistent.keyed).mp member, named⟩

theorem staged_fits (member : element ∈ (self.rrdp.stagedElements.intoDeltaElements order).toList) :
    element.change.Fits matching (snapshot element.uri) := by
  apply consistent.pending.fits
  rw [changeAt, (mem_intoDeltaElements consistent.keyed).mp member]
  rfl

theorem staged_patch (order : IterOrder) :
    patch (self.rrdp.stagedElements.intoDeltaElements order).changeAt snapshot = published := by
  have sameChanges : (self.rrdp.stagedElements.intoDeltaElements order).changeAt =
      self.rrdp.stagedElements.changeAt := by
    funext uri
    exact intoDeltaElements_changeAt consistent.keyed order uri
  rw [sameChanges]
  exact consistent.pending.total

end Staged

theorem rrdpUpdated (rule : WithdrawRule matching allowed)
    (consistent : Consistent jail matching self published snapshot)
    (update : RrdpUpdated) (order : IterOrder) (revision : Nat) :
    Consistent jail matching
      { self with revision, rrdp := self.rrdp.applyRrdpUpdated update order }
      published published := by
  have shown := consistent.shown.applyDelta
    (intoDeltaElements_distinct consistent.keyed order)
    (rightUnique_of_imp consistent.oneHome fun names =>
      .inr (names.imp_right consistent.staged_names))
    (fun element member => (consistent.staged_fits member).weaken
      fun hash matched => rule.atMost hash _ matched)
  rw [consistent.staged_patch order] at shown
  refine
    { objects := consistent.objects, owned := consistent.owned, shown, keyed := ?_,
      pending := ?_, oneHome := ?_ }
  · intro uri element found
    simp [StagedElements.default] at found
  · have empty : StagedElements.default.changeAt = fun _ => none := by
      funext uri
      simp [StagedElements.default, StagedElements.changeAt]
    rw [RrdpServer.applyRrdpUpdated_stagedElements, empty]
    exact Pending.flush matching published
  · refine rightUnique_of_imp consistent.oneHome fun {hash uri} names => ?_
    rcases names with named | named | ⟨element, found, -⟩
    · exact .inl named
    · exact .inr ((CurrentObjects.applyDelta_names named).imp_right consistent.staged_names)
    · simp [StagedElements.default] at found

end Consistent

end RepositoryContent

end Krill.Pubd
