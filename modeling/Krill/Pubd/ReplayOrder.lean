import Krill.Pubd.RrdpRuns

namespace Krill.Pubd

open Rpki LastWrite
open HashMap

variable [Rpki]

/-! A change set in the log says that the staged elements are to be made into a delta. It does
not say in which order the hash map of staged elements lists them, so a replay may choose
another order than the live server did. -/

namespace DeltaElement

def toPublish : DeltaElement → Option PublishElement
  | .publish element => some element
  | _ => none

def toUpdate : DeltaElement → Option UpdateElement
  | .update element => some element
  | _ => none

def toWithdraw : DeltaElement → Option WithdrawElement
  | .withdraw element => some element
  | _ => none

end DeltaElement

namespace CurrentObjects

def Same (one other : CurrentObjects) : Prop := ∀ hash, one.map.get hash = other.map.get hash

theorem Same.size_eq {one : CurrentObjects} (same : one.Same other) : one.size = other.size := by
  have perm : one.map.values.Perm other.map.values := (entries_perm same).map _
  unfold size
  exact perm.foldl_eq' (fun _ _ _ _ _ => Nat.add_right_comm ..) 0

end CurrentObjects

namespace DeltaElements

structure Same (one other : DeltaElements) : Prop where
  publishes : one.publishes.Perm other.publishes
  updates : one.updates.Perm other.updates
  withdraws : one.withdraws.Perm other.withdraws

theorem toList_ranked (self : DeltaElements) :
    self.toList.Pairwise fun earlier later => earlier.kind ≤ later.kind := by
  simp only [toList, List.pairwise_append, List.pairwise_map, List.mem_append, List.mem_map]
  refine ⟨⟨?_, ?_, ?_⟩, ?_, ?_⟩
  · exact List.pairwise_of_forall fun _ _ => le_rfl
  · exact List.pairwise_of_forall fun _ _ => le_rfl
  · rintro _ ⟨_, -, rfl⟩ _ ⟨_, -, rfl⟩
    exact Nat.zero_le _
  · exact List.pairwise_of_forall fun _ _ => le_rfl
  · rintro _ (⟨_, -, rfl⟩ | ⟨_, -, rfl⟩) _ ⟨_, -, rfl⟩
    · exact Nat.zero_le _
    · exact Nat.le_succ _

theorem Same.size_eq {one : DeltaElements} (same : one.Same other) : one.size = other.size := by
  unfold size
  rw [same.publishes.foldl_eq' fun _ _ _ _ _ => Nat.add_right_comm ..,
    same.updates.foldl_eq' fun _ _ _ _ _ => Nat.add_right_comm ..]

end DeltaElements

namespace StagedElements

def Stages (self : StagedElements) (element : DeltaElement) : Prop :=
  ∃ uri, self.map.get uri = some element

theorem foldl_pushElement (elements : List DeltaElement) : elements.foldl pushElement delta =
      ⟨delta.publishes ++ elements.filterMap DeltaElement.toPublish,
       delta.updates ++ elements.filterMap DeltaElement.toUpdate,
       delta.withdraws ++ elements.filterMap DeltaElement.toWithdraw⟩ := by
  induction elements generalizing delta with
  | nil => simp
  | cons element rest induction =>
    rw [List.foldl_cons, induction]
    cases element <;>
      simp [pushElement, List.filterMap_cons, DeltaElement.toPublish, DeltaElement.toUpdate,
        DeltaElement.toWithdraw]

theorem intoDeltaElements_eq (self : StagedElements) : self.intoDeltaElements order =
      ⟨(self.map.intoValues order).filterMap DeltaElement.toPublish,
       (self.map.intoValues order).filterMap DeltaElement.toUpdate,
       (self.map.intoValues order).filterMap DeltaElement.toWithdraw⟩ := by
  rw [intoDeltaElements, foldl_pushElement]
  simp

theorem intoDeltaElements_same (self : StagedElements) :
    (self.intoDeltaElements order).Same (self.intoDeltaElements order') := by
  have perm : (self.map.intoValues order).Perm (self.map.intoValues order') :=
    ((order.perm _).trans (order'.perm _).symm).map _
  rw [intoDeltaElements_eq, intoDeltaElements_eq]
  exact ⟨perm.filterMap _, perm.filterMap _, perm.filterMap _⟩

/-- An element that may be the last one to touch a hash, and what it leaves there. -/
structure Decides (elements : StagedElements) (hash : Hash) (element : DeltaElement)
    (left : Option PublishElement) : Prop where
  staged : elements.Stages element
  leaves : element.leaves hash = some left
  last : ∀ later, elements.Stages later → element.kind < later.kind → later.leaves hash = none

/-- No hash depends on which of two elements of one kind comes last. -/
def Unambiguous (self : StagedElements) : Prop :=
  ∀ hash one other left right, self.Decides hash one left → self.Decides hash other right →
    left = right

variable {self : StagedElements}

theorem mem_toList_intoDeltaElements :
    element ∈ (self.intoDeltaElements order).toList ↔ self.Stages element := by
  rw [(self.intoDeltaElements_toList order).mem_iff, mem_intoValues]
  rfl

theorem settle_decides (self : StagedElements) (order : IterOrder) (hash : Hash)
    (initial : Option PublishElement)
    (touched : ∃ element, self.Stages element ∧ (element.leaves hash).isSome) :
    ∃ element, self.Decides hash element (settle (DeltaElement.leaves hash) initial
      (self.intoDeltaElements order).toList) := by
  obtain ⟨touching, staged, touches⟩ := touched
  obtain ⟨element, member, leaves, last⟩ := settle_ranked
    (self.intoDeltaElements order).toList_ranked 
    ⟨touching, mem_toList_intoDeltaElements.mpr staged, touches⟩
  exact ⟨element, mem_toList_intoDeltaElements.mp member, leaves,
    fun later staged => last later (mem_toList_intoDeltaElements.mpr staged)⟩

theorem Decides.exists_order {hash : Hash} (decides : self.Decides hash element left) :
    ∃ order : IterOrder, ∀ initial, settle (DeltaElement.leaves hash) initial
      (self.intoDeltaElements order).toList = left := by
  obtain ⟨uri, found⟩ := decides.staged
  obtain ⟨order, front, arranged⟩ := IterOrder.exists_last (mem_entries.mpr found)
  have pushed : self.intoDeltaElements order =
      pushElement ((front.map Prod.snd).foldl pushElement ⟨[], [], []⟩) element := by
    rw [intoDeltaElements, intoValues, iter, arranged]
    simp
  obtain ⟨before, after, -, listed, higher⟩ := toList_pushElement
    ((front.map Prod.snd).foldl pushElement ⟨[], [], []⟩) element
  rw [← pushed] at listed
  refine ⟨order, fun initial => ?_⟩
  rw [listed]
  refine settle_last_write decides.leaves fun later member => ?_
  have staged : self.Stages later := by
    rw [← mem_toList_intoDeltaElements, listed]
    simp [member]
  exact decides.last later staged (higher later member)

theorem Unambiguous.applyDelta_same (unambiguous : self.Unambiguous) {one : CurrentObjects}
    (same : one.Same other) (order order' : IterOrder) :
    (one.applyDelta (self.intoDeltaElements order)).Same
      (other.applyDelta (self.intoDeltaElements order')) := by
  intro hash
  rw [CurrentObjects.get_applyDelta, CurrentObjects.get_applyDelta]
  by_cases touched : ∃ element, self.Stages element ∧ (element.leaves hash).isSome
  · obtain ⟨first, decides⟩ := self.settle_decides order hash (one.map.get hash) touched
    obtain ⟨second, decides'⟩ := self.settle_decides order' hash (other.map.get hash) touched
    exact unambiguous hash first second _ _ decides decides'
  · have untouched : ∀ order, ∀ element ∈ (self.intoDeltaElements order).toList,
        element.leaves hash = none := fun order element member =>
      Option.not_isSome_iff_eq_none.mp fun touches =>
        touched ⟨element, mem_toList_intoDeltaElements.mp member, touches⟩
    rw [settle_untouched (untouched order), settle_untouched (untouched order'), same hash]

theorem unambiguous_of_applyDelta (objects : IterOrder → CurrentObjects)
    (same : ∀ order order', ((objects order).applyDelta (self.intoDeltaElements order)).Same
      ((objects order').applyDelta (self.intoDeltaElements order'))) : self.Unambiguous := by
  intro hash one other left right decidesOne decidesOther
  obtain ⟨order, oneLast⟩ := decidesOne.exists_order
  obtain ⟨order', otherLast⟩ := decidesOther.exists_order
  have sameHash := same order order' hash
  rwa [CurrentObjects.get_applyDelta, CurrentObjects.get_applyDelta, oneLast, otherLast] at sameHash

end StagedElements

structure DeltaData.Same (one other : DeltaData) : Prop where
  random : one.random = other.random
  serial : one.serial = other.serial
  time : one.time = other.time
  elements : one.elements.Same other.elements

namespace RrdpServer

structure Same (one other : RrdpServer) : Prop where
  session : one.session = other.session
  serial : one.serial = other.serial
  lastUpdate : one.lastUpdate = other.lastUpdate
  snapshotRandom : one.snapshot.random = other.snapshot.random
  snapshot : one.snapshot.currentObjects.Same other.snapshot.currentObjects
  deltas : List.Forall₂ DeltaData.Same one.deltas other.deltas
  stagedElements : one.stagedElements = other.stagedElements

theorem countWithinSize_same {deltas : List DeltaData}
    (same : List.Forall₂ DeltaData.Same deltas others) :
    countWithinSize size total deltas = countWithinSize size total others := by
  induction same generalizing total with
  | nil => rfl
  | cons first _ induction =>
    simp only [countWithinSize, first.elements.size_eq, induction]

theorem Same.deltasTruncateSize {one : RrdpServer} (same : one.Same other) :
    one.deltasTruncateSize.Same other.deltasTruncateSize := by
  have keep : countWithinSize one.snapshot.size 0 one.deltas =
      countWithinSize other.snapshot.size 0 other.deltas := by
    rw [countWithinSize_same same.deltas, SnapshotData.size, SnapshotData.size,
      same.snapshot.size_eq]
  have deltas : List.Forall₂ DeltaData.Same one.deltasTruncateSize.deltas
      other.deltasTruncateSize.deltas := by
    unfold RrdpServer.deltasTruncateSize
    rw [keep]
    exact List.forall₂_take _ same.deltas
  exact { same with deltas }

theorem Same.applyRrdpUpdated {one : RrdpServer} (same : one.Same other)
    (unambiguous : one.stagedElements.Unambiguous) (update : RrdpUpdated)
    (order order' : IterOrder) :
    (one.applyRrdpUpdated update order).Same (other.applyRrdpUpdated update order') := by
  have next : (one.nextDelta update order).Same (other.nextDelta update order') :=
    { random := rfl
      serial := congrArg (· + 1) same.serial
      time := rfl
      elements := by
        unfold nextDelta
        rw [← same.stagedElements]
        exact StagedElements.intoDeltaElements_same .. }
  have snapshot : (one.snapshot.currentObjects.applyDelta
        (one.nextDelta update order).elements).Same
      (other.snapshot.currentObjects.applyDelta (other.nextDelta update order').elements) := by
    unfold nextDelta
    rw [← same.stagedElements]
    exact unambiguous.applyDelta_same same.snapshot order order'
  have updated : RrdpServer.Same
      { one with
        serial := one.serial + 1
        stagedElements := .default
        snapshot := one.snapshot.withDelta update.random (one.nextDelta update order).elements
        deltas := one.nextDelta update order :: one.deltas.take update.deltasTruncate }
      { other with
        serial := other.serial + 1
        stagedElements := .default
        snapshot := other.snapshot.withDelta update.random (other.nextDelta update order').elements
        deltas := other.nextDelta update order' :: other.deltas.take update.deltasTruncate } :=
    { same with
      serial := congrArg (· + 1) same.serial
      snapshotRandom := rfl
      snapshot
      deltas := .cons next (List.forall₂_take _ same.deltas)
      stagedElements := rfl }
  exact { updated.deltasTruncateSize with lastUpdate := rfl }

end RrdpServer

namespace RepositoryContent

structure Same (one other : RepositoryContent) : Prop where
  revision : one.revision = other.revision
  publishers : one.publishers = other.publishers
  rrdp : one.rrdp.Same other.rrdp

@[refl] theorem Same.refl (self : RepositoryContent) : self.Same self where
  revision := rfl
  publishers := rfl
  rrdp :=
    { session := rfl
      serial := rfl
      lastUpdate := rfl
      snapshotRandom := rfl
      snapshot := fun _ => rfl
      deltas := List.forall₂_same.mpr fun _ _ =>
        ⟨rfl, rfl, rfl, .refl _, .refl _, .refl _⟩
      stagedElements := rfl }

theorem Same.applyChange {one : RepositoryContent} {change : RepositoryContentChange}
    (same : one.Same other)
    (unambiguous : ∀ update, change = .rrdpUpdated update →
      one.rrdp.stagedElements.Unambiguous) (order order' : IterOrder) :
    (one.applyChange order change).Same (other.applyChange order' change) := by
  obtain ⟨revision, publishers, rrdp⟩ := same
  cases change with
  | sessionReset reset =>
    exact ⟨revision, publishers,
      { rrdp with
        session := rfl
        serial := rfl
        lastUpdate := rfl
        snapshotRandom := rfl
        snapshot := fun _ => rfl
        deltas := .nil }⟩
  | publisherAdded publisher =>
    exact ⟨revision, congrArg (insert · publisher CurrentObjects.default) publishers, rrdp⟩
  | publisherRemoved publisher =>
    exact ⟨revision, congrArg (remove · publisher) publishers, rrdp⟩
  | publishedObjects publisher objects =>
    exact ⟨revision, congrArg (insert · publisher objects) publishers, rrdp⟩
  | rrdpDeltaStaged delta =>
    exact ⟨revision, publishers,
      { rrdp with
        stagedElements := congrArg (StagedElements.stage · delta) rrdp.stagedElements }⟩
  | rrdpUpdated update =>
    exact ⟨revision, publishers,
      rrdp.applyRrdpUpdated (unambiguous update rfl) update order order'⟩

end RepositoryContent

def StagedElements.after (self : StagedElements) (changes : List RepositoryContentChange) :
    StagedElements :=
  changes.foldl (fun staged change => match change with
      | .rrdpDeltaStaged delta => staged.stage delta
      | .rrdpUpdated _ => .default
      | _ => staged)
    self

/-- Each RRDP update of the changes finds staged elements that do not depend on the order. -/
def StagedElements.Settled (self : StagedElements) (changes : List RepositoryContentChange) :
    Prop :=
  ∀ front update, front ++ [.rrdpUpdated update] <+: changes → (self.after front).Unambiguous

namespace RepositoryContent

variable {self : RepositoryContent}

def Deterministic (self : RepositoryContent) (changes : List RepositoryContentChange) : Prop :=
  ∀ order order', (self.apply order changes).Same (self.apply order' changes)

theorem foldl_applyChange_stagedElements (self : RepositoryContent)
    (changes : List RepositoryContentChange) :
    (changes.foldl (applyChange order) self).rrdp.stagedElements =
      self.rrdp.stagedElements.after changes := by
  induction changes generalizing self with
  | nil => rfl
  | cons change rest induction =>
    rw [List.foldl_cons, induction]
    cases change <;> rfl

theorem Same.foldl_applyChange {one : RepositoryContent} (same : one.Same other)
    (settled : one.rrdp.stagedElements.Settled changes) (order order' : IterOrder) :
    (changes.foldl (RepositoryContent.applyChange order) one).Same
      (changes.foldl (RepositoryContent.applyChange order') other) := by
  induction changes using List.reverseRecOn with
  | nil => exact same
  | append_singleton front change induction =>
    rw [List.foldl_append, List.foldl_append]
    have earlier := induction fun part update isPart =>
      settled part update (isPart.trans (List.prefix_append ..))
    refine earlier.applyChange (fun update isUpdate => ?_) order order'
    rw [foldl_applyChange_stagedElements]
    subst isUpdate
    exact settled front update (List.prefix_refl _)

theorem Same.apply {one : RepositoryContent} (same : one.Same other)
    (settled : one.rrdp.stagedElements.Settled changes) (order order' : IterOrder) :
    (one.apply order changes).Same (other.apply order' changes) :=
  have changed := same.foldl_applyChange settled order order'
  { changed with revision := congrArg (· + 1) changed.revision }

theorem Deterministic.unambiguous
    (deterministic : self.Deterministic (front ++ [.rrdpUpdated update])) :
    (self.rrdp.stagedElements.after front).Unambiguous := by
  apply StagedElements.unambiguous_of_applyDelta
    fun order => (front.foldl (applyChange order) self).rrdp.snapshot.currentObjects
  intro order order'
  have same := (deterministic order order').rrdp.snapshot
  simp only [RepositoryContent.apply, List.foldl_append] at same
  simp only [List.foldl_cons, List.foldl_nil, applyChange,
    RrdpServer.applyRrdpUpdated_currentObjects, foldl_applyChange_stagedElements] at same
  exact same

theorem rrdpUpdated_alone (made : self.processCommand env command = .ok changes)
    (isPart : front ++ [.rrdpUpdated update] <+: changes) :
    changes = front ++ [.rrdpUpdated update] := by
  have member : RepositoryContentChange.rrdpUpdated update ∈ changes := isPart.subset (by simp)
  have single : ∃ only, changes = [only] := by
    cases command with
    | resetSession | addPublisher =>
      cases made
      exact ⟨_, rfl⟩
    | removePublisher publisher =>
      cases made
      unfold removePublisher at member
      cases found : self.objectsForPublisher publisher <;>
        cases self.publishers.containsKey publisher <;> simp [found] at member
    | publish publisher delta =>
      obtain ⟨objects, -, made⟩ := Fallible.bind_eq_ok.mp made
      cases made
      simp at member
    | createRrdpDelta config =>
      cases made
      unfold createRrdpDelta at member ⊢
      split at member
      · next needed => exact ⟨_, if_pos needed⟩
      · simp at member
  obtain ⟨only, rfl⟩ := single
  exact (isPart.eq_of_length_le (by simp)).symm

/-- The contents to which a log of change sets may lead. Each set is applied in an order of its
own. -/
inductive Replays : RepositoryContent → List (List RepositoryContentChange) →
    RepositoryContent → Prop where
  | done (self : RepositoryContent) : Replays self [] self
  | applied {self after : RepositoryContent} {changes : List RepositoryContentChange}
      {rest : List (List RepositoryContentChange)} (order : IterOrder)
      (later : Replays (self.apply order changes) rest after) :
      Replays self (changes :: rest) after

theorem Replays.same {log : List (List RepositoryContentChange)} (same : one.Same other)
    (settled : one.rrdp.stagedElements.Settled log.flatten) (live : Replays one log oneAfter)
    (rebuilt : Replays other log otherAfter) : oneAfter.Same otherAfter := by
  induction live generalizing other with
  | done => cases rebuilt; exact same
  | applied order _ induction =>
    next self after changes rest later =>
    cases rebuilt with
    | applied order' rebuilt =>
      refine induction (same.apply ?_ order order') ?_ rebuilt
      · intro front update isPart
        exact settled front update (isPart.trans (List.prefix_append ..))
      · intro front update isPart
        have staged : (self.apply order changes).rrdp.stagedElements =
            self.rrdp.stagedElements.after changes :=
          foldl_applyChange_stagedElements ..
        rw [staged, StagedElements.after, StagedElements.after, ← List.foldl_append]
        apply settled (changes ++ front) update
        rw [List.append_assoc]
        exact (List.prefix_append_right_inj changes).mpr isPart

/-- Every part of a change set gives one content exactly if no RRDP update in it is ambiguous. A
set that a command made has no part to look at but itself, and a log of sets is replayed to the
content that was live. -/
theorem replay_deterministic (self : RepositoryContent) :
    (∀ changes, (∀ part, part <+: changes → self.Deterministic part) ↔
      self.rrdp.stagedElements.Settled changes) ∧
    (∀ env command changes, self.processCommand env command = .ok changes →
      (self.Deterministic changes ↔ self.rrdp.stagedElements.Settled changes)) ∧
    ∀ log live rebuilt, self.rrdp.stagedElements.Settled log.flatten →
      Replays self log live → Replays self log rebuilt → live.Same rebuilt := by
  have determined : ∀ {changes}, self.rrdp.stagedElements.Settled changes →
      self.Deterministic changes := fun settled order order' =>
    (Same.refl self).apply settled order order'
  refine ⟨fun changes => ⟨?_, ?_⟩, fun env command changes made => ⟨?_, determined⟩, ?_⟩
  · intro deterministic front update isPart
    exact (deterministic _ isPart).unambiguous
  · intro settled part isPart
    exact determined fun front update within => settled front update (within.trans isPart)
  · intro deterministic front update isPart
    rw [rrdpUpdated_alone made isPart] at deterministic
    exact deterministic.unambiguous
  · intro log live rebuilt settled
    exact Replays.same (.refl self) settled

end RepositoryContent

end Krill.Pubd

namespace Krill.Pubd.Flat

open RepositoryContent

theorem published_unambiguous : published.rrdp.stagedElements.Unambiguous := by
  have only : ∀ element, published.rrdp.stagedElements.Stages element →
      element = .publish ⟨(1 : Nat), file⟩ := by
    rintro element ⟨uri, found⟩
    have listed : (uri, element) ∈ published.rrdp.stagedElements.map.entries :=
      HashMap.mem_entries.mpr found
    cases List.mem_singleton.mp listed
    rfl
  intro hash one other left right decidesOne decidesOther
  have sameElement := (only one decidesOne.staged).trans (only other decidesOther.staged).symm
  have leaves := decidesOne.leaves
  rw [sameElement, decidesOther.leaves] at leaves
  exact (Option.some.inj leaves).symm

theorem published_replayed :
    published.Deterministic [.rrdpUpdated (published.rrdp.updateRrdp env config)] := by
  have made : published.processCommand env (.createRrdpDelta config) =
      .ok [.rrdpUpdated (published.rrdp.updateRrdp env config)] := by decide
  refine ((replay_deterministic published).2.1 env _ _ made).mpr ?_
  intro front update isPart
  have alone := rrdpUpdated_alone made isPart
  cases front with
  | nil => exact published_unambiguous
  | cons first rest => simp at alone

def publishBoth : DeltaElements :=
  ⟨[⟨(1 : Nat), file⟩, ⟨(2 : Nat), ("alice", 2)⟩], [], []⟩

def updateChained : DeltaElements :=
  ⟨[], [⟨file, (1 : Nat), (2 : Nat)⟩, ⟨("alice", 2), (2 : Nat), (3 : Nat)⟩], []⟩

def chained : List (Surroundings × RepositoryContentCommand) :=
  [(env, .addPublisher "alice"), (env, .publish "alice" publishBoth),
   (env, .createRrdpDelta config), (env, .publish "alice" updateChained)]

theorem chained_updates_ambiguous : ∃ before changes,
    Run jail (fun _ _ => True) (init env) before ∧
    before.processCommand env (.createRrdpDelta config) = .ok changes ∧
    (before.apply .stored changes).rrdp.snapshot.currentObjects.map.get (2 : Nat) =
      some ⟨(2 : Nat), file⟩ ∧
    (before.apply (.rotated 1) changes).rrdp.snapshot.currentObjects.map.get (2 : Nat) = none ∧
    ¬ before.Deterministic changes := by
  have first : ((((init env).replay jail chained).get (by decide)).apply .stored
      [.rrdpUpdated ⟨0, "", 1⟩]).rrdp.snapshot.currentObjects.map.get (2 : Nat) =
      some ⟨(2 : Nat), file⟩ := by decide
  have second : ((((init env).replay jail chained).get (by decide)).apply (.rotated 1)
      [.rrdpUpdated ⟨0, "", 1⟩]).rrdp.snapshot.currentObjects.map.get (2 : Nat) = none := by
    decide
  refine ⟨((init env).replay jail chained).get (by decide), [.rrdpUpdated ⟨0, "", 1⟩],
    replay_run (Option.some_get _).symm, by decide, first, second, ?_⟩
  intro deterministic
  have same := (deterministic .stored (.rotated 1)).rrdp.snapshot (2 : Nat)
  rw [first, second] at same
  cases same

end Krill.Pubd.Flat
