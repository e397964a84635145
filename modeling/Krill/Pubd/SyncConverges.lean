import Krill.Pubd.RepoSync

namespace Krill.Pubd

open Rpki Changeset LastWrite
open CaRepoSync

variable [Rpki]

namespace CurrentObjects

variable {objects : CurrentObjects} {jail : Uri} {publishElements : List PublishElement}

def syncDelta (objects : CurrentObjects) (publishElements : List PublishElement)
    (orders : SyncOrders) : DeltaElements :=
  .from (CaRepoSync.delta (objects.toListReply orders.reply) publishElements orders)

theorem caRepoSync_eq_ok : objects.caRepoSync jail publishElements orders = .ok after ↔
      objects.verifyDelta (objects.syncDelta publishElements orders) jail = .ok () ∧
        after = objects.applyDelta (objects.syncDelta publishElements orders) := by
  unfold caRepoSync syncDelta
  generalize CaRepoSync.delta (objects.toListReply orders.reply) publishElements orders = delta
  cases delta with
  | nil =>
    constructor
    · intro same
      cases same
      exact ⟨rfl, rfl⟩
    · rintro ⟨-, rfl⟩
      rfl
  | cons first rest =>
    simp only [List.isEmpty_cons, Bool.false_eq_true, if_false]
    rw [Fallible.then_eq_ok]
    refine and_congr_right fun _ => ?_
    constructor
    · intro same
      cases same
      rfl
    · rintro rfl
      rfl

def OnePerUri (self : CurrentObjects) : Prop :=
  ∀ ⦃uri left right⦄, (uri, left) ∈ self.pairs → (uri, right) ∈ self.pairs → left = right

theorem Keyed.exists_shows (keyed : objects.Keyed) (single : objects.OnePerUri) :
    ∃ content, objects.Shows content := by
  classical
  refine ⟨fun uri => if present : ∃ base64, (uri, base64) ∈ objects.pairs then
    some present.choose else none, fun found => keyed found, ?_⟩
  intro uri base64
  constructor
  · intro found
    have member : (uri, base64) ∈ objects.pairs := ⟨_, found⟩
    have present : ∃ base64, (uri, base64) ∈ objects.pairs := ⟨base64, member⟩
    rw [dif_pos present, single present.choose_spec member]
  · intro shown
    split at shown
    · next present =>
        cases shown
        exact keyed.get_of_mem_pairs present.choose_spec
    · cases shown

/-- Every content of the list has a single home: the list and the server have it
at no other URI. -/
def OneHome (objects : CurrentObjects) (publishElements : List PublishElement) : Prop :=
  ∀ element ∈ publishElements, ∀ ⦃uri⦄,
    (uri, element.base64) ∈ objects.pairs ∨ ⟨element.base64, uri⟩ ∈ publishElements →
      uri = element.uri

section Converging

variable {content : ContentMap}
  (shows : objects.Shows content)
  (distinct : (publishElements.map PublishElement.uri).Nodup)

include shows distinct

theorem syncDelta_cases (member : element ∈ (objects.syncDelta publishElements orders).toList) :
    (∃ hash base64, element = .update ⟨element.uri, hash, base64⟩ ∧
      (content element.uri).map toHash = some hash ∧ ⟨base64, element.uri⟩ ∈ publishElements) ∨
    (∃ hash, element = .withdraw ⟨element.uri, hash⟩ ∧
      (content element.uri).map toHash = some hash ∧
      (allObjects publishElements).get element.uri = none) ∨
    ∃ base64, element = .publish ⟨base64, element.uri⟩ ∧ content element.uri = none ∧
      ⟨base64, element.uri⟩ ∈ publishElements := by
  rcases mem_from_delta.mp member with
    ⟨hash, listed, plans⟩ | ⟨⟨base64, uri⟩, rfl, absent, wanted⟩
  · rw [get_elements_of_shows shows] at listed
    unfold planned at plans
    cases wanted : (allObjects publishElements).get element.uri with
    | none =>
      simp only [wanted, Option.some.injEq] at plans
      exact .inr (.inl ⟨hash, plans.symm, listed, rfl⟩)
    | some base64 =>
      simp only [wanted] at plans
      split at plans
      · exact .inl ⟨hash, base64, (Option.some.inj plans).symm, listed,
          (get_allObjects distinct).mp wanted⟩
      · cases plans
  · rw [get_elements_of_shows shows, Option.map_eq_none_iff] at absent
    exact .inr (.inr ⟨base64, rfl, absent, (get_allObjects distinct).mp wanted⟩)

theorem syncDelta_verified (single : objects.OneHome publishElements)
    (injective : Function.Injective toHash) (inside : objects.Inside jail)
    (within : ∀ element ∈ publishElements, isParentOf jail element.uri = true) :
    objects.verifyDelta (objects.syncDelta publishElements orders) jail = .ok () := by
  have matching : ∀ {uri hash}, (content uri).map toHash = some hash →
      isParentOf jail uri = true ∧ objects.hasMatch hash uri = true := by
    intro uri hash listed
    obtain ⟨base64, shown, rfl⟩ := Option.map_eq_some_iff.mp listed
    have present := shows.present.mpr shown
    exact ⟨inside present, hasMatch_eq_true.mpr ⟨_, present, rfl⟩⟩
  refine verifyDelta_eq_ok.mpr ⟨?_, ?_, ?_⟩
  · rintro ⟨base64, uri⟩ listed
    have member := DeltaElements.mem_toList.mpr (.inl ⟨_, listed, rfl⟩)
    obtain ⟨_, _, ⟨⟩, _⟩ | ⟨_, ⟨⟩, _⟩ | ⟨_, ⟨⟩, absent, wanted⟩ :=
      syncDelta_cases shows distinct member
    refine ⟨within _ wanted, ?_⟩
    cases present : objects.map.get (toHash base64) with
    | none => rfl
    | some object =>
      have sameContent := injective (shows.keyed present)
      have found : (object.uri, base64) ∈ objects.pairs := by
        rw [← sameContent]
        exact ⟨_, present⟩
      have sameUri : object.uri = uri := single _ wanted (.inl found)
      have shown := shows.mem_pairs.mp found
      rw [sameUri] at shown
      cases shown.symm.trans absent
  · rintro ⟨uri, _, _⟩ listed
    have member := DeltaElements.mem_toList.mpr (.inr (.inl ⟨_, listed, rfl⟩))
    obtain ⟨_, _, ⟨⟩, named, _⟩ | ⟨_, ⟨⟩, _⟩ | ⟨_, ⟨⟩, _⟩ :=
      syncDelta_cases shows distinct member
    exact matching named
  · rintro ⟨uri, _⟩ listed
    have member := DeltaElements.mem_toList.mpr (.inr (.inr ⟨_, listed, rfl⟩))
    obtain ⟨_, _, ⟨⟩, _⟩ | ⟨_, ⟨⟩, named, _⟩ | ⟨_, ⟨⟩, _⟩ :=
      syncDelta_cases shows distinct member
    exact matching named

theorem patch_syncDelta (injective : Function.Injective toHash) :
    patch (objects.syncDelta publishElements orders).changeAt content =
      fun uri => (allObjects publishElements).get uri := by
  have urisDistinct : ((objects.syncDelta publishElements orders).changes.map Prod.fst).Nodup := by
    rw [DeltaElements.changes, List.map_map]
    exact from_delta_distinct ..
  funext uri
  cases changed : (objects.syncDelta publishElements orders).changeAt uri with
  | some change =>
    rw [patch_some changed]
    obtain ⟨element, member, same⟩ := List.mem_map.mp (lookup_mem changed)
    cases same
    rcases syncDelta_cases shows distinct member with
      ⟨hash, base64, same, _, wanted⟩ | ⟨hash, same, _, unwanted⟩ | ⟨base64, same, _, wanted⟩
    · rw [(get_allObjects distinct).mpr wanted, same]
      rfl
    · rw [unwanted, same]
      rfl
    · rw [(get_allObjects distinct).mpr wanted, same]
      rfl
  | none =>
    rw [patch_none changed]
    -- an element for this URI would have been found
    have unlisted : ∀ element ∈ (objects.syncDelta publishElements orders).toList,
        element.uri ≠ uri := by
      rintro element member rfl
      have found : (objects.syncDelta publishElements orders).changeAt element.uri = _ :=
        mem_lookup urisDistinct (List.mem_map_of_mem member)
      cases found.symm.trans changed
    have listed : (CaRepoSync.elements (objects.toListReply orders.reply)).get uri = _ :=
      CaRepoSync.get_elements_of_shows shows uri
    cases wanted : (allObjects publishElements).get uri with
    | none =>
      cases shown : content uri with
      | none => rfl
      | some base64 =>
        rw [shown] at listed
        refine absurd rfl (unlisted (.withdraw ⟨uri, toHash base64⟩)
          (mem_from_delta.mpr (.inl ⟨_, listed, ?_⟩)))
        simp [planned, DeltaElement.uri, wanted]
    | some base64 =>
      cases shown : content uri with
      | none =>
        rw [shown] at listed
        exact absurd rfl (unlisted (.publish ⟨base64, uri⟩)
          (mem_from_delta.mpr (.inr ⟨_, rfl, listed, wanted⟩)))
      | some present =>
        rw [shown] at listed
        by_cases same : toHash base64 = toHash present
        · rw [injective same]
        · refine absurd rfl (unlisted (.update ⟨uri, toHash present, base64⟩)
            (mem_from_delta.mpr (.inl ⟨_, listed, ?_⟩)))
          simp [planned, DeltaElement.uri, wanted, same]

theorem syncDelta_oneHome (single : objects.OneHome publishElements)
    (injective : Function.Injective toHash) :
    Relator.RightUnique fun hash uri =>
      objects.Names hash uri ∨ (objects.syncDelta publishElements orders).Names hash uri := by
  have named : ∀ {hash uri}, objects.Names hash uri ∨
      (objects.syncDelta publishElements orders).Names hash uri →
      ∃ base64, toHash base64 = hash ∧
        ((uri, base64) ∈ objects.pairs ∨ ⟨base64, uri⟩ ∈ publishElements) := by
    rintro hash uri (⟨object, found, rfl⟩ | ⟨element, member, rfl, names⟩)
    · exact ⟨object.base64, shows.keyed found, .inl ⟨_, found⟩⟩
    · have present : ∀ {old}, (content element.uri).map toHash = some old → ∃ base64,
          toHash base64 = old ∧ ((element.uri, base64) ∈ objects.pairs ∨
            ⟨base64, element.uri⟩ ∈ publishElements) := by
        intro old listed
        obtain ⟨base64, shown, same⟩ := Option.map_eq_some_iff.mp listed
        exact ⟨base64, same, .inl (shows.mem_pairs.mpr shown)⟩
      rcases syncDelta_cases shows distinct member with
        ⟨old, base64, same, listed, wanted⟩ | ⟨old, same, listed, _⟩ | ⟨base64, same, _, wanted⟩
      · rw [same] at names
        rcases names with rfl | rfl
        · exact present listed
        · exact ⟨base64, rfl, .inr wanted⟩
      · rw [same] at names
        cases names
        exact present listed
      · rw [same] at names
        cases names
        exact ⟨base64, rfl, .inr wanted⟩
  intro hash left right namesLeft namesRight
  obtain ⟨base64, sameLeft, homeLeft⟩ := named namesLeft
  obtain ⟨other, sameRight, homeRight⟩ := named namesRight
  cases injective (sameLeft.trans sameRight.symm)
  rcases homeLeft with shownLeft | wantedLeft
  · rcases homeRight with shownRight | wantedRight
    · have found := (shows.present.mpr (shows.mem_pairs.mp shownLeft)).symm.trans
        (shows.present.mpr (shows.mem_pairs.mp shownRight))
      exact congrArg PublishElement.uri (Option.some.inj found)
    · exact single _ wantedRight (.inl shownLeft)
  · exact (single _ wantedLeft homeRight).symm

theorem shows_syncDelta (single : objects.OneHome publishElements)
    (injective : Function.Injective toHash) :
    (objects.applyDelta (objects.syncDelta publishElements orders)).Shows
      fun uri => (allObjects publishElements).get uri := by
  rw [← patch_syncDelta shows distinct injective]
  refine shows.applyDelta (from_delta_distinct ..)
    (syncDelta_oneHome shows distinct single injective) ?_
  intro element member
  have named : ∀ {hash}, (content element.uri).map toHash = some hash →
      AtMost toHash hash (content element.uri) := by
    intro hash listed base64 shown
    rw [shown] at listed
    exact Option.some.inj listed
  rcases syncDelta_cases shows distinct member with
    ⟨hash, base64, same, listed, _⟩ | ⟨hash, same, listed, _⟩ | ⟨base64, same, absent, _⟩
  · rw [same]
    exact named listed
  · rw [same]
    exact named listed
  · rw [same]
    exact absent

end Converging

section Diverging

variable (keyed : objects.Keyed)
  (distinct : (publishElements.map PublishElement.uri).Nodup)
  (synced : ∀ orders, ∃ after, objects.caRepoSync jail publishElements orders = .ok after ∧
    after.pairs = { pair | ⟨pair.2, pair.1⟩ ∈ publishElements })

include synced

theorem mem_of_synced (orders : SyncOrders) {hash : Hash}
    (found : (objects.applyDelta (objects.syncDelta publishElements orders)).map.get hash =
      some object) : object ∈ publishElements := by
  obtain ⟨after, done, pairs⟩ := synced orders
  obtain ⟨-, rfl⟩ := caRepoSync_eq_ok.mp done
  have member : (object.uri, object.base64) ∈
      (objects.applyDelta (objects.syncDelta publishElements orders)).pairs := ⟨_, found⟩
  rw [pairs] at member
  exact member

include keyed

theorem get_of_synced (orders : SyncOrders) (wanted : element ∈ publishElements) :
    (objects.applyDelta (objects.syncDelta publishElements orders)).map.get
      (toHash element.base64) = some element := by
  obtain ⟨after, done, pairs⟩ := synced orders
  obtain ⟨-, rfl⟩ := caRepoSync_eq_ok.mp done
  have member : (element.uri, element.base64) ∈
      (objects.applyDelta (objects.syncDelta publishElements orders)).pairs := by
    rw [pairs]
    exact wanted
  exact (keyed.applyDelta _).get_of_mem_pairs member

theorem uri_eq_of_both_wanted (leftWanted : left ∈ publishElements)
    (rightWanted : right ∈ publishElements) (same : left.base64 = right.base64) :
    left.uri = right.uri := by
  have first := get_of_synced keyed synced ⟨.stored, .stored, .stored⟩ leftWanted
  have second := get_of_synced keyed synced ⟨.stored, .stored, .stored⟩ rightWanted
  rw [same, second] at first
  exact congrArg PublishElement.uri (Option.some.inj first).symm

include distinct

/-- If the server has the content elsewhere, then the change that is made there
may come last, and takes the content away. -/
theorem uri_eq_of_present_and_wanted (injective : Function.Injective toHash)
    (wanted : element ∈ publishElements) (present : (uri, element.base64) ∈ objects.pairs) :
    uri = element.uri := by
  by_contra moved
  have stored := keyed.get_of_mem_pairs present
  obtain ⟨reply, listed⟩ := exists_reply_order stored
  obtain ⟨order, before, last⟩ := IterOrder.exists_last (HashMap.mem_entries.mpr listed)
  let orders : SyncOrders := ⟨reply, order, .stored⟩
  obtain ⟨replaced, plans, gone, kept⟩ : ∃ replaced, planned (allObjects publishElements)
        (uri, toHash element.base64) = some replaced ∧
      replaced.kind ≠ 0 ∧
      ∀ self : CurrentObjects,
        (self.applyElement replaced).map.get (toHash element.base64) = none := by
    cases other : (allObjects publishElements).get uri with
    | none =>
      refine ⟨.withdraw ⟨uri, toHash element.base64⟩, ?_, Nat.succ_ne_zero _, fun self => ?_⟩
      · simp [planned, other]
      · exact HashMap.get_remove_self ..
    | some base64 =>
      have differs : toHash element.base64 ≠ toHash base64 := by
        intro same
        exact moved (uri_eq_of_both_wanted keyed synced
          ((get_allObjects distinct).mp other) wanted (injective same).symm)
      refine ⟨.update ⟨uri, toHash element.base64, base64⟩, ?_, Nat.succ_ne_zero _, fun self => ?_⟩
      · simp [planned, other, Ne.symm differs]
      · change ((self.map.remove _).insert _ _).get _ = none
        rw [HashMap.get_insert]
        exact (if_neg differs).trans (HashMap.get_remove_self ..)
  obtain ⟨published, untagged, -, -⟩ :=
    delta_untagged (objects.toListReply reply) publishElements orders
  have lastPlanned : (CaRepoSync.delta (objects.toListReply reply) publishElements orders).map
      PublishDeltaElement.untagged =
      before.filterMap (planned (allObjects publishElements)) ++
        [replaced] ++ published.map .publish := by
    rw [untagged, HashMap.iter, last, List.filterMap_append, List.filterMap_cons_some plans]
    rfl
  obtain ⟨earlier, later, split, higher⟩ :=
    DeltaElements.exists_split_of_last lastPlanned gone
  have found := get_of_synced keyed synced orders wanted
  rw [applyDelta_eq_foldl, syncDelta, split, List.foldl_append, List.foldl_cons] at found
  rw [get_foldl_applyElement, kept] at found
  rcases settle_cases none later with ⟨other, member, left⟩ | same
  · have above := higher other member
    cases other with
    | withdraw other =>
      rw [found] at left
      cases (DeltaElement.eq_of_leaves left).2.2
    | publish | update => grind [DeltaElement.kind]
  · cases same.symm.trans found

theorem onePerUri_of_synced (injective : Function.Injective toHash) : objects.OnePerUri := by
  have stays : ∀ {uri left right}, (uri, left) ∈ objects.pairs → (uri, right) ∈ objects.pairs →
      left ≠ right → ⟨left, uri⟩ ∈ publishElements := by
    intro uri left right leftPresent rightPresent different
    have leftStored := keyed.get_of_mem_pairs leftPresent
    obtain ⟨reply, listed⟩ :=
      exists_reply_order (keyed.get_of_mem_pairs rightPresent)
    by_contra unwanted
    have unnamed : ∀ element ∈ (objects.syncDelta publishElements ⟨reply, .stored, .stored⟩).toList,
        ¬ element.Names (toHash left) := by
      intro element member names
      have moves : ∀ {base64}, (allObjects publishElements).get element.uri =
          some base64 → toHash left ≠ toHash base64 := by
        intro base64 found same
        cases injective same
        have wanted := (get_allObjects distinct).mp found
        have sameUri := uri_eq_of_present_and_wanted keyed distinct synced injective wanted
          leftPresent
        exact unwanted (sameUri ▸ wanted)
      have sees : ∀ {hash}, (CaRepoSync.elements (objects.toListReply reply)).get element.uri =
          some hash → toHash left ≠ hash := by
        intro hash seen same
        subst same
        obtain ⟨object, stored, sameUri⟩ := get_elements_eq_some seen
        rw [leftStored] at stored
        cases stored
        rw [← sameUri, listed] at seen
        exact different (injective (Option.some.inj seen)).symm
      rcases mem_from_delta.mp member with
        ⟨hash, seen, plans⟩ | ⟨object, rfl, -, found⟩
      · unfold planned at plans
        cases found : (allObjects publishElements).get element.uri with
        | none =>
          simp only [found, Option.some.injEq] at plans
          rw [← plans] at names
          exact sees seen names
        | some base64 =>
          simp only [found] at plans
          split at plans
          · rw [← Option.some.inj plans] at names
            rcases names with old | new
            · exact sees seen old
            · exact moves found new
          · cases plans
      · exact moves found names
    have stayed : (objects.applyDelta
        (objects.syncDelta publishElements ⟨reply, .stored, .stored⟩)).map.get (toHash left) =
          some ⟨left, uri⟩ := by
      rw [get_applyDelta, settle_untouched fun element member =>
        DeltaElement.leaves_eq_none.mpr (unnamed element member)]
      exact leftStored
    exact unwanted (mem_of_synced synced _ stayed)
  intro uri left right leftPresent rightPresent
  by_contra different
  have leftWanted := stays leftPresent rightPresent different
  have rightWanted := stays rightPresent leftPresent (Ne.symm different)
  rw [← get_allObjects distinct] at leftWanted rightWanted
  rw [leftWanted] at rightWanted
  exact different (Option.some.inj rightWanted)

end Diverging

/-- A synchronisation is accepted and leaves the server with exactly the objects
of the list, so that the next one has nothing to do, if and only if no URI has
two objects and no content of the list has two homes. -/
theorem sync_converges_iff (injective : Function.Injective toHash)
    (reachable : Reachable jail objects)
    (distinct : (publishElements.map PublishElement.uri).Nodup)
    (within : ∀ element ∈ publishElements, isParentOf jail element.uri = true) :
    (∀ orders, ∃ after, objects.caRepoSync jail publishElements orders = .ok after ∧
      after.pairs = { pair | ⟨pair.2, pair.1⟩ ∈ publishElements } ∧
      ∀ again, CaRepoSync.delta (after.toListReply again.reply) publishElements again = []) ↔
    objects.OnePerUri ∧ objects.OneHome publishElements := by
  constructor
  · intro converges
    have keyed := reachable.keyed
    have synced : ∀ orders, ∃ after,
        objects.caRepoSync jail publishElements orders = .ok after ∧
        after.pairs = { pair | ⟨pair.2, pair.1⟩ ∈ publishElements } := by
      intro orders
      obtain ⟨after, done, pairs, -⟩ := converges orders
      exact ⟨after, done, pairs⟩
    refine ⟨onePerUri_of_synced keyed distinct synced injective, ?_⟩
    rintro element wanted uri (present | other)
    · exact uri_eq_of_present_and_wanted keyed distinct synced injective wanted present
    · exact uri_eq_of_both_wanted keyed synced other wanted rfl
  · rintro ⟨onePerUri, single⟩ orders
    obtain ⟨content, shows⟩ := reachable.keyed.exists_shows onePerUri
    have showsList : (objects.applyDelta (objects.syncDelta publishElements orders)).Shows _ :=
      shows_syncDelta shows distinct single injective
    refine ⟨_, caRepoSync_eq_ok.mpr ⟨syncDelta_verified shows distinct single injective
      reachable.inside within, rfl⟩, ?_, ?_⟩
    · ext ⟨uri, base64⟩
      rw [showsList.mem_pairs, get_allObjects distinct]
      rfl
    · intro again
      exact delta_eq_nil (get_elements_of_shows showsList)

end CurrentObjects

end Krill.Pubd

namespace Krill.Pubd.Flat

open Rpki CurrentObjects

def firstFile : Uri := ("alice", 1)

def secondFile : Uri := ("alice", 2)

def oneObject : CurrentObjects :=
  CurrentObjects.default.applyDelta (.from [.publish none firstFile (1 : Nat)])

theorem oneObject_reachable : Reachable (jail "alice") oneObject :=
  .publish .default (by decide)

theorem mem_oneObject_pairs (present : pair ∈ oneObject.pairs) : pair = (firstFile, (1 : Nat)) := by
  obtain ⟨uri, base64⟩ := pair
  obtain ⟨hash, found⟩ := present
  rcases HashMap.get_insert_eq_some found with ⟨-, same⟩ | impossible
  · cases same
    rfl
  · cases impossible

def twoObjects : List PublishElement := [⟨(2 : Nat), firstFile⟩, ⟨(3 : Nat), secondFile⟩]

theorem two_objects_converge : (oneObject.OnePerUri ∧ oneObject.OneHome twoObjects) ∧
    ∀ orders, ∃ after, oneObject.caRepoSync (jail "alice") twoObjects orders = .ok after ∧
      after.pairs = { pair | ⟨pair.2, pair.1⟩ ∈ twoObjects } ∧
      ∀ again, CaRepoSync.delta (after.toListReply again.reply) twoObjects again = [] := by
  have condition : oneObject.OnePerUri ∧ oneObject.OneHome twoObjects := by
    constructor
    · intro uri left right leftPresent rightPresent
      cases mem_oneObject_pairs leftPresent
      cases mem_oneObject_pairs rightPresent
      rfl
    · rintro element wanted uri (present | other)
      · have same := mem_oneObject_pairs present
        rcases List.mem_pair.mp wanted with rfl | rfl <;> cases same
      · rcases List.mem_pair.mp wanted with rfl | rfl
        · rcases List.mem_pair.mp other with same | impossible
          · cases same
            rfl
          · cases impossible
        · rcases List.mem_pair.mp other with impossible | same
          · cases impossible
          · cases same
            rfl
  exact ⟨condition, (sync_converges_iff Function.injective_id oneObject_reachable (by decide)
    (by decide)).mpr condition⟩

/-- The object has moved to another file: the same content is withdrawn at one
URI and published at the other, and the server refuses the delta. -/
theorem moved_object_is_refused : Reachable (jail "alice") oneObject ∧
    oneObject.caRepoSync (jail "alice") [⟨(1 : Nat), secondFile⟩]
      ⟨.stored, .stored, .stored⟩ = .error (.objectAlreadyPresent secondFile) :=
  ⟨oneObject_reachable, by decide⟩

end Krill.Pubd.Flat
