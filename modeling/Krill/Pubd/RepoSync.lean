import Krill.Pubd.UriView

namespace Krill.Pubd

open Rpki LastWrite
open HashMap
open StagedElements

variable [Rpki]

/-! A CA brings its repository up to date: it asks which objects the repository
has for it, compares them by URI with the objects that it wants to publish, and
sends what is different as one delta. -/

structure ListElement where
  uri : Uri
  hash : Hash

abbrev ListReply := List ListElement

def CurrentObjects.toListReply (self : CurrentObjects) (order : IterOrder) : ListReply :=
  (self.map.iter order).map fun entry => ⟨entry.2.uri, entry.1⟩

/-- The orders in which the hash maps of one synchronisation happen to be listed:
the objects on the server, the elements of the reply and the objects of the CA. -/
structure SyncOrders where
  reply : IterOrder
  elements : IterOrder
  allObjects : IterOrder

namespace CaRepoSync

def elements (listReply : ListReply) : HashMap Uri Hash :=
  HashMap.empty.insertAll (listReply.map fun element => (element.uri, element.hash))

def allObjects (publishElements : List PublishElement) : HashMap Uri Base64 :=
  HashMap.empty.insertAll (publishElements.map fun element => (element.uri, element.base64))

def compare (state : HashMap Uri Base64 × PublishDelta) (listed : Uri × Hash) :
    HashMap Uri Base64 × PublishDelta :=
  match state.1.get listed.1 with
  | some base64 =>
    (state.1.remove listed.1,
      if toHash base64 ≠ listed.2 then
        state.2 ++ [.update none listed.1 base64 listed.2]
      else state.2)
  | none => (state.1, state.2 ++ [.withdraw none listed.1 listed.2])

def delta (listReply : ListReply) (publishElements : List PublishElement)
    (orders : SyncOrders) : PublishDelta :=
  let compared := ((elements listReply).iter orders.elements).foldl compare
    (allObjects publishElements, [])
  compared.2 ++ (compared.1.iter orders.allObjects).map fun entry =>
    .publish none entry.1 entry.2

end CaRepoSync

/-- The whole synchronisation, with the server's part of it. An empty delta is
not sent. -/
def CurrentObjects.caRepoSync (self : CurrentObjects) (jail : Uri)
    (publishElements : List PublishElement) (orders : SyncOrders) :
    Except PublicationDeltaError CurrentObjects := do
  let delta := CaRepoSync.delta (self.toListReply orders.reply) publishElements orders
  if delta.isEmpty then return self
  self.verifyDelta (.from delta) jail
  return self.applyDelta (.from delta)

inductive CurrentObjects.Reachable (jail : Uri) : CurrentObjects → Prop
  | default : Reachable jail .default
  | publish {objects : CurrentObjects} {delta : PublishDelta}
      (earlier : Reachable jail objects)
      (accepted : objects.verifyDelta (.from delta) jail = .ok ()) :
      Reachable jail (objects.applyDelta (.from delta))

def PublishDeltaElement.untagged : PublishDeltaElement → DeltaElement
  | .publish _ uri base64 => .publish ⟨base64, uri⟩
  | .update _ uri base64 hash => .update ⟨uri, hash, base64⟩
  | .withdraw _ uri hash => .withdraw ⟨uri, hash⟩

namespace DeltaElements

theorem from_eq_foldl : DeltaElements.from delta =
      (delta.map PublishDeltaElement.untagged).foldl pushElement ⟨[], [], []⟩ := by
  rw [DeltaElements.from, List.foldl_map]
  congr 1
  funext self element
  cases element with
  | publish | update | withdraw => rfl

theorem from_toList (delta : PublishDelta) :
    (DeltaElements.from delta).toList.Perm (delta.map PublishDeltaElement.untagged) := by
  rw [from_eq_foldl]
  exact foldl_pushElement_toList _ ⟨[], [], []⟩

theorem foldl_publish_push (present : element.kind ≠ 0) (published : List PublishElement)
    (self : DeltaElements) :
    (published.map .publish).foldl pushElement (pushElement self element) = pushElement
        ((published.map .publish).foldl pushElement self) element := by
  induction published generalizing self with
  | nil => rfl
  | cons first rest induction =>
    rw [List.map_cons, List.foldl_cons, List.foldl_cons, ← induction]
    cases element with
    | publish => exact absurd rfl present
    | update | withdraw => rfl

theorem exists_split_of_last {published : List PublishElement}
    (same : delta.map PublishDeltaElement.untagged =
      before ++ [element] ++ published.map .publish) (present : element.kind ≠ 0) :
    ∃ earlier later, (DeltaElements.from delta).toList = earlier ++ element :: later ∧
      ∀ other ∈ later, element.kind < other.kind := by
  obtain ⟨earlier, later, -, split, higher⟩ := toList_pushElement
    ((published.map .publish).foldl pushElement (before.foldl pushElement ⟨[], [], []⟩)) element
  refine ⟨earlier, later, ?_, higher⟩
  rw [from_eq_foldl, same, List.foldl_append, List.foldl_append, ← split,
    ← foldl_publish_push present]
  rfl

end DeltaElements

namespace CurrentObjects

variable {self : CurrentObjects} {hash : Hash}

def Keyed (self : CurrentObjects) : Prop :=
  ∀ ⦃hash element⦄, self.map.get hash = some element → toHash element.base64 = hash

theorem Keyed.get_of_mem_pairs (keyed : self.Keyed) (present : (uri, base64) ∈ self.pairs) :
    self.map.get (toHash base64) = some ⟨base64, uri⟩ := by
  obtain ⟨hash, found⟩ := present
  have same : toHash base64 = hash := keyed found
  rw [same]
  exact found

theorem get_applyDelta_eq_some (found : (self.applyDelta delta).map.get hash = some object) :
    (∃ element ∈ delta.toList, element.leaves hash = some (some object)) ∨
      self.map.get hash = some object := by
  rw [get_applyDelta] at found
  rcases settle_cases (self.map.get hash) delta.toList with ⟨element, member, left⟩ | same
  · exact .inl ⟨element, member, left.trans (congrArg some found)⟩
  · exact .inr (same.symm.trans found)

theorem Keyed.applyDelta (keyed : self.Keyed) (delta : DeltaElements) :
    (self.applyDelta delta).Keyed := by
  intro hash object found
  rcases get_applyDelta_eq_some found with ⟨_, _, left⟩ | earlier
  · exact (DeltaElement.eq_of_leaves left).2.1
  · exact keyed earlier

def Inside (jail : Uri) (self : CurrentObjects) : Prop :=
  ∀ ⦃hash element⦄, self.map.get hash = some element → isParentOf jail element.uri = true

theorem Reachable.keyed (reachable : Reachable jail self) : self.Keyed := by
  induction reachable with
  | default => exact fun _ _ found => shows_default.keyed found
  | publish _ _ induction => exact induction.applyDelta _

theorem Reachable.inside (reachable : Reachable jail self) : self.Inside jail := by
  induction reachable with
  | default =>
    intro hash element found
    simp [CurrentObjects.default] at found
  | publish _ accepted induction =>
    intro hash object found
    rcases get_applyDelta_eq_some found with ⟨element, member, left⟩ | earlier
    · rw [(DeltaElement.eq_of_leaves left).1]
      exact verifyDelta_inside accepted member
    · exact induction earlier

end CurrentObjects

namespace CaRepoSync

def planned (objects : HashMap Uri Base64) (listed : Uri × Hash) : Option DeltaElement :=
  match objects.get listed.1 with
  | some base64 =>
    if toHash base64 ≠ listed.2 then some (.update ⟨listed.1, listed.2, base64⟩) else none
  | none => some (.withdraw ⟨listed.1, listed.2⟩)

theorem planned_uri (plans : planned objects listed = some element) : element.uri = listed.1 := by
  unfold planned at plans
  cases wanted : objects.get listed.1 with
  | none =>
    simp only [wanted, Option.some.injEq] at plans
    rw [← plans]
    rfl
  | some base64 =>
    simp only [wanted] at plans
    split at plans
    · cases plans
      rfl
    · cases plans

theorem compare_get :
    (compare state listed).1.get uri = if uri = listed.1 then none else state.1.get uri := by
  unfold compare
  cases wanted : state.1.get listed.1 with
  | none =>
    by_cases same : uri = listed.1
    · rw [if_pos same, same]
      exact wanted
    · rw [if_neg same]
  | some base64 => exact get_remove ..

theorem compare_untagged : (compare state listed).2.map PublishDeltaElement.untagged =
      state.2.map PublishDeltaElement.untagged ++ (planned state.1 listed).toList := by
  unfold compare planned
  cases wanted : state.1.get listed.1 with
  | none => simp [PublishDeltaElement.untagged]
  | some base64 =>
    by_cases differs : toHash base64 ≠ listed.2
    · simp [differs, PublishDeltaElement.untagged]
    · simp [differs]

theorem foldl_compare {listed : List (Uri × Hash)} (distinct : (listed.map Prod.fst).Nodup)
    (state : HashMap Uri Base64 × PublishDelta) :
    (∀ uri, (listed.foldl compare state).1.get uri =
      if uri ∈ listed.map Prod.fst then none else state.1.get uri) ∧
    (listed.foldl compare state).2.map PublishDeltaElement.untagged =
      state.2.map PublishDeltaElement.untagged ++ listed.filterMap (planned state.1) := by
  induction listed generalizing state with
  | nil => simp
  | cons first rest induction =>
    simp only [List.map_cons, List.nodup_cons] at distinct
    obtain ⟨left, made⟩ := induction distinct.2 (compare state first)
    rw [List.foldl_cons]
    constructor
    · intro uri
      rw [left, compare_get]
      by_cases later : uri ∈ rest.map Prod.fst
      · simp [later]
      · by_cases same : uri = first.1
        · simp [same]
        · simp [later, same]
    · -- the turns that follow look at other URIs only
      have unchanged : rest.filterMap (planned (compare state first).1) =
          rest.filterMap (planned state.1) := by
        refine List.filterMap_congr fun entry member => ?_
        have other : entry.1 ≠ first.1 := by
          intro same
          exact distinct.1 (same ▸ List.mem_map_of_mem member)
        unfold planned
        rw [compare_get, if_neg other]
      rw [made, compare_untagged, unchanged, List.append_assoc, List.filterMap_cons]
      cases planned state.1 first with
      | none => rfl
      | some element => rfl

theorem delta_untagged (listReply : ListReply) (publishElements : List PublishElement)
    (orders : SyncOrders) : ∃ published : List PublishElement,
    (delta listReply publishElements orders).map PublishDeltaElement.untagged =
      ((elements listReply).iter orders.elements).filterMap
        (planned (allObjects publishElements)) ++ published.map .publish ∧
    (published.map PublishElement.uri).Nodup ∧
    ∀ object, object ∈ published ↔ (elements listReply).get object.uri = none ∧
      (allObjects publishElements).get object.uri = some object.base64 := by
  obtain ⟨left, made⟩ := foldl_compare ((elements listReply).iter_keys_nodup orders.elements)
    (allObjects publishElements, [])
  refine ⟨((((elements listReply).iter orders.elements).foldl compare
    (allObjects publishElements, [])).1.iter orders.allObjects).map
      fun entry => ⟨entry.2, entry.1⟩, ?_, ?_, ?_⟩
  · rw [delta, List.map_append, made, List.map_map, List.map_map]
    rfl
  · rw [List.map_map]
    exact iter_keys_nodup ..
  · rintro ⟨base64, uri⟩
    have listed : uri ∈ ((elements listReply).iter orders.elements).map Prod.fst ↔
        (elements listReply).get uri ≠ none := by
      rw [List.mem_map]
      constructor
      · rintro ⟨⟨_, hash⟩, member, rfl⟩
        rw [mem_iter.mp member]
        exact Option.some_ne_none hash
      · intro present
        obtain ⟨hash, found⟩ := Option.ne_none_iff_exists'.mp present
        exact ⟨(uri, hash), mem_iter.mpr found, rfl⟩
    have member : (⟨base64, uri⟩ : PublishElement) ∈
        ((((elements listReply).iter orders.elements).foldl compare
          (allObjects publishElements, [])).1.iter orders.allObjects).map
            (fun entry => ⟨entry.2, entry.1⟩) ↔
        (((elements listReply).iter orders.elements).foldl compare
          (allObjects publishElements, [])).1.get uri = some base64 := by
      rw [List.mem_map]
      constructor
      · rintro ⟨⟨_, _⟩, member, same⟩
        cases same
        exact mem_iter.mp member
      · intro found
        exact ⟨(uri, base64), mem_iter.mpr found, rfl⟩
    rw [member, left]
    by_cases present : uri ∈ ((elements listReply).iter orders.elements).map Prod.fst
    · simp [present, listed.mp present]
    · simp [present, not_not.mp (mt listed.mpr present)]

theorem mem_from_delta :
    element ∈ (DeltaElements.from (delta listReply publishElements orders)).toList ↔
      (∃ hash, (elements listReply).get element.uri = some hash ∧
        planned (allObjects publishElements) (element.uri, hash) = some element) ∨
      ∃ object, element = .publish object ∧ (elements listReply).get object.uri = none ∧
        (allObjects publishElements).get object.uri = some object.base64 := by
  obtain ⟨published, untagged, -, member⟩ := delta_untagged listReply publishElements orders
  rw [(DeltaElements.from_toList _).mem_iff, untagged, List.mem_append, List.mem_filterMap,
    List.mem_map]
  constructor
  · rintro (⟨⟨uri, hash⟩, listed, plans⟩ | ⟨object, listed, rfl⟩)
    · have sameUri := planned_uri plans
      subst sameUri
      exact .inl ⟨hash, mem_iter.mp listed, plans⟩
    · exact .inr ⟨object, rfl, (member object).mp listed⟩
  · rintro (⟨hash, listed, plans⟩ | ⟨object, rfl, wanted⟩)
    · exact .inl ⟨(element.uri, hash), mem_iter.mpr listed, plans⟩
    · exact .inr ⟨object, (member object).mpr wanted, rfl⟩

theorem from_delta_distinct (listReply : ListReply) (publishElements : List PublishElement)
    (orders : SyncOrders) :
    ((DeltaElements.from (delta listReply publishElements orders)).toList.map
      DeltaElement.uri).Nodup := by
  obtain ⟨published, untagged, distinct, member⟩ :=
    delta_untagged listReply publishElements orders
  have keys := (elements listReply).iter_keys_nodup orders.elements
  rw [((DeltaElements.from_toList _).map DeltaElement.uri).nodup_iff, untagged,
    List.map_append, List.map_map]
  refine List.nodup_append'.mpr ⟨?_, distinct, ?_⟩
  · rw [List.Nodup, List.pairwise_map] at keys ⊢
    rw [List.pairwise_filterMap]
    refine keys.imp fun different left leftPlans right rightPlans same => different ?_
    rw [← planned_uri leftPlans, ← planned_uri rightPlans, same]
  · intro uri listed added
    obtain ⟨element, planned, rfl⟩ := List.mem_map.mp listed
    obtain ⟨⟨uri, hash⟩, entry, plans⟩ := List.mem_filterMap.mp planned
    obtain ⟨object, published, same⟩ := List.mem_map.mp added
    have absent := ((member object).mp published).1
    have sameUri : object.uri = uri := same.trans (planned_uri plans)
    rw [sameUri, mem_iter.mp entry] at absent
    cases absent

theorem delta_eq_nil (same : ∀ uri, (elements listReply).get uri =
      ((allObjects publishElements).get uri).map toHash) :
    delta listReply publishElements orders = [] := by
  have none_listed : (DeltaElements.from (delta listReply publishElements orders)).toList = [] := by
    refine List.eq_nil_iff_forall_not_mem.mpr fun element member => ?_
    rcases mem_from_delta.mp member with ⟨hash, listed, plans⟩ | ⟨object, -, absent, wanted⟩
    · rw [same] at listed
      obtain ⟨base64, wanted, rfl⟩ := Option.map_eq_some_iff.mp listed
      simp [planned, wanted] at plans
    · rw [same, wanted] at absent
      cases absent
  have empty := (DeltaElements.from_toList (delta listReply publishElements orders)).symm
  rw [none_listed, List.perm_nil, List.map_eq_nil_iff] at empty
  exact empty

theorem get_allObjects (distinct : (publishElements.map PublishElement.uri).Nodup) :
    (allObjects publishElements).get uri = some base64 ↔ ⟨base64, uri⟩ ∈ publishElements := by
  constructor
  · intro found
    obtain ⟨object, member, same⟩ := List.mem_map.mp (mem_of_get_insertAll found)
    cases same
    exact member
  · intro member
    refine get_insertAll_of_mem ?_ (List.mem_map.mpr ⟨_, member, rfl⟩)
    rw [List.map_map]
    exact distinct

section Reply

variable {objects : CurrentObjects} {hash : Hash}

theorem get_elements_eq_some (listed : (elements (objects.toListReply order)).get uri = some hash) :
    ∃ object, objects.map.get hash = some object ∧ object.uri = uri := by
  obtain ⟨element, member, same⟩ := List.mem_map.mp (mem_of_get_insertAll listed)
  obtain ⟨⟨_, object⟩, entry, rfl⟩ := List.mem_map.mp member
  cases same
  exact ⟨object, mem_iter.mp entry, rfl⟩

theorem get_elements_ne_none (present : objects.map.get hash = some object) :
    (elements (objects.toListReply order)).get object.uri ≠ none := by
  intro absent
  refine notMem_of_get_insertAll absent ?_
  refine List.mem_map.mpr ⟨(object.uri, hash), List.mem_map.mpr ⟨⟨object.uri, hash⟩, ?_, rfl⟩, rfl⟩
  exact List.mem_map.mpr ⟨(hash, object), mem_iter.mpr present, rfl⟩

theorem exists_reply_order (present : objects.map.get hash = some object) : ∃ order,
    (elements (objects.toListReply order)).get object.uri = some hash := by
  obtain ⟨order, before, last⟩ := IterOrder.exists_last (mem_entries.mpr present)
  have listed : (objects.toListReply order).map (fun element => (element.uri, element.hash)) =
      before.map (fun entry => (entry.2.uri, entry.1)) ++ [(object.uri, hash)] := by
    rw [CurrentObjects.toListReply, iter, last, List.map_map, List.map_append]
    rfl
  exact ⟨order, get_insertAll_of_last listed⟩

theorem get_elements_of_shows (shows : objects.Shows content) (uri : Uri) :
    (elements (objects.toListReply order)).get uri = (content uri).map toHash := by
  cases listed : (elements (objects.toListReply order)).get uri with
  | some hash =>
    obtain ⟨object, present, rfl⟩ := get_elements_eq_some listed
    have shown : content object.uri = some object.base64 :=
      shows.mem_pairs.mp ⟨hash, present⟩
    rw [shown, Option.map_some, shows.keyed present]
  | none =>
    cases shown : content uri with
    | none => rfl
    | some base64 =>
      exact absurd listed (get_elements_ne_none (shows.present.mpr shown))

end Reply

end CaRepoSync

end Krill.Pubd
