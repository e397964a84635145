import Mathlib.Data.Set.Basic
import Mathlib.Logic.Relator
import Krill.Data.Changeset
import Krill.Data.LastWrite
import Krill.Pubd.RrdpServer

namespace Krill.Pubd

open Rpki Changeset LastWrite
open HashMap

variable [Rpki]

abbrev ContentMap := Uri → Option Base64

namespace DeltaElement

def uri : DeltaElement → Uri
  | .publish element => element.uri
  | .update element => element.uri
  | .withdraw element => element.uri

def change : DeltaElement → Change Base64 Hash
  | .publish element => .publish element.base64
  | .update element => .update element.hash element.base64
  | .withdraw element => .withdraw element.hash

/-- The hashes that an element mentions, for what it adds or what it replaces. -/
def Names : DeltaElement → Hash → Prop
  | .publish element, hash => hash = toHash element.base64
  | .update element, hash => hash = element.hash ∨ hash = toHash element.base64
  | .withdraw element, hash => hash = element.hash

/-- What stands under a hash after an element that touches it. -/
def leaves (hash : Hash) : DeltaElement → Option (Option PublishElement)
  | .publish element => if hash = toHash element.base64 then some (some element) else none
  | .update element =>
    if hash = toHash element.base64 then some (some element.intoPublish)
    else if hash = element.hash then some none
    else none
  | .withdraw element => if hash = element.hash then some none else none

def kind : DeltaElement → Nat
  | .publish _ => 0
  | .update _ => 1
  | .withdraw _ => 2

def entry (element : DeltaElement) : Uri × Change Base64 Hash :=
  (element.uri, element.change)

variable {element : DeltaElement} {hash : Hash}

theorem leaves_eq_none : element.leaves hash = none ↔ ¬element.Names hash := by
  cases element with
  | publish element | withdraw element => simp [leaves, Names]
  | update element =>
    by_cases new : hash = toHash element.base64 <;> simp [leaves, Names, new]

theorem eq_of_leaves (left : element.leaves hash = some (some object)) :
    object.uri = element.uri ∧ toHash object.base64 = hash ∧
      element.change.result = some object.base64 := by
  cases element with
  | publish element | update element =>
    dsimp only [leaves] at left
    split at left
    · next same =>
        cases left
        exact ⟨rfl, same.symm, rfl⟩
    · first | cases left | split at left <;> cases left
  | withdraw element =>
    dsimp only [leaves] at left
    split at left <;> cases left

theorem leaves_of_result (result : element.change.result = some base64) :
    element.leaves (toHash base64) = some (some ⟨base64, element.uri⟩) := by
  cases element with
  | publish element | update element =>
    cases result
    exact if_pos rfl
  | withdraw element => cases result

theorem names_of_foldl {uri : Uri} (names : S → Prop)
    (each : ∀ state element, names (step state element) →
      names state ∨ element.uri = uri ∧ element.Names hash) {elements : List DeltaElement}
    (named : names (elements.foldl step state)) :
    names state ∨ ∃ element ∈ elements, element.uri = uri ∧ element.Names hash := by
  induction elements generalizing state with
  | nil => exact .inl named
  | cons first rest induction =>
    rcases induction named with earlier | ⟨element, member, named⟩
    · exact (each state first earlier).imp_right fun named => ⟨first, List.mem_cons_self, named⟩
    · exact .inr ⟨element, List.mem_cons_of_mem _ member, named⟩

end DeltaElement

namespace DeltaElements

def toList (self : DeltaElements) : List DeltaElement :=
  self.publishes.map .publish ++ self.updates.map .update ++ self.withdraws.map .withdraw

def changes (self : DeltaElements) : List (Uri × Change Base64 Hash) :=
  self.toList.map DeltaElement.entry

def changeAt (self : DeltaElements) (uri : Uri) : Option (Change Base64 Hash) :=
  self.changes.lookup uri

def Names (self : DeltaElements) (hash : Hash) (uri : Uri) : Prop :=
  ∃ element ∈ self.toList, element.uri = uri ∧ element.Names hash

end DeltaElements

theorem DeltaElements.mem_toList {self : DeltaElements} :
    element ∈ self.toList ↔ (∃ p ∈ self.publishes, .publish p = element) ∨
      (∃ u ∈ self.updates, .update u = element) ∨
      (∃ w ∈ self.withdraws, .withdraw w = element) := by
  simp only [toList, List.mem_append, List.mem_map, or_assoc]

namespace CurrentObjects

def pairs (self : CurrentObjects) : Set (Uri × Base64) :=
  { pair | ∃ hash, self.map.get hash = some ⟨pair.2, pair.1⟩ }

def Names (self : CurrentObjects) (hash : Hash) (uri : Uri) : Prop :=
  ∃ element, self.map.get hash = some element ∧ element.uri = uri

/-- Every object stands under its own hash, and the objects are those of the
given map, so no URI has two of them. -/
structure Shows (objects : CurrentObjects) (content : ContentMap) : Prop where
  keyed : ∀ {hash element}, objects.map.get hash = some element → toHash element.base64 = hash
  present : ∀ {uri base64}, objects.map.get (toHash base64) = some ⟨base64, uri⟩ ↔
    content uri = some base64

variable {self : CurrentObjects}

theorem Shows.mem_pairs (shows : self.Shows content) :
    (uri, base64) ∈ self.pairs ↔ content uri = some base64 := by
  rw [← shows.present]
  constructor
  · intro member
    obtain ⟨hash, found⟩ := member
    have same := shows.keyed found
    rw [← same] at found
    exact found
  · intro found
    exact ⟨_, found⟩

theorem Shows.unique (showsLeft : self.Shows left) (showsRight : self.Shows right) :
    left = right := by
  funext uri
  apply Option.ext
  intro base64
  rw [← showsLeft.mem_pairs, ← showsRight.mem_pairs]

theorem Shows.elements_distinct (shows : self.Shows content) (order : IterOrder) :
    ((self.elements order).map PublishElement.uri).Nodup := by
  rw [elements, intoValues, List.map_map]
  apply List.Nodup.map_on
  · intro left leftListed right rightListed sameUri
    have leftFound := mem_iter.mp leftListed
    have rightFound := mem_iter.mp rightListed
    have leftKey := shows.keyed leftFound
    have rightKey := shows.keyed rightFound
    have leftPresent : content left.2.uri = some left.2.base64 :=
      shows.mem_pairs.mp ⟨_, leftFound⟩
    have rightPresent : content right.2.uri = some right.2.base64 :=
      shows.mem_pairs.mp ⟨_, rightFound⟩
    simp only [Function.comp_apply] at sameUri
    rw [sameUri, rightPresent] at leftPresent
    have sameContent := Option.some.inj leftPresent
    have sameKey : left.1 = right.1 := by
      rw [← leftKey, ← rightKey, sameContent]
    rw [sameKey, rightFound] at leftFound
    exact Prod.ext sameKey (Option.some.inj leftFound).symm
  · exact (self.map.iter_keys_nodup order).of_map

theorem shows_default : CurrentObjects.default.Shows (fun _ => none) := by
  refine ⟨?_, ?_⟩
  · intro hash element found
    simp [CurrentObjects.default] at found
  · intro uri base64
    simp [CurrentObjects.default]

def applyElement (self : CurrentObjects) : DeltaElement → CurrentObjects
  | .publish element => self.applyPublish element
  | .update element => self.applyUpdate element
  | .withdraw element => self.applyWithdraw element

theorem applyDelta_eq_foldl (self : CurrentObjects) (delta : DeltaElements) :
    self.applyDelta delta = delta.toList.foldl applyElement self := by
  simp only [applyDelta, DeltaElements.toList, List.foldl_append, List.foldl_map]
  rfl

variable {hash : Hash}

theorem get_applyElement (self : CurrentObjects) (element : DeltaElement) (hash : Hash) :
    (self.applyElement element).map.get hash = (element.leaves hash).getD (self.map.get hash) := by
  cases element with
  | publish element =>
    simp only [applyElement, applyPublish, get_insert, DeltaElement.leaves]
    split <;> rfl
  | update element =>
    simp only [applyElement, applyUpdate, applyPublish, get_insert,
      get_remove, DeltaElement.leaves, UpdateElement.intoPublish]
    split
    · rfl
    · split <;> rfl
  | withdraw element =>
    simp only [applyElement, applyWithdraw, get_remove, DeltaElement.leaves]
    split <;> rfl

theorem get_foldl_applyElement (self : CurrentObjects) (elements : List DeltaElement)
    (hash : Hash) :
    (elements.foldl applyElement self).map.get hash =
      settle (DeltaElement.leaves hash) (self.map.get hash) elements := by
  induction elements generalizing self with
  | nil => rfl
  | cons element rest induction =>
    rw [List.foldl_cons, induction, get_applyElement, settle_cons]

theorem get_applyDelta (self : CurrentObjects) (delta : DeltaElements) (hash : Hash) :
    (self.applyDelta delta).map.get hash =
      settle (DeltaElement.leaves hash) (self.map.get hash) delta.toList := by
  rw [applyDelta_eq_foldl, get_foldl_applyElement]

/-- An element at one URI changes what is shown at that URI only, if the hashes
it names are not in use elsewhere. -/
theorem Shows.applyElement (shows : self.Shows content)
    (home : ∀ {hash other}, element.Names hash → self.map.get hash = some other →
      other.uri = element.uri)
    (fits : element.change.Fits (AtMost toHash) (content element.uri)) :
    (self.applyElement element).Shows
      (Function.update content element.uri element.change.result) := by
  have elsewhere {uri : Uri} {base64 : Base64} (other : uri ≠ element.uri)
      (named : element.Names (toHash base64)) : content uri ≠ some base64 := fun shown =>
    other (home named (shows.present.mpr shown))
  refine ⟨fun {hash object} found => ?_, fun {uri base64} => ?_⟩
  · rw [get_applyElement] at found
    cases left : element.leaves hash with
    | none =>
      rw [left] at found
      exact shows.keyed found
    | some object =>
      rw [left] at found
      cases found
      exact (DeltaElement.eq_of_leaves left).2.1
  · rw [get_applyElement, Function.update_apply]
    cases left : element.leaves (toHash base64) with
    | none =>
      have unnamed := DeltaElement.leaves_eq_none.mp left
      refine shows.present.trans ?_
      split
      · next same =>
          subst same
          refine iff_of_false (fun shown => unnamed ?_) fun result => ?_
          · cases element with
            | publish => cases fits.symm.trans shown
            | update => exact .inl (fits base64 shown)
            | withdraw => exact fits base64 shown
          · cases (DeltaElement.leaves_of_result result).symm.trans left
      · rfl
    | some now =>
      have named : element.Names (toHash base64) := by
        by_contra unnamed
        cases (DeltaElement.leaves_eq_none.mpr unnamed).symm.trans left
      rw [Option.getD_some]
      split
      · next same =>
          subst same
          constructor
          · rintro rfl
            exact (DeltaElement.eq_of_leaves left).2.2
          · intro result
            exact Option.some.inj (left.symm.trans (DeltaElement.leaves_of_result result))
      · next other =>
          refine iff_of_false ?_ (elsewhere other named)
          rintro rfl
          exact other (DeltaElement.eq_of_leaves left).1

theorem applyElement_names (names : (self.applyElement element).Names hash uri) :
    self.Names hash uri ∨ (element.uri = uri ∧ element.Names hash) := by
  obtain ⟨other, found, rfl⟩ := names
  rw [get_applyElement] at found
  by_cases named : element.Names hash
  · cases left : element.leaves hash with
    | none => exact absurd named (DeltaElement.leaves_eq_none.mp left)
    | some object =>
      rw [left] at found
      cases found
      exact .inr ⟨(DeltaElement.eq_of_leaves left).1.symm, named⟩
  · rw [DeltaElement.leaves_eq_none.mpr named] at found
    exact .inl ⟨other, found, rfl⟩

variable {elements : List DeltaElement}

theorem applyDelta_names (names : (self.applyDelta delta).Names hash uri) :
    self.Names hash uri ∨ delta.Names hash uri := by
  rw [applyDelta_eq_foldl] at names
  exact DeltaElement.names_of_foldl (Names · hash uri)
    (fun _ _ earlier => applyElement_names earlier) names

theorem Shows.foldl_applyElement (shows : self.Shows content) (distinct : (elements.map DeltaElement.uri).Nodup)
    (oneHome : Relator.RightUnique fun hash uri => self.Names hash uri ∨
      ∃ element ∈ elements, element.uri = uri ∧ element.Names hash)
    (fits : ∀ element ∈ elements, element.change.Fits (AtMost toHash) (content element.uri)) :
    (elements.foldl CurrentObjects.applyElement self).Shows
      (patch (fun uri => (elements.map DeltaElement.entry).lookup uri) content) := by
  induction elements generalizing self content with
  | nil => exact shows
  | cons first rest induction =>
    simp only [List.map_cons, List.nodup_cons] at distinct
    have firstShows := shows.applyElement (fun {hash other} named found =>
        oneHome (.inl ⟨other, found, rfl⟩) (.inr ⟨first, List.mem_cons_self, rfl, named⟩))
      (fits first List.mem_cons_self)
    have fresh : first.uri ∉ (rest.map DeltaElement.entry).map Prod.fst := by
      rw [List.map_map]
      exact distinct.1
    have restHome : Relator.RightUnique fun hash uri =>
        (self.applyElement first).Names hash uri ∨
          ∃ element ∈ rest, element.uri = uri ∧ element.Names hash := by
      have widen : ∀ {hash uri}, ((self.applyElement first).Names hash uri ∨
          ∃ element ∈ rest, element.uri = uri ∧ element.Names hash) →
          self.Names hash uri ∨ ∃ element ∈ first :: rest,
            element.uri = uri ∧ element.Names hash := by
        intro hash uri names
        rcases names with names | ⟨element, member, named⟩
        · rcases applyElement_names names with names | named
          · exact .inl names
          · exact .inr ⟨first, List.mem_cons_self, named⟩
        · exact .inr ⟨element, List.mem_cons_of_mem _ member, named⟩
      intro hash left right namesLeft namesRight
      exact oneHome (widen namesLeft) (widen namesRight)
    have restFits : ∀ element ∈ rest, element.change.Fits (AtMost toHash)
        (Function.update content first.uri first.change.result element.uri) := by
      intro element member
      have different : element.uri ≠ first.uri := by
        intro same
        exact distinct.1 (same ▸ List.mem_map_of_mem member)
      rw [Function.update_of_ne different]
      exact fits element (List.mem_cons_of_mem _ member)
    have restShows := induction firstShows distinct.2 restHome restFits
    rw [← patch_cons content fresh] at restShows
    exact restShows

theorem Shows.applyDelta (shows : self.Shows content)
    (distinct : (delta.toList.map DeltaElement.uri).Nodup)
    (oneHome : Relator.RightUnique fun hash uri =>
      self.Names hash uri ∨ delta.Names hash uri) (fits : ∀ element ∈ delta.toList,
      element.change.Fits (AtMost toHash) (content element.uri)) :
    (self.applyDelta delta).Shows (patch delta.changeAt content) := by
  rw [applyDelta_eq_foldl]
  exact shows.foldl_applyElement distinct oneHome fits

theorem verifyDelta_inside {jail : Uri} (accepted : self.verifyDelta delta jail = .ok ())
    (member : element ∈ delta.toList) : isParentOf jail element.uri = true := by
  obtain ⟨publishes, updates, withdraws⟩ := verifyDelta_eq_ok.mp accepted
  rcases DeltaElements.mem_toList.mp member with
    ⟨p, listed, rfl⟩ | ⟨u, listed, rfl⟩ | ⟨w, listed, rfl⟩
  · exact (publishes p listed).1
  · exact (updates u listed).1
  · exact (withdraws w listed).1

theorem Shows.verified_fits {jail : Uri} (shows : self.Shows content)
    (verified : self.verifyDelta delta jail = .ok ())
    (absent : ∀ p ∈ delta.publishes, ∀ base64, (p.uri, base64) ∉ self.pairs)
    (member : element ∈ delta.toList) :
    element.change.Fits (Exactly toHash) (content element.uri) := by
  obtain ⟨_, updates, withdraws⟩ := verifyDelta_eq_ok.mp verified
  have matched : ∀ {hash uri}, self.hasMatch hash uri = true →
      Exactly toHash hash (content uri) := by
    intro hash uri hasMatch
    obtain ⟨held, found, rfl⟩ := hasMatch_eq_true.mp hasMatch
    exact ⟨_, shows.mem_pairs.mp ⟨hash, found⟩, shows.keyed found⟩
  rcases DeltaElements.mem_toList.mp member with
    ⟨p, listed, rfl⟩ | ⟨u, listed, rfl⟩ | ⟨w, listed, rfl⟩
  · refine Option.eq_none_iff_forall_ne_some.mpr fun base64 present => ?_
    exact absent p listed base64 (shows.mem_pairs.mpr present)
  · exact matched (updates u listed).2
  · exact matched (withdraws w listed).2

end CurrentObjects

namespace StagedElements

def Keyed (self : StagedElements) : Prop :=
  ∀ ⦃uri element⦄, self.map.get uri = some element → element.uri = uri

def changeAt (self : StagedElements) (uri : Uri) : Option (Change Base64 Hash) :=
  (self.map.get uri).map DeltaElement.change

def Names (self : StagedElements) (hash : Hash) (uri : Uri) : Prop :=
  ∃ element, self.map.get uri = some element ∧ element.Names hash

def stageElement (self : StagedElements) : DeltaElement → StagedElements
  | .publish element => self.stagePublish element
  | .update element => self.stageUpdate element
  | .withdraw element => self.stageWithdraw element

theorem stage_eq_foldl (self : StagedElements) (elements : DeltaElements) :
    self.stage elements = elements.toList.foldl stageElement self := by
  simp only [stage, DeltaElements.toList, List.foldl_append, List.foldl_map]
  rfl

/-- Staging puts one element at the URI of the new one. Its change merges the
two, and the hashes it names were named before or are named by the new one. -/
theorem stageElement_eq_insert (self : StagedElements) (element : DeltaElement) :
    ∃ merged, self.stageElement element = self.insert element.uri merged ∧
      merged.uri = element.uri ∧
      merged.change = Change.merge (self.changeAt element.uri) element.change ∧
      ∀ {hash}, merged.Names hash → element.Names hash ∨ self.Names hash element.uri := by
  cases element with
  | publish element =>
    simp only [stageElement, stagePublish, changeAt, DeltaElement.uri]
    cases found : self.map.get element.uri with
    | none => exact ⟨_, rfl, rfl, rfl, fun named => .inl named⟩
    | some staged =>
      cases staged with
      | publish _ => exact ⟨_, rfl, rfl, rfl, fun named => .inl named⟩
      | update _ => exact ⟨_, rfl, rfl, rfl, fun named => .inl named⟩
      | withdraw staged =>
        refine ⟨_, rfl, rfl, rfl, ?_⟩
        intro hash named
        rcases named with named | named
        · exact .inr ⟨_, found, named⟩
        · exact .inl named
  | update element =>
    simp only [stageElement, stageUpdate, changeAt, DeltaElement.uri]
    cases found : self.map.get element.uri with
    | none => exact ⟨_, rfl, rfl, rfl, fun named => .inl named⟩
    | some staged =>
      cases staged with
      | publish _ => exact ⟨_, rfl, rfl, rfl, fun named => .inl (.inr named)⟩
      | update staged =>
        refine ⟨_, rfl, rfl, rfl, ?_⟩
        intro hash named
        rcases named with named | named
        · exact .inr ⟨_, found, .inl named⟩
        · exact .inl (.inr named)
      | withdraw _ => exact ⟨_, rfl, rfl, rfl, fun named => .inl named⟩
  | withdraw element =>
    refine ⟨_, rfl, rfl, ?_, fun named => .inl named⟩
    rw [DeltaElement.change, Change.merge_withdraw]

variable {self : StagedElements}

theorem stageElement_keyed (keyed : self.Keyed) (element : DeltaElement) :
    (self.stageElement element).Keyed := by
  obtain ⟨merged, inserted, sameUri, -, -⟩ := self.stageElement_eq_insert element
  intro uri other found
  rw [inserted, insert, get_insert] at found
  split at found
  · next same =>
      cases found
      rw [same, sameUri]
  · exact keyed found

theorem stageElement_changeAt (self : StagedElements) (element : DeltaElement) :
    (self.stageElement element).changeAt = Function.update self.changeAt element.uri
        (some (Change.merge (self.changeAt element.uri) element.change)) := by
  obtain ⟨merged, inserted, -, sameChange, -⟩ := self.stageElement_eq_insert element
  funext uri
  rw [inserted, ← sameChange, changeAt, insert, get_insert]
  by_cases same : uri = element.uri
  · subst same
    simp
  · simp [same, changeAt]

variable {hash : Hash}

theorem stageElement_names (names : (self.stageElement element).Names hash uri) :
    self.Names hash uri ∨ (element.uri = uri ∧ element.Names hash) := by
  obtain ⟨merged, inserted, -, -, sameNames⟩ := self.stageElement_eq_insert element
  obtain ⟨other, found, named⟩ := names
  rw [inserted, insert, get_insert] at found
  split at found
  · next same =>
      subst same
      cases found
      rcases sameNames named with named | earlier
      · exact .inr ⟨rfl, named⟩
      · exact .inl earlier
  · exact .inl ⟨other, found, named⟩

variable {elements : List DeltaElement}

theorem foldl_stageElement_keyed (keyed : self.Keyed) :
    (elements.foldl stageElement self).Keyed := by
  induction elements generalizing self with
  | nil => exact keyed
  | cons first rest induction => exact induction (stageElement_keyed keyed first)

theorem stage_keyed (keyed : self.Keyed) (delta : DeltaElements) : (self.stage delta).Keyed := by
  rw [stage_eq_foldl]
  exact foldl_stageElement_keyed keyed

theorem stage_names (names : (self.stage delta).Names hash uri) :
    self.Names hash uri ∨ delta.Names hash uri := by
  rw [stage_eq_foldl] at names
  exact DeltaElement.names_of_foldl (Names · hash uri)
    (fun _ _ earlier => stageElement_names earlier) names

theorem foldl_stageElement_changeAt (distinct : (elements.map DeltaElement.uri).Nodup) :
    (elements.foldl stageElement self).changeAt = Changeset.stage self.changeAt
        (fun uri => (elements.map DeltaElement.entry).lookup uri) := by
  induction elements generalizing self with
  | nil => rfl
  | cons first rest induction =>
    simp only [List.map_cons, List.nodup_cons] at distinct
    have fresh : first.uri ∉ (rest.map DeltaElement.entry).map Prod.fst := by
      rw [List.map_map]
      exact distinct.1
    rw [List.foldl_cons, induction distinct.2, stageElement_changeAt,
      ← stage_cons self.changeAt fresh]
    rfl

theorem toList_pushElement (delta : DeltaElements) (element : DeltaElement) :
    ∃ before after, delta.toList = before ++ after ∧
      (pushElement delta element).toList = before ++ element :: after ∧
      ∀ later ∈ after, element.kind < later.kind := by
  cases element with
  | publish element =>
    refine ⟨delta.publishes.map .publish,
      delta.updates.map .update ++ delta.withdraws.map .withdraw, List.append_assoc .., ?_, ?_⟩
    · simp [pushElement, DeltaElements.toList]
    · intro later member
      simp only [List.mem_append, List.mem_map] at member
      rcases member with ⟨_, -, rfl⟩ | ⟨_, -, rfl⟩
      · exact Nat.zero_lt_one
      · exact Nat.zero_lt_two
  | update element =>
    refine ⟨delta.publishes.map .publish ++ delta.updates.map .update,
      delta.withdraws.map .withdraw, rfl, ?_, ?_⟩
    · simp [pushElement, DeltaElements.toList]
    · intro later member
      obtain ⟨_, -, rfl⟩ := List.mem_map.mp member
      exact Nat.one_lt_two
  | withdraw element =>
    refine ⟨delta.toList, [], (List.append_nil _).symm, ?_, List.forall_mem_nil _⟩
    simp [pushElement, DeltaElements.toList]

theorem foldl_pushElement_toList (elements : List DeltaElement) (delta : DeltaElements) :
    (elements.foldl pushElement delta).toList.Perm (delta.toList ++ elements) := by
  induction elements generalizing delta with
  | nil => simp
  | cons first rest induction =>
    obtain ⟨before, after, same, pushed, -⟩ := toList_pushElement delta first
    have step : (pushElement delta first).toList.Perm (delta.toList ++ [first]) := by
      rw [same, pushed, List.append_assoc]
      exact (List.perm_append_singleton first after).symm.append_left _
    have more := step.append_right rest
    rw [List.append_assoc] at more
    exact (induction (pushElement delta first)).trans more

theorem intoDeltaElements_toList (self : StagedElements) (order : IterOrder) :
    (self.intoDeltaElements order).toList.Perm (self.map.intoValues order) :=
  foldl_pushElement_toList (self.map.intoValues order) ⟨[], [], []⟩

theorem mem_intoDeltaElements (keyed : self.Keyed) :
    element ∈ (self.intoDeltaElements order).toList ↔ self.map.get element.uri = some element := by
  rw [(self.intoDeltaElements_toList order).mem_iff, mem_intoValues]
  constructor
  · intro listed
    obtain ⟨uri, found⟩ := listed
    rw [keyed found]
    exact found
  · intro found
    exact ⟨_, found⟩

theorem intoDeltaElements_distinct (keyed : self.Keyed) (order : IterOrder) :
    ((self.intoDeltaElements order).toList.map DeltaElement.uri).Nodup := by
  have perm := (self.intoDeltaElements_toList order).map DeltaElement.uri
  rw [perm.nodup_iff, intoValues, List.map_map]
  have sameKeys : (self.map.iter order).map (DeltaElement.uri ∘ Prod.snd) =
      (self.map.iter order).map Prod.fst := by
    apply List.map_congr_left
    intro entry listed
    exact keyed (mem_iter.mp listed)
  rw [sameKeys]
  exact self.map.iter_keys_nodup order

theorem intoDeltaElements_changeAt (keyed : self.Keyed) (order : IterOrder) (uri : Uri) :
    (self.intoDeltaElements order).changeAt uri = self.changeAt uri := by
  have distinct : ((self.intoDeltaElements order).changes.map Prod.fst).Nodup := by
    rw [DeltaElements.changes, List.map_map]
    exact intoDeltaElements_distinct keyed order
  apply Option.ext
  intro change
  constructor
  · intro found
    obtain ⟨element, listed, same⟩ := List.mem_map.mp (lookup_mem found)
    cases same
    rw [mem_intoDeltaElements keyed] at listed
    rw [changeAt, listed]
    rfl
  · intro found
    obtain ⟨element, staged, rfl⟩ := Option.map_eq_some_iff.mp found
    have sameUri := keyed staged
    subst sameUri
    exact mem_lookup distinct
      (List.mem_map.mpr ⟨element, (mem_intoDeltaElements keyed).mpr staged, rfl⟩)

end StagedElements

end Krill.Pubd
