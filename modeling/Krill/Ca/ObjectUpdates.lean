import Krill.Ca.EventSpec
import Krill.Data.StableSort

namespace Krill.Ca

open Rpki
open Stateful (Yields)
open HashMap

variable [Rpki]

/-- A ROA for one prefix is kept under that prefix. A class has such ROAs, or ROAs that are
aggregated by AS. -/
structure Roas.Formed (roas : Roas) : Prop where
  simple : ∀ {auth info}, roas.simple.get auth = some info → info.authorizations = [auth]
  aggregate : ∀ {key info}, roas.aggregate.get key = some info → key.group = none
  exclusive : (∀ auth, roas.simple.get auth = none) ∨ ∀ key, roas.aggregate.get key = none

structure Roas.Within (roas : Roas) (resources : ResourceSet) : Prop where
  simple : ∀ {auth info}, roas.simple.get auth = some info →
    ∀ held ∈ info.authorizations, containsRoaAddress resources held.asRoaIpAddress
  aggregate : ∀ {key info}, roas.aggregate.get key = some info →
    ∀ held ∈ info.authorizations, containsRoaAddress resources held.asRoaIpAddress

instance : Std.Total fun left right : RoaPayload => left.le right where
  total left right := by simpa [RoaPayload.le] using le_total _ _

instance : IsTrans RoaPayload fun left right => left.le right where
  trans _ _ _ first second := by
    simp only [RoaPayload.le, decide_eq_true_eq] at first second ⊢
    exact first.trans second

namespace Routes

variable {routes : Routes}

omit [Rpki] in
theorem has_of_mem_roaPayloadKeys : auth ∈ routes.roaPayloadKeys order ↔ routes.has auth :=
  mem_iter_keys

theorem has_filter : (routes.filter resources).has auth ↔
    routes.has auth ∧ containsRoaAddress resources auth.asRoaIpAddress := by
  unfold has containsKey filter
  rw [get_filter]
  cases routes.map.get auth <;> simp [Option.filter_some]

/-- The routes that are aggregated under a key. -/
def ofKey (keys : List RoaPayloadJsonMapKey) (key : RoaAggregateKey) :
    List RoaPayloadJsonMapKey :=
  keys.filter fun auth => key = ⟨auth.asn, none⟩

omit [Rpki] in
theorem get_asAggregates (routes : Routes) (order : IterOrder) (key : RoaAggregateKey) :
    (routes.asAggregates order).get key =
      if ofKey (routes.roaPayloadKeys order) key = [] then none
      else some (RoaPayload.sort (ofKey (routes.roaPayloadKeys order) key)) := by
  unfold asAggregates
  generalize routes.roaPayloadKeys order = keys
  induction keys using List.reverseRecOn generalizing key with
  | nil => rfl
  | append_singleton front last induction =>
    rw [List.foldl_append, List.foldl_cons, List.foldl_nil]
    have before := induction ⟨last.asn, none⟩
    by_cases same : key = ⟨last.asn, none⟩
    · subst same
      have listed : ofKey (front ++ [last]) ⟨last.asn, none⟩ =
          ofKey front ⟨last.asn, none⟩ ++ [last] := by simp [ofKey]
      rw [listed, if_neg (List.append_ne_nil_of_right_ne_nil _ (List.cons_ne_nil _ _))]
      dsimp only
      split
      · next existing found =>
        rw [get_insert_self]
        rw [found] at before
        obtain ⟨_, same⟩ := Option.ite_none_left_eq_some.mp before.symm
        cases same
        exact congrArg some (StableSort.insertionSort_append _ _)
      · next absent =>
        rw [get_insert_self]
        rw [absent] at before
        have none_before : ofKey front ⟨last.asn, none⟩ = [] := by
          by_contra present
          rw [if_neg present] at before
          cases before
        rw [none_before]
        rfl
    · have listed : ofKey (front ++ [last]) key = ofKey front key := by simp [ofKey, same]
      rw [listed, ← induction]
      dsimp only
      split <;> rw [get_insert, if_neg same]

omit [Rpki] in
theorem asAggregates_spec (found : (routes.asAggregates order).get key = some authorizations) :
    authorizations ≠ [] ∧ authorizations.Pairwise (fun left right => left.le right) ∧
      ∀ auth, auth ∈ authorizations ↔ routes.has auth ∧ key = ⟨auth.asn, none⟩ := by
  rw [get_asAggregates] at found
  obtain ⟨present, same⟩ := Option.ite_none_left_eq_some.mp found
  cases same
  refine ⟨fun nothing => present ?_, List.pairwise_insertionSort _ _, fun auth => ?_⟩
  · exact List.length_eq_zero_iff.mp ((List.length_insertionSort _ _).symm.trans
      (congrArg List.length nothing))
  · simp [RoaPayload.sort, ofKey, has_of_mem_roaPayloadKeys]

omit [Rpki] in
theorem isSome_asAggregates : ((routes.asAggregates order).get key).isSome ↔
      ∃ auth, routes.has auth ∧ key = ⟨auth.asn, none⟩ := by
  have nothing : ofKey (routes.roaPayloadKeys order) key = [] ↔
      ¬∃ auth, routes.has auth ∧ key = ⟨auth.asn, none⟩ := by
    simp [ofKey, has_of_mem_roaPayloadKeys]
  rw [get_asAggregates, ← not_iff_not, ← nothing]
  split <;> simp_all

end Routes

def RoaMode.aggregates : RoaMode → Bool
  | .startAggregating | .aggregate => true
  | .simple | .stopAggregating => false

namespace Roas

variable {roas : Roas} {routes : Routes}

/-- ROAs are made for the routes that have none, and those without a route are removed. -/
structure SimpleUpdate (roas : Roas) (routes : Routes) (updates : RoaUpdates) : Prop where
  made : ∀ {auth}, (updates.updated.get auth).isSome ↔
    routes.has auth ∧ roas.simple.get auth = none
  authorizations : ∀ {auth info}, updates.updated.get auth = some info →
    info.authorizations = [auth]
  removed : ∀ {auth}, auth ∈ updates.removed ↔
    (roas.simple.get auth).isSome ∧ routes.has auth = false

def sorted (info : RoaInfo) : List RoaPayloadJsonMapKey := RoaPayload.sort info.authorizations

/-- ROAs are made for lists of routes that are new or have changed, and those without a list
are removed. -/
structure AggregateUpdate (roas : Roas) (desired : HashMap RoaAggregateKey
    (List RoaPayloadJsonMapKey)) (updates : RoaUpdates) : Prop where
  made : ∀ {key}, (updates.aggregateUpdated.get key).isSome ↔
    ∃ authorizations, desired.get key = some authorizations ∧
      (roas.aggregate.get key).map sorted ≠ some authorizations
  authorizations : ∀ {key info}, updates.aggregateUpdated.get key = some info →
    desired.get key = some info.authorizations
  removed : ∀ {key}, key ∈ updates.aggregateRemoved ↔
    (roas.aggregate.get key).isSome ∧ desired.get key = none

/-- Each route has a ROA of its own. -/
structure SimpleFor (roas : Roas) (routes : Routes) : Prop where
  simple : ∀ auth, (roas.simple.get auth).map RoaInfo.authorizations =
    if routes.has auth then some [auth] else none
  aggregate : ∀ key, roas.aggregate.get key = none

/-- The routes of an AS have one ROA together. -/
structure AggregatedFor (roas : Roas) (routes : Routes) (order : IterOrder) : Prop where
  simple : ∀ auth, roas.simple.get auth = none
  aggregate : ∀ key, (roas.aggregate.get key).map sorted = (routes.asAggregates order).get key

structure Matches (roas : Roas) (routes : Routes) : Prop where
  formed : roas.Formed
  simple : ∀ {auth info}, roas.simple.get auth = some info → routes.has auth
  aggregate : ∀ {key info}, roas.aggregate.get key = some info →
    ∀ auth ∈ info.authorizations, routes.has auth

theorem SimpleFor.matches (form : SimpleFor roas routes) : Matches roas routes := by
  have holds {auth : RoaPayloadJsonMapKey} {info : RoaInfo}
      (found : roas.simple.get auth = some info) :
      routes.has auth ∧ [auth] = info.authorizations := by
    have same := form.simple auth
    rw [found] at same
    exact (Option.ite_none_right_eq_some.mp same.symm).imp_right Option.some.inj
  refine ⟨⟨fun found => (holds found).2.symm, fun found => ?_, .inr form.aggregate⟩,
    fun found => (holds found).1, fun found => ?_⟩
  all_goals cases (form.aggregate _).symm.trans found

theorem AggregatedFor.mem_iff (form : AggregatedFor roas routes order)
    (found : roas.aggregate.get key = some info) (auth : RoaPayloadJsonMapKey) :
    auth ∈ info.authorizations ↔ routes.has auth ∧ key = ⟨auth.asn, none⟩ := by
  have same := form.aggregate key
  rw [found] at same
  rw [← (Routes.asAggregates_spec same.symm).2.2 auth]
  exact (List.mem_insertionSort _).symm

theorem AggregatedFor.matches (form : AggregatedFor roas routes order) : Matches roas routes := by
  refine ⟨⟨fun found => ?_, fun {key info} found => ?_, .inl form.simple⟩, fun found => ?_,
    fun found auth member => ((form.mem_iff found auth).mp member).1⟩
  · cases (form.simple _).symm.trans found
  · have same := form.aggregate key
    rw [found] at same
    obtain ⟨auth, _, rfl⟩ := Routes.isSome_asAggregates.mp (Option.isSome_of_eq_some same.symm)
    rfl
  · cases (form.simple _).symm.trans found

theorem SimpleUpdate.get_updated (update : SimpleUpdate roas routes updates)
    (formed : roas.Formed) (auth : RoaPayloadJsonMapKey) :
    ((roas.updated order updates).simple.get auth).map RoaInfo.authorizations =
      if routes.has auth then some [auth] else none := by
  unfold updated
  rw [get_removeAll, get_insertAll_iter]
  have made := @update.made auth
  have removed := @update.removed auth
  cases added : updates.updated.get auth with
  | some info =>
    have new := made.mp (by rw [added]; rfl)
    rw [if_neg (by simp [removed, new]), if_pos new.1]
    exact congrArg some (update.authorizations added)
  | none =>
    cases before : roas.simple.get auth with
    | none => cases has : routes.has auth <;> simp_all
    | some info =>
      have own := formed.simple before
      cases has : routes.has auth <;> simp_all

theorem AggregateUpdate.get_updated
    (update : AggregateUpdate roas (routes.asAggregates order) updates) (later : IterOrder)
    (key : RoaAggregateKey) : ((roas.updated later updates).aggregate.get key).map sorted =
      (routes.asAggregates order).get key := by
  unfold updated
  rw [get_removeAll, get_insertAll_iter]
  have made := @update.made key
  have removed := @update.removed key
  cases added : updates.aggregateUpdated.get key with
  | some info =>
    have desired := update.authorizations added
    have inOrder := (Routes.asAggregates_spec desired).2.1
    rw [if_neg (by simp [removed, desired]), desired]
    exact congrArg some inOrder.insertionSort_eq
  | none =>
    rw [added] at made
    cases desired : (routes.asAggregates order).get key with
    | none => cases before : roas.aggregate.get key <;> simp_all
    | some authorizations => simp_all

theorem SimpleUpdate.nothing_iff (update : SimpleUpdate roas routes updates) :
    (updates.updated.isEmpty && updates.removed.isEmpty) = true ↔
      ∀ auth, (roas.simple.get auth).isSome = routes.has auth := by
  rw [Bool.and_eq_true_iff, HashMap.isEmpty_iff, List.isEmpty_iff,
    List.eq_nil_iff_forall_not_mem, ← forall_and]
  refine forall_congr' fun auth => ?_
  have made := @update.made auth
  rw [update.removed, ← Option.not_isSome_iff_eq_none, made]
  cases roas.simple.get auth <;> cases routes.has auth <;> simp

theorem AggregateUpdate.nothing_iff (update : AggregateUpdate roas desired updates) :
    (updates.aggregateUpdated.isEmpty && updates.aggregateRemoved.isEmpty) = true ↔
      ∀ key, (roas.aggregate.get key).map sorted = desired.get key := by
  rw [Bool.and_eq_true_iff, HashMap.isEmpty_iff, List.isEmpty_iff,
    List.eq_nil_iff_forall_not_mem, ← forall_and]
  refine forall_congr' fun key => ?_
  have made := @update.made key
  rw [update.removed, ← Option.not_isSome_iff_eq_none, made]
  cases roas.aggregate.get key <;> cases desired.get key <;> simp

theorem isCurrentlyAggregating_iff (formed : roas.Formed) :
    roas.isCurrentlyAggregating = false ↔ ∀ key, roas.aggregate.get key = none := by
  unfold isCurrentlyAggregating
  rw [List.any_eq_false]
  constructor
  · intro ungrouped key
    by_contra present
    obtain ⟨info, found⟩ := Option.ne_none_iff_exists'.mp present
    refine ungrouped key (List.mem_map.mpr ⟨(key, info), mem_entries.mpr found, rfl⟩) ?_
    rw [formed.aggregate found]
    rfl
  · intro absent key listed
    obtain ⟨⟨_, info⟩, member, rfl⟩ := List.mem_map.mp listed
    cases (absent _).symm.trans (mem_entries.mp member)

theorem simple_eq_none (formed : roas.Formed) (aggregating : roas.isCurrentlyAggregating = true)
    (auth : RoaPayloadJsonMapKey) : roas.simple.get auth = none := by
  obtain noSimple | noAggregates := formed.exclusive
  · exact noSimple auth
  · rw [(isCurrentlyAggregating_iff formed).mpr noAggregates] at aggregating
    cases aggregating

theorem isCurrentlyAggregating_of_mode (total lower upper : Nat) :
    roas.isCurrentlyAggregating = match roas.mode total lower upper with
      | .simple | .startAggregating => false
      | .stopAggregating | .aggregate => true := by
  unfold mode
  cases roas.isCurrentlyAggregating with
  | false => by_cases nothing : total = 0 <;> by_cases many : total > upper <;>
      simp [nothing, many]
  | true => by_cases nothing : total = 0 <;> by_cases few : total < lower <;>
      simp [nothing, few]

section Signing

variable [KrillSigner]

theorem makeSimpleRoa_yields (yields : Yields (makeSimpleRoa env key timing auth) entry) :
    entry.1 = auth ∧ entry.2.authorizations = [auth] := by
  obtain ⟨roa, _, yields⟩ := yields.bind
  cases yields.pure
  exact ⟨rfl, rfl⟩

theorem makeAggregateRoa_yields
    (yields : Yields (makeAggregateRoa env aggregateKey authorizations key timing) info) :
    info.authorizations = authorizations := by
  obtain ⟨roa, _, yields⟩ := yields.bind
  cases yields.pure
  rfl

theorem keys_of_mapM {A : Type} {items : List A} {make : A → SignM (K × V)} (keyOf : A → K)
    (looped : Yields (items.mapM make) added)
    (keyed : ∀ {item entry}, Yields (make item) entry → entry.1 = keyOf item) :
    added.map Prod.fst = items.map keyOf := by
  have paired := looped.mapM
  clear looped
  induction paired with
  | nil => rfl
  | cons made _ induction => rw [List.map_cons, List.map_cons, keyed made, induction]

theorem updateSimple_yields (yields : Yields (roas.updateSimple env routes key timing) updates) :
    SimpleUpdate roas routes updates ∧ updates.aggregateUpdated = .empty ∧
      updates.aggregateRemoved = [] := by
  obtain ⟨added, looped, yields⟩ := yields.bind
  cases yields.pure
  refine ⟨⟨fun {auth} => ?_, fun {auth info} found => ?_, fun {auth} => ?_⟩, rfl, rfl⟩
  · rw [isSome_get_insertAll, keys_of_mapM id looped fun made =>
      (makeSimpleRoa_yields made).1]
    simp [Routes.has_of_mem_roaPayloadKeys]
  · obtain ⟨item, listed, made⟩ := looped.exists_item (mem_of_get_insertAll found)
    obtain ⟨same, authorizations⟩ := makeSimpleRoa_yields made
    cases same
    exact authorizations
  · rw [List.mem_filter, mem_iter_keys, Bool.not_eq_true']

theorem updateAggregate_yields
    (yields : Yields (roas.updateAggregate env routes key timing) updates) :
    AggregateUpdate roas (routes.asAggregates env.order) updates ∧ updates.updated = .empty ∧
      updates.removed = [] := by
  obtain ⟨added, looped, yields⟩ := yields.bind
  cases yields.pure
  refine ⟨⟨fun {key} => ?_, fun {key info} found => ?_, fun {key} => ?_⟩, rfl, rfl⟩
  · rw [isSome_get_insertAll, keys_of_mapM Prod.fst looped fun made => by
      obtain ⟨_, _, yielded⟩ := made.bind
      cases yielded.pure
      rfl]
    simp only [get_empty, Option.isSome_none, Bool.false_eq_true, or_false, List.mem_map,
      List.mem_filter, Prod.exists, exists_and_right, exists_eq_right]
    refine exists_congr fun authorizations => and_congr mem_iter ?_
    cases roas.aggregate.get key <;> simp [sorted, ne_comm]
  · obtain ⟨⟨desired, authorizations⟩, listed, made⟩ :=
      looped.exists_item (mem_of_get_insertAll found)
    obtain ⟨aggregate, made, yielded⟩ := made.bind
    cases yielded.pure
    rw [makeAggregateRoa_yields made]
    exact mem_iter.mp (List.mem_filter.mp listed).1
  · rw [List.mem_filter, mem_iter_keys, Bool.not_eq_true', containsKey_eq_false]

theorem update_form (formed : roas.Formed)
    (yields : Yields (roas.update env routes key config) updates) (order : IterOrder) :
    if (roas.mode (routes.filter key.incomingCert.resources).len config.roaDeaggregateThreshold
      config.roaAggregateThreshold).aggregates then
      AggregatedFor (roas.updated order updates) (routes.filter key.incomingCert.resources)
        env.order
    else SimpleFor (roas.updated order updates) (routes.filter key.incomingCert.resources) := by
  unfold update at yields
  dsimp only at yields
  generalize routes.filter key.incomingCert.resources = relevant at yields ⊢
  have aggregating := roas.isCurrentlyAggregating_of_mode relevant.len
    config.roaDeaggregateThreshold config.roaAggregateThreshold
  generalize roas.mode relevant.len config.roaDeaggregateThreshold
    config.roaAggregateThreshold = mode at yields aggregating ⊢
  have unmade {K : Type} [DecidableEq K] {map added : HashMap K RoaInfo} {removed : List K}
      {key : K} (nothing : added = .empty) (gone : key ∉ removed → map.get key = none) :
      ((map.insertAll (added.iter order)).removeAll removed).get key = none :=
    get_insertAll_removeAll_eq_none (by rw [nothing, get_empty]) gone
  have unlisted {K : Type} [DecidableEq K] {map : HashMap K RoaInfo} {key : K}
      (absent : key ∉ (map.iter env.order).map Prod.fst) : map.get key = none :=
    Option.not_isSome_iff_eq_none.mp fun present => absent (mem_iter_keys.mpr present)
  cases mode with
  | simple =>
    obtain ⟨update, noneMade, noneRemoved⟩ := updateSimple_yields yields
    exact ⟨update.get_updated formed, fun key => unmade noneMade fun _ =>
      (isCurrentlyAggregating_iff formed).mp aggregating key⟩
  | stopAggregating =>
    obtain ⟨updates, yielded, yields⟩ := yields.bind
    cases yields.pure
    obtain ⟨update, noneMade, noneRemoved⟩ := updateSimple_yields yielded
    exact ⟨SimpleUpdate.get_updated ⟨update.made, update.authorizations, update.removed⟩ formed,
      fun key => unmade noneMade fun kept => unlisted fun listed =>
        kept (List.mem_append_right _ listed)⟩
  | startAggregating =>
    obtain ⟨updates, yielded, yields⟩ := yields.bind
    cases yields.pure
    obtain ⟨update, noneMade, noneRemoved⟩ := updateAggregate_yields yielded
    exact ⟨fun auth => unmade noneMade fun kept => unlisted fun listed =>
        kept (List.mem_append_right _ listed),
      AggregateUpdate.get_updated ⟨update.made, update.authorizations, update.removed⟩ order⟩
  | aggregate =>
    obtain ⟨update, noneMade, noneRemoved⟩ := updateAggregate_yields yields
    exact ⟨fun auth => unmade noneMade fun _ => simple_eq_none formed aggregating auth,
      update.get_updated order⟩

theorem update_matches (formed : roas.Formed)
    (yields : Yields (roas.update env routes key config) updates) (order : IterOrder) :
    Matches (roas.updated order updates) (routes.filter key.incomingCert.resources) := by
  have form := update_form formed yields order
  split at form
  · exact form.matches
  · exact form.matches

theorem renew_yields (yields : Yields (roas.renew env force key timing) updates) :
    (∀ {auth info}, updates.updated.get auth = some info →
      info.authorizations = [auth] ∧ ∃ before, roas.simple.get auth = some before) ∧
    (∀ {aggregateKey info}, updates.aggregateUpdated.get aggregateKey = some info →
      ∃ before, roas.aggregate.get aggregateKey = some before ∧
        info.authorizations = before.authorizations) ∧
    updates.removed = [] ∧ updates.aggregateRemoved = [] := by
  obtain ⟨simple, simpleLooped, yields⟩ := yields.bind
  obtain ⟨aggregate, aggregateLooped, yields⟩ := yields.bind
  cases yields.pure
  refine ⟨fun {auth info} found => ?_, fun {aggregateKey info} found => ?_, rfl, rfl⟩
  · obtain ⟨⟨_, before⟩, listed, made⟩ :=
      simpleLooped.exists_item (mem_of_get_insertAll found)
    obtain ⟨rfl, authorizations⟩ := makeSimpleRoa_yields made
    exact ⟨authorizations, before, mem_iter.mp (List.mem_filter.mp listed).1⟩
  · obtain ⟨⟨_, before⟩, listed, made⟩ :=
      aggregateLooped.exists_item (mem_of_get_insertAll found)
    obtain ⟨remade, made, yielded⟩ := made.bind
    cases yielded.pure
    exact ⟨before, mem_iter.mp (List.mem_filter.mp listed).1, makeAggregateRoa_yields made⟩

theorem renew_formed (formed : roas.Formed)
    (yields : Yields (roas.renew env force key timing) updates) (order : IterOrder) :
    (roas.updated order updates).Formed := by
  obtain ⟨simple, aggregate, _, _⟩ := renew_yields yields
  refine ⟨fun found => ?_, fun found => ?_, ?_⟩
  · obtain ⟨_, added | ⟨_, before⟩⟩ := get_insertAll_removeAll_eq_some found
    · exact (simple added).1
    · exact formed.simple before
  · obtain ⟨_, added | ⟨_, before⟩⟩ := get_insertAll_removeAll_eq_some found
    · obtain ⟨existing, present, _⟩ := aggregate added
      exact formed.aggregate present
    · exact formed.aggregate before
  · refine formed.exclusive.imp (fun none auth => ?_) fun none key => ?_ <;>
      refine get_insertAll_removeAll_eq_none
        (Option.eq_none_iff_forall_ne_some.mpr fun info added => ?_) fun _ => none _
    · obtain ⟨_, existing, present⟩ := simple added
      cases (none auth).symm.trans present
    · obtain ⟨existing, present, _⟩ := aggregate added
      cases (none key).symm.trans present

theorem renew_within (formed : roas.Formed) (within : roas.Within resources)
    (yields : Yields (roas.renew env force key timing) updates) (order : IterOrder) :
    (roas.updated order updates).Within resources := by
  obtain ⟨simple, aggregate, _, _⟩ := renew_yields yields
  refine ⟨fun {auth info} found => ?_, fun found => ?_⟩
  · obtain ⟨_, added | ⟨_, before⟩⟩ := get_insertAll_removeAll_eq_some found
    · obtain ⟨authorizations, existing, present⟩ := simple added
      rw [authorizations, ← formed.simple present]
      exact within.simple present
    · exact within.simple before
  · obtain ⟨_, added | ⟨_, before⟩⟩ := get_insertAll_removeAll_eq_some found
    · obtain ⟨existing, present, authorizations⟩ := aggregate added
      rw [authorizations]
      exact within.aggregate present
    · exact within.aggregate before

end Signing

theorem Matches.within (matching : Matches roas (routes.filter resources)) :
    roas.Within resources where
  simple := fun found held member => by
    rw [matching.formed.simple found, List.mem_singleton] at member
    rw [member]
    exact (Routes.has_filter.mp (matching.simple found)).2
  aggregate := fun found held member =>
    (Routes.has_filter.mp (matching.aggregate found held member)).2

end Roas

def AspaObjects.Within (aspas : AspaObjects) (resources : ResourceSet) : Prop :=
  ∀ {customer info}, aspas.objects.get customer = some info → containsAsn resources customer

namespace AspaObjects

variable {aspas : AspaObjects}

theorem get_updated (found : (aspas.updated updates).objects.get customer = some info) :
    customer ∉ updates.removed ∧ (info ∈ updates.updated ∨
      customer ∉ updates.updated.map AspaInfo.customer ∧ aspas.objects.get customer = some info) :=
  Keyed.get_foldl_insert_remove_eq_some found

variable [KrillSigner]

theorem makeAspa_yields (yields : Yields (makeAspa env definition key timing) info) :
    info.definition = definition ∧ info.validity = timing.newAspaValidity env := by
  unfold makeAspa at yields
  dsimp only at yields
  split at yields
  · obtain ⟨_, yields, _⟩ := yields.bind
    exact yields.throw.elim
  · obtain ⟨serial, _, yields⟩ := yields.bind
    obtain ⟨base64, _, yields⟩ := yields.bind
    cases yields.pure
    exact ⟨rfl, rfl⟩

theorem update_within (yields : Yields (aspas.update env definitions key config) updates) :
    (aspas.updated updates).Within key.incomingCert.resources := by
  obtain ⟨updated, looped, yields⟩ := yields.bind
  cases yields.pure
  intro customer info found
  obtain ⟨kept, added | ⟨_, before⟩⟩ := get_updated found
  · obtain ⟨definition, listed, made⟩ := looped.exists_item added
    have customerOf : info.customer = customer := Keyed.key_of_get found
    rw [← customerOf, AspaInfo.customer, (makeAspa_yields made).1]
    exact (List.mem_filter.mp (List.mem_filter.mp listed).1).2
  · by_contra uncovered
    refine kept (List.mem_filter.mpr ⟨Keyed.mem_keys.mpr (by rw [before]; exact nofun), ?_⟩)
    simp [Bool.eq_false_of_not_eq_true uncovered]

theorem renew_within (within : aspas.Within resources)
    (yields : Yields (aspas.renew env key threshold timing) updates) :
    (aspas.updated updates).Within resources := by
  obtain ⟨updated, looped, yields⟩ := yields.bind
  cases yields.pure
  intro customer info found
  obtain ⟨_, added | ⟨_, before⟩⟩ := get_updated found
  · obtain ⟨existing, listed, made⟩ := looped.exists_item added
    have customerOf : info.customer = customer := Keyed.key_of_get found
    rw [← customerOf, AspaInfo.customer, (makeAspa_yields made).1]
    exact within (Keyed.mem_values.mp (List.mem_filter.mp listed).1)
  · exact within before

end AspaObjects

def BgpSecCertificates.Within (certs : BgpSecCertificates) (resources : ResourceSet) : Prop :=
  ∀ {asnKey info}, certs.certificates.get asnKey = some info → containsAsn resources info.asn

namespace BgpSecCertificates

variable {certs : BgpSecCertificates}

theorem get_updated (found : (certs.updated updates).certificates.get asnKey = some info) :
    asnKey ∉ updates.removed ∧ (info ∈ updates.updated ∨
      asnKey ∉ updates.updated.map BgpSecCertInfo.asnKey ∧
        certs.certificates.get asnKey = some info) :=
  Keyed.get_foldl_insert_remove_eq_some found

variable [KrillSigner]

theorem makeBgpsecCert_yields (yields : Yields (makeBgpsecCert env asn publicKey key timing) info) :
    info.asn = asn ∧ info.publicKey = publicKey ∧
      info.expires = (timing.newBgpsecValidity env).notAfter := by
  obtain ⟨serial, _, yields⟩ := yields.bind
  obtain ⟨base64, _, yields⟩ := yields.bind
  cases yields.pure
  exact ⟨rfl, rfl, rfl⟩

theorem update_within (yields : Yields (certs.update env definitions key config) updates) :
    (certs.updated updates).Within key.incomingCert.resources := by
  obtain ⟨updated, looped, yields⟩ := yields.bind
  cases yields.pure
  intro asnKey info found
  obtain ⟨kept, added | ⟨_, before⟩⟩ := get_updated found
  · obtain ⟨entry, listed, made⟩ := looped.exists_item added
    rw [(makeBgpsecCert_yields made).1]
    exact (Bool.and_eq_true_iff.mp (List.mem_filter.mp listed).2).2
  · have keyOf : info.asnKey = asnKey := Keyed.key_of_get before
    by_contra uncovered
    refine kept (List.mem_filter.mpr ⟨Keyed.mem_keys.mpr (by rw [before]; exact nofun), ?_⟩)
    rw [← keyOf]
    simp [BgpSecCertInfo.asnKey, Bool.eq_false_of_not_eq_true uncovered]

theorem renew_within (within : certs.Within resources)
    (yields : Yields (certs.renew env key threshold timing) updates) :
    (certs.updated updates).Within resources := by
  obtain ⟨updated, looped, yields⟩ := yields.bind
  cases yields.pure
  intro asnKey info found
  obtain ⟨_, added | ⟨_, before⟩⟩ := get_updated found
  · obtain ⟨existing, listed, made⟩ := looped.exists_item added
    rw [(makeBgpsecCert_yields made).1]
    exact within (Keyed.mem_values.mp (List.mem_filter.mp listed).1)
  · exact within before

end BgpSecCertificates

theorem ChildDetails.mem_issued {details : ChildDetails} :
    key ∈ details.issued order rcn ↔ details.usedKeys.get key = some (.current rcn) := by
  unfold issued
  rw [List.mem_filterMap]
  constructor
  · intro listed
    obtain ⟨⟨other, state⟩, member, selected⟩ := listed
    obtain ⟨current, same⟩ := Option.ite_none_right_eq_some.mp selected
    cases same
    change state = _ at current
    rw [← current]
    exact mem_iter.mp member
  · intro used
    exact ⟨(key, .current rcn), mem_iter.mpr used, if_pos rfl⟩

/-- The resources of all certificates are held. Suspended certificates may come back. -/
structure ChildCertificates.Within (certs : ChildCertificates) (resources : ResourceSet) :
    Prop where
  issued : ∀ {key cert}, certs.issued.get key = some cert → contains resources cert.resources
  suspended : ∀ {key cert}, certs.suspended.get key = some cert →
    contains resources cert.resources

namespace ChildCertificates

variable {certs : ChildCertificates}

theorem issued_updated : (certs.updated updates).issued =
    (updates.suspended.map IssuedCertificate.key).foldl Keyed.remove
      (updates.removed.foldl Keyed.remove (updates.unsuspended.foldl Keyed.insert
          (updates.issued.foldl Keyed.insert certs.issued))) := by
  have issuing (added : List IssuedCertificate) (certs : ChildCertificates) :
      (added.foldl certificateIssued certs).issued = added.foldl Keyed.insert certs.issued :=
    (List.foldl_hom issued fun _ _ => rfl).symm
  have unsuspending (added : List UnsuspendedCert) (certs : ChildCertificates) :
      (added.foldl certificateUnsuspended certs).issued = added.foldl Keyed.insert certs.issued :=
    (List.foldl_hom issued fun _ _ => rfl).symm
  have revoking (removed : List KeyIdentifier) (certs : ChildCertificates) :
      (removed.foldl keyRevoked certs).issued = removed.foldl Keyed.remove certs.issued :=
    (List.foldl_hom issued fun _ _ => rfl).symm
  have suspending (suspended : List SuspendedCert) (certs : ChildCertificates) :
      (suspended.foldl certificateSuspended certs).issued =
        (suspended.map IssuedCertificate.key).foldl Keyed.remove certs.issued := by
    rw [List.foldl_map]
    exact (List.foldl_hom issued fun _ _ => rfl).symm
  unfold updated
  rw [suspending, revoking, unsuspending, issuing]

theorem suspended_updated : (certs.updated updates).suspended =
    updates.suspended.foldl Keyed.insert (updates.removed.foldl Keyed.remove
        ((updates.unsuspended.map IssuedCertificate.key).foldl Keyed.remove certs.suspended)) := by
  have issuing (added : List IssuedCertificate) (certs : ChildCertificates) :
      (added.foldl certificateIssued certs).suspended = certs.suspended := by
    induction added generalizing certs with
    | nil => rfl
    | cons cert rest induction => exact induction _
  have unsuspending (added : List UnsuspendedCert) (certs : ChildCertificates) :
      (added.foldl certificateUnsuspended certs).suspended =
        (added.map IssuedCertificate.key).foldl Keyed.remove certs.suspended := by
    rw [List.foldl_map]
    exact (List.foldl_hom suspended fun _ _ => rfl).symm
  have revoking (removed : List KeyIdentifier) (certs : ChildCertificates) :
      (removed.foldl keyRevoked certs).suspended = removed.foldl Keyed.remove certs.suspended :=
    (List.foldl_hom suspended fun _ _ => rfl).symm
  have suspending (added : List SuspendedCert) (certs : ChildCertificates) :
      (added.foldl certificateSuspended certs).suspended =
        added.foldl Keyed.insert certs.suspended :=
    (List.foldl_hom suspended fun _ _ => rfl).symm
  unfold updated
  rw [suspending, revoking, unsuspending, issuing]

theorem get_updated_issued (found : (certs.updated updates).issued.get key = some cert) :
    key ∉ updates.suspended.map IssuedCertificate.key ∧ key ∉ updates.removed ∧
      (cert ∈ updates.unsuspended ∨ key ∉ updates.unsuspended.map IssuedCertificate.key ∧
        (cert ∈ updates.issued ∨ key ∉ updates.issued.map IssuedCertificate.key ∧
          certs.issued.get key = some cert)) := by
  rw [issued_updated] at found
  obtain ⟨suspended, found⟩ := Keyed.get_foldl_remove_eq_some found
  obtain ⟨removed, back | ⟨notBack, found⟩⟩ := Keyed.get_foldl_insert_remove_eq_some found
  · exact ⟨suspended, removed, .inl back⟩
  · exact ⟨suspended, removed, .inr ⟨notBack, Keyed.get_foldl_insert_eq_some found⟩⟩

theorem get_updated_suspended (found : (certs.updated updates).suspended.get key = some cert) :
    cert ∈ updates.suspended ∨ key ∉ updates.suspended.map IssuedCertificate.key ∧
      key ∉ updates.removed ∧ key ∉ updates.unsuspended.map IssuedCertificate.key ∧
        certs.suspended.get key = some cert := by
  rw [suspended_updated] at found
  obtain added | ⟨notAdded, found⟩ := Keyed.get_foldl_insert_eq_some found
  · exact .inl added
  · obtain ⟨removed, found⟩ := Keyed.get_foldl_remove_eq_some found
    exact .inr ⟨notAdded, removed, Keyed.get_foldl_remove_eq_some found⟩

theorem Within.updated (within : certs.Within resources)
    (issued : ∀ cert ∈ updates.issued, contains resources cert.resources)
    (unsuspended : ∀ cert ∈ updates.unsuspended, contains resources cert.resources)
    (suspended : ∀ cert ∈ updates.suspended, contains resources cert.resources) :
    (certs.updated updates).Within resources where
  issued := fun found => by
    obtain ⟨_, _, back | ⟨_, added | ⟨_, before⟩⟩⟩ := get_updated_issued found
    · exact unsuspended _ back
    · exact issued _ added
    · exact within.issued before
  suspended := fun found => by
    obtain added | ⟨_, _, _, before⟩ := get_updated_suspended found
    · exact suspended _ added
    · exact within.suspended before

end ChildCertificates

section Issuing

variable [KrillSigner]

theorem makeIssuedCert_yields
    (yields : Yields (makeIssuedCert env csr resources limit key timing) cert) :
    cert.csrInfo = csr ∧ cert.limit = limit ∧ applyTo limit resources = some cert.resources ∧
      contains key.incomingCert.resources cert.resources := by
  unfold makeIssuedCert at yields
  dsimp only at yields
  split at yields
  · next remaining applied =>
    split at yields
    · next held =>
      obtain ⟨serial, _, yields⟩ := yields.bind
      obtain ⟨base64, _, yields⟩ := yields.bind
      cases yields.pure
      exact ⟨rfl, rfl, applied, held⟩
    · obtain ⟨_, yields, _⟩ := yields.bind
      exact yields.throw.elim
  · exact yields.throw.elim

namespace ChildCertificates

variable {certs : ChildCertificates}

theorem reIssue_yields {updated : Option ResourceSet}
    (yields : Yields (reIssue env previous updated key timing) cert) :
    cert.key = previous.key ∧ contains key.incomingCert.resources cert.resources := by
  obtain ⟨csrInfo, _, _, held⟩ := makeIssuedCert_yields yields
  exact ⟨congrArg CsrInfo.keyId csrInfo, held⟩

theorem activateKey_yields (yields : Yields (certs.activateKey env key timing) updates) :
    Yields ((certs.issued.values env.order).mapM fun cert => reIssue env cert none key timing)
      updates.issued ∧
    Yields ((certs.suspended.values env.order).mapM fun cert =>
      reIssue env cert none key timing) updates.suspended ∧
    updates.removed = [] ∧ updates.unsuspended = [] := by
  obtain ⟨issued, issuedLooped, yields⟩ := yields.bind
  obtain ⟨suspended, suspendedLooped, yields⟩ := yields.bind
  cases yields.pure
  exact ⟨issuedLooped, suspendedLooped, rfl, rfl⟩

theorem activateKey_within (yields : Yields (certs.activateKey env key timing) updates) :
    (certs.updated updates).Within key.incomingCert.resources := by
  obtain ⟨issued, suspended, _, unsuspended⟩ := activateKey_yields yields
  have replaced {map : Keyed IssuedCertificate.key} {remade : List IssuedCertificate}
      (looped : Yields ((map.values env.order).mapM fun cert =>
        reIssue env cert none key timing) remade)
      {position : KeyIdentifier} {cert : IssuedCertificate}
      (before : map.get position = some cert) :
      position ∈ remade.map IssuedCertificate.key := by
    have keyOf : cert.key = position := Keyed.key_of_get before
    subst keyOf
    obtain ⟨result, member, made⟩ := looped.exists_result (Keyed.mem_values.mpr before)
    exact List.mem_map.mpr ⟨result, member, (reIssue_yields made).1⟩
  refine ⟨fun found => ?_, fun found => ?_⟩
  · obtain ⟨_, _, back | ⟨_, added | ⟨notAdded, before⟩⟩⟩ := get_updated_issued found
    · rw [unsuspended] at back
      exact absurd back List.not_mem_nil
    · obtain ⟨_, _, made⟩ := issued.exists_item added
      exact (reIssue_yields made).2
    · exact absurd (replaced issued before) notAdded
  · obtain added | ⟨notAdded, _, _, before⟩ := get_updated_suspended found
    · obtain ⟨_, _, made⟩ := suspended.exists_item added
      exact (reIssue_yields made).2
    · exact absurd (replaced suspended before) notAdded

theorem shrink_yields (yields : Yields (shrink env key timing cert) result) :
    result = .kept ∧ contains key.incomingCert.resources cert.resources ∨
    result = .revoked cert.key ∧
      isEmpty (intersection key.incomingCert.resources cert.resources) = true ∨
    ∃ remade, result = .reissued remade ∧
      isEmpty (intersection key.incomingCert.resources cert.resources) = false ∧
      Yields (reIssue env cert (some (intersection key.incomingCert.resources cert.resources))
        key timing) remade := by
  unfold shrink CertInfo.reducedApplicableResources at yields
  by_cases held : contains key.incomingCert.resources cert.resources
  · rw [if_pos held] at yields
    exact .inl ⟨yields.pure, held⟩
  · rw [if_neg held] at yields
    dsimp only at yields
    split at yields
    · next empty => exact .inr (.inl ⟨yields.pure, empty⟩)
    · next left =>
      obtain ⟨remade, made, yields⟩ := yields.bind
      exact .inr (.inr ⟨remade, yields.pure, Bool.eq_false_of_not_eq_true left, made⟩)

theorem shrinkOverclaiming_yields
    (yields : Yields (certs.shrinkOverclaiming env key timing) updates) :
    ∃ issued suspended : List Shrunk,
      Yields ((certs.issued.values env.order).mapM (shrink env key timing)) issued ∧
      Yields ((certs.suspended.values env.order).mapM (shrink env key timing)) suspended ∧
      updates = {
        issued := issued.filterMap Shrunk.reissuedCert
        removed := issued.filterMap Shrunk.revokedKey ++ suspended.filterMap Shrunk.revokedKey
        suspended := suspended.filterMap Shrunk.reissuedCert
        unsuspended := [] } := by
  obtain ⟨issued, issuedLooped, yields⟩ := yields.bind
  obtain ⟨suspended, suspendedLooped, yields⟩ := yields.bind
  exact ⟨issued, suspended, issuedLooped, suspendedLooped, yields.pure⟩

section Shrinking

variable {map : Keyed IssuedCertificate.key}

theorem held_of_reissued
    (looped : Yields ((map.values env.order).mapM (shrink env key timing)) results)
    (member : cert ∈ results.filterMap Shrunk.reissuedCert) :
    contains key.incomingCert.resources cert.resources := by
  obtain ⟨result, listed, selected⟩ := List.mem_filterMap.mp member
  obtain ⟨previous, _, shrunk⟩ := looped.exists_item listed
  obtain ⟨rfl, _⟩ | ⟨rfl, _⟩ | ⟨remade, rfl, _, made⟩ := shrink_yields shrunk
  · cases selected
  · cases selected
  · cases selected
    exact (reIssue_yields made).2

theorem held_of_kept (looped : Yields ((map.values env.order).mapM (shrink env key timing)) results)
    (before : map.get position = some cert)
    (notRevoked : position ∉ results.filterMap Shrunk.revokedKey) (notReissued : position ∉
      (results.filterMap Shrunk.reissuedCert).map IssuedCertificate.key) :
    contains key.incomingCert.resources cert.resources := by
  have keyOf : cert.key = position := Keyed.key_of_get before
  subst keyOf
  obtain ⟨result, member, shrunk⟩ := looped.exists_result (Keyed.mem_values.mpr before)
  obtain ⟨_, held⟩ | ⟨rfl, _⟩ | ⟨remade, rfl, _, made⟩ := shrink_yields shrunk
  · exact held
  · exact (notRevoked (List.mem_filterMap.mpr ⟨_, member, rfl⟩)).elim
  · refine (notReissued (List.mem_map.mpr ⟨remade, ?_, (reIssue_yields made).1⟩)).elim
    exact List.mem_filterMap.mpr ⟨_, member, rfl⟩

end Shrinking

theorem shrinkOverclaiming_within
    (yields : Yields (certs.shrinkOverclaiming env key timing) updates) :
    (certs.updated updates).Within key.incomingCert.resources := by
  obtain ⟨issued, suspended, issuedLooped, suspendedLooped, rfl⟩ :=
    shrinkOverclaiming_yields yields
  refine ⟨fun found => ?_, fun found => ?_⟩
  · obtain ⟨_, notRemoved, back | ⟨_, added | ⟨notAdded, before⟩⟩⟩ := get_updated_issued found
    · exact absurd back List.not_mem_nil
    · exact held_of_reissued issuedLooped added
    · exact held_of_kept issuedLooped before
        (fun revoked => notRemoved (List.mem_append_left _ revoked)) notAdded
  · obtain added | ⟨notAdded, notRemoved, _, before⟩ := get_updated_suspended found
    · exact held_of_reissued suspendedLooped added
    · exact held_of_kept suspendedLooped before
        (fun revoked => notRemoved (List.mem_append_right _ revoked)) notAdded

end ChildCertificates

end Issuing

end Krill.Ca
