import Krill.Ca.Receiving

namespace Krill.Ca

open Rpki KrillSigner
open Stateful (Yields)

namespace RoaPayload

variable {left : RoaPayload}

/-- Payloads that rank equal may still be of different address families. -/
theorem same_of_le (le : left.le right) (ge : right.le left) : left.asn = right.asn ∧
    left.typedPrefix.toPrefix = right.typedPrefix.toPrefix ∧
    left.effectiveMaxLength = right.effectiveMaxLength := by
  simp only [RoaPayload.le, decide_eq_true_eq] at le ge
  have same := le_antisymm le ge
  simp only [List.cons.injEq, and_true] at same
  obtain ⟨address, length, maxLength, asn⟩ := same
  have equal {one other : Prefix} (addr : one.addr.toNat = other.addr.toNat)
      (length : one.addrLen = other.addrLen) : one = other := by
    cases one
    cases other
    cases BitVec.eq_of_toNat_eq addr
    cases length
    rfl
  exact ⟨UInt32.toNat_inj.mp asn, equal address length, maxLength⟩

end RoaPayload

namespace Routes

variable {routes : Routes}

/-- Some AS has an IPv4 and an IPv6 prefix of the same bits and lengths. -/
def Mixed (routes : Routes) : Prop :=
  ∃ asn bits maxLength, routes.has ⟨asn, .v4 bits, maxLength⟩ ∧
    routes.has ⟨asn, .v6 bits, maxLength⟩

/-- Only equal payloads rank equal. -/
def Untied (routes : Routes) : Prop :=
  ∀ {left right}, routes.has left → routes.has right → left.le right → right.le left →
    left = right

theorem untied_iff (explicit : ∀ auth, routes.has auth → auth.maxLength.isSome) :
    routes.Untied ↔ ¬routes.Mixed := by
  constructor
  · rintro untied ⟨asn, bits, maxLength, v4, v6⟩
    cases maxLength with
    | none => cases explicit _ v4
    | some length =>
      cases untied v4 v6 (decide_eq_true (le_refl _)) (decide_eq_true (le_refl _))
  · intro unmixed left right hasLeft hasRight le ge
    obtain ⟨asn, bits, length⟩ := RoaPayload.same_of_le le ge
    have explicitLeft := explicit left hasLeft
    have explicitRight := explicit right hasRight
    obtain ⟨leftAsn, leftPrefix, _ | leftLength⟩ := left
    · cases explicitLeft
    obtain ⟨rightAsn, rightPrefix, _ | rightLength⟩ := right
    · cases explicitRight
    cases asn
    cases length
    cases leftPrefix <;> cases rightPrefix <;> cases bits
    · rfl
    · exact absurd ⟨_, _, _, hasLeft, hasRight⟩ unmixed
    · exact absurd ⟨_, _, _, hasRight, hasLeft⟩ unmixed
    · rfl

theorem ofKey_perm (routes : Routes) (order other : IterOrder) (key : RoaAggregateKey) :
    (ofKey (routes.roaPayloadKeys order) key).Perm (ofKey (routes.roaPayloadKeys other) key) :=
  (((order.perm _).trans (other.perm _).symm).map _).filter _

theorem asAggregates_eq_of_untied (untied : routes.Untied) (order other : IterOrder)
    (key : RoaAggregateKey) :
    (routes.asAggregates order).get key = (routes.asAggregates other).get key := by
  have perm := routes.ofKey_perm order other key
  have has {order : IterOrder} {auth : RoaPayload}
      (listed : auth ∈ RoaPayload.sort (ofKey (routes.roaPayloadKeys order) key)) :
      routes.has auth :=
    has_of_mem_roaPayloadKeys.mp (List.mem_of_mem_filter ((List.mem_insertionSort _).mp listed))
  have same : RoaPayload.sort (ofKey (routes.roaPayloadKeys order) key) =
      RoaPayload.sort (ofKey (routes.roaPayloadKeys other) key) :=
    List.Perm.eq_of_pairwise (fun _ _ left right => untied (has left) (has right))
      (List.pairwise_insertionSort _ _) (List.pairwise_insertionSort _ _)
      (((List.perm_insertionSort _ _).trans perm).trans (List.perm_insertionSort _ _).symm)
  rw [get_asAggregates, get_asAggregates, same]
  simp only [← List.length_eq_zero_iff, perm.length_eq]

theorem untied_of_asAggregates_eq (same : ∀ order other key,
    (routes.asAggregates order).get key = (routes.asAggregates other).get key) :
    routes.Untied := by
  intro left right hasLeft hasRight le ge
  have sameAs := (RoaPayload.same_of_le le ge).1
  let key : RoaAggregateKey := ⟨left.asn, none⟩
  let listed := ofKey (routes.roaPayloadKeys .stored) key
  have reversed : ofKey (routes.roaPayloadKeys .reversed) key = listed.reverse := by
    have keys : routes.roaPayloadKeys .reversed = (routes.roaPayloadKeys .stored).reverse :=
      List.map_reverse
    rw [keys]
    exact List.filter_reverse
  have leftIn : left ∈ listed :=
    List.mem_filter.mpr ⟨has_of_mem_roaPayloadKeys.mpr hasLeft, decide_eq_true rfl⟩
  have rightIn : right ∈ listed :=
    List.mem_filter.mpr ⟨has_of_mem_roaPayloadKeys.mpr hasRight,
      decide_eq_true (congrArg (RoaAggregateKey.mk · none) sameAs)⟩
  have lists := same .stored .reversed key
  have some_listed : listed ≠ [] := List.ne_nil_of_mem leftIn
  rw [get_asAggregates, get_asAggregates, reversed, if_neg some_listed,
    if_neg (mt List.reverse_eq_nil_iff.mp some_listed)] at lists
  exact StableSort.eq_of_insertionSort_reverse ((routes.map.iter_keys_nodup _).filter _)
    (Option.some.inj lists) leftIn rightIn le ge

variable [Rpki] [KrillSigner]

/-- Aggregates are the same however the routes are listed, an aggregate is made again only if
its routes have changed, and payloads that compare equal are equal. -/
structure Canonical (routes : Routes) : Prop where
  listed : ∀ order other key,
    (routes.asAggregates order).get key = (routes.asAggregates other).get key
  reissued : ∀ {roas : Roas} {env key timing updates},
    Yields (roas.updateAggregate env routes key timing) updates → ∀ {aggregateKey existing},
      roas.aggregate.get aggregateKey = some existing → existing.authorizations.Nodup →
      (∀ auth, auth ∈ existing.authorizations ↔
        routes.has auth ∧ aggregateKey = ⟨auth.asn, none⟩) →
      updates.aggregateUpdated.get aggregateKey = none
  compared : ∀ {left right}, routes.has left → routes.has right → left.le right →
    right.le left → left = right

end Routes

variable [Rpki]

namespace Roas

variable {roas : Roas} {updates : RoaUpdates}

/-- The ROA that is kept for a route or for an AS. -/
def roaAt (roas : Roas) : RoaPayloadJsonMapKey ⊕ RoaAggregateKey → Option RoaInfo :=
  Sum.elim roas.simple.get roas.aggregate.get

def Authorizes (roas : Roas) (auth : RoaPayloadJsonMapKey)
    (place : RoaPayloadJsonMapKey ⊕ RoaAggregateKey) : Prop :=
  ∃ info, roas.roaAt place = some info ∧ auth ∈ info.authorizations

/-- Each of the given routes is authorized by one ROA, and nothing else is. The ROAs are all
for single routes, or all for all routes of an AS. -/
structure ExactlyFor (roas : Roas) (held : RoaPayloadJsonMapKey → Prop) : Prop where
  once : ∀ {auth}, held auth → ∃! place, roas.Authorizes auth place
  others : ∀ {place info}, roas.roaAt place = some info →
    info.authorizations ≠ [] ∧ ∀ auth ∈ info.authorizations, held auth
  oneKind : (∀ {place info}, roas.roaAt place = some info →
      ∃ auth, place = .inl auth ∧ info.authorizations = [auth]) ∨
    ∀ {place info}, roas.roaAt place = some info →
      ∃ asn, place = .inr ⟨asn, none⟩ ∧ ∀ auth ∈ info.authorizations, auth.asn = asn

variable {routes : Routes}

theorem SimpleFor.exactly (form : SimpleFor roas routes)
    (same : ∀ auth, routes.has auth ↔ held auth) : roas.ExactlyFor held := by
  have own {place : RoaPayloadJsonMapKey ⊕ RoaAggregateKey} {info : RoaInfo}
      (found : roas.roaAt place = some info) :
      ∃ auth, place = .inl auth ∧ info.authorizations = [auth] ∧ held auth := by
    obtain auth | key := place
    · exact ⟨auth, rfl, form.matches.formed.simple found,
        (same auth).mp (form.matches.simple found)⟩
    · cases (form.aggregate key).symm.trans found
  refine ⟨fun {auth} isHeld => ?_, fun found => ?_, .inl fun found => ?_⟩
  · have listed := form.simple auth
    rw [if_pos ((same auth).mpr isHeld)] at listed
    obtain ⟨info, found, authorizations⟩ := Option.map_eq_some_iff.mp listed
    refine ⟨.inl auth, ⟨info, found, authorizations ▸ List.mem_singleton_self auth⟩, ?_⟩
    rintro place ⟨other, foundOther, member⟩
    obtain ⟨_, rfl, authorizations, _⟩ := own foundOther
    rw [authorizations, List.mem_singleton] at member
    rw [member]
  · obtain ⟨auth, rfl, authorizations, isHeld⟩ := own found
    rw [authorizations]
    exact ⟨List.cons_ne_nil _ _, List.forall_mem_singleton.mpr isHeld⟩
  · obtain ⟨auth, rfl, authorizations, _⟩ := own found
    exact ⟨auth, rfl, authorizations⟩

theorem AggregatedFor.exactly (form : AggregatedFor roas routes order)
    (same : ∀ auth, routes.has auth ↔ held auth) : roas.ExactlyFor held := by
  have own {place : RoaPayloadJsonMapKey ⊕ RoaAggregateKey} {info : RoaInfo}
      (found : roas.roaAt place = some info) :
      ∃ key, place = .inr key ∧ info.authorizations ≠ [] ∧
        ∀ auth, auth ∈ info.authorizations ↔ held auth ∧ key = ⟨auth.asn, none⟩ := by
    obtain auth | key := place
    · cases (form.simple auth).symm.trans found
    · refine ⟨key, rfl, fun nothing => ?_, fun auth => ?_⟩
      · have desired := form.aggregate key
        rw [show roas.aggregate.get key = some info from found] at desired
        refine (Routes.asAggregates_spec desired.symm).1 ?_
        rw [sorted, nothing]
        rfl
      · rw [form.mem_iff found, same]
  refine ⟨fun {auth} isHeld => ?_, fun found => ?_, .inr fun found => ?_⟩
  · have listed : ((roas.aggregate.get ⟨auth.asn, none⟩).map sorted).isSome := by
      rw [form.aggregate]
      exact Routes.isSome_asAggregates.mpr ⟨auth, (same auth).mpr isHeld, rfl⟩
    obtain ⟨info, found⟩ := Option.isSome_iff_exists.mp (Option.isSome_map ▸ listed)
    refine ⟨.inr ⟨auth.asn, none⟩, ⟨info, found, ?_⟩, ?_⟩
    · exact (form.mem_iff found auth).mpr ⟨(same auth).mpr isHeld, rfl⟩
    · rintro place ⟨other, foundOther, member⟩
      obtain ⟨key, rfl, _, members⟩ := own foundOther
      rw [((members auth).mp member).2]
  · obtain ⟨key, rfl, some_listed, members⟩ := own found
    exact ⟨some_listed, fun auth member => ((members auth).mp member).1⟩
  · obtain ⟨key, rfl, some_listed, members⟩ := own found
    obtain ⟨auth, member⟩ := List.exists_mem_of_ne_nil _ some_listed
    obtain ⟨_, rfl⟩ := (members auth).mp member
    exact ⟨auth.asn, rfl, fun other member =>
      (congrArg RoaAggregateKey.asn ((members other).mp member).2).symm⟩

variable [KrillSigner]

/-- The ROAs that updates and renewals lead to, in any surroundings and with any signer. -/
inductive Reached : Roas → Prop
  | default : Reached .default
  | updated {roas updates env routes key config} (reached : Reached roas)
      (yields : Yields (roas.update env routes key config) updates) (order : IterOrder) :
      Reached (roas.updated order updates)
  | renewed {roas updates env force key timing} (reached : Reached roas)
      (yields : Yields (roas.renew env force key timing) updates) (order : IterOrder) :
      Reached (roas.updated order updates)

theorem Reached.formed (reached : Reached roas) : roas.Formed := by
  induction reached with
  | default => exact ⟨nofun, nofun, .inl fun _ => rfl⟩
  | updated _ yields order induction => exact (update_matches induction yields order).formed
  | renewed _ yields order induction => exact renew_formed induction yields order

variable {env : Surroundings} {key : CertifiedKey} {config : Config}

omit [KrillSigner] in
theorem isEmpty_eq : updates.isEmpty = ((updates.updated.isEmpty && updates.removed.isEmpty) &&
    (updates.aggregateUpdated.isEmpty && updates.aggregateRemoved.isEmpty)) :=
  Bool.and_assoc _ _ _

variable {relevant : Routes}

omit [KrillSigner] [Rpki] in
theorem len_eq_zero : relevant.len = 0 ↔ ∀ auth, relevant.has auth = false := by
  rw [Routes.len, List.length_eq_zero_iff, ← List.isEmpty_iff]
  exact HashMap.isEmpty_iff.trans (forall_congr' fun auth => HashMap.containsKey_eq_false.symm)

omit [KrillSigner] [Rpki] in
theorem len_eq_zero_iff (order : IterOrder) : relevant.len = 0 ↔
    ∀ key, (relevant.asAggregates order).get key = none := by
  simp only [len_eq_zero, ← Option.not_isSome_iff_eq_none, Routes.isSome_asAggregates,
    ← Bool.not_eq_true]
  exact ⟨fun nothing key listed => listed.elim fun auth listed => nothing auth listed.1,
    fun nothing auth has => nothing _ ⟨auth, has, rfl⟩⟩

theorem SimpleFor.isEmpty_iff (form : SimpleFor roas relevant)
    (same : routes.filter key.incomingCert.resources = relevant)
    (yields : Yields (roas.update env routes key config) updates) :
    updates.isEmpty ↔ ¬config.roaAggregateThreshold < relevant.len := by
  have simple := (isCurrentlyAggregating_iff form.matches.formed).mpr form.aggregate
  unfold update mode at yields
  simp only [same, simple, Bool.false_eq_true, if_false] at yields
  by_cases many : config.roaAggregateThreshold < relevant.len
  · rw [if_neg (by omega), if_pos many] at yields
    obtain ⟨made, yielded, yields⟩ := yields.bind
    cases yields.pure
    obtain ⟨update, _, _⟩ := updateAggregate_yields yielded
    refine iff_of_false (fun empty => ?_) (not_not_intro many)
    rw [isEmpty_eq, Bool.and_eq_true_iff] at empty
    have nothing := update.nothing_iff.mp empty.2
    have none_left := (len_eq_zero_iff env.order).mpr fun key => by
      rw [← nothing, form.aggregate]
      rfl
    omega
  · rw [if_neg many, ite_self] at yields
    obtain ⟨update, noneMade, noneRemoved⟩ := updateSimple_yields yields
    refine iff_of_true ?_ many
    rw [isEmpty_eq, noneMade, noneRemoved, Bool.and_eq_true_iff]
    refine ⟨update.nothing_iff.mpr fun auth => ?_, rfl⟩
    have listed := congrArg Option.isSome (form.simple auth)
    rw [Option.isSome_map] at listed
    rw [listed]
    cases relevant.has auth <;> rfl

theorem AggregatedFor.isEmpty_iff (form : AggregatedFor roas relevant order)
    (same : routes.filter key.incomingCert.resources = relevant)
    (yields : Yields (roas.update env routes key config) updates) :
    updates.isEmpty ↔ ¬(0 < relevant.len ∧ relevant.len < config.roaDeaggregateThreshold) ∧
      ∀ key, (relevant.asAggregates order).get key = (relevant.asAggregates env.order).get key := by
  have aggregating : roas.isCurrentlyAggregating = false ↔ relevant.len = 0 := by
    rw [isCurrentlyAggregating_iff form.matches.formed, len_eq_zero_iff order]
    simp only [← form.aggregate, Option.map_eq_none_iff]
  unfold update mode at yields
  simp only [same] at yields
  by_cases nothing : relevant.len = 0
  · rw [if_pos nothing, if_neg (by simp [aggregating.mpr nothing])] at yields
    obtain ⟨update, noneMade, noneRemoved⟩ := updateSimple_yields yields
    refine iff_of_true ?_ ⟨by omega, fun key => ?_⟩
    · rw [isEmpty_eq, noneMade, noneRemoved, Bool.and_eq_true_iff]
      refine ⟨update.nothing_iff.mpr fun auth => ?_, rfl⟩
      rw [form.simple, len_eq_zero.mp nothing]
      rfl
    · rw [(len_eq_zero_iff order).mp nothing, (len_eq_zero_iff env.order).mp nothing]
  · have isAggregating := Bool.eq_true_of_not_eq_false (mt aggregating.mp nothing)
    rw [if_neg nothing, if_pos isAggregating] at yields
    by_cases few : relevant.len < config.roaDeaggregateThreshold
    · rw [if_pos few] at yields
      obtain ⟨made, _, yields⟩ := yields.bind
      cases yields.pure
      refine iff_of_false (fun empty => nothing (aggregating.mp ?_)) fun both =>
        both.1 ⟨by omega, few⟩
      rw [isEmpty_eq] at empty
      simp only [Bool.and_eq_true_iff, List.isEmpty_iff, List.append_eq_nil_iff] at empty
      refine (isCurrentlyAggregating_iff form.matches.formed).mpr fun key => ?_
      refine Option.not_isSome_iff_eq_none.mp fun present => ?_
      exact List.not_mem_nil (empty.2.2.2 ▸ HashMap.mem_iter_keys.mpr present)
    · rw [if_neg few] at yields
      obtain ⟨update, noneMade, noneRemoved⟩ := updateAggregate_yields yields
      rw [isEmpty_eq, noneMade, noneRemoved, Bool.and_eq_true_iff, update.nothing_iff]
      simp only [form.aggregate]
      exact ⟨fun both => ⟨fun bounds => few bounds.2, both.2⟩, fun both => ⟨rfl, both.2⟩⟩

omit [KrillSigner] in
theorem aggregates_mode (roas : Roas) (total lower upper : Nat) :
    (roas.mode total lower upper).aggregates ↔
    if roas.isCurrentlyAggregating then total = 0 ∨ lower ≤ total else upper < total := by
  unfold mode
  cases roas.isCurrentlyAggregating <;> simp only [Bool.false_eq_true, if_false, if_true] <;>
    split_ifs <;> simp [RoaMode.aggregates] <;> omega

/-- The number of routes is not between the thresholds, and no routes rank equal where
aggregates are made. -/
def Settles (roas : Roas) (relevant : Routes) (config : Config) : Prop :=
  ¬(config.roaAggregateThreshold < relevant.len ∧
    relevant.len < config.roaDeaggregateThreshold) ∧
  ((roas.mode relevant.len config.roaDeaggregateThreshold
    config.roaAggregateThreshold).aggregates → relevant.Untied)

/-- A second update with the same routes changes nothing, whatever the surroundings, if and
only if the first one settles the ROAs. -/
theorem update_stable_iff (works : SignerWorks) (signer : Signer) (reached : Reached roas)
    (routes : Routes) (key : CertifiedKey) (config : Config) :
    (∀ {env later order updates again}, Yields (roas.update env routes key config) updates →
      Yields ((roas.updated order updates).update later routes key config) again →
      again.containsChanges = false) ↔
    roas.Settles (routes.filter key.incomingCert.resources) config := by
  have runs (env later : Surroundings) : ∃ updates again,
      Yields (roas.update env routes key config) updates ∧
      Yields ((roas.updated env.order updates).update later routes key config) again := by
    obtain ⟨updates, used, first⟩ := (update_decides works roas routes signer).mpr trivial
    obtain ⟨again, _, second⟩ :=
      (update_decides works (roas.updated env.order updates) routes used).mpr trivial
    exact ⟨updates, again, ⟨_, _, first⟩, ⟨_, _, second⟩⟩
  have form {env order updates} (yields : Yields (roas.update env routes key config) updates) :=
    update_form reached.formed yields order
  have mode := aggregates_mode roas (routes.filter key.incomingCert.resources).len
    config.roaDeaggregateThreshold config.roaAggregateThreshold
  unfold Settles RoaUpdates.containsChanges
  simp only [Bool.not_eq_false']
  generalize same : routes.filter key.incomingCert.resources = relevant at form mode ⊢
  generalize roas.mode relevant.len config.roaDeaggregateThreshold
    config.roaAggregateThreshold = chosen at form mode ⊢
  let listing (order : IterOrder) : Surroundings := ⟨0, 0, order, false⟩
  cases aggregates : chosen.aggregates with
  | false =>
    simp only [aggregates, Bool.false_eq_true, if_false, false_iff] at form mode ⊢
    constructor
    · intro stable
      obtain ⟨updates, again, first, second⟩ := runs (listing .stored) (listing .stored)
      have few := ((form first).isEmpty_iff same second).mp (stable first second)
      exact ⟨by omega, fun absurd => absurd.elim⟩
    · intro settled env later order updates again first second
      refine ((form first).isEmpty_iff same second).mpr ?_
      split at mode <;> omega
  | true =>
    simp only [aggregates, if_true, true_iff] at form mode ⊢
    constructor
    · intro stable
      have agree (order other : IterOrder) :
          ¬(0 < relevant.len ∧ relevant.len < config.roaDeaggregateThreshold) ∧
            ∀ key, (relevant.asAggregates order).get key =
              (relevant.asAggregates other).get key := by
        obtain ⟨updates, again, first, second⟩ := runs (listing order) (listing other)
        exact ((form first).isEmpty_iff same second).mp (stable first second)
      have bounds := (agree .stored .stored).1
      refine ⟨by omega, fun _ => Routes.untied_of_asAggregates_eq fun order other => ?_⟩
      exact (agree order other).2
    · intro settled env later order updates again first second
      refine ((form first).isEmpty_iff same second).mpr ⟨?_, ?_⟩
      · split at mode <;> omega
      · exact Routes.asAggregates_eq_of_untied (settled.2 trivial) _ _

end Roas

end Krill.Ca

namespace Krill.Ca.Numbered

open Rpki Roas Stateful

def key : CertifiedKey := .create (received 0 7)

def routes : Routes := Routes.default.add 0 ⟨1, .v4 ⟨1#128, 128⟩, some 128⟩

theorem route_settled : routes.len = 1 ∧ ∀ {env later order updates again},
    Yields (Roas.default.update env routes key config) updates →
    Yields ((Roas.default.updated order updates).update later routes key config) again →
    again.containsChanges = false := by
  refine ⟨rfl, (update_stable_iff signerWorks (0 : Nat) .default routes key config).mpr ?_⟩
  exact ⟨by decide, fun aggregates => Bool.noConfusion aggregates⟩

/-- From one route on ROAs are aggregated, and below three they are not. -/
def crossed : Config := { config with roaAggregateThreshold := 0, roaDeaggregateThreshold := 3 }

theorem crossed_thresholds_never_settle : crossed.verify = .ok () ∧ ∃ updates again,
    Yields (Roas.default.update env routes key crossed) updates ∧
    Yields ((Roas.default.updated .stored updates).update env routes key crossed) again ∧
    again.containsChanges = true :=
  ⟨rfl, _, _, ⟨(0 : Nat), _, rfl⟩, ⟨(0 : Nat), _, rfl⟩, rfl⟩

/-- The prefixes 10.0.0.0/8 and a00::/8 of one AS. -/
def mixed : Routes :=
  (Routes.default.add 0 ⟨1, .v4 ⟨0x0a#128 <<< 120, 8⟩, some 8⟩).add 0
    ⟨1, .v6 ⟨0x0a#128 <<< 120, 8⟩, some 8⟩

end Krill.Ca.Numbered
