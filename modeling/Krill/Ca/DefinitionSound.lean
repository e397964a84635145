import Krill.Ca.CommandSound

namespace Krill.Ca

open Rpki
open Stateful (Yields)
open Fallible (bind_eq_ok ite_error_eq_ok)

variable [Rpki]

namespace CmdDet

def Safe (self : CmdDet) (ca : CertAuth) : Prop :=
  match self with
  | .childRevokeKey _ request => ca.resources.containsKey request.className
  | .aspasUpdate updates _ => ∀ aspaConfig ∈ updates.addOrReplace,
      aspaConfig.customer ∈ updates.remove →
      ∀ existing, ca.aspas.get aspaConfig.customer = some existing →
        ∀ provider, provider ∈ aspaConfig.providers ↔ provider ∈ existing.providers
  | _ => True

/-- What a command needs for its events to be in place: a key is revoked where there is a
current key. -/
def InPlace (self : CmdDet) (ca : CertAuth) : Prop :=
  match self with
  | .childRevokeKey _ request => ca.HasCurrentKey request.className
  | other => other.Safe ca

end CmdDet

namespace CertAuth

section Definitions

variable {ca : CertAuth}

theorem soundAll_config (areConfig : ∀ event ∈ details, event.isConfig = true) :
    SoundAll later ca details := by
  refine soundAll_of_stable (fun _ => True) trivial (fun event member next _ => ?_)
    fun _ _ _ _ _ _ => trivial
  have isConfig := areConfig event member
  cases event <;> first
    | exact Bool.noConfusion isConfig
    | exact fun _ targeted => nomatch targeted

theorem removeAuthorization_isConfig (before : ∀ event ∈ state.events, event.isConfig = true) :
    ∀ event ∈ (removeAuthorization state auth).events, event.isConfig = true := by
  unfold removeAuthorization
  split
  · exact List.forall_mem_append.mpr ⟨before, List.forall_mem_singleton.mpr rfl⟩
  · exact before

theorem addAuthorization_isConfig {resources : ResourceSet}
    (before : ∀ event ∈ state.events, event.isConfig = true) :
    ∀ event ∈ (addAuthorization env resources state configuration).events,
      event.isConfig = true := by
  dsimp only [addAuthorization]
  split
  · exact before
  · split
    · exact before
    · split
      · split
        · exact List.forall_mem_append.mpr ⟨before, List.forall_mem_singleton.mpr rfl⟩
        · exact before
      · split
        · refine List.forall_mem_append.mpr ⟨before, List.forall_mem_cons.mpr ⟨rfl, ?_⟩⟩
          exact List.forall_mem_singleton.mpr rfl
        · exact List.forall_mem_append.mpr ⟨before, List.forall_mem_singleton.mpr rfl⟩

theorem updateAuthorizations_isConfig {updates : RoaConfigurationUpdates} {routes : Routes}
    (accepted : ca.updateAuthorizations env updates = .ok (routes, changes)) :
    ∀ event ∈ changes, event.isConfig = true := by
  have kept {A : Type} {change : AuthorizationsUpdate → A → AuthorizationsUpdate}
      (step : ∀ state item, (∀ event ∈ state.events, event.isConfig = true) →
        ∀ event ∈ (change state item).events, event.isConfig = true)
      (items : List A) (state : AuthorizationsUpdate)
      (before : ∀ event ∈ state.events, event.isConfig = true) :
      ∀ event ∈ (items.foldl change state).events, event.isConfig = true := by
    induction items generalizing state with
    | nil => exact before
    | cons item rest induction => exact induction _ (step state item before)
  dsimp only [updateAuthorizations] at accepted
  split at accepted
  · cases accepted
    exact kept (fun _ _ => addAuthorization_isConfig) _ _
      (kept (fun _ _ => removeAuthorization_isConfig) _ _ (List.forall_mem_nil _))
  · cases accepted

theorem removeBgpsecs_isConfig (accepted : ca.removeBgpsecs keys definitions = .ok result) :
    ∀ event ∈ result.2, event.isConfig = true := by
  induction keys generalizing definitions result with
  | nil =>
    cases accepted
    exact List.forall_mem_nil _
  | cons key rest induction =>
    obtain ⟨_, accepted⟩ := ite_error_eq_ok.mp accepted
    obtain ⟨⟨others, changes⟩, removed, accepted⟩ := bind_eq_ok.mp accepted
    cases accepted
    exact List.forall_mem_cons.mpr ⟨rfl, induction removed⟩

theorem addBgpsec_isConfig :
    ∀ event ∈ (addBgpsec definitions key csr).2, event.isConfig = true := by
  unfold addBgpsec
  split
  · split
    · exact List.forall_mem_singleton.mpr rfl
    · exact List.forall_mem_nil _
  · exact List.forall_mem_singleton.mpr rfl

theorem addBgpsecs_isConfig (accepted : ca.addBgpsecs env added definitions = .ok result) :
    ∀ event ∈ result.2, event.isConfig = true := by
  induction added generalizing definitions result with
  | nil =>
    cases accepted
    exact List.forall_mem_nil _
  | cons definition rest induction =>
    obtain ⟨_, accepted⟩ := ite_error_eq_ok.mp accepted
    obtain ⟨_, accepted⟩ := ite_error_eq_ok.mp accepted
    obtain ⟨⟨others, changes⟩, more, accepted⟩ := bind_eq_ok.mp accepted
    cases accepted
    exact List.forall_mem_append.mpr ⟨addBgpsec_isConfig, induction more⟩

theorem verifyAspaUpdate_has (verified : ca.verifyAspaUpdate env customer update = .ok ()) :
    ca.aspas.has customer := by
  obtain ⟨_, verified⟩ := ite_error_eq_ok.mp verified
  obtain ⟨_, verified⟩ := ite_error_eq_ok.mp verified
  split at verified
  · cases verified
  · next found => exact Option.isSome_of_eq_some found

variable {remove : List AspaCustomer} {definitions : AspaDefinitions}
  {result : AspaDefinitions × List CaEvtDet}

theorem removeAspas_eq_ok (accepted : ca.removeAspas remove definitions = .ok result) :
    result.2 = remove.map .aspaConfigRemoved := by
  induction remove generalizing definitions result with
  | nil => cases accepted; rfl
  | cons customer rest induction =>
    obtain ⟨_, accepted⟩ := ite_error_eq_ok.mp accepted
    obtain ⟨⟨others, events⟩, removed, accepted⟩ := bind_eq_ok.mp accepted
    cases accepted
    rw [List.map_cons, ← induction removed]

variable {added : List AspaDefinition}

theorem addOrReplaceAspas_eq_ok
    (accepted : ca.addOrReplaceAspas env added definitions = .ok result) :
    result.2 = added.flatMap ca.aspaConfigEvents := by
  induction added generalizing definitions result with
  | nil => cases accepted; rfl
  | cons aspaConfig rest induction =>
    obtain ⟨_, accepted⟩ := ite_error_eq_ok.mp accepted
    obtain ⟨⟨others, events⟩, more, accepted⟩ := bind_eq_ok.mp accepted
    cases accepted
    rw [List.flatMap_cons, ← induction more]

omit [Rpki] in
theorem containsChanges_providersUpdate :
    (providersUpdate existing aspaConfig).containsChanges = false ↔
      ∀ provider, provider ∈ aspaConfig.providers ↔ provider ∈ existing.providers := by
  unfold AspaProvidersUpdate.containsChanges AspaProvidersUpdate.isEmpty providersUpdate
  rw [Bool.not_eq_false', Bool.and_eq_true_iff, List.isEmpty_iff, List.isEmpty_iff,
    List.filter_eq_nil_iff, List.filter_eq_nil_iff]
  simp only [Bool.not_eq_true, Bool.not_eq_false', List.contains_iff_mem]
  exact ⟨fun both provider => ⟨both.1 provider, both.2 provider⟩,
    fun same => ⟨fun provider => (same provider).mp, fun provider => (same provider).mpr⟩⟩

theorem aspaConfigEvents_spec (member : event ∈ ca.aspaConfigEvents aspaConfig) :
    (ca.aspas.get aspaConfig.customer = none ∧ event = .aspaConfigAdded aspaConfig) ∨
      ∃ existing, ca.aspas.get aspaConfig.customer = some existing ∧
        (providersUpdate existing aspaConfig).containsChanges = true ∧
        event = .aspaConfigUpdated aspaConfig.customer (providersUpdate existing aspaConfig) := by
  unfold aspaConfigEvents at member
  cases found : ca.aspas.get aspaConfig.customer with
  | none =>
    rw [found] at member
    exact .inl ⟨rfl, List.mem_singleton.mp member⟩
  | some existing =>
    rw [found] at member
    dsimp only at member
    split at member
    · next changes => exact .inr ⟨existing, rfl, changes, List.mem_singleton.mp member⟩
    · exact absurd member List.not_mem_nil

omit [Rpki] in
theorem has_addOrReplace : (definitions.addOrReplace definition).has customer ↔
      customer = definition.customer ∨ definitions.has customer := by
  change (Keyed.get _ customer).isSome ↔ _ ∨ (Keyed.get _ customer).isSome
  rw [AspaDefinitions.addOrReplace, Keyed.get_insert]
  by_cases same : customer = definition.customer <;> simp [same]

theorem has_of_removals
    (applied : ca.applyNextAll later (remove.map .aspaConfigRemoved) = some next)
    (customer : AspaCustomer) :
    next.aspas.has customer ↔ ca.aspas.has customer ∧ customer ∉ remove := by
  induction remove generalizing ca with
  | nil => cases applied; simp
  | cons removed rest induction =>
    obtain ⟨between, done, finished⟩ := applyNextAll_cons.mp applied
    cases done
    rw [induction finished, List.mem_cons, not_or]
    change (Keyed.get _ customer).isSome ∧ _ ↔ (Keyed.get _ customer).isSome ∧ _
    rw [AspaDefinitions.remove, Keyed.get_remove]
    by_cases same : customer = removed <;> simp [same]

theorem has_of_additions {before : CertAuth} (member : event ∈ added.flatMap ca.aspaConfigEvents)
    (holds : ∀ customer, ca.aspas.has customer → (before.aspas.has customer ↔ customer ∉ remove))
    (applied : before.applyNext later event = some next) :
    ∀ customer, ca.aspas.has customer → (next.aspas.has customer ↔ customer ∉ remove) := by
  intro customer defined
  obtain ⟨aspaConfig, _, member⟩ := List.mem_flatMap.mp member
  obtain ⟨absent, rfl⟩ | ⟨existing, found, _, rfl⟩ := aspaConfigEvents_spec member
  · cases applied
    rw [has_addOrReplace, ← holds customer defined, or_iff_right]
    rintro rfl
    change (ca.aspas.get aspaConfig.customer).isSome at defined
    rw [absent] at defined
    cases defined
  · obtain ⟨aspas, updated, rfl⟩ := Option.map_eq_some_iff.mp applied
    obtain ⟨current, present, rfl⟩ := Option.map_eq_some_iff.mp updated
    rw [has_addOrReplace, ← holds customer defined, or_iff_right_of_imp]
    rintro rfl
    change (before.aspas.get _).isSome
    have named : current.customer = aspaConfig.customer := Keyed.key_of_get present
    change (before.aspas.get current.customer).isSome
    rw [named]
    exact Option.isSome_of_eq_some present

end Definitions

variable [KrillSigner] {ca : CertAuth}

theorem aspasDefinitionsUpdate_yields
    (yields : Yields (ca.aspasDefinitionsUpdate env updates config) events) :
    ∃ objects, events.map StoredEvent.details = updates.remove.map .aspaConfigRemoved ++
      updates.addOrReplace.flatMap ca.aspaConfigEvents ++ objects := by
  obtain ⟨⟨remaining, removals⟩, removed, yields⟩ := yields.bind
  obtain ⟨⟨allAspas, additions⟩, added, yields⟩ := yields.bind
  obtain ⟨objects, looped, yields⟩ := yields.bind
  cases yields.pure
  cases removeAspas_eq_ok removed.liftExcept
  cases addOrReplaceAspas_eq_ok added.liftExcept
  exact ⟨objects, details_eventsFromDetails _ _⟩

omit [KrillSigner] in
variable (config) in
theorem soundAll_aspaChanges (safe : (CmdDet.aspasUpdate updates config).Safe ca)
    (later : Surroundings) : SoundAll later ca (updates.remove.map .aspaConfigRemoved ++
      updates.addOrReplace.flatMap ca.aspaConfigEvents) := by
  refine soundAll_append (soundAll_config fun event member => ?_) fun next gone => ?_
  · obtain ⟨customer, _, rfl⟩ := List.mem_map.mp member
    rfl
  refine soundAll_of_stable _ (fun customer defined => by
    rw [has_of_removals gone, and_iff_right defined]) (fun event member before holds => ?_)
    fun event member before after holds => has_of_additions member holds
  obtain ⟨aspaConfig, inUpdates, member⟩ := List.mem_flatMap.mp member
  obtain ⟨_, rfl⟩ | ⟨existing, found, changes, rfl⟩ := aspaConfigEvents_spec member
  · exact fun _ targeted => nomatch targeted
  · refine (holds _ (Option.isSome_of_eq_some found)).mpr fun inRemove => ?_
    rw [containsChanges_providersUpdate.mpr
      (safe aspaConfig inUpdates inRemove existing found)] at changes
    cases changes

end CertAuth

end Krill.Ca
