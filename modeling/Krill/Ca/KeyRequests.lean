import Krill.Ca.RepoMigration

namespace Krill.Ca

open Rpki
open Stateful (Yields)

variable [Rpki]

namespace CaEvtDet

def certificateRequest : CaEvtDet → Option (IssuanceRequest × KeyIdentifier)
  | .certificateRequested _ request key => some (request, key)
  | _ => none

def unexpectedKey : CaEvtDet → Option KeyIdentifier
  | .unexpectedKeyFound _ request => some request.key
  | _ => none

end CaEvtDet

namespace KeyState

def waitingKeys : KeyState → List PendingKey
  | .pending waiting | .rollPending waiting _ => [waiting]
  | _ => []

/-- The keys that need a certificate under an entitlement, each with its own repository. -/
def keysInNeed (state : KeyState) (env : Surroundings) (entitlement : ResourceClassEntitlements)
    (baseRepo : RepoInfo) : List (RepoInfo × KeyIdentifier) :=
  (state.waitingKeys.map fun key => (baseRepo, key.keyId)) ++
    (state.certifiedKeys.filter fun key =>
      key.wantsUpdate env entitlement.resourceSet entitlement.notAfter).map fun key =>
        (key.oldRepo.getD baseRepo, key.keyId)

/-- The old key of a roll wants an update, and it is another key than the current one. -/
def OldKeyWantsUpdate (state : KeyState) (env : Surroundings)
    (entitlement : ResourceClassEntitlements) : Prop :=
  ∃ current old, state = .rollOld current old ∧ old.keyId ≠ current.keyId ∧
    old.key.wantsUpdate env entitlement.resourceSet entitlement.notAfter = true

variable {state : KeyState} {env : Surroundings} {entitlement : ResourceClassEntitlements}
  {baseRepo : RepoInfo}

theorem keysForRequests_eq (settled : ¬state.OldKeyWantsUpdate env entitlement) :
    state.keysForRequests env entitlement baseRepo = state.keysInNeed env entitlement baseRepo := by
  cases state with
  | rollOld current old =>
    have same (wants : old.key.wantsUpdate env entitlement.resourceSet entitlement.notAfter) :
        old.key.keyId = current.keyId := by
      by_contra other
      exact settled ⟨current, old, rfl, other, wants⟩
    simp only [keysForRequests, keysInNeed, waitingKeys, certifiedKeys, List.filter_cons]
    split <;> split <;> simp_all
  | _ =>
    simp only [keysForRequests, keysInNeed, waitingKeys, certifiedKeys, List.filter_cons]
    repeat' split
    all_goals rfl

theorem keysForRequests_not_perm (wants : state.OldKeyWantsUpdate env entitlement)
    (baseRepo : RepoInfo) :
    ¬((state.keysForRequests env entitlement baseRepo).map Prod.snd).Perm
      ((state.keysInNeed env entitlement baseRepo).map Prod.snd) := by
  obtain ⟨current, old, rfl, other, wants⟩ := wants
  have other : current.keyId ≠ old.key.keyId := fun same => other same.symm
  simp only [keysForRequests, keysInNeed, waitingKeys, certifiedKeys, List.filter_cons, wants]
  split <;> simp [other]

variable [KrillSigner]

def IsRequestFor (nameSpace : String) (className : ResourceClassName)
    (need : RepoInfo × KeyIdentifier) (made : IssuanceRequest × KeyIdentifier) : Prop :=
  made.2 = need.2 ∧ Yields (createIssuanceReq need.1 nameSpace className need.2) made.1

/-- There is one request for each key in need, made for the repository of that key, and no
other. The unexpected keys are those of the entitlement that are not known. -/
structure RequestsMatch (state : KeyState) (env : Surroundings)
    (entitlement : ResourceClassEntitlements) (baseRepo : RepoInfo) (nameSpace : String)
    (events : List CaEvtDet) : Prop where
  requested : ∃ served, served.Perm (state.keysInNeed env entitlement baseRepo) ∧
    List.Forall₂ (IsRequestFor nameSpace entitlement.className) served
      (events.filterMap CaEvtDet.certificateRequest)
  reported : events.filterMap CaEvtDet.unexpectedKey =
    entitlement.issuedKeys.filter fun key => !state.knowsKey key

variable {rcn : ResourceClassName} {nameSpace : String} {events : List CaEvtDet}

theorem makeEntitlementEvents_spec
    (yields : Yields (state.makeEntitlementEvents env rcn entitlement baseRepo nameSpace) events) :
    List.Forall₂ (IsRequestFor nameSpace entitlement.className)
      (state.keysForRequests env entitlement baseRepo)
      (events.filterMap CaEvtDet.certificateRequest) ∧
    events.filterMap CaEvtDet.unexpectedKey =
      entitlement.issuedKeys.filter fun key => !state.knowsKey key := by
  obtain ⟨requested, looped, done⟩ := yields.bind
  cases done.pure
  have made := looped.mapM
  clear looped yields done
  generalize state.keysForRequests env entitlement baseRepo = needs at made ⊢
  induction made with
  | nil =>
    simp [List.filterMap_map, Function.comp_def, CaEvtDet.certificateRequest,
      CaEvtDet.unexpectedKey]
  | cons first _ induction =>
    obtain ⟨request, created, returned⟩ := first.bind
    cases returned.pure
    exact ⟨.cons ⟨rfl, created⟩ induction.1, induction.2⟩

theorem RequestsMatch.settled
    (matched : state.RequestsMatch env entitlement baseRepo nameSpace events)
    (yields : Yields (state.makeEntitlementEvents env rcn entitlement baseRepo nameSpace) events) :
    ¬state.OldKeyWantsUpdate env entitlement := by
  intro wants
  obtain ⟨served, perm, paired⟩ := matched.requested
  have sameKeys {needs : List (RepoInfo × KeyIdentifier)}
      {made : List (IssuanceRequest × KeyIdentifier)}
      (pairs : List.Forall₂ (IsRequestFor nameSpace entitlement.className) needs made) :
      made.map Prod.snd = needs.map Prod.snd := by
    induction pairs with
    | nil => rfl
    | cons first _ induction => rw [List.map_cons, List.map_cons, first.1, induction]
  refine keysForRequests_not_perm wants baseRepo ?_
  rw [← sameKeys (makeEntitlementEvents_spec yields).1, sameKeys paired]
  exact perm.map Prod.snd

/-- The requests are those that the keys need, unless a key roll has an old key that wants an
update: the request for it is made for the current key. -/
theorem requests_match_iff
    (yields : Yields (state.makeEntitlementEvents env rcn entitlement baseRepo nameSpace) events) :
    state.RequestsMatch env entitlement baseRepo nameSpace events ↔
      ¬state.OldKeyWantsUpdate env entitlement := by
  refine ⟨fun matched => matched.settled yields, fun settled => ?_⟩
  obtain ⟨paired, reported⟩ := makeEntitlementEvents_spec yields
  exact ⟨⟨_, .refl _, keysForRequests_eq settled ▸ paired⟩, reported⟩

end KeyState

end Krill.Ca

namespace Krill.Ca.Numbered

open KeyState Stateful

theorem pending_requests_match : ∃ events, (KeyState.create (0 : Nat)).RequestsMatch env
    (entitlement 7) (0 : Nat) "0" events := by
  have yields : Yields ((KeyState.create (0 : Nat)).makeEntitlementEvents env "0"
    (entitlement 7) (0 : Nat) "0") _ := ⟨(0 : Nat), _, rfl⟩
  refine ⟨_, (requests_match_iff yields).mpr fun wants => ?_⟩
  obtain ⟨_, _, other, _⟩ := wants
  cases other

/-- The old key 0 of a roll has fewer resources than the entitlement. The request for it names
the current key 1. -/
theorem old_key_is_not_requested : ∃ events, Yields ((KeyState.rollOld (.create (received 1 7))
      ⟨.create (received 0 3), ⟨"0", (0 : Nat)⟩⟩).makeEntitlementEvents env "0"
      (entitlement 7) (0 : Nat) "0") events ∧
    ¬(KeyState.rollOld (.create (received 1 7)) ⟨.create (received 0 3),
      ⟨"0", (0 : Nat)⟩⟩).RequestsMatch env (entitlement 7) (0 : Nat) "0" events := by
  refine ⟨_, ⟨(0 : Nat), _, rfl⟩, fun matched => matched.settled ⟨(0 : Nat), _, rfl⟩ ?_⟩
  exact ⟨_, _, rfl, by decide, rfl⟩

end Krill.Ca.Numbered
