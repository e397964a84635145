import Krill.Ca.Provisioning
import Krill.Ca.Receiving

namespace Krill.Ca

open Rpki
open Stateful (Yields)

variable [Rpki]

/-- What remains of shared resources belongs to both sides, and a limit that was applied
changes nothing when it is applied again. -/
structure IssuanceLaws : Prop extends RemainingLaws where
  shared : ∀ {resources part : ResourceSet}, contains part (Rpki.intersection resources part)
  again : ∀ {limit : RequestResourceLimit} {resources remaining : ResourceSet},
    applyTo limit resources = some remaining → applyTo limit remaining = some remaining
  empty : ∀ {resources part : ResourceSet},
    contains resources part → isEmpty resources → isEmpty part

theorem EntitlementClass.intoIssuanceResponse_eq {entitlement : EntitlementClass}
    (listed : cert ∈ entitlement.issuedCerts)
    (unique : ∀ other ∈ entitlement.issuedCerts, other.key = cert.key → other = cert) :
    ∃ response, entitlement.intoIssuanceResponse cert.csrInfo.key = some response ∧
      response.issued = cert := by
  unfold intoIssuanceResponse
  cases found : entitlement.issuedCerts.find? fun issued =>
      issued.csrInfo.key = cert.csrInfo.key with
  | none =>
    have differs := List.find?_eq_none.mp found cert listed
    exact absurd (decide_eq_true rfl) differs
  | some other =>
    have sameKey := List.find?_some found
    have same := unique other (List.mem_of_find?_eq_some found)
      (congrArg Rpki.keyIdentifier (of_decide_eq_true sameKey))
    exact ⟨_, rfl, same⟩

namespace CertAuth

def withIssued (ca : CertAuth) (child : ChildHandle) (details : ChildDetails)
    (rcn : ResourceClassName) (rc : ResourceClass) (issued : IssuedCertificate) : CertAuth :=
  { ca with
    version := ca.version + 2
    children := ca.children.insert child (details.addIssueResponse rcn issued.key)
    resources := ca.resources.insert rcn (rc.certificateIssued issued) }

variable {ca : CertAuth} {later : Surroundings} {child : ChildHandle} {details : ChildDetails}
  {rcn : ResourceClassName} {rc : ResourceClass} {key : CurrentKey} {timing : IssuanceTimingConfig}

/-- What a child is told about a certificate: it is the one listed for its key, and the one
in the response. -/
structure Told (ca : CertAuth) (later : Surroundings) (child : ChildHandle)
    (rcn : ResourceClassName) (timing : IssuanceTimingConfig) (cert : IssuedCertificate) :
    Prop where
  listed : ∃ entitlement, ca.entitlementClass later child rcn timing = some entitlement ∧
    cert ∈ entitlement.issuedCerts ∧
    ∀ other ∈ entitlement.issuedCerts, other.key = cert.key → other = cert
  answered : ∃ response, ca.issuanceResponse later child rcn cert.csrInfo.key timing =
    .ok response ∧ response.issued = cert

/-- What a child is entitled to under a key, whether this is something or not. -/
def entitlementUnder (later : Surroundings) (timing : IssuanceTimingConfig)
    (rcn : ResourceClassName) (rc : ResourceClass) (key : CurrentKey)
    (details : ChildDetails) : EntitlementClass where
  className := rcn
  resourceSet := intersection key.incomingCert.resources details.resources
  notAfter := eligibleNotAfter later timing
    ((details.issued later.order rcn).filterMap rc.issued)
  issuedCerts := (details.issued later.order rcn).filterMap rc.issued
  signingCert := key.incomingCert

theorem told_iff (foundClass : ca.resources.get rcn = some rc)
    (current : rc.currentKey = some key) (known : ca.children.get child = some details)
    (used : details.usedKeys.get issued.key = some (.current rcn))
    (present : rc.issued issued.key = some issued) :
    ca.Told later child rcn timing issued ↔
      isEmpty (intersection key.incomingCert.resources details.resources) = false := by
  have entitled : ca.entitlementClass later child rcn timing =
      if isEmpty (intersection key.incomingCert.resources details.resources) then none
      else some (entitlementUnder later timing rcn rc key details) := by
    unfold entitlementClass
    rw [foundClass, known]
    simp only [current, Option.bind_eq_bind, Option.bind_some]
    rfl
  cases empty : isEmpty (intersection key.incomingCert.resources details.resources) with
  | true =>
    rw [empty, if_pos rfl] at entitled
    refine iff_of_false (fun told => ?_) nofun
    obtain ⟨_, found, _⟩ := told.listed
    cases entitled.symm.trans found
  | false =>
    rw [empty, if_neg Bool.false_ne_true] at entitled
    refine iff_of_true ?_ rfl
    have listed : issued ∈ (entitlementUnder later timing rcn rc key details).issuedCerts :=
      List.mem_filterMap.mpr ⟨issued.key, ChildDetails.mem_issued.mpr used, present⟩
    have unique : ∀ other ∈ (entitlementUnder later timing rcn rc key details).issuedCerts,
        other.key = issued.key → other = issued := by
      intro other member same
      obtain ⟨position, _, found⟩ := List.mem_filterMap.mp member
      have keyOf : other.key = position := Keyed.key_of_get found
      rw [← keyOf, same] at found
      exact Option.some.inj (found.symm.trans present)
    obtain ⟨response, responded, sameCert⟩ :=
      EntitlementClass.intoIssuanceResponse_eq listed unique
    refine ⟨⟨_, entitled, listed, unique⟩, response, ?_, sameCert⟩
    unfold issuanceResponse
    rw [entitled]
    dsimp only
    rw [responded]

variable [KrillSigner]

/-- A certificate for a child, and what the child is told right after it was issued. -/
structure Granted (key : CurrentKey) (details : ChildDetails) (request : IssuanceRequest)
    (timing : IssuanceTimingConfig) (later : Surroundings) (child : ChildHandle)
    (after : CertAuth) (cert : IssuedCertificate) : Prop where
  forKey : cert.csrInfo.key = request.csr.publicKey
  nonempty : isEmpty cert.resources = false
  held : contains key.incomingCert.resources cert.resources
  entitled : contains details.resources cert.resources
  limited : applyTo request.limit cert.resources = some cert.resources
  told : after.Told later child request.className timing cert

def remaining (key : CurrentKey) (details : ChildDetails) (limit : RequestResourceLimit) :
    Option ResourceSet :=
  applyTo limit (intersection key.incomingCert.resources details.resources)

/-- A request of a child that is accepted gives a certificate with resources that the child
gets in a response if, and only if, there are resources that the class and the child share
and that the limit of the request leaves. -/
theorem issuance_and_response_agree_iff (laws : IssuanceLaws) {env : Surroundings}
    {request : IssuanceRequest} {config : Config} {events : List CaEvt}
    (foundClass : ca.resources.get request.className = some rc)
    (current : rc.currentKey = some key) (known : ca.children.get child = some details)
    (yields : Yields (ca.processCommand env (.childCertify child request config)) events) :
    (isEmpty (intersection key.incomingCert.resources details.resources) = false ∧
      ∃ cert after, .childCertificatesUpdated request.className
          (ChildCertificateUpdates.default.issue cert) ∈ events.map StoredEvent.details ∧
        ca.applyAll later events = some after ∧
        Granted key details request timing later child after cert) ↔
      ∃ resources ∈ remaining key details request.limit, isEmpty resources = false := by
  obtain ⟨_, _, csrInfo, issued, sameClass, sameChild, decoded, made, sameEvents⟩ :=
    childCertify_yields yields
  cases foundClass.symm.trans sameClass
  cases known.symm.trans sameChild
  obtain ⟨_, sameKey, made⟩ := issueCert_yields made
  cases current.symm.trans sameKey
  obtain ⟨csr, limit, applied, held⟩ := makeIssuedCert_yields made
  constructor
  · rintro ⟨_, cert, after, event, _, granted⟩
    rw [sameEvents] at event
    have same : cert = issued := by
      simpa [ChildCertificateUpdates.issue, ChildCertificateUpdates.default] using event
    subst same
    exact ⟨_, applied, granted.nonempty⟩
  · rintro ⟨resources, left, nonempty⟩
    cases applied.symm.trans left
    have shared := laws.applied applied
    have notEmpty : isEmpty (intersection key.incomingCert.resources details.resources) =
        false := by
      refine Bool.eq_false_of_not_eq_true fun empty => ?_
      rw [laws.empty shared empty] at nonempty
      cases nonempty
    refine ⟨notEmpty, issued, ca.withIssued child details request.className rc issued, ?_, ?_, ?_⟩
    · rw [sameEvents]
      exact List.mem_cons_of_mem _ (List.mem_singleton_self _)
    · rw [applyAll_eq, sameEvents]
      refine applyNextAll_cons.mpr ⟨_, updateChild_eq_some.mpr ⟨_, known, rfl⟩, ?_⟩
      exact applyNextAll_cons.mpr ⟨_, (applyDetails_target_eq_some rfl).mpr
        ⟨rc, _, foundClass, rfl, rfl⟩, rfl⟩
    · refine ⟨?_, nonempty, held, laws.trans laws.shared shared, laws.again applied, ?_⟩
      · exact (congrArg CsrInfo.key csr).trans (key_of_ofCsr decoded)
      · have currentAfter : (rc.certificateIssued issued).currentKey = some key := current
        have knownAfter : (ca.withIssued child details request.className rc
            issued).children.get child =
              some (details.addIssueResponse request.className issued.key) :=
          HashMap.get_insert_self _ _ _
        exact (told_iff (HashMap.get_insert_self _ _ _) currentAfter knownAfter
          (HashMap.get_insert_self _ _ _) (Keyed.get_insert_self _ _)).mpr notEmpty

end CertAuth

end Krill.Ca

namespace Krill.Ca.Numbered

open CertAuth

theorem contained (resources part : Nat) : part &&& (resources &&& part) = resources &&& part := by
  rw [Nat.and_comm resources part, contains_intersection]

theorem issuanceLaws : IssuanceLaws where
  toRemainingLaws := remainingLaws
  shared := fun {resources part} => contains_iff.mpr (contained resources part)
  again := fun {limit resources left} applied => by
    cases limit with
    | none => rfl
    | some part =>
      obtain ⟨_, same⟩ := Option.ite_none_right_eq_some.mp applied
      cases same
      exact if_pos (beq_iff_eq.mpr (Nat.and_self _))
  empty := fun {resources part} held empty => by
    have same : Nat.land resources part = part := contains_iff.mp held
    have nothing : resources = (0 : Nat) := beq_iff_eq.mp empty
    subst nothing
    exact beq_iff_eq.mpr (same.symm.trans (Nat.zero_and part))

def offer (resources : Nat) : List CmdDet :=
  [.repoUpdate (contact 0), .addParent "parent" (.rfc6492 (0 : Nat)),
   .updateEntitlements "parent" [entitlement 7], .updateRcvdCert "0" (received 0 7) config,
   .childAdd "child" (0 : Nat) resources]

def offered : CertAuth × Nat := (start.replay env (0 : Nat) (offer 3)).get (by decide)

theorem child_gets_certificate_for_shared_resources :
    ∃ (key : CurrentKey) (details : ChildDetails) (events : List CaEvt)
      (cert : IssuedCertificate) (after : CertAuth),
      CaEvtDet.childCertificatesUpdated "0" (ChildCertificateUpdates.default.issue cert) ∈
        events.map StoredEvent.details ∧
      offered.1.applyAll env events = some after ∧
      Granted key details (request "0" 50) config.issuanceTiming env "child" after cert := by
  obtain ⟨rc, key, details, events, used, found, current, known, accepted⟩ :
      ∃ (rc : ResourceClass) (key : CurrentKey) (details : ChildDetails) (events : List CaEvt)
        (used : Nat), offered.1.resources.get "0" = some rc ∧ rc.currentKey = some key ∧
        offered.1.children.get "child" = some details ∧
        offered.1.processCommand env (.childCertify "child" (request "0" 50) config) offered.2 =
          .ok events used := ⟨_, _, _, _, _, rfl, rfl, rfl, rfl⟩
  have shared : ∃ resources ∈ remaining key details (request "0" 50).limit,
      Rpki.isEmpty resources = false := by
    cases found
    cases current
    cases known
    exact ⟨(3 : Nat), rfl, rfl⟩
  obtain ⟨_, cert, after, issued, applied, granted⟩ := (issuance_and_response_agree_iff
    issuanceLaws found current known ⟨_, _, accepted⟩).mpr shared
  exact ⟨key, details, events, cert, after, issued, applied, granted⟩

def takenAway : CertAuth × Nat :=
  (start.replay env (0 : Nat) (offer 1 ++ [.updateRcvdCert "0" (received 0 6) config])).get
    (by decide)

/-- The child still gets a certificate, without resources, and no response with it. -/
theorem empty_certificate_without_response :
    ∃ (ca after : CertAuth) (rc : ResourceClass) (key : CurrentKey) (details : ChildDetails)
      (events : List CaEvt) (cert : IssuedCertificate) (used : Nat), Reachable ca ∧
      ca.resources.get "0" = some rc ∧ rc.currentKey = some key ∧
      ca.children.get "child" = some details ∧
      Rpki.isEmpty (Rpki.intersection key.incomingCert.resources details.resources) = true ∧
      ca.processCommand env (.childCertify "child" (request "0" 50) config) takenAway.2 =
        .ok events used ∧
      CaEvtDet.childCertificatesUpdated "0" (ChildCertificateUpdates.default.issue cert) ∈
        events.map StoredEvent.details ∧
      Rpki.isEmpty cert.resources = true ∧ ca.applyAll env events = some after ∧
      after.entitlementClass env "child" "0" config.issuanceTiming = none ∧
      after.issuanceResponse env "child" "0" (50 : Nat) config.issuanceTiming =
        .error .keyUseNoIssuedCert :=
  ⟨takenAway.1, _, _, _, _, _, _, _,
    (Reachable.init _ _).replay (Option.some_get (by decide)).symm, rfl, rfl, rfl, rfl, rfl,
    List.mem_cons_of_mem _ (List.mem_singleton.mpr rfl), rfl, rfl, rfl, rfl⟩

end Krill.Ca.Numbered
