import Krill.Ca.Overclaim

namespace Krill.Ca

open Rpki KrillSigner
open Stateful (Decides)

variable [Rpki]

structure RemainingLaws : Prop where
  applied : ∀ {limit : RequestResourceLimit} {resources remaining : ResourceSet},
    applyTo limit resources = some remaining → contains resources remaining
  intersection : ∀ {resources part : ResourceSet},
    contains resources (intersection resources part)
  trans : ∀ {whole resources part : ResourceSet},
    contains whole resources → contains resources part → contains whole part

/-- A certificate that claims more than is held can be issued again for what is left, if
there is anything left: its limit must allow that. -/
def IssuedCertificate.CanShrink (cert : IssuedCertificate) (resources : ResourceSet) : Prop :=
  contains resources cert.resources = false →
    isEmpty (intersection resources cert.resources) = false →
    (applyTo cert.limit (intersection resources cert.resources)).isSome

/-- The definitions for which an object is made pass the checks on its content. -/
def AspaObjects.CanUpdate (aspas : AspaObjects) (definitions : AspaDefinitions)
    (resources : ResourceSet) : Prop :=
  ∀ {customer definition}, definitions.get customer = some definition →
    containsAsn resources customer →
    (∀ existing, aspas.objects.get customer = some existing →
      existing.definition ≠ definition) →
    aspaBuilder customer definition.providers = .ok ()

namespace ResourceClass

/-- The objects can be brought in line with a certificate for the current key. -/
def CanChange (rc : ResourceClass) (current : CurrentKey) (cert : ReceivedCert)
    (aspaDefs : AspaDefinitions) : Prop :=
  differenceIsEmpty cert.resources current.incomingCert.resources = true ∨
    (∀ {key child}, rc.certificates.issued.get key = some child →
      child.CanShrink cert.resources) ∧
    (∀ {key child}, rc.certificates.suspended.get key = some child →
      child.CanShrink cert.resources) ∧
    rc.aspas.CanUpdate aspaDefs cert.resources

/-- A certificate can be processed. Only a first certificate and one for the current key
make objects. -/
def CanReceive (rc : ResourceClass) (cert : ReceivedCert) (aspaDefs : AspaDefinitions) : Prop :=
  match rc.keyState with
  | .pending _ => rc.aspas.CanUpdate aspaDefs cert.resources
  | .active current | .rollOld current _ => rc.CanChange current cert aspaDefs
  | .rollPending waiting current =>
    cert.keyIdentifier = waiting.keyId ∨ rc.CanChange current cert aspaDefs
  | .rollNew new current =>
    cert.keyIdentifier = new.keyId ∨ rc.CanChange current cert aspaDefs

end ResourceClass

def KeyState.Answers (self : KeyState) (key : KeyIdentifier) : Prop :=
  match self with
  | .pending waiting => key = waiting.keyId
  | .active current | .rollOld current _ => key = current.keyId
  | .rollPending waiting current => key = waiting.keyId ∨ key = current.keyId
  | .rollNew new current => key = new.keyId ∨ key = current.keyId

variable [KrillSigner]

structure SignerWorks : Prop where
  randomSerial : ∀ signer : Signer, ∃ serial used, randomSerial signer = .ok serial used
  sign : ∀ object key (signer : Signer), ∃ base64 used, sign object key signer = .ok base64 used

theorem signing_decides {action : EStateM String Signer A}
    (works : ∀ signer, ∃ value used, action signer = .ok value used) :
    Decides (signing action) True := by
  refine fun signer => iff_of_true ?_ trivial
  obtain ⟨value, used, done⟩ := works signer
  refine ⟨value, used, ?_⟩
  unfold signing EStateM.adaptExcept
  rw [done]

variable (works : SignerWorks) {env : Surroundings} {config : Config}

include works

namespace Roas

theorem makeRoa_decides (some_given : authorizations ≠ [])
    (same : ∀ auth ∈ authorizations, auth.asn = asn) (name : ObjectName) :
    Decides (makeRoa env authorizations name key validity) True := by
  have addresses : ∃ value, roaAddresses authorizations = .ok value := by
    unfold roaAddresses
    cases authorizations with
    | nil => exact absurd rfl some_given
    | cons first rest =>
      have all : ((first :: rest).all fun auth => auth.asn == first.asn) = true := by
        rw [List.all_eq_true]
        intro auth member
        rw [same auth member, same first List.mem_cons_self]
        exact beq_self_eq_true asn
      simp only [List.head?_cons]
      rw [if_pos all]
      exact ⟨_, rfl⟩
  refine ((Decides.liftExcept _).iff (iff_of_true addresses trivial)).andThen fun _ => ?_
  exact (signing_decides works.randomSerial).andThen fun _ =>
    (signing_decides (works.sign _ _)).andThen fun _ => .pure _

theorem makeSimpleRoa_decides (auth : RoaPayloadJsonMapKey) :
    Decides (makeSimpleRoa env key timing auth) True :=
  (makeRoa_decides works (List.cons_ne_nil _ _) (List.forall_mem_singleton.mpr rfl) _).andThen
    fun _ => .pure _

theorem updateSimple_decides (roas : Roas) (routes : Routes) :
    Decides (roas.updateSimple env routes key timing) True :=
  (Decides.mapM_true fun auth _ => makeSimpleRoa_decides works auth).andThen fun _ => .pure _

theorem updateAggregate_decides (roas : Roas) (routes : Routes) :
    Decides (roas.updateAggregate env routes key timing) True := by
  refine (Decides.mapM_true fun desired listed => ?_).andThen fun _ => .pure _
  obtain ⟨some_given, _, held⟩ :=
    Routes.asAggregates_spec (HashMap.mem_iter.mp (List.mem_filter.mp listed).1)
  refine Decides.andThen ?_ fun _ => .pure _
  exact (makeRoa_decides works some_given (fun auth member => (congrArg RoaAggregateKey.asn
    ((held auth).mp member).2).symm) _).andThen fun _ => .pure _

theorem update_decides (roas : Roas) (routes : Routes) :
    Decides (roas.update env routes key config) True := by
  unfold update
  dsimp only
  split
  · exact updateSimple_decides works _ _
  · exact (updateSimple_decides works _ _).andThen fun _ => .pure _
  · exact (updateAggregate_decides works _ _).andThen fun _ => .pure _
  · exact updateAggregate_decides works _ _

end Roas

theorem AspaObjects.makeAspa_decides (definition : AspaDefinition) :
    Decides (makeAspa env definition key timing)
      (aspaBuilder definition.customer definition.providers = .ok ()) := by
  unfold makeAspa
  dsimp only
  cases built : aspaBuilder definition.customer definition.providers with
  | error message =>
    exact (Decides.throwThen _ _).iff (iff_of_false not_false nofun)
  | ok =>
    refine ((signing_decides works.randomSerial).andThen fun _ =>
      (signing_decides (works.sign _ _)).andThen fun _ => .pure _).iff ?_
    exact iff_of_true trivial rfl

theorem AspaObjects.update_decides (aspas : AspaObjects) (definitions : AspaDefinitions) :
    Decides (aspas.update env definitions key config)
      (aspas.CanUpdate definitions key.incomingCert.resources) := by
  refine ((Decides.mapM fun definition _ => makeAspa_decides works definition).bind fun _ =>
    .pure _).iff ?_
  rw [and_true]
  constructor
  · intro needed customer definition found held changed
    have customerOf : definition.customer = customer := Keyed.key_of_get found
    subst customerOf
    refine needed definition (List.mem_filter.mpr ⟨List.mem_filter.mpr ⟨?_, held⟩, ?_⟩)
    · exact Keyed.mem_values.mpr found
    · cases present : aspas.objects.get definition.customer with
      | none => rfl
      | some existing => simpa using changed existing present
  · intro can definition listed
    obtain ⟨listed, needed⟩ := List.mem_filter.mp listed
    obtain ⟨listed, held⟩ := List.mem_filter.mp listed
    refine can (Keyed.mem_values.mp listed) held fun existing present => ?_
    rw [present] at needed
    simpa using needed

theorem BgpSecCertificates.update_decides (certs : BgpSecCertificates)
    (definitions : BgpSecDefinitions) : Decides (certs.update env definitions key config) True :=
  (Decides.mapM_true fun _ _ => (signing_decides works.randomSerial).andThen fun _ =>
    (signing_decides (works.sign _ _)).andThen fun _ => .pure _).andThen fun _ => .pure _

theorem makeIssuedCert_decides (csr : CsrInfo) :
    Decides (makeIssuedCert env csr resources limit key timing)
      (∃ remaining, applyTo limit resources = some remaining ∧
        contains key.incomingCert.resources remaining) := by
  unfold makeIssuedCert
  dsimp only
  cases applied : applyTo limit resources with
  | none =>
    refine (Decides.throw _).iff (iff_of_false not_false ?_)
    rintro ⟨_, impossible, _⟩
    cases impossible
  | some remaining =>
    dsimp only
    by_cases held : contains key.incomingCert.resources remaining = true
    · rw [if_pos held]
      refine ((signing_decides works.randomSerial).andThen fun _ =>
        (signing_decides (works.sign _ _)).andThen fun _ => .pure _).iff ?_
      exact iff_of_true trivial ⟨remaining, rfl, held⟩
    · rw [if_neg held]
      refine (Decides.throwThen _ _).iff (iff_of_false not_false ?_)
      rintro ⟨_, same, contained⟩
      cases same
      exact held contained

variable (laws : RemainingLaws)

include laws

namespace ChildCertificates

theorem shrink_decides (cert : IssuedCertificate) :
    Decides (shrink env key timing cert) (cert.CanShrink key.incomingCert.resources) := by
  unfold shrink CertInfo.reducedApplicableResources
  by_cases held : contains key.incomingCert.resources cert.resources = true
  · rw [if_pos held]
    refine (Decides.pure _).iff (iff_of_true trivial fun overclaims => ?_)
    rw [held] at overclaims
    cases overclaims
  · rw [if_neg held]
    dsimp only
    cases empty : isEmpty (intersection key.incomingCert.resources cert.resources) with
    | true =>
      rw [if_pos rfl]
      refine (Decides.pure _).iff (iff_of_true trivial fun _ left => ?_)
      rw [empty] at left
      cases left
    | false =>
      rw [if_neg Bool.false_ne_true]
      refine ((makeIssuedCert_decides works _).bind fun _ => .pure _).iff ?_
      rw [and_true]
      constructor
      · rintro ⟨remaining, applied, _⟩ _ _
        exact Option.isSome_of_eq_some applied
      · intro can
        obtain ⟨remaining, applied⟩ := Option.isSome_iff_exists.mp
          (can (Bool.eq_false_of_not_eq_true held) empty)
        exact ⟨remaining, applied, laws.trans laws.intersection (laws.applied applied)⟩

theorem shrinkOverclaiming_decides (certs : ChildCertificates) :
    Decides (certs.shrinkOverclaiming env key timing)
      ((∀ {position child}, certs.issued.get position = some child →
        child.CanShrink key.incomingCert.resources) ∧
      ∀ {position child}, certs.suspended.get position = some child →
        child.CanShrink key.incomingCert.resources) := by
  have listed (map : Keyed IssuedCertificate.key) :
      (∀ child ∈ map.values env.order, child.CanShrink key.incomingCert.resources) ↔
        ∀ {position child}, map.get position = some child →
          child.CanShrink key.incomingCert.resources := by
    constructor
    · intro each position child found
      have keyOf : child.key = position := Keyed.key_of_get found
      exact each child (Keyed.mem_values.mpr (keyOf ▸ found))
    · exact fun each child member => each (Keyed.mem_values.mp member)
  refine ((Decides.mapM fun cert _ => shrink_decides works laws cert).bind fun _ =>
    (Decides.mapM fun cert _ => shrink_decides works laws cert).bind fun _ => .pure _).iff ?_
  rw [and_true, listed, listed]

end ChildCertificates

namespace ResourceClass

variable {rc : ResourceClass} {cert : ReceivedCert} {routes : Routes}
  {aspaDefs : AspaDefinitions} {bgpsecDefs : BgpSecDefinitions}

theorem updateRcvdCertCurrent_decides (isCurrent : cert.keyIdentifier = current.keyId) :
    Decides (rc.updateRcvdCertCurrent env current cert routes aspaDefs bgpsecDefs config)
      (rc.CanChange current cert aspaDefs) := by
  unfold updateRcvdCertCurrent CanChange
  dsimp only
  rw [if_neg (not_not.mpr isCurrent)]
  cases same : differenceIsEmpty cert.resources current.incomingCert.resources with
  | true =>
    rw [if_pos rfl]
    exact (Decides.pure _).iff (iff_of_true trivial (.inl rfl))
  | false =>
    rw [if_neg Bool.false_ne_true]
    refine ((ChildCertificates.shrinkOverclaiming_decides works laws _).bind fun _ =>
      (Roas.update_decides works _ _).andThen fun _ =>
      (AspaObjects.update_decides works _ _).bind fun _ =>
      (BgpSecCertificates.update_decides works _ _).andThen fun _ => .pure _).iff ?_
    rw [and_true, and_assoc]
    simp only [Bool.false_eq_true, false_or]
    rfl

theorem updateReceivedCert_decides (answers : rc.keyState.Answers cert.keyIdentifier) :
    Decides (rc.updateReceivedCert env cert routes aspaDefs bgpsecDefs config)
      (rc.CanReceive cert aspaDefs) := by
  unfold updateReceivedCert CanReceive
  dsimp only
  cases state : rc.keyState with
  | pending waiting =>
    rw [state] at answers
    have forWaiting : cert.keyIdentifier = waiting.keyId := answers
    dsimp only
    rw [if_neg (not_not.mpr forWaiting)]
    refine ((Roas.update_decides works _ _).andThen fun _ =>
      (AspaObjects.update_decides works _ _).bind fun _ =>
      (BgpSecCertificates.update_decides works _ _).andThen fun _ => .pure _).iff ?_
    rw [and_true]
    rfl
  | active current =>
    rw [state] at answers
    exact updateRcvdCertCurrent_decides works laws answers
  | rollPending waiting current =>
    rw [state] at answers
    dsimp only
    by_cases forWaiting : cert.keyIdentifier = waiting.keyId
    · rw [if_pos forWaiting]
      exact (Decides.pure _).iff (iff_of_true trivial (.inl forWaiting))
    · rw [if_neg forWaiting]
      have forCurrent := answers.resolve_left forWaiting
      exact (updateRcvdCertCurrent_decides works laws forCurrent).iff (or_iff_right forWaiting).symm
  | rollNew new current =>
    rw [state] at answers
    dsimp only
    by_cases forNew : cert.keyIdentifier = new.keyId
    · rw [if_pos forNew]
      exact (Decides.pure _).iff (iff_of_true trivial (.inl forNew))
    · rw [if_neg forNew]
      have forCurrent := answers.resolve_left forNew
      exact (updateRcvdCertCurrent_decides works laws forCurrent).iff (or_iff_right forNew).symm
  | rollOld current old =>
    rw [state] at answers
    exact updateRcvdCertCurrent_decides works laws answers

/-- A certificate for a pending, new or current key is processed if, and only if, the
limits of the child certificates that overclaim allow what is left of them, and the ASPA
definitions that need an object have content for one. -/
theorem certificate_processed_iff (answers : rc.keyState.Answers cert.keyIdentifier)
    (signer : Signer) :
    (∃ events used, rc.updateReceivedCert env cert routes aspaDefs bgpsecDefs config signer =
      .ok events used) ↔ rc.CanReceive cert aspaDefs :=
  updateReceivedCert_decides works laws answers signer

end ResourceClass

end Krill.Ca

namespace Krill.Ca.Numbered

open CertAuth

def limitedRequest : IssuanceRequest := { request "0" 50 with limit := some (6 : Nat) }

def issueLimited : List CmdDet :=
  [.repoUpdate (contact 0), .addParent "parent" (.rfc6492 (0 : Nat)),
   .updateEntitlements "parent" [entitlement 7], .updateRcvdCert "0" (received 0 7) config,
   .childAdd "child" (0 : Nat) (7 : Nat), .childCertify "child" limitedRequest config]

def limited : CertAuth × Nat := (start.replay env (0 : Nat) issueLimited).get (by decide)

def limitedClass : ResourceClass := (limited.1.resources.get "0").get (by decide)

theorem signerWorks : SignerWorks where
  randomSerial := fun _ => ⟨_, _, rfl⟩
  sign := fun _ _ _ => ⟨_, _, rfl⟩

theorem contains_iff {resources : Nat} :
    @Rpki.contains inferInstance resources part = true ↔ resources &&& part = part :=
  beq_iff_eq

theorem contains_of_applied {resources remaining : Nat}
    (applied : @Rpki.applyTo inferInstance limit resources = some remaining) :
    resources &&& remaining = remaining := by
  cases limit with
  | none =>
    cases applied
    exact Nat.and_self resources
  | some part =>
    obtain ⟨held, same⟩ := Option.ite_none_right_eq_some.mp applied
    cases same
    exact beq_iff_eq.mp held

theorem contains_intersection (resources part : Nat) :
    resources &&& (resources &&& part) = resources &&& part := by
  rw [← Nat.and_assoc, Nat.and_self]

theorem contains_trans {resources : Nat} (outer : whole &&& resources = resources)
    (inner : resources &&& part = part) : whole &&& part = part := by
  rw [← inner, ← Nat.and_assoc, outer]

theorem remainingLaws : RemainingLaws where
  applied := fun applied => contains_iff.mpr (contains_of_applied applied)
  intersection := contains_iff.mpr (contains_intersection _ _)
  trans := fun outer inner =>
    contains_iff.mpr (contains_trans (contains_iff.mp outer) (contains_iff.mp inner))

theorem smaller_certificate_processed :
    (∃ events used, limitedClass.updateReceivedCert env (received 0 6) .default .default
      .default config (0 : Nat) = .ok events used) ∧
      limitedClass.CanReceive (received 0 6) .default := by
  have processed : ∃ events used, limitedClass.updateReceivedCert env (received 0 6) .default
      .default .default config (0 : Nat) = .ok events used := ⟨_, _, rfl⟩
  have answers : limitedClass.keyState.Answers (received 0 6).keyIdentifier := rfl
  exact ⟨processed, (ResourceClass.certificate_processed_iff signerWorks remainingLaws answers
    (0 : Nat)).mp processed⟩

/-- The parent takes bit 2 away. What is left for the child is bit 1, and that is less than
the limit in its request. -/
theorem smaller_certificate_fails_for_limit :
    ∃ (ca : CertAuth) (rc : ResourceClass) (current : CurrentKey) (used : Nat),
      Reachable ca ∧ ca.resources.get "0" = some rc ∧ rc.keyState = .active current ∧
      (received 0 3).keyIdentifier = current.keyId ∧
      rc.updateReceivedCert env (received 0 3) ca.routes ca.aspas ca.bgpsecDefs config
        (0 : Nat) = .error .resourceSetError used :=
  ⟨limited.1, limitedClass, _, _,
    (Reachable.init _ _).replay (Option.some_get (by decide)).symm, rfl, rfl, rfl, rfl⟩

end Krill.Ca.Numbered
