import Krill.Ca.ClassChange
import Krill.Ca.ObjectUpdates

namespace Krill.Ca

open Rpki
open Stateful (Yields)
open CaEvtDet
open HashMap (get_empty mem_entries)

variable [Rpki]

structure DifferenceLaws : Prop where
  asn : ∀ {new old : ResourceSet} {asn : Asn}, differenceIsEmpty new old →
    containsAsn old asn → containsAsn new asn
  roaAddress : ∀ {new old : ResourceSet} {address : RoaIpAddress}, differenceIsEmpty new old →
    containsRoaAddress old address → containsRoaAddress new address
  contains : ∀ {new old part : ResourceSet}, differenceIsEmpty new old →
    contains old part → contains new part

namespace ResourceClass

variable {rc : ResourceClass}

structure Covered (rc : ResourceClass) (resources : ResourceSet) : Prop where
  roas : rc.roas.Within resources
  aspas : rc.aspas.Within resources
  bgpsecs : rc.bgpsecCertificates.Within resources
  certs : rc.certificates.Within resources

/-- The resources of the certificate cover everything that is issued under the current key.
Suspended certificates may come back, and nothing is issued before there is a key. -/
structure InBounds (rc : ResourceClass) : Prop where
  formed : rc.roas.Formed
  covered : ∀ {resources}, (∀ held ∈ rc.currentResources, held = resources) →
    rc.Covered resources

theorem Covered.ofSame (laws : DifferenceLaws) (covered : rc.Covered old)
    (same : differenceIsEmpty new old) : rc.Covered new where
  roas :=
    { simple := fun found held member => laws.roaAddress same (covered.roas.simple found held member)
      aggregate := fun found held member =>
        laws.roaAddress same (covered.roas.aggregate found held member) }
  aspas := fun found => laws.asn same (covered.aspas found)
  bgpsecs := fun found => laws.asn same (covered.bgpsecs found)
  certs :=
    { issued := fun found => laws.contains same (covered.certs.issued found)
      suspended := fun found => laws.contains same (covered.certs.suspended found) }

theorem inBounds_create {name : ResourceClassName} {nameSpace : String}
    {parentRcName : ResourceClassName} :
    (create now name nameSpace parent parentRcName key).InBounds where
  formed :=
    { simple := fun found => nomatch (get_empty _).symm.trans found
      aggregate := fun found => nomatch (get_empty _).symm.trans found
      exclusive := .inl fun _ => get_empty _ }
  covered := fun _ =>
    { roas :=
        { simple := fun found => nomatch (get_empty _).symm.trans found
          aggregate := fun found => nomatch (get_empty _).symm.trans found }
      aspas := fun found => nomatch (Keyed.get_empty _).symm.trans found
      bgpsecs := fun found => nomatch (Keyed.get_empty _).symm.trans found
      certs :=
        { issued := fun found => nomatch (Keyed.get_empty _).symm.trans found
          suspended := fun found => nomatch (Keyed.get_empty _).symm.trans found } }

theorem InBounds.withKeys (inBounds : rc.InBounds)
    (same : { rc with keyState := state }.currentResources = rc.currentResources) :
    { rc with keyState := state }.InBounds where
  formed := inBounds.formed
  covered := fun bounds => { inBounds.covered (same ▸ bounds) with }

theorem InBounds.certsUpdated (inBounds : rc.InBounds)
    (kept : ∀ resources, (∀ held ∈ rc.currentResources, held = resources) →
      rc.certificates.Within resources → (rc.certificates.updated updates).Within resources) :
    (rc.childCertificatesUpdated updates).InBounds where
  formed := inBounds.formed
  covered := fun {resources} bounds =>
    { inBounds.covered bounds with
      certs := kept resources bounds (inBounds.covered bounds).certs }

theorem InBounds.removed (inBounds : rc.InBounds) :
    (rc.childCertificatesUpdated
      { ChildCertificateUpdates.default with removed := keys }).InBounds :=
  inBounds.certsUpdated fun _ _ within => within.updated
    (List.forall_mem_nil _)
    (List.forall_mem_nil _)
    (List.forall_mem_nil _)

theorem currentResources_addRequest :
    (rc.addRequest key request).currentResources = rc.currentResources := by
  unfold addRequest currentResources currentKey KeyState.addRequest
  cases rc.keyState with
  | pending | active => rfl
  | rollPending | rollNew | rollOld => dsimp only; split <;> rfl

theorem currentResources_setOldRepo :
    (rc.setOldRepo repo).currentResources = rc.currentResources := by
  unfold setOldRepo currentResources currentKey KeyState.setOldRepoIfInActiveState
  cases rc.keyState <;> rfl

theorem InBounds.addRequest (inBounds : rc.InBounds) (key : KeyIdentifier)
    (request : IssuanceRequest) : (rc.addRequest key request).InBounds :=
  inBounds.withKeys (currentResources_addRequest)

theorem InBounds.setOldRepo (inBounds : rc.InBounds) (repo : RepoInfo) :
    (rc.setOldRepo repo).InBounds :=
  inBounds.withKeys (currentResources_setOldRepo)

theorem currentResources_of_current (isCurrent : rc.currentKey = some key) :
    rc.currentResources = some key.incomingCert.resources :=
  congrArg (Option.map fun key : CertifiedKey => key.incomingCert.resources) isCurrent

theorem bounds_of_current (isCurrent : rc.currentKey = some key) :
    ∀ held ∈ rc.currentResources, held = key.incomingCert.resources := by
  intro held current
  rw [currentResources_of_current isCurrent] at current
  exact (Option.some.inj current).symm

theorem receivedCert_current (isCurrent : rc.currentKey = some current)
    (key : cert.keyIdentifier = current.keyId)
    (notNew : ∀ new, rc.keyState.newKey = some new → cert.keyIdentifier ≠ new.keyId)
    (done : rc.receivedCert cert.keyIdentifier cert = some changed) :
    ∃ state, changed = { rc with keyState := state } ∧
      changed.currentKey = some (current.setIncomingCert cert) := by
  unfold receivedCert at done
  obtain ⟨name, nameSpace, parent, parentName, roas, aspas, bgpsecs, certs, change, state⟩ := rc
  cases state <;> cases isCurrent <;> dsimp only at done
  case rollNew => rw [if_neg (notNew _ rfl).symm] at done; cases done; exact ⟨_, rfl, rfl⟩
  case rollOld => rw [if_pos key.symm] at done; cases done; exact ⟨_, rfl, rfl⟩
  all_goals cases done; exact ⟨_, rfl, rfl⟩

variable [KrillSigner]

theorem InBounds.updated (inBounds : rc.InBounds)
    (updates : rc.Updates env key routes aspaDefs bgpsecDefs config)
    (current : { rc with keyState := state }.currentResources =
      some key.incomingCert.resources)
    (within : (rc.certificates.updated certs).Within key.incomingCert.resources) :
    (ResourceClass.objectsUpdated { rc with keyState := state } order updates.roas
      updates.aspas updates.bgpsecs certs).InBounds := by
  have matching := Roas.update_matches inBounds.formed updates.roasYielded order
  refine ⟨matching.formed, fun bounds => ?_⟩
  cases bounds _ current
  exact ⟨matching.within, AspaObjects.update_within updates.aspasYielded,
    BgpSecCertificates.update_within updates.bgpsecsYielded, within⟩

theorem InBounds.received (laws : DifferenceLaws) (inBounds : rc.InBounds)
    (received : rc.Received env cert routes aspaDefs bgpsecDefs config own)
    (done : onClassAll later own rc = some after) : after.InBounds := by
  cases received with
  | activated state key updates =>
    obtain ⟨changed, first, rest⟩ := onClassAll_cons.mp done
    cases rc
    cases state
    cases first
    cases (onClassAll_started ..).symm.trans rest
    refine inBounds.updated updates rfl ?_
    rw [ChildCertificates.updated_of_isEmpty rfl]
    exact (inBounds.covered nofun).certs
  | staged state key =>
    cases rc
    cases state
    cases done
    exact inBounds.withKeys rfl
  | forNew state key =>
    rw [onClassAll_singleton] at done
    change rc.receivedCert _ _ = some after at done
    unfold receivedCert at done
    cases rc
    cases state
    dsimp only at done
    rw [if_pos key.symm] at done
    cases done
    exact inBounds.withKeys rfl
  | renewed isCurrent key notNew same =>
    rw [onClassAll_singleton] at done
    obtain ⟨state, rfl, current⟩ := receivedCert_current isCurrent key notNew done
    refine ⟨inBounds.formed, fun bounds => ?_⟩
    cases bounds _ (currentResources_of_current current)
    exact { (inBounds.covered (bounds_of_current isCurrent)).ofSame laws same with }
  | changed isCurrent key notNew _ certs updates shrunk =>
    obtain ⟨changed, first, rest⟩ := onClassAll_cons.mp done
    obtain ⟨state, rfl, current⟩ := receivedCert_current isCurrent key notNew first
    cases (onClassAll_changed ..).symm.trans rest
    exact inBounds.updated updates ((currentResources_of_current current).trans rfl)
      (ChildCertificates.shrinkOverclaiming_within shrunk)

end ResourceClass

/-- The certificates of new keys cover the ROAs, ASPA objects and BGPsec certificates of the
classes in which they are about to be activated. -/
def CmdDet.CoversActivated (cmd : CmdDet) (ca : CertAuth) (env : Surroundings) : Prop :=
  match cmd with
  | .keyRollActivate stagingTime _ => ca.isTa = false → ∀ {rcn rc new current},
      ca.resources.get rcn = some rc → rc.keyState = .rollNew new current →
      ¬(stagingTime > 0 ∧ rc.lastKeyChange + stagingTime > env.now) →
      rc.roas.Within new.incomingCert.resources ∧ rc.aspas.Within new.incomingCert.resources ∧
        rc.bgpsecCertificates.Within new.incomingCert.resources
  | _ => True

namespace ResourceClass

variable [KrillSigner] {rc : ResourceClass}

theorem InBounds.issued (inBounds : rc.InBounds)
    (made : Yields (rc.issueCert env csr childResources limit timing) cert) :
    (rc.childCertificatesUpdated (ChildCertificateUpdates.default.issue cert)).InBounds := by
  obtain ⟨key, current, made⟩ := made.bind
  have isCurrent : rc.currentResources = some key.incomingCert.resources := by
    have current := current.liftExcept
    unfold getCurrentKey at current
    unfold currentResources
    split at current <;> cases current
    next found => rw [found]; rfl
  refine inBounds.certsUpdated fun resources bounds within => ?_
  cases bounds _ isCurrent
  refine within.updated (List.forall_mem_singleton.mpr (makeIssuedCert_yields made).2.2.2)
    (List.forall_mem_nil _)
    (List.forall_mem_nil _)

theorem InBounds.activated (inBounds : rc.InBounds) (reissued : rc.Reissued env new timing)
    (state : rc.keyState = .rollNew new current)
    (roas : rc.roas.Within new.incomingCert.resources)
    (aspas : rc.aspas.Within new.incomingCert.resources)
    (bgpsecs : rc.bgpsecCertificates.Within new.incomingCert.resources)
    (done : onClassAll later
      (.keyRollActivated rcn revokeReq :: reissued.events) rc = some after) : after.InBounds := by
  obtain ⟨changed, first, rest⟩ := onClassAll_cons.mp done
  cases rc
  cases state
  cases first
  cases (onClassAll_reissued ..).symm.trans rest
  refine ⟨Roas.renew_formed inBounds.formed reissued.roasYielded later.order, fun bounds => ?_⟩
  cases bounds _ rfl
  exact ⟨Roas.renew_within inBounds.formed roas reissued.roasYielded later.order,
    AspaObjects.renew_within aspas reissued.aspasYielded,
    BgpSecCertificates.renew_within bgpsecs reissued.bgpsecsYielded,
    ChildCertificates.activateKey_within reissued.certsYielded⟩

theorem InBounds.grouped (laws : DifferenceLaws) (inBounds : rc.InBounds)
    (covers : cmd.CoversActivated ca env) (found : ca.resources.get rcn = some rc)
    (group : Group ca env rcn rc cmd own) (done : onClassAll later own rc = some after) :
    after.InBounds := by
  have certs {updates : ChildCertificateUpdates}
      (done : onClassAll later [.childCertificatesUpdated rcn updates] rc =
        some after) : after = rc.childCertificatesUpdated updates := by
    rw [onClassAll_singleton, onClass_childCertificatesUpdated] at done
    exact (Option.some.inj done).symm
  cases group with
  | nothing => cases done; exact inBounds
  | certified _ _ _ made =>
    rw [certs done]
    exact inBounds.issued made
  | shifted _ shifted =>
    rw [certs done]
    refine inBounds.certsUpdated fun _ _ within => within.updated ?_
      (fun cert member => within.suspended (shifted.unsuspended cert member))
      fun cert member => within.issued (shifted.suspended cert member).2.1
    rw [shifted.issued]
    exact List.forall_mem_nil _
  | received received => exact inBounds.received laws received done
  | initiated _ state _ =>
    obtain ⟨changed, first, rest⟩ := onClassAll_cons.mp done
    cases rc
    cases state
    cases first
    cases rest
    refine InBounds.addRequest ?_ _ _
    exact inBounds.withKeys rfl
  | activated notTa state waited reissued =>
    obtain ⟨roas, aspas, bgpsecs⟩ := covers notTa found state waited
    exact inBounds.activated reissued state roas aspas bgpsecs done
  | finished state =>
    cases rc
    cases state
    cases done
    exact inBounds.withKeys rfl
  | roasUpdated isCurrent _ made =>
    cases (onClassAll_roaUpdates ..).symm.trans done
    have matching := Roas.update_matches inBounds.formed made later.order
    refine ⟨matching.formed, fun bounds => { inBounds.covered bounds with roas := ?_ }⟩
    cases bounds _ (currentResources_of_current isCurrent)
    exact matching.within
  | roasRenewed _ isCurrent made =>
    cases (onClassAll_roaUpdates ..).symm.trans done
    refine ⟨Roas.renew_formed inBounds.formed made later.order, fun bounds =>
      { inBounds.covered bounds with roas := ?_ }⟩
    exact Roas.renew_within inBounds.formed (inBounds.covered bounds).roas made later.order
  | aspasUpdated isCurrent _ _ made | aspaUpdated isCurrent made =>
    cases (onClassAll_aspaUpdates ..).symm.trans done
    refine ⟨inBounds.formed, fun bounds => { inBounds.covered bounds with aspas := ?_ }⟩
    cases bounds _ (currentResources_of_current isCurrent)
    exact AspaObjects.update_within made
  | aspasRenewed isCurrent made =>
    cases (onClassAll_aspaUpdates ..).symm.trans done
    exact ⟨inBounds.formed, fun bounds => { inBounds.covered bounds with
      aspas := AspaObjects.renew_within (inBounds.covered bounds).aspas made }⟩
  | bgpsecsUpdated isCurrent _ _ made =>
    cases (onClassAll_bgpsecUpdates ..).symm.trans done
    refine ⟨inBounds.formed, fun bounds => { inBounds.covered bounds with bgpsecs := ?_ }⟩
    cases bounds _ (currentResources_of_current isCurrent)
    exact BgpSecCertificates.update_within made
  | bgpsecsRenewed isCurrent made =>
    cases (onClassAll_bgpsecUpdates ..).symm.trans done
    exact ⟨inBounds.formed, fun bounds => { inBounds.covered bounds with
      bgpsecs := BgpSecCertificates.renew_within (inBounds.covered bounds).bgpsecs made }⟩

omit [KrillSigner] in
theorem InBounds.requests (inBounds : rc.InBounds)
    (requests : ∀ event ∈ own, ∃ rcn request key, event = .certificateRequested rcn request key)
    (done : onClassAll later own rc = some after) : after.InBounds := by
  induction own generalizing rc with
  | nil => cases done; exact inBounds
  | cons event rest induction =>
    obtain ⟨changed, first, rested⟩ := onClassAll_cons.mp done
    obtain ⟨rcn, request, key, rfl⟩ := requests event List.mem_cons_self
    cases first
    exact induction (inBounds.addRequest key request)
      (fun event member => requests event (List.mem_cons_of_mem _ member)) rested

theorem inBounds_of_change (laws : DifferenceLaws) (covers : cmd.CoversActivated ca env)
    (before : ∀ rc, ca.resources.get rcn = some rc → rc.InBounds)
    (change : ClassChange ca env later rcn cmd (ca.resources.get rcn) after) :
    after.InBounds := by
  have requests {rc : ResourceClass} {own : List CaEvtDet} (requested : rc.Requested ca env own) :
      ∀ event ∈ own, ∃ rcn request key, event = .certificateRequested rcn request key := by
    intro event member
    obtain ⟨_, _, _, key, request, rfl, _⟩ := requested event member
    exact ⟨_, request, key, rfl⟩
  generalize entry : ca.resources.get rcn = found at before change
  cases change with
  | grouped group done => exact (before _ rfl).grouped laws covers entry group done
  | requested requested done => exact (before _ rfl).requests (requests requested) done
  | created requested done => exact inBounds_create.requests (requests requested) done
  | trustAnchorMade => exact inBounds_create
  | moved group done =>
    have inBounds := (before _ rfl).grouped laws covers entry group done
    cases ca.repository with
    | none => exact inBounds
    | some existing => exact inBounds.setOldRepo existing.repoInfo
  | @keyRevoked _ request rc _ =>
    have again : (rc.childCertificatesUpdated
        (ChildCertificateUpdates.default.remove request.key)).InBounds :=
      (before _ rfl).removed
    exact again.removed

end ResourceClass

namespace CertAuth

variable [KrillSigner]

/-- If no key is activated with a certificate that leaves out what is signed, then the
certificate of the current key covers everything that the class has issued. -/
theorem current_key_covers_objects (laws : DifferenceLaws) {ca : CertAuth}
    (reachable : ReachableWhen (fun ca env cmd => cmd.CoversActivated ca env) ca)
    {rcn : ResourceClassName} {rc : ResourceClass} {key : CurrentKey}
    (found : ca.resources.get rcn = some rc) (current : rc.currentKey = some key) :
    rc.Covered key.incomingCert.resources :=
  (reachable.classes (ResourceClass.inBounds_of_change laws) found).covered
    (ResourceClass.bounds_of_current current)

end CertAuth

instance (roas : Roas) (resources : ResourceSet) : Decidable (roas.Within resources) :=
  decidable_of_iff ((∀ entry ∈ roas.simple.entries, ∀ held ∈ entry.2.authorizations,
        containsRoaAddress resources held.asRoaIpAddress) ∧
      ∀ entry ∈ roas.aggregate.entries, ∀ held ∈ entry.2.authorizations,
        containsRoaAddress resources held.asRoaIpAddress)
    ⟨fun listed =>
      { simple := fun found => listed.1 _ (mem_entries.mpr found)
        aggregate := fun found => listed.2 _ (mem_entries.mpr found) },
    fun within =>
      ⟨fun _ member => within.simple (mem_entries.mp member),
        fun _ member => within.aggregate (mem_entries.mp member)⟩⟩

instance (aspas : AspaObjects) (resources : ResourceSet) : Decidable (aspas.Within resources) :=
  decidable_of_iff (∀ entry ∈ aspas.objects.map.entries, containsAsn resources entry.1)
    ⟨fun listed {customer info} found => listed (customer, info) (mem_entries.mpr found),
      fun within _ member => within (mem_entries.mp member)⟩

instance (certs : BgpSecCertificates) (resources : ResourceSet) :
    Decidable (certs.Within resources) :=
  decidable_of_iff
    (∀ entry ∈ certs.certificates.map.entries, containsAsn resources entry.2.asn)
    ⟨fun listed {asnKey info} found => listed (asnKey, info) (mem_entries.mpr found),
      fun within _ member => within (mem_entries.mp member)⟩

end Krill.Ca

namespace Krill.Ca.Numbered

open CertAuth

def route : RoaConfiguration where
  payload := { asn := 1, typedPrefix := .v4 ⟨1, 8⟩, maxLength := none }
  comment := none

def roll : List CmdDet :=
  [.repoUpdate (contact 0), .addParent "parent" (.rfc6492 (0 : Nat)),
   .updateEntitlements "parent" [entitlement 7], .updateRcvdCert "0" (received 0 7) config,
   .routeAuthorizationsUpdate ⟨[route], []⟩ config, .keyRollInitiate 0]

def stage (resources : Nat) : List CmdDet :=
  roll ++ [.updateRcvdCert "0" (received 4 resources) config]

def staged : CertAuth × Nat := (start.replay env (0 : Nat) (stage 7)).get (by decide)

def activation : CmdDet := .keyRollActivate 0 config

def activated : CertAuth × Nat := (staged.1.replay env staged.2 [activation]).get (by decide)

theorem differenceLaws : DifferenceLaws where
  asn := fun same held => beq_iff_eq.mp same ▸ held
  roaAddress := fun same held => beq_iff_eq.mp same ▸ held
  contains := fun same held => beq_iff_eq.mp same ▸ held

theorem covered_after_activation_with_same_resources :
    ∃ (rc : ResourceClass) (key : CurrentKey), activated.1.resources.get "0" = some rc ∧
      rc.currentKey = some key ∧ rc.Covered key.incomingCert.resources := by
  have reachable : ReachableWhen (fun ca env cmd => cmd.CoversActivated ca env) staged.1 := by
    refine (ReachableWhen.init _ _).replay (fun cmd member before => ?_)
      (Option.some_get (by decide)).symm
    simp only [stage, roll, List.cons_append, List.nil_append, List.mem_cons,
      List.not_mem_nil, or_false] at member
    rcases member with rfl | rfl | rfl | rfl | rfl | rfl | rfl <;> trivial
  have covers : activation.CoversActivated staged.1 env := by
    intro _ rcn rc new current found state _
    have listed := HashMap.mem_entries.mpr found
    change (rcn, rc) ∈ [("0", _)] at listed
    cases List.mem_singleton.mp listed
    cases state
    decide
  have replayed : staged.1.replay env staged.2 [activation] = some activated :=
    (Option.some_get _).symm
  obtain ⟨rc, key, found, current⟩ : ∃ (rc : ResourceClass) (key : CurrentKey),
      activated.1.resources.get "0" = some rc ∧ rc.currentKey = some key := ⟨_, _, rfl, rfl⟩
  exact ⟨rc, key, found, current, current_key_covers_objects differenceLaws
    (reachable.replayOne covers replayed) found current⟩

def overclaiming : CertAuth × Nat :=
  (start.replay env (0 : Nat) (stage 1 ++ [activation])).get (by decide)

/-- The certificate of the new key is for bit 0 only, and the ROA for bit 1 is signed again
when that key is activated. -/
theorem activation_with_fewer_resources_overclaims :
    ∃ (ca : CertAuth) (rc : ResourceClass) (key : CurrentKey) (auth : RoaPayloadJsonMapKey)
      (info : RoaInfo), Reachable ca ∧ ca.resources.get "0" = some rc ∧
      rc.currentKey = some key ∧ rc.roas.simple.get auth = some info ∧
      auth ∈ info.authorizations ∧
      Rpki.containsRoaAddress key.incomingCert.resources auth.asRoaIpAddress = false :=
  ⟨overclaiming.1, _, _, route.payload.intoExplicitMaxLength, _,
    (Reachable.init _ _).replay (Option.some_get (by decide)).symm, rfl, rfl, rfl,
    List.mem_singleton_self _, rfl⟩

end Krill.Ca.Numbered
