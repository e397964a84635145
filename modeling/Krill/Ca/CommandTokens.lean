import Krill.Ca.ClassTokens
import Krill.Ca.CommandSpec

namespace Krill.Ca

open Rpki KrillSigner
open Stateful (liftExcept_eq_ok)
open CaEvtDet (tokensAll)
open ResourceClass (createRtaEe_draws keyrollInitiate_draws underKey_draws)

variable [Rpki] [KrillSigner] {given : Signer → Token → Prop} {cmd : CmdDet}

namespace CertAuth

variable {ca : CertAuth}

def newTokens (cmd : CmdDet) (events : List CaEvt) : List Token :=
  tokensAll cmd (events.map StoredEvent.details)

theorem returned_draws (inside : (tokensAll cmd details).Subperm taken) :
    Draws given taken (pure (ca.eventsFromDetails details) : SignM (List CaEvt))
      (newTokens cmd) := by
  refine .pure ?_
  rw [newTokens, details_eventsFromDetails]
  exact inside

theorem events_draws {program : SignM (List CaEvtDet)}
    {eventsOf : List CaEvtDet → List CaEvtDet} (made : Draws given [] program (tokensAll cmd))
    (same : ∀ details, tokensAll cmd (eventsOf details) = tokensAll cmd details) :
    Draws given [] (do
      let details ← program
      return ca.eventsFromDetails (eventsOf details)) (newTokens cmd) := by
  refine made.bind fun details => returned_draws ?_
  rw [same]
  exact .refl _

theorem forEachClass_draws (each : ∀ rcn rc, Draws given [] (action rcn rc) (tokensAll cmd)) :
    Draws given [] (ca.forEachClass env action) (tokensAll cmd) := by
  refine .bind (.mapM fun entry _ => each entry.1 entry.2) fun found => .pure ?_
  rw [tokensAll, ← List.flatMap_id, List.flatMap_assoc]
  exact .refl _

variable (laws : SignerLaws given)

include laws

theorem routeAuthorizationsRenew_draws :
    Draws given [] (ca.routeAuthorizationsRenew env force config) (newTokens cmd) := by
  refine events_draws (forEachClass_draws fun rcn rc => ?_) fun _ => rfl
  exact underKey_draws (fun _ => Roas.renew_draws laws) rfl
    (CaEvtDet.tokensAll_roas rcn) rc.currentKey

theorem routeAuthorizationsUpdate_draws :
    Draws given [] (ca.routeAuthorizationsUpdate env updates config) (newTokens cmd) := by
  refine .lift fun ⟨routes, changes⟩ accepted => ?_
  refine events_draws (forEachClass_draws fun rcn rc => ?_) fun objects => ?_
  · exact underKey_draws (fun _ => Roas.update_draws laws) rfl
      (CaEvtDet.tokensAll_roas rcn) rc.currentKey
  · exact CaEvtDet.tokensAll_quiet_append (fun event member =>
      CaEvtDet.tokens_of_isConfig (updateAuthorizations_isConfig accepted event member)) _

theorem createUpdatedAspaObjects_draws :
    Draws given [] (ca.createUpdatedAspaObjects env definitions config) (tokensAll cmd) :=
  forEachClass_draws fun rcn rc => underKey_draws
    (fun _ => AspaObjects.made_draws laws) rfl (CaEvtDet.tokensAll_aspas rcn) rc.currentKey

theorem aspasDefinitionsUpdate_draws :
    Draws given [] (ca.aspasDefinitionsUpdate env updates config) (newTokens cmd) := by
  refine .lift fun ⟨removed, removals⟩ withoutRemoved => ?_
  refine .lift fun ⟨definitions, additions⟩ withAdded => ?_
  refine events_draws (createUpdatedAspaObjects_draws laws) fun objects =>
    CaEvtDet.tokensAll_quiet_append ?_ _
  intro event member
  obtain inRemovals | inAdditions := List.mem_append.mp member
  · have listed : removals = _ := removeAspas_eq_ok withoutRemoved
    rw [listed] at inRemovals
    obtain ⟨customer, _, rfl⟩ := List.mem_map.mp inRemovals
    rfl
  · have listed : additions = _ := addOrReplaceAspas_eq_ok withAdded
    rw [listed] at inAdditions
    obtain ⟨aspaConfig, _, member⟩ := List.mem_flatMap.mp inAdditions
    obtain ⟨_, rfl⟩ | ⟨_, _, _, rfl⟩ := aspaConfigEvents_spec member <;> rfl

theorem aspasUpdate_draws :
    Draws given [] (ca.aspasUpdate env customer update config) (newTokens cmd) := by
  refine .lift fun _ _ => ?_
  exact events_draws (createUpdatedAspaObjects_draws laws) fun objects =>
    CaEvtDet.tokensAll_append_quiet objects (List.forall_mem_singleton.mpr rfl)

theorem aspasRenew_draws : Draws given [] (ca.aspasRenew env config) (newTokens cmd) := by
  refine events_draws (forEachClass_draws fun rcn rc => ?_) fun _ => rfl
  exact underKey_draws (fun _ => AspaObjects.made_draws laws) rfl
    (CaEvtDet.tokensAll_aspas rcn) rc.currentKey

theorem bgpsecDefinitionsUpdate_draws :
    Draws given [] (ca.bgpsecDefinitionsUpdate env updates config) (newTokens cmd) := by
  refine .lift fun ⟨removed, removals⟩ withoutRemoved => ?_
  refine .lift fun ⟨definitions, additions⟩ withAdded => ?_
  refine events_draws (forEachClass_draws fun rcn rc => ?_) fun objects => ?_
  · exact underKey_draws (fun _ => BgpSecCertificates.made_draws laws) rfl
      (CaEvtDet.tokensAll_bgpsecs rcn) rc.currentKey
  · exact CaEvtDet.tokensAll_quiet_append (fun event member =>
      CaEvtDet.tokens_of_isConfig ((List.mem_append.mp member).elim
        (removeBgpsecs_isConfig withoutRemoved event) (addBgpsecs_isConfig withAdded event))) _

theorem bgpsecRenew_draws : Draws given [] (ca.bgpsecRenew env config) (newTokens cmd) := by
  refine events_draws (forEachClass_draws fun rcn rc => ?_) fun _ => rfl
  exact underKey_draws (fun _ => BgpSecCertificates.made_draws laws) rfl
    (CaEvtDet.tokensAll_bgpsecs rcn) rc.currentKey

theorem trustAnchorMake_draws :
    Draws given [] (ca.trustAnchorMake env uris rsyncUri) (newTokens cmd) := by
  refine .guarded fun _ => .lift fun contact _ => ?_
  refine .bind (signing_draws laws.createKey) fun key => ?_
  refine .bind (signing_draws laws.randomSerial) fun serial => ?_
  refine .bindKnowing (fun ran => laws.getKeyInfo (signing_eq_ok.mp ran)) fun pubKey isKey => ?_
  refine .bindQuiet (signing_draws laws.sign) fun base64 => ?_
  split
  · exact .throw _
  · refine returned_draws ?_
    change [Token.key (keyIdentifier pubKey)].Subperm _
    rw [isKey]
    exact (List.sublist_append_left [Token.key key] _).subperm

theorem childCertify_draws (notSuspension : cmd.isSuspension = false) :
    Draws given [] (ca.childCertify env child request config) (newTokens cmd) := by
  refine .lift fun csrInfo _ => .guarded fun _ => ?_
  refine .bind (.lift fun rc _ => .lift fun details _ => .lift fun key _ =>
    makeIssuedCert_draws laws) fun issued => .pure ?_
  change (ChildCertificateUpdates.tokens _ (!cmd.isSuspension) ++ []).Subperm _
  rw [notSuspension]
  exact .refl _

variable (cmd) in
theorem makeRequestEvents_draws :
    Draws given [] (ca.makeRequestEvents env entitlement rc) (tokensAll cmd) :=
  .lift fun _ _ => KeyState.makeEntitlementEvents_draws laws

 in
theorem requestForEntitlements_draws :
    Draws given [] (ca.requestForEntitlements env parent number entitlements) (tokensAll cmd) := by
  induction entitlements generalizing number with
  | nil => exact .pure (.refl _)
  | cons entitlement rest induction =>
    unfold requestForEntitlements
    split
    · refine .bind (makeRequestEvents_draws cmd laws) fun requests => ?_
      refine .bind induction fun others => .pure ?_
      rw [CaEvtDet.tokensAll_append]
      exact .refl _
    · refine .bind (signing_draws laws.createKey) fun key => ?_
      refine .bind (makeRequestEvents_draws cmd laws) fun requests => ?_
      refine .bind induction fun others => .pure ?_
      change ([Token.key key] ++ tokensAll cmd (requests ++ others)).Subperm _
      rw [CaEvtDet.tokensAll_append, ← List.append_assoc]
      exact .refl _

theorem updateEntitlements_draws :
    Draws given [] (ca.updateEntitlements env parent entitlements) (newTokens cmd) := by
  have lost : Draws given [] (ca.removeLostClasses env parent
      (entitlements.map fun ent => ent.className)) (tokensAll cmd) :=
    .mapM fun entry _ => .bindQuiet (KeyState.revoke_draws laws) fun _ => .pure (.refl _)
  refine lost.bind fun removed => ?_
  refine .bind (requestForEntitlements_draws cmd laws) fun requests => returned_draws ?_
  rw [CaEvtDet.tokensAll_append]
  exact .refl _

theorem rollsForRepo_draws : Draws given [] (ca.rollsForRepo env contact) (tokensAll cmd) := by
  unfold rollsForRepo
  split
  · exact .pure (.refl _)
  · refine .guarded fun _ => forEachClass_draws fun _ rc => .guarded fun _ => ?_
    exact keyrollInitiate_draws laws

theorem signWithAll_draws : Draws given [] (signWithAll certs builder) fun _ => [] := by
  induction certs generalizing builder with
  | nil => exact .pure (.refl _)
  | cons entry rest induction =>
    refine .bindQuiet (signing_draws laws.signRta) fun next => ?_
    exact .bindQuiet (signing_draws laws.destroyKey) fun _ => induction

theorem rtaSignWithEe_draws {resources : ResourceSet} :
    Draws given [] (ca.rtaSignWithEe env name resources rcEe builder) (newTokens cmd) :=
  .bindQuiet (signWithAll_draws laws) fun _ => returned_draws (.refl _)

theorem rtaSign_draws : Draws given [] (ca.rtaSign env name request) (newTokens cmd) := by
  refine .guarded fun _ => .bindQuiet (.guarded fun _ => ?_) fun ⟨rcEe, keys⟩ => ?_
  · refine .bindQuiet (.mapMQuiet fun entry _ => ?_) fun certs => .pure (.refl _)
    refine .bind (signing_draws laws.createKey) fun key => ?_
    exact .bindQuiet (createRtaEe_draws laws) fun ee => .pure List.nil_subperm
  · dsimp only
    split
    · exact .throw _
    · exact rtaSignWithEe_draws laws

theorem rtaCosign_draws : Draws given [] (ca.rtaCosign env name rta) (newTokens cmd) := by
  unfold rtaCosign
  split
  · exact .throw _
  · refine .bindQuiet (.lift fun prepared _ => .guarded fun _ => ?_) fun rcEe =>
      rtaSignWithEe_draws laws
    refine .bindQuiet (.mapMQuiet fun entry _ => .guarded fun _ => ?_) fun certs => .pure (.refl _)
    split
    · exact .throw _
    · split
      · exact .throw _
      · refine .guarded fun _ => ?_
        exact .bindQuiet (createRtaEe_draws laws) fun ee => .pure (.refl _)

theorem rtaMultiPrep_draws : Draws given [] (ca.rtaMultiPrep env name request) (newTokens cmd) := by
  refine .guarded fun _ => .guarded fun _ => ?_
  refine .bindQuiet (.mapMQuiet fun entry _ => ?_) fun keys => returned_draws (.refl _)
  exact .bind (signing_draws laws.createKey) fun key => .pure List.nil_subperm

omit laws in
theorem accepted_draws {accepted : Except Error (List CaEvt)}
    (nothing : ∀ {events}, accepted = .ok events →
      ∀ event ∈ events.map StoredEvent.details, event.tokens cmd = []) :
    Draws given [] (liftExcept accepted : SignM (List CaEvt)) (newTokens cmd) := by
  intro start before after events earlier ran
  obtain ⟨same, rfl⟩ := liftExcept_eq_ok.mp ran
  rw [newTokens, CaEvtDet.tokensAll_eq_nil (nothing same)]
  exact earlier

omit laws in
theorem quiet_draws {accepted : Except Error (List CaEvt)}
    (quiet : ∀ {events}, accepted = .ok events → Quiet cmd (events.map StoredEvent.details)) :
    Draws given [] (liftExcept accepted : SignM (List CaEvt)) (newTokens cmd) :=
  accepted_draws fun same event member =>
    CaEvtDet.tokens_of_quiet (quiet same event member).1 (quiet same event member).2.1

omit laws [KrillSigner] in
theorem shift_tokens (shift : Shift ca env child cmd details) :
    ∀ event ∈ details, event.tokens cmd = [] := by
  cases shift with
  | nothing => exact List.forall_mem_nil _
  | keys known shifted quiet sound =>
    refine List.forall_mem_append.mpr ⟨fun event member => ?_, fun event member =>
      CaEvtDet.tokens_of_quiet (quiet event member).1 (quiet event member).2.1⟩
    obtain ⟨⟨rcn, rc⟩, _, selected⟩ := List.mem_filterMap.mp member
    dsimp only at selected
    split at selected <;> cases selected
    change ChildCertificateUpdates.tokens _ _ = []
    obtain ⟨issued, _, suspended, _⟩ := shifted rc (ChildDetails.issued _ env.order rcn)
    unfold ChildCertificateUpdates.tokens
    rw [issued]
    cases isSuspension : cmd.isSuspension with
    | true => rfl
    | false =>
      refine List.map_eq_nil_iff.mpr (List.eq_nil_iff_forall_not_mem.mpr fun cert member => ?_)
      obtain ⟨⟨_, rfl⟩, _⟩ := suspended cert member
      cases isSuspension

/-- The keys and serial numbers in the events of a command were not given out before, and
no two of them are the same. -/
theorem processCommand_draws : Draws given [] (ca.processCommand env cmd) (newTokens cmd) := by
  cases cmd with
  | makeTrustAnchor => exact trustAnchorMake_draws laws
  | childAdd => exact quiet_draws fun accepted => (childAdd_settled accepted).quiet
  | childUpdateResources => exact quiet_draws fun accepted => (childUpdateResources_settled accepted).quiet
  | childUpdateId => exact quiet_draws fun accepted => (childUpdateIdCert_settled accepted).quiet
  | childCertify => exact childCertify_draws laws rfl
  | childRevokeKey =>
    refine accepted_draws fun accepted => ?_
    rw [(childRevokeKey_eq_ok accepted).2]
    exact List.forall_mem_cons.mpr ⟨rfl, List.forall_mem_singleton.mpr rfl⟩
  | childRemove => exact accepted_draws fun accepted => shift_tokens (childRemove_shift accepted)
  | childSuspendInactive =>
    exact accepted_draws fun accepted => shift_tokens (childSuspendInactive_shift accepted)
  | childUnsuspend =>
    exact accepted_draws fun accepted => shift_tokens (childUnsuspend_shift accepted)
  | generateNewIdKey =>
    exact .bindQuiet (signing_draws laws.createSelfSignedIdCert) fun _ => returned_draws (.refl _)
  | addParent => exact quiet_draws fun accepted => (addParent_settled accepted).quiet
  | updateParentContact => exact quiet_draws fun accepted => (updateParent_settled accepted).quiet
  | removeParent =>
    refine accepted_draws fun accepted => ?_
    obtain ⟨_, accepted⟩ := Fallible.ite_error_eq_ok.mp accepted
    cases accepted
    rw [details_eventsFromDetails]
    refine List.forall_mem_append.mpr ⟨fun event member => ?_, List.forall_mem_singleton.mpr rfl⟩
    obtain ⟨entry, _, rfl⟩ := List.mem_map.mp member
    rfl
  | updateEntitlements => exact updateEntitlements_draws laws
  | updateRcvdCert =>
    refine .lift fun rc _ => ?_
    exact events_draws (ResourceClass.updateReceivedCert_draws laws) fun _ => rfl
  | dropResourceClass =>
    refine .lift fun rc _ => .bindQuiet (KeyState.revoke_draws laws) fun requests => ?_
    exact returned_draws (.refl _)
  | keyRollInitiate =>
    change Draws given [] (ca.keyrollInitiate env _) _
    unfold keyrollInitiate
    split
    · exact .pure (.refl _)
    · refine events_draws (forEachClass_draws fun _ rc => .lift fun contact _ => ?_) fun _ => rfl
      exact keyrollInitiate_draws laws
  | keyRollActivate =>
    change Draws given [] (ca.keyrollActivate env _ _) _
    unfold keyrollActivate
    split
    · exact .pure (.refl _)
    · exact events_draws (forEachClass_draws fun _ _ =>
        ResourceClass.keyrollActivate_draws laws) fun _ => rfl
  | keyRollFinish =>
    refine accepted_draws fun accepted => ?_
    unfold keyrollFinish at accepted
    split at accepted
    · cases accepted
      exact List.forall_mem_nil _
    · obtain ⟨rc, found, accepted⟩ := Fallible.bind_eq_ok.mp accepted
      obtain ⟨event, finished, accepted⟩ := Fallible.bind_eq_ok.mp accepted
      cases accepted
      unfold ResourceClass.keyrollFinish at finished
      split at finished <;> cases finished
      exact List.forall_mem_singleton.mpr rfl
  | routeAuthorizationsUpdate => exact routeAuthorizationsUpdate_draws laws
  | routeAuthorizationsRenew | routeAuthorizationsForceRenew =>
    exact routeAuthorizationsRenew_draws laws
  | aspasUpdate => exact aspasDefinitionsUpdate_draws laws
  | aspasUpdateExisting => exact aspasUpdate_draws laws
  | aspasRenew => exact aspasRenew_draws laws
  | bgpSecUpdateDefinitions => exact bgpsecDefinitionsUpdate_draws laws
  | bgpSecRenew => exact bgpsecRenew_draws laws
  | repoUpdate =>
    exact events_draws (rollsForRepo_draws laws) fun rolls =>
      CaEvtDet.tokensAll_append_quiet rolls (List.forall_mem_singleton.mpr rfl)
  | rtaMultiPrepare => exact rtaMultiPrep_draws laws
  | rtaCoSign => exact rtaCosign_draws laws
  | rtaSign => exact rtaSign_draws laws

theorem processCommand_drawn (ran : ca.processCommand env cmd before = .ok events after) :
    Drawn given before after (tokensAll cmd (events.map StoredEvent.details)) :=
  (processCommand_draws laws).drawn ran

end CertAuth

end Krill.Ca
