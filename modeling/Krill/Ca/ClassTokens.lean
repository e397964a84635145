import Krill.Ca.DrawnTokens
import Krill.Ca.ClassRuns

namespace Krill.Ca

open Rpki KrillSigner

variable [Rpki]

namespace CaEvtDet

def tokensAll (cmd : CmdDet) (events : List CaEvtDet) : List Token :=
  events.flatMap (tokens cmd)

theorem tokensAll_append (first second : List CaEvtDet) :
    tokensAll cmd (first ++ second) = tokensAll cmd first ++ tokensAll cmd second :=
  List.flatMap_append

theorem tokensAll_eq_nil {events : List CaEvtDet}
    (nothing : ∀ event ∈ events, event.tokens cmd = []) : tokensAll cmd events = [] :=
  List.flatMap_eq_nil_iff.mpr nothing

theorem tokensAll_append_quiet (first : List CaEvtDet)
    (nothing : ∀ event ∈ quiet, event.tokens cmd = []) :
    tokensAll cmd (first ++ quiet) = tokensAll cmd first := by
  rw [tokensAll_append, tokensAll_eq_nil nothing, List.append_nil]

theorem tokensAll_quiet_append (nothing : ∀ event ∈ quiet, event.tokens cmd = [])
    (second : List CaEvtDet) :
    tokensAll cmd (quiet ++ second) = tokensAll cmd second := by
  rw [tokensAll_append, tokensAll_eq_nil nothing, List.nil_append]

variable {event : CaEvtDet}

theorem tokens_of_quiet (plain : event.isPlain) (untargeted : event.target = none) :
    event.tokens cmd = [] := by
  cases event <;> first | rfl | exact Bool.noConfusion plain | cases untargeted

theorem tokens_of_isConfig (config : event.isConfig = true) : event.tokens cmd = [] := by
  cases event <;> first | rfl | cases config

variable (rcn : ResourceClassName)

theorem tokensAll_roas (updates : RoaUpdates) :
    (tokensAll cmd (updates.events rcn)).Subperm updates.tokens := by
  unfold RoaUpdates.events
  split
  · rw [tokensAll, List.flatMap_singleton]
    exact .refl _
  · exact List.nil_subperm

theorem tokensAll_aspas (updates : AspaObjectsUpdates) :
    (tokensAll cmd (updates.events rcn)).Subperm updates.tokens := by
  unfold AspaObjectsUpdates.events
  split
  · rw [tokensAll, List.flatMap_singleton]
    exact .refl _
  · exact List.nil_subperm

theorem tokensAll_bgpsecs (updates : BgpSecCertificateUpdates) :
    (tokensAll cmd (updates.events rcn)).Subperm updates.tokens := by
  unfold BgpSecCertificateUpdates.events
  split
  · rw [tokensAll, List.flatMap_singleton]
    exact .refl _
  · exact List.nil_subperm

theorem tokensAll_certs (updates : ChildCertificateUpdates) :
    (tokensAll cmd (updates.events rcn)).Subperm (updates.tokens (!cmd.isSuspension)) := by
  unfold ChildCertificateUpdates.events
  split
  · exact List.nil_subperm
  · rw [tokensAll, List.flatMap_singleton]
    exact .refl _

end CaEvtDet

open CaEvtDet (tokensAll)

variable [KrillSigner] {given : Signer → Token → Prop} (laws : SignerLaws given)
  {env : Surroundings} {config : Config} {cmd : CmdDet}

include laws

namespace KeyState

theorem revokeKey_draws : Draws given [] (revokeKey className key) fun _ => [] :=
  .bindQuiet (keyInfo_draws laws key) fun _ => .pure (.refl _)

variable {state : KeyState}

theorem revoke_draws : Draws given [] (state.revoke className) fun _ => [] := by
  cases state with
  | pending => exact .pure (.refl _)
  | active | rollPending | rollOld =>
    exact .bindQuiet (revokeKey_draws laws) fun _ => .pure (.refl _)
  | rollNew =>
    refine .bindQuiet (revokeKey_draws laws) fun revokeNew => ?_
    exact .bindQuiet (revokeKey_draws laws) fun revokeCurrent => .pure (.refl _)

theorem createIssuanceReq_draws :
    Draws given [] (createIssuanceReq repo nameSpace className key) fun _ => [] := by
  refine .bindQuiet (.bindQuiet (keyInfo_draws laws key) fun info => ?_) fun csr =>
    .pure (.refl _)
  exact .bindQuiet (signing_draws laws.sign) fun _ => .pure (.refl _)

theorem makeEntitlementEvents_draws {rcn : ResourceClassName}
    {entitlement : ResourceClassEntitlements} :
    Draws given [] (state.makeEntitlementEvents env rcn entitlement repo nameSpace)
      (tokensAll cmd) := by
  have requests (item : RepoInfo × KeyIdentifier) : Draws given [] (do
      let request ← createIssuanceReq item.1 nameSpace entitlement.className item.2
      return .certificateRequested rcn request item.2) (CaEvtDet.tokens cmd) :=
    .bindQuiet (createIssuanceReq_draws laws) fun _ => .pure (.refl _)
  refine .bind (.mapM fun item _ => requests item) fun requested => .pure ?_
  rw [CaEvtDet.tokensAll_append_quiet requested fun event member => by
    obtain ⟨key, _, rfl⟩ := List.mem_map.mp member
    rfl]
  exact .refl _

theorem keyrollInitiate_draws {rcn parentRcn : ResourceClassName} :
    Draws given [] (state.keyrollInitiate rcn parentRcn repo nameSpace) (tokensAll cmd) := by
  unfold keyrollInitiate
  cases state with
  | active current =>
    refine .bind (signing_draws laws.createKey) fun key => ?_
    exact .bindQuiet (createIssuanceReq_draws laws) fun request => .pure (.refl _)
  | _ => exact .pure (.refl _)

end KeyState

namespace ResourceClass

variable {rc : ResourceClass}

theorem updateObjects_draws {key : CertifiedKey} {taken : List Token} {event : CaEvtDet}
    {others : List CaEvtDet} (nothing : event.tokens cmd = [])
    (earlier : (tokensAll cmd others).Subperm taken) :
    Draws given taken (do
      let roas ← rc.roas.update env routes key config
      let aspas ← rc.aspas.update env aspaDefs key config
      let bgpsecs ← rc.bgpsecCertificates.update env bgpsecDefs key config
      return event :: (others ++ roas.events rc.name ++ aspas.events rc.name ++
        bgpsecs.events rc.name)) (tokensAll cmd) := by
  refine .bind (Roas.update_draws laws) fun roas => ?_
  refine .bind (AspaObjects.made_draws laws) fun aspas => ?_
  refine .bind (BgpSecCertificates.made_draws laws) fun bgpsecs => .pure ?_
  rw [tokensAll, List.flatMap_cons, nothing, List.nil_append, ← tokensAll,
    CaEvtDet.tokensAll_append, CaEvtDet.tokensAll_append, CaEvtDet.tokensAll_append]
  exact ((earlier.append (CaEvtDet.tokensAll_roas _ _)).append
    (CaEvtDet.tokensAll_aspas _ _)).append (CaEvtDet.tokensAll_bgpsecs _ _)

theorem updateRcvdCertCurrent_draws {current : CurrentKey} :
    Draws given [] (rc.updateRcvdCertCurrent env current cert routes aspaDefs bgpsecDefs config)
      (tokensAll cmd) := by
  refine .guarded fun _ => ?_
  split
  · exact .pure (.refl _)
  · refine .bind (ChildCertificates.shrinkOverclaiming_draws laws (!cmd.isSuspension))
      fun certs => ?_
    exact updateObjects_draws laws rfl (CaEvtDet.tokensAll_certs _ certs)

theorem updateReceivedCert_draws :
    Draws given [] (rc.updateReceivedCert env cert routes aspaDefs bgpsecDefs config)
      (tokensAll cmd) := by
  dsimp only [updateReceivedCert]
  split
  · refine .guarded fun _ => ?_
    exact @updateObjects_draws _ _ _ laws _ _ cmd rc _ _ _ _ [] _ [] rfl (.refl _)
  · exact updateRcvdCertCurrent_draws laws
  · split
    · exact .pure (.refl _)
    · exact updateRcvdCertCurrent_draws laws
  · split
    · exact .pure (.refl _)
    · exact updateRcvdCertCurrent_draws laws
  · exact updateRcvdCertCurrent_draws laws

variable (cmd) in
theorem activation_draws {state : KeyState} {rcn parentRcn : ResourceClassName} :
    Draws given [] (state.keyrollActivate rcn parentRcn) (CaEvtDet.tokens cmd) := by
  cases state with
  | rollNew new current => exact .bindQuiet (KeyState.revokeKey_draws laws) fun _ => .pure (.refl _)
  | _ => exact .throw _

theorem keyrollActivate_draws {stagingTime : Int} :
    Draws given [] (rc.keyrollActivate env stagingTime timing) (tokensAll cmd) := by
  unfold keyrollActivate
  split
  · exact .pure (.refl _)
  · split
    · exact .pure (.refl _)
    · refine .bind (activation_draws laws cmd) fun activated => ?_
      refine .bind (Roas.renew_draws laws) fun roas => ?_
      refine .bind (AspaObjects.made_draws laws) fun aspas => ?_
      refine .bind (ChildCertificates.activateKey_draws laws (!cmd.isSuspension)) fun certs => ?_
      refine .bind (BgpSecCertificates.made_draws laws) fun bgpsecs => .pure ?_
      rw [tokensAll, List.flatMap_cons, ← tokensAll, CaEvtDet.tokensAll_append,
        CaEvtDet.tokensAll_append, CaEvtDet.tokensAll_append, ← List.append_assoc,
        ← List.append_assoc, ← List.append_assoc]
      exact ((((List.Subperm.refl _).append (CaEvtDet.tokensAll_roas _ _)).append
        (CaEvtDet.tokensAll_aspas _ _)).append (CaEvtDet.tokensAll_certs _ _)).append
        (CaEvtDet.tokensAll_bgpsecs _ _)

theorem keyrollInitiate_draws {repo : RepoInfo} {duration : Int} :
    Draws given [] (rc.keyrollInitiate env repo duration) (tokensAll cmd) := by
  unfold keyrollInitiate
  split
  · exact .pure (.refl _)
  · exact KeyState.keyrollInitiate_draws laws

omit laws in
theorem underKey_draws {U : Type} {program : CurrentKey → SignM U} {idle : U}
    {tokensOf : U → List Token} {eventsOf : U → List CaEvtDet}
    (made : ∀ key, Draws given [] (program key) tokensOf) (nothing : tokensOf idle = [])
    (covered : ∀ updates, (tokensAll cmd (eventsOf updates)).Subperm (tokensOf updates))
    (key : Option CurrentKey) :
    Draws given [] (do
      let updates ← (match key with
        | some key => program key
        | none => pure idle : SignM U)
      return eventsOf updates) (tokensAll cmd) := by
  refine .bind ?_ fun updates => .pure (covered updates)
  cases key with
  | some key => exact made key
  | none => exact .pure (nothing ▸ .refl _)

theorem createRtaEe_draws {resources : ResourceSet} {validity : Validity} {key : KeyIdentifier} :
    Draws given [] (rc.createRtaEe resources validity key) fun _ => [] := by
  unfold createRtaEe
  split
  · split
    · refine .bindQuiet (keyInfo_draws laws key) fun info => ?_
      refine .bind (signing_draws laws.randomSerial) fun serial => ?_
      exact .bindQuiet (signing_draws laws.sign) fun _ => .pure List.nil_subperm
    · exact .throw _
  · exact .throw _

end ResourceClass

end Krill.Ca
