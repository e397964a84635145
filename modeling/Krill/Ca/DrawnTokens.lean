import Krill.Data.Drawn
import Krill.Ca.ProcessCommand

namespace Krill.Ca

open Rpki KrillSigner

variable [Rpki]

inductive Token where
  | key (id : KeyIdentifier)
  | serial (serial : Serial)

def RoaUpdates.tokens (self : RoaUpdates) : List Token :=
  (self.updated.values.map fun info => .serial info.serial) ++
    self.aggregateUpdated.values.map fun info => .serial info.serial

def AspaObjectsUpdates.tokens (self : AspaObjectsUpdates) : List Token :=
  self.updated.map fun info => .serial info.serial

def BgpSecCertificateUpdates.tokens (self : BgpSecCertificateUpdates) : List Token :=
  self.updated.map fun cert => .serial cert.serial

/-- The certificates that are new, among them those that are suspended from the start. -/
def ChildCertificateUpdates.tokens (self : ChildCertificateUpdates) (withSuspended : Bool) :
    List Token :=
  (self.issued ++ if withSuspended then self.suspended else []).map fun cert =>
    .serial cert.serial

/-- Whether the certificates that the command suspends are ones that were issued before. -/
def CmdDet.isSuspension : CmdDet → Bool
  | .childSuspendInactive _ => true
  | _ => false

def CaEvtDet.tokens (cmd : CmdDet) : CaEvtDet → List Token
  | .trustAnchorMade details => [.key details.cert.keyIdentifier]
  | .resourceClassAdded _ _ _ pendingKey => [.key pendingKey]
  | .keyRollPendingKeyAdded _ pendingKey => [.key pendingKey]
  | .roasUpdated _ updates => updates.tokens
  | .aspaObjectsUpdated _ updates => updates.tokens
  | .bgpSecCertificatesUpdated _ updates => updates.tokens
  | .childCertificatesUpdated _ updates => updates.tokens (!cmd.isSuspension)
  | _ => []

variable [KrillSigner]

/-- A signer that makes new keys and serial numbers only, and knows the keys it made. -/
structure SignerLaws (given : Signer → Token → Prop) : Prop where
  createKey : ∀ {before after key}, createKey before = .ok key after →
    Drawn given before after [.key key]
  randomSerial : ∀ {before after serial}, randomSerial before = .ok serial after →
    Drawn given before after [.serial serial]
  getKeyInfo : ∀ {key before after info}, getKeyInfo key before = .ok info after →
    keyIdentifier info = key ∧ Drawn given before after []
  sign : ∀ {object key before after base64}, sign object key before = .ok base64 after →
    Drawn given before after []
  createSelfSignedIdCert : ∀ {before after cert},
    createSelfSignedIdCert before = .ok cert after → Drawn given before after []
  signRta : ∀ {builder tbs base64 before after signed},
    signRta builder tbs base64 before = .ok signed after → Drawn given before after []
  destroyKey : ∀ {key before after}, destroyKey key before = .ok () after →
    Drawn given before after []

theorem signing_eq_ok :
    signing action before = .ok value after ↔ action before = .ok value after := by
  unfold signing EStateM.adaptExcept
  cases action before with
  | ok found last =>
    constructor
    · intro same
      cases same
      rfl
    · intro same
      cases same
      rfl
  | error failure last => exact iff_of_false nofun nofun

section Objects

variable {given : Signer → Token → Prop}

theorem signing_draws {own : A → List Token}
    (drawn : ∀ {before after value}, action before = .ok value after →
      Drawn given before after (own value)) : Draws given [] (signing action) own :=
  fun _ _ _ _ earlier ran => earlier.trans (drawn (signing_eq_ok.mp ran))

variable (laws : SignerLaws given)

include laws

theorem keyInfo_draws (key : KeyIdentifier) :
    Draws given [] (signing (getKeyInfo key)) fun _ => [] :=
  signing_draws fun ran => (laws.getKeyInfo ran).2

namespace Roas

theorem makeRoa_draws {validity : Validity} :
    Draws given [] (makeRoa env authorizations name certifiedKey validity)
      fun roa => [.serial roa.serial] := by
  refine .lift fun _ _ => ?_
  refine .bind (signing_draws laws.randomSerial) fun serial => ?_
  exact .bindQuiet (signing_draws laws.sign) fun base64 => .pure (.refl _)

theorem makeSimpleRoa_draws (auth : RoaPayloadJsonMapKey) :
    Draws given [] (makeSimpleRoa env certifiedKey timing auth)
      fun entry => [.serial entry.2.serial] :=
  .bind (makeRoa_draws laws) fun _ => .pure (.refl _)

theorem makeAggregateRoa_draws : Draws given [] (do
      let info ← makeAggregateRoa env key authorizations certifiedKey timing
      return (key, info)) fun entry => [.serial entry.2.serial] :=
  .bind (.bind (makeRoa_draws laws) fun _ => .pure (.refl _)) fun _ => .pure (.refl _)

omit laws [KrillSigner] in
theorem tokens_insertAll [DecidableEq K] (added : List (K × RoaInfo)) :
    ((HashMap.empty.insertAll added).values.map fun info => Token.serial info.serial).Subperm
      (added.flatMap fun entry => [Token.serial entry.2.serial]) := by
  have listed := subperm_map (HashMap.entries_insertAll_subperm added)
    fun entry => Token.serial entry.2.serial
  rw [HashMap.values, List.map_map, ← List.map_eq_flatMap]
  exact listed

omit laws [KrillSigner] in
theorem tokens_subperm {updates : RoaUpdates} (simple : List (RoaPayloadJsonMapKey × RoaInfo))
    (aggregate : List (RoaAggregateKey × RoaInfo))
    (sameSimple : updates.updated = HashMap.empty.insertAll simple)
    (sameAggregate : updates.aggregateUpdated = HashMap.empty.insertAll aggregate) :
    updates.tokens.Subperm ((simple.flatMap fun entry => [Token.serial entry.2.serial]) ++
      aggregate.flatMap fun entry => [Token.serial entry.2.serial]) := by
  rw [RoaUpdates.tokens, sameSimple, sameAggregate]
  exact (tokens_insertAll simple).append (tokens_insertAll aggregate)

variable {roas : Roas}

theorem updateSimple_draws :
    Draws given [] (roas.updateSimple env routes certifiedKey timing) RoaUpdates.tokens := by
  refine .bind (.mapM fun auth _ => makeSimpleRoa_draws laws auth) fun added => .pure ?_
  refine (tokens_subperm added [] rfl rfl).trans ?_
  rw [List.flatMap_nil, List.append_nil]
  exact .refl _

theorem updateAggregate_draws :
    Draws given [] (roas.updateAggregate env routes certifiedKey timing) RoaUpdates.tokens := by
  refine .bind (.mapM fun desired _ => makeAggregateRoa_draws laws) fun added => .pure ?_
  exact tokens_subperm [] added rfl rfl

theorem update_draws :
    Draws given [] (roas.update env routes certifiedKey config) RoaUpdates.tokens := by
  unfold update
  dsimp only
  split
  · exact updateSimple_draws laws
  · exact .bind (updateSimple_draws laws) fun _ => .pure (.refl _)
  · exact .bind (updateAggregate_draws laws) fun _ => .pure (.refl _)
  · exact updateAggregate_draws laws

theorem renew_draws :
    Draws given [] (roas.renew env force certifiedKey timing) RoaUpdates.tokens := by
  refine .bind (.mapM fun entry _ => makeSimpleRoa_draws laws entry.1) fun simple => ?_
  refine .bind (.mapM fun entry _ => makeAggregateRoa_draws laws) fun aggregate => ?_
  exact .pure (tokens_subperm simple aggregate rfl rfl)

end Roas

namespace AspaObjects

theorem makeAspa_draws : Draws given [] (makeAspa env definition certifiedKey timing)
      fun info => [.serial info.serial] := by
  unfold makeAspa
  cases aspaBuilder definition.customer definition.providers with
  | error message => exact .throw _
  | ok =>
    refine .bind (signing_draws laws.randomSerial) fun serial => ?_
    exact .bindQuiet (signing_draws laws.sign) fun base64 => .pure (.refl _)

theorem made_draws {A : Type} {items : List A} {definition : A → AspaDefinition} :
    Draws given [] (do
      let updated ← items.mapM fun item => makeAspa env (definition item) certifiedKey timing
      return { updated, removed }) AspaObjectsUpdates.tokens := by
  refine .bind (.mapM fun _ _ => makeAspa_draws laws) fun updated => .pure ?_
  rw [← List.map_eq_flatMap]
  exact .refl _

end AspaObjects

namespace BgpSecCertificates

theorem makeBgpsecCert_draws : Draws given [] (makeBgpsecCert env asn publicKey certifiedKey timing)
      fun cert => [.serial cert.serial] := by
  refine .bind (signing_draws laws.randomSerial) fun serial => ?_
  exact .bindQuiet (signing_draws laws.sign) fun base64 => .pure (.refl _)

theorem made_draws {A : Type} {items : List A} {asn : A → Asn} {publicKey : A → PublicKey} :
    Draws given [] (do
      let updated ← items.mapM fun item =>
        makeBgpsecCert env (asn item) (publicKey item) certifiedKey timing
      return { updated, removed }) BgpSecCertificateUpdates.tokens := by
  refine .bind (.mapM fun _ _ => makeBgpsecCert_draws laws) fun updated => .pure ?_
  rw [← List.map_eq_flatMap]
  exact .refl _

end BgpSecCertificates

theorem makeIssuedCert_draws :
    Draws given [] (makeIssuedCert env csr resources limit certifiedKey timing)
      fun cert => [.serial cert.serial] := by
  unfold makeIssuedCert
  cases applyTo limit resources with
  | none => exact .throw _
  | some remaining =>
    dsimp only
    split
    · refine .bind (signing_draws laws.randomSerial) fun serial => ?_
      exact .bindQuiet (signing_draws laws.sign) fun base64 => .pure (.refl _)
    · exact .throw _

namespace ChildCertificates

omit laws [KrillSigner] in
theorem tokens_subperm (updates : ChildCertificateUpdates) (withSuspended : Bool) :
    (updates.tokens withSuspended).Subperm
      ((updates.issued.map fun cert => Token.serial cert.serial) ++
        updates.suspended.map fun cert => Token.serial cert.serial) := by
  rw [ChildCertificateUpdates.tokens, List.map_append]
  refine List.Subperm.append (.refl _) ?_
  cases withSuspended with
  | true => exact .refl _
  | false => exact List.nil_subperm

variable {certs : ChildCertificates} (withSuspended : Bool)

theorem activateKey_draws : Draws given [] (certs.activateKey env certifiedKey timing)
    fun updates => updates.tokens withSuspended := by
  refine .bind (.mapM fun _ _ => makeIssuedCert_draws laws) fun issued => ?_
  refine .bind (.mapM fun _ _ => makeIssuedCert_draws laws) fun suspended => .pure ?_
  rw [← List.map_eq_flatMap, ← List.map_eq_flatMap]
  exact tokens_subperm _ withSuspended

theorem shrink_draws (cert : IssuedCertificate) :
    Draws given [] (shrink env certifiedKey timing cert)
      fun shrunk => shrunk.reissuedCert.toList.map fun cert => .serial cert.serial := by
  unfold shrink
  split
  · exact .pure (.refl _)
  · split
    · exact .pure (.refl _)
    · exact .bind (makeIssuedCert_draws laws) fun _ => .pure (.refl _)

theorem shrinkOverclaiming_draws : Draws given [] (certs.shrinkOverclaiming env certifiedKey timing)
      fun updates => updates.tokens withSuspended := by
  have reissued (results : List Shrunk) : (results.flatMap fun shrunk =>
      shrunk.reissuedCert.toList.map fun cert => Token.serial cert.serial) =
        (results.filterMap Shrunk.reissuedCert).map fun cert => Token.serial cert.serial := by
    rw [List.filterMap_eq_flatMap_toList, List.map_flatMap]
  refine .bind (.mapM fun cert _ => shrink_draws laws cert) fun issued => ?_
  refine .bind (.mapM fun cert _ => shrink_draws laws cert) fun suspended => .pure ?_
  rw [reissued, reissued]
  exact tokens_subperm _ withSuspended

end ChildCertificates

end Objects

end Krill.Ca
