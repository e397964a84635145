import Krill.Ca.CommandSpec
import Krill.Ca.Numbered

namespace Krill.Ca

open KrillSigner
open Stateful (Yields)
open StoredEvent (details)

variable [Rpki]

/-! Applying the events of an accepted command. Two commands can lead to a panic: the
revocation of a key in a class that does not exist, and ASPA definitions that are removed
and changed at once. -/

namespace CertAuth

variable {ca : CertAuth}

theorem childRevokeKey_sound (accepted : ca.childRevokeKey child request = .ok events)
    (certified : ca.HasCurrentKey request.className) : SoundAll later ca (events.map details) := by
  obtain ⟨known, same⟩ := childRevokeKey_eq_ok accepted
  rw [same]
  refine ⟨⟨known, certified⟩, fun next done => soundAll_singleton ?_⟩
  obtain ⟨rc, found, held⟩ := certified
  obtain ⟨_, _, present, _, rfl⟩ := applyDetails_childKeyRevoked.mp done
  cases found.symm.trans present
  exact sound_of_target rfl (HashMap.get_insert_self _ _ _) held

theorem childRevokeKey_applies_iff (accepted : ca.childRevokeKey child request = .ok events) :
    (∃ last, ca.applyNextAll later (events.map details) = some last) ↔
      ca.resources.containsKey request.className := by
  obtain ⟨known, same⟩ := childRevokeKey_eq_ok accepted
  rw [same]
  constructor
  · intro applied
    obtain ⟨last, applied⟩ := applied
    obtain ⟨next, done, _⟩ := applyNextAll_cons.mp applied
    obtain ⟨rc, details, found, _⟩ := applyDetails_childKeyRevoked.mp done
    exact Option.isSome_of_eq_some found
  · intro present
    obtain ⟨rc, found⟩ := Option.isSome_iff_exists.mp present
    obtain ⟨details, foundChild⟩ := Option.isSome_iff_exists.mp known
    obtain ⟨next, revoked, remains⟩ : ∃ next, ca.applyNext later
        (.childKeyRevoked child request.className request.key) = some next ∧
        next.resources.get request.className = some (rc.keyRevoked request.key) :=
      ⟨_, applyDetails_childKeyRevoked.mpr ⟨rc, details, found, foundChild, rfl⟩,
        HashMap.get_insert_self _ _ _⟩
    obtain ⟨last, updated⟩ : ∃ last, next.applyNext later
        (.childCertificatesUpdated request.className
          (ChildCertificateUpdates.default.remove request.key)) = some last :=
      ⟨_, (applyDetails_target_eq_some rfl).mpr ⟨_, _, remains, rfl, rfl⟩⟩
    exact ⟨last, applyNextAll_cons.mpr ⟨next, revoked,
      applyNextAll_cons.mpr ⟨last, updated, rfl⟩⟩⟩

section Signing

variable [KrillSigner]

theorem safe_of_applied (yields : Yields (ca.aspasDefinitionsUpdate env updates config) events)
    (applied : ca.applyNextAll later (events.map details) = some last) :
    (CmdDet.aspasUpdate updates config).Safe ca := by
  obtain ⟨objects, same⟩ := aspasDefinitionsUpdate_yields yields
  rw [same] at applied
  obtain ⟨middle, applied, _⟩ := applyNextAll_append.mp applied
  obtain ⟨start, gone, applied⟩ := applyNextAll_append.mp applied
  intro aspaConfig member inRemove existing found
  refine containsChanges_providersUpdate.mp (Bool.eq_false_iff.mpr fun changes => ?_)
  have listed : .aspaConfigUpdated aspaConfig.customer (providersUpdate existing aspaConfig) ∈
      updates.addOrReplace.flatMap ca.aspaConfigEvents := by
    refine List.mem_flatMap.mpr ⟨aspaConfig, member, ?_⟩
    unfold aspaConfigEvents
    rw [found]
    dsimp only
    rw [if_pos changes]
    exact List.mem_singleton_self _
  obtain ⟨before, next, holds, done⟩ := exists_applied _
    (fun customer defined => by rw [has_of_removals gone, and_iff_right defined])
    (fun event member before next holds => has_of_additions member holds) applied listed
  obtain ⟨aspas, updated, rfl⟩ := Option.map_eq_some_iff.mp done
  obtain ⟨current, present, rfl⟩ := Option.map_eq_some_iff.mp updated
  exact (holds aspaConfig.customer (Option.isSome_of_eq_some found)).mp
    (Option.isSome_of_eq_some present) inRemove

theorem processCommand_sound (consistent : ca.Consistent) (inPlace : cmd.InPlace ca)
    (yields : Yields (ca.processCommand env cmd) events) (later : Surroundings) :
    SoundAll later ca (events.map details) := by
  cases plain : cmd.isPlain with
  | true => exact (processCommand_ordered consistent plain yields).sound inPlace later
  | false =>
    cases cmd with
    | makeTrustAnchor =>
      obtain ⟨_, taCertDetails, same⟩ := trustAnchorMake_yields yields
      rw [same]
      exact soundAll_singleton fun _ targeted => nomatch targeted
    | childRevokeKey => exact childRevokeKey_sound yields.liftExcept inPlace
    | removeParent => exact removeParent_sound yields.liftExcept later
    | updateEntitlements => exact updateEntitlements_sound consistent yields later
    | dropResourceClass rcn reason =>
      have dropped : Yields (ca.dropResourceClass rcn reason) events := yields
      exact dropResourceClass_sound dropped later
    | repoUpdate =>
      obtain ⟨rolls, rolled, same⟩ := updateRepo_yields yields
      rw [same]
      refine soundAll_append ((rollsForRepo_ordered consistent rolled).sound trivial later) ?_
      exact fun _ _ => soundAll_singleton fun _ targeted => nomatch targeted
    | _ => cases plain

theorem inPlace_of_applied (yields : Yields (ca.processCommand env cmd) events)
    (applied : ca.applyNextAll later (events.map details) = some last) :
    cmd.InPlace ca ∨ ∃ child request, cmd = .childRevokeKey child request := by
  cases cmd with
  | childRevokeKey child request => exact .inr ⟨child, request, rfl⟩
  | aspasUpdate => exact .inl (safe_of_applied yields applied)
  | _ => exact .inl trivial

theorem processCommand_orderly (consistent : ca.Consistent)
    (yields : Yields (ca.processCommand env cmd) events)
    (applied : ca.applyNextAll later (events.map details) = some last) :
    OrderlyAll later ca (events.map details) := by
  obtain inPlace | ⟨child, request, rfl⟩ := inPlace_of_applied yields applied
  · exact (processCommand_sound consistent inPlace yields later).orderly
  · rw [(childRevokeKey_eq_ok yields.liftExcept).2]
    exact ⟨trivial, fun _ _ => ⟨trivial, fun _ _ => trivial⟩⟩

end Signing

/-- The states of a CA: it accepts one command after the other, and the events of each are
applied. The signer and the surroundings may be any at every command. -/
inductive Reachable [KrillSigner] : CertAuth → Prop
  | init (handle : CaHandle) (id : Rfc8183Id) : Reachable (.init handle id)
  | step {ca next : CertAuth} {env later : Surroundings} {cmd : CmdDet} {events : List CaEvt}
      {signer used : Signer} (reachable : Reachable ca)
      (accepted : ca.processCommand env cmd signer = .ok events used)
      (applied : ca.applyAll later events = some next) : Reachable next

theorem Reachable.consistent [KrillSigner] (reachable : Reachable ca) : ca.Consistent := by
  induction reachable with
  | init handle id => exact init_consistent handle id
  | step _ accepted applied induction =>
    rw [applyAll_eq] at applied
    exact induction.applyNextAll (processCommand_orderly induction ⟨_, _, accepted⟩ applied) applied

/-- The events of an accepted command can be applied without a panic if, and only if, the
command revokes a key in a class that exists, and changes no ASPA definition that it
removes. -/
theorem accepted_events_apply_iff [KrillSigner] {ca : CertAuth} (reachable : Reachable ca)
    {env : Surroundings} {cmd : CmdDet} {events : List CaEvt} {signer used : Signer}
    (accepted : ca.processCommand env cmd signer = .ok events used) (later : Surroundings) :
    (∃ last, ca.applyAll later events = some last) ↔ cmd.Safe ca := by
  have yields : Yields (ca.processCommand env cmd) events := ⟨_, _, accepted⟩
  simp only [applyAll_eq]
  have otherwise (inPlace : cmd.InPlace ca) (safe : cmd.Safe ca) :
      (∃ last, ca.applyNextAll later (events.map details) = some last) ↔
        cmd.Safe ca :=
    iff_of_true (processCommand_sound reachable.consistent inPlace yields later).applied safe
  cases cmd with
  | childRevokeKey => exact childRevokeKey_applies_iff yields.liftExcept
  | aspasUpdate =>
    refine ⟨fun applied => ?_, fun safe => (otherwise safe safe).mpr safe⟩
    obtain ⟨last, applied⟩ := applied
    exact safe_of_applied yields applied
  | _ => exact otherwise trivial trivial

/-- Accept commands one after the other. There is no value if one of them fails. -/
def replay [KrillSigner] (env : Surroundings) (ca : CertAuth) (signer : Signer) :
    List CmdDet → Option (CertAuth × Signer)
  | [] => some (ca, signer)
  | cmd :: rest =>
    match ca.processCommand env cmd signer with
    | .ok events used =>
      match ca.applyAll env events with
      | some next => replay env next used rest
      | none => none
    | .error _ _ => none

section Replay

variable [KrillSigner]

theorem replay_cons : ca.replay env signer (cmd :: cmds) = some last ↔
    ∃ events used next, ca.processCommand env cmd signer = .ok events used ∧
      ca.applyAll env events = some next ∧ next.replay env used cmds = some last := by
  rw [replay]
  cases ca.processCommand env cmd signer with
  | error => simp
  | ok events used => cases applied : ca.applyAll env events <;> simp [applied]

theorem holds_of_replay (holds : CertAuth → Prop) (initially : holds ca)
    (step : ∀ cmd ∈ cmds, ∀ {ca next signer events used}, holds ca →
      ca.processCommand env cmd signer = .ok events used →
      ca.applyAll env events = some next → holds next)
    (replayed : ca.replay env signer cmds = some last) : holds last.1 := by
  induction cmds generalizing ca signer with
  | nil => cases replayed; exact initially
  | cons cmd rest induction =>
    obtain ⟨events, used, next, accepted, applied, replayed⟩ := replay_cons.mp replayed
    exact induction (step cmd List.mem_cons_self initially accepted applied)
      (fun cmd member => step cmd (List.mem_cons_of_mem _ member)) replayed

theorem Reachable.replay (reachable : Reachable ca)
    (replayed : ca.replay env signer cmds = some last) : Reachable last.1 :=
  holds_of_replay Reachable reachable (fun _ _ _ _ _ _ _ held => held.step) replayed

theorem accepted_of_replay (replayed : (ca.replay env signer [cmd]).isSome) :
    ∃ events used last, ca.processCommand env cmd signer = .ok events used ∧
      ca.applyAll env events = some last := by
  obtain ⟨_, replayed⟩ := Option.isSome_iff_exists.mp replayed
  obtain ⟨events, used, next, accepted, applied, _⟩ := replay_cons.mp replayed
  exact ⟨events, used, next, accepted, applied⟩

end Replay

end CertAuth

end Krill.Ca

namespace Krill.Ca.Numbered

open CertAuth

def start : CertAuth := .init "ca" { cert := (0 : Nat) }

def certify : List CmdDet :=
  [.repoUpdate (contact 0), .makeTrustAnchor [] (), .updateRcvdCert "0" (received 0 255) config,
   .childAdd "child" (0 : Nat) (7 : Nat), .childCertify "child" (request "0" 50) config]

def certified : CertAuth × Nat := (start.replay env (0 : Nat) certify).get (by decide)

theorem certified_reachable : Reachable certified.1 :=
  (Reachable.init _ _).replay (Option.some_get (by decide)).symm

def revocation (rcn : ResourceClassName) : CmdDet := .childRevokeKey "child" ⟨rcn, (50 : Nat)⟩

theorem revocation_in_own_class_applies :
    ∃ events used, certified.1.processCommand env (revocation "0") certified.2 =
      .ok events used ∧ ∃ last, certified.1.applyAll env events = some last := by
  have accepted : certified.1.processCommand env (revocation "0") certified.2 = .ok _ _ := rfl
  have safe : (revocation "0").Safe certified.1 := by
    change certified.1.resources.containsKey "0" = true
    decide
  exact ⟨_, _, accepted, (accepted_events_apply_iff certified_reachable accepted env).mpr safe⟩

/-- The child gives the class "1" in its request, which the parent does not have. -/
theorem revocation_in_unknown_class_panics :
    ∃ (ca : CertAuth) (signer used : Nat) (events : List CaEvt), Reachable ca ∧
      ca.processCommand env (revocation "1") signer = .ok events used ∧
      ca.applyAll env events = none :=
  ⟨certified.1, certified.2, _, _, certified_reachable, rfl, rfl⟩

/-- The definition for AS 1 is removed and given with another provider at once. -/
example : (start.replay env (0 : Nat) (certify ++
      [.aspasUpdate ⟨[⟨1, [⟨2, none⟩]⟩], []⟩ config])).isSome ∧
    (start.replay env (0 : Nat) (certify ++ [.aspasUpdate ⟨[⟨1, [⟨2, none⟩]⟩], []⟩ config,
       .aspasUpdate ⟨[⟨1, [⟨3, none⟩]⟩], [1]⟩ config])).isSome = false := by
  decide

end Krill.Ca.Numbered
