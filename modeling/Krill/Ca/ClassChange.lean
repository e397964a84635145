import Krill.Ca.NoPanic

namespace Krill.Ca

open Rpki KrillSigner
open Stateful (Yields)
open CaEvtDet
open HashMap
open ResourceClassName (ofNumber ofNumber_injective)

variable [Rpki] [KrillSigner]

def ResourceClass.Requested (rc : ResourceClass) (ca : CertAuth) (env : Surroundings)
    (own : List CaEvtDet) : Prop :=
  ∀ event ∈ own, ∃ entitlement contact repo key request,
    event = .certificateRequested rc.name request key ∧
    ca.repository = some contact ∧
    (repo, key) ∈ rc.keyState.keysForRequests env entitlement contact.repoInfo ∧
    Yields (KeyState.createIssuanceReq repo rc.nameSpace entitlement.className key) request

/-- The classes that a command leaves, each with the one that was there before. -/
inductive ClassChange (ca : CertAuth) (env later : Surroundings) (rcn : ResourceClassName) :
    CmdDet → Option ResourceClass → ResourceClass → Prop
  | grouped (group : Group ca env rcn rc cmd own)
      (done : onClassAll later own rc = some after) :
      ClassChange ca env later rcn cmd (some rc) after
  | requested (requested : rc.Requested ca env own)
      (done : onClassAll later own rc = some after) :
      ClassChange ca env later rcn (.updateEntitlements parent entitlements) (some rc) after
  | created (requested : (ResourceClass.create later.now rcn rcn parent parentRcn key).Requested
        ca env own) (done : onClassAll later own
        (.create later.now rcn rcn parent parentRcn key) = some after) :
      ClassChange ca env later rcn (.updateEntitlements parent entitlements) none after
  | trustAnchorMade (key : KeyIdentifier) :
      ClassChange ca env later rcn (.makeTrustAnchor uris rsyncUri) none
        (.forTa later.now rcn key)
  | moved (group : Group ca env rcn rc (.repoUpdate contact) own)
      (done : onClassAll later own rc = some after) :
      ClassChange ca env later rcn (.repoUpdate contact) (some rc) (match ca.repository with
        | some existing => after.setOldRepo existing.repoInfo
        | none => after)
  | keyRevoked (named : request.className = rcn) :
      ClassChange ca env later rcn (.childRevokeKey child request) (some rc)
        ((rc.keyRevoked request.key).childCertificatesUpdated
          (ChildCertificateUpdates.default.remove request.key))

namespace CertAuth

variable {ca : CertAuth} {env later : Surroundings}

theorem change_of_same (found : before = some after) :
    ClassChange ca env later rcn cmd before after := by
  rw [found]
  exact .grouped (.nothing cmd) rfl

theorem change_of_run (grouped : Grouped ca env cmd details)
    (applied : ca.applyNextAll later details = some last)
    (found : last.resources.get rcn = some after) :
    ClassChange ca env later rcn cmd (ca.resources.get rcn) after := by
  have run := classRun_of_plain grouped.plain applied rcn
  rw [found] at run
  have group : ∀ {rc}, ca.resources.get rcn = some rc →
      Group ca env rcn rc cmd (about rcn details) := grouped.group
  generalize ca.resources.get rcn = before at run group
  cases run with
  | changed done => exact .grouped (group rfl) done

variable {parent : ParentHandle}

omit [KrillSigner] in
theorem removeParent_change (accepted : ca.removeParent env parent = .ok events)
    (applied : ca.applyNextAll later (events.map StoredEvent.details) = some last)
    (found : last.resources.get rcn = some after) : ca.resources.get rcn = some after := by
  obtain ⟨_, accepted⟩ := Fallible.ite_error_eq_ok.mp accepted
  cases accepted
  rw [details_eventsFromDetails] at applied
  obtain ⟨middle, removed, applied⟩ := applyNextAll_append.mp applied
  have present : middle.resources.get rcn = some after := by
    obtain ⟨_, done, same⟩ := applyNextAll_cons.mp applied
    cases done
    cases same
    exact (Option.filter_eq_some_iff.mp ((get_filter _ _ _).symm.trans found)).1
  refine (get_of_removals (fun event member => ?_) removed present).1
  obtain ⟨entry, _, rfl⟩ := List.mem_map.mp member
  exact ⟨_, _, _, rfl⟩

theorem trustAnchorMake_change (yields : Yields (ca.trustAnchorMake env uris rsyncUri) events)
    (applied : ca.applyNextAll later (events.map StoredEvent.details) = some last)
    (found : last.resources.get rcn = some after) :
    ClassChange ca env later rcn (.makeTrustAnchor uris rsyncUri) (ca.resources.get rcn) after := by
  obtain ⟨nothing, taCertDetails, same⟩ := trustAnchorMake_yields yields
  rw [same] at applied
  obtain ⟨_, done, same⟩ := applyNextAll_cons.mp applied
  cases done
  cases same
  have absent : ca.resources.get rcn = none := isEmpty_iff.mp nothing rcn
  obtain ⟨rfl, rfl⟩ | before := get_insert_eq_some found
  · rw [absent]
    exact .trustAnchorMade _
  · cases absent.symm.trans before

omit [KrillSigner] in
theorem childRevokeKey_classes (accepted : ca.childRevokeKey child request = .ok events)
    (applied : ca.applyNextAll later (events.map StoredEvent.details) = some last) :
    ∃ rc, ca.resources.get request.className = some rc ∧ ∀ rcn, last.resources.get rcn =
      if rcn = request.className then
        some ((rc.keyRevoked request.key).childCertificatesUpdated
          (ChildCertificateUpdates.default.remove request.key))
      else ca.resources.get rcn := by
  obtain ⟨_, same⟩ := childRevokeKey_eq_ok accepted
  rw [same] at applied
  obtain ⟨middle, revoked, applied⟩ := applyNextAll_cons.mp applied
  obtain ⟨_, updated, same⟩ := applyNextAll_cons.mp applied
  cases same
  obtain ⟨rc, details, present, _, rfl⟩ := applyDetails_childKeyRevoked.mp revoked
  obtain ⟨changed, removed, again, done, rfl⟩ := (applyDetails_target_eq_some rfl).mp updated
  rw [onClass_childCertificatesUpdated] at done
  cases done
  cases (get_insert_self _ _ _).symm.trans again
  refine ⟨rc, present, fun rcn => ?_⟩
  change ((ca.resources.insert _ _).insert _ _).get rcn = _
  rw [get_insert]
  split
  · rfl
  · next other => rw [get_insert, if_neg other]

theorem updateRepo_change (consistent : ca.Consistent)
    (yields : Yields (ca.updateRepo env contact) events)
    (applied : ca.applyNextAll later (events.map StoredEvent.details) = some last)
    (found : last.resources.get rcn = some after) :
    ClassChange ca env later rcn (.repoUpdate contact) (ca.resources.get rcn) after := by
  obtain ⟨rolls, rolled, yields⟩ := yields.bind
  cases yields.pure
  rw [details_eventsFromDetails] at applied
  obtain ⟨middle, rolling, applied⟩ := applyNextAll_append.mp applied
  obtain ⟨_, updated, same⟩ := applyNextAll_cons.mp applied
  cases same
  have grouped := rollsForRepo_ordered consistent rolled
  have run := classRun_of_plain grouped.plain rolling rcn
  have group : ∀ {rc}, ca.resources.get rcn = some rc →
      Group ca env rcn rc (.repoUpdate contact) (about rcn rolls) := grouped.group
  cases effect_of_apply updated with
  | repoUpdated classes _ _ _ =>
    rw [classes, Option.map_eq_some_iff] at found
    obtain ⟨between, present, rfl⟩ := found
    change middle.resources.get rcn = some between at present
    rw [present] at run
    generalize ca.resources.get rcn = before at run group
    cases run with
    | changed done =>
      change ClassChange ca env later rcn _ _ (match middle.repository with
        | some current => between.setOldRepo current.repoInfo
        | none => between)
      rw [repository_of_plainAll grouped.plain rolling]
      exact .moved (group rfl) done
  | onClass targeted => cases targeted
  | childChanged unpublished => cases unpublished
  | other unpublished => cases unpublished

omit [KrillSigner] in
theorem repositoryContact_eq_ok (known : ca.repositoryContact = .ok contact) :
    ca.repository = some contact := by
  unfold repositoryContact at known
  split at known
  · next found => cases known; exact found
  · cases known

theorem makeRequestEvents_requested
    (yields : Yields (ca.makeRequestEvents env entitlement rc) details) :
    rc.Requested ca env (about rc.name details) := by
  obtain ⟨contact, known, yields⟩ := yields.bind
  intro event member
  obtain ⟨member, about⟩ := List.mem_filter.mp member
  obtain ⟨repo, key, request, rfl, listed, made⟩ | ⟨revokeReq, rfl⟩ :=
    ResourceClass.makeEntitlementEvents_yields yields event member
  · exact ⟨entitlement, contact, repo, key, request, rfl,
      repositoryContact_eq_ok known.liftExcept, listed, made⟩
  · cases of_decide_eq_true about

omit [KrillSigner] in
theorem isPlain_of_isRequest {event : CaEvtDet} (isRequest : event.IsRequest rcn) :
    event.isPlain := by
  obtain ⟨request, key, rfl⟩ | ⟨revokeReq, rfl⟩ := isRequest <;> rfl

omit [KrillSigner] in
theorem about_requests_other (requests : ∀ event ∈ details, event.IsRequest other)
    (different : rcn ≠ other) : about rcn details = [] :=
  about_eq_nil fun event member targeted => by
    obtain ⟨request, key, rfl⟩ | ⟨revokeReq, rfl⟩ := requests event member
    · exact different (Option.some.inj targeted).symm
    · cases targeted

variable (ca env rcn) in
def RequestsFor (own : List CaEvtDet) : Prop :=
  (∀ rc, ca.resources.get rcn = some rc → rc.Requested ca env own) ∧
    (ca.resources.get rcn = none → own = [])

theorem RequestsFor.nil : RequestsFor ca env rcn [] :=
  ⟨fun _ _ _ member => absurd member List.not_mem_nil, fun _ => rfl⟩

theorem RequestsFor.append (left : RequestsFor ca env rcn first)
    (right : RequestsFor ca env rcn second) : RequestsFor ca env rcn (first ++ second) := by
  refine ⟨fun rc found => List.forall_mem_append.mpr ⟨left.1 rc found, right.1 rc found⟩, ?_⟩
  intro absent
  rw [left.2 absent, right.2 absent, List.append_nil]

variable (ca env later rcn) in
/-- How requests for entitlements take a class from one CA to another. -/
inductive RequestRun (parent : ParentHandle) : Option ResourceClass → ResourceClass → Prop
  | present {rc after : ResourceClass} (requests : RequestsFor ca env rcn own)
      (done : onClassAll later own rc = some after) : RequestRun parent (some rc) after
  | added {after : ResourceClass} (unknown : ca.resources.get rcn = none)
      (requested : (ResourceClass.create later.now rcn rcn parent parentRcn key).Requested
        ca env own) (done : onClassAll later own
        (.create later.now rcn rcn parent parentRcn key) = some after) :
      RequestRun parent none after

omit [KrillSigner] in
theorem get_of_findParentRc (consistent : ca.Consistent)
    (found : ca.findParentRc order parent parentRcn = some rc) :
    ca.resources.get rc.name = some rc := by
  obtain ⟨named, present⟩ := mem_intoValues.mp (List.mem_of_find?_eq_some found)
  rwa [consistent.named present]

theorem requestsFor_about (found : ca.resources.get rc.name = some rc)
    (yields : Yields (ca.makeRequestEvents env entitlement rc) details) :
    RequestsFor ca env rcn (about rcn details) := by
  by_cases same : rcn = rc.name
  · subst same
    refine ⟨fun other present => ?_, fun absent => ?_⟩
    · cases found.symm.trans present
      exact makeRequestEvents_requested yields
    · cases found.symm.trans absent
  · rw [about_requests_other (makeRequestEvents_yields yields) same]
    exact .nil

omit [KrillSigner] in
theorem unknown_of_le (consistent : ca.Consistent) (atLeast : ca.nextClassName ≤ number) :
    ca.resources.get (.ofNumber number) = none := by
  by_contra known
  obtain ⟨rc, known⟩ := Option.ne_none_iff_exists'.mp known
  obtain ⟨smaller, less, equal⟩ := consistent.numbered known
  have same := ofNumber_injective equal
  omega

theorem requestForEntitlements_run (consistent : ca.Consistent) {next : CertAuth}
    (yields : Yields (ca.requestForEntitlements env parent number entitlements) details)
    (applied : next.applyNextAll later details = some last)
    (atLeast : ca.nextClassName ≤ number)
    (fresh : ∀ larger ≥ number, next.resources.get (.ofNumber larger) = none)
    (found : last.resources.get rcn = some after) :
    RequestRun ca env later rcn parent (next.resources.get rcn) after := by
  induction entitlements generalizing number details next with
  | nil =>
    cases yields.pure
    cases applied
    rw [found]
    exact .present .nil rfl
  | cons entitlement rest induction =>
    unfold requestForEntitlements at yields
    cases present : ca.findParentRc env.order parent entitlement.className with
    | some rc =>
      rw [present] at yields
      obtain ⟨requests, requested, yields⟩ := yields.bind
      obtain ⟨others, continued, yields⟩ := yields.bind
      cases yields.pure
      obtain ⟨middle, started, rested⟩ := applyNextAll_append.mp applied
      have run := classRun_of_plain (fun event member =>
        isPlain_of_isRequest (makeRequestEvents_yields requested event member)) started
      have rest := induction continued rested atLeast fun larger enough =>
        ClassRun.eq_none (fresh larger enough ▸ run (.ofNumber larger))
      have requestsFor : RequestsFor ca env rcn (about rcn requests) :=
        requestsFor_about (get_of_findParentRc consistent present) requested
      have own := run rcn
      generalize middle.resources.get rcn = between at rest own
      generalize next.resources.get rcn = before at own ⊢
      cases own with
      | absent =>
        cases rest with
        | added unknown requested done => exact .added unknown requested done
      | changed first =>
        cases rest with
        | present others second =>
          exact .present (requestsFor.append others) (onClassAll_append.mpr ⟨_, first, second⟩)
    | none =>
      rw [present] at yields
      obtain ⟨pendingKey, _, yields⟩ := yields.bind
      obtain ⟨requests, requested, yields⟩ := yields.bind
      obtain ⟨others, continued, yields⟩ := yields.bind
      cases yields.pure
      obtain ⟨started, added, rested⟩ := applyNextAll_cons.mp applied
      cases added
      obtain ⟨middle, started, rested⟩ := applyNextAll_append.mp rested
      have areRequests := makeRequestEvents_yields requested
      have run := classRun_of_plain (fun event member =>
        isPlain_of_isRequest (areRequests event member)) started
      let numbered := ofNumber number
      have newRequested : (ResourceClass.create later.now numbered numbered parent
          entitlement.className pendingKey).Requested ca env
          (about numbered requests) := makeRequestEvents_requested requested
      have classes (named : ResourceClassName) : ClassRun later (about named requests)
          (if named = numbered then some (ResourceClass.create later.now numbered numbered parent
            entitlement.className pendingKey)
          else next.resources.get named) (middle.resources.get named) := by
        rw [← get_insert]
        exact run named
      have freshRest : ∀ larger ≥ number + 1, middle.resources.get (.ofNumber larger) = none := by
        intro larger enough
        have own := classes (.ofNumber larger)
        have different : ofNumber larger ≠ .ofNumber number := by
          intro same
          have equal := ofNumber_injective same
          omega
        rw [if_neg different, fresh larger (Nat.le_of_lt enough)] at own
        exact own.eq_none
      have rest := induction continued rested (Nat.le_succ_of_le atLeast) freshRest
      have own := classes rcn
      by_cases same : rcn = ofNumber number
      · subst same
        rw [if_pos rfl] at own
        rw [fresh number (le_refl number)]
        generalize middle.resources.get (ofNumber number) = between at rest own
        cases own with
        | changed first =>
          cases rest with
          | present others second =>
            have unknown := unknown_of_le consistent atLeast
            rw [others.2 unknown] at second
            cases second
            exact .added unknown newRequested first
      · rw [if_neg same, about_requests_other areRequests same] at own
        rwa [own.eq_of_nil] at rest

theorem removeLostClasses_yields
    (yields : Yields (ca.removeLostClasses env parent entitled) details) :
    ∀ event ∈ details, ∃ rcn parent requests,
      event = .resourceClassRemoved rcn parent requests := by
  intro event member
  obtain ⟨⟨named, rc⟩, _, yielded⟩ := yields.exists_item member
  obtain ⟨revokeRequests, _, yielded⟩ := yielded.bind
  exact ⟨named, parent, revokeRequests, yielded.pure⟩

theorem updateEntitlements_change (consistent : ca.Consistent)
    (yields : Yields (ca.updateEntitlements env parent entitlements) events)
    (applied : ca.applyNextAll later (events.map StoredEvent.details) = some last)
    (found : last.resources.get rcn = some after) :
    ClassChange ca env later rcn (.updateEntitlements parent entitlements)
      (ca.resources.get rcn) after := by
  obtain ⟨removed, removals, yields⟩ := yields.bind
  obtain ⟨requests, requested, yields⟩ := yields.bind
  cases yields.pure
  rw [details_eventsFromDetails] at applied
  obtain ⟨middle, gone, applied⟩ := applyNextAll_append.mp applied
  have kept {named : ResourceClassName} {rc : ResourceClass}
      (present : middle.resources.get named = some rc) : ca.resources.get named = some rc :=
    (get_of_removals (removeLostClasses_yields removals) gone present).1
  have fresh : ∀ larger ≥ ca.nextClassName, middle.resources.get (.ofNumber larger) = none := by
    intro larger enough
    by_contra known
    obtain ⟨rc, known⟩ := Option.ne_none_iff_exists'.mp known
    cases (unknown_of_le consistent enough).symm.trans (kept known)
  have run := requestForEntitlements_run consistent requested applied (le_refl _) fresh found
  cases present : middle.resources.get rcn with
  | some rc =>
    rw [present] at run
    cases run with
    | present requests done =>
      rw [kept present]
      exact .requested (requests.1 rc (kept present)) done
  | none =>
    rw [present] at run
    cases run with
    | added unknown requested done =>
      rw [unknown]
      exact .created requested done

theorem processCommand_change (consistent : ca.Consistent)
    (yields : Yields (ca.processCommand env cmd) events)
    (applied : ca.applyNextAll later (events.map StoredEvent.details) = some last)
    (found : last.resources.get rcn = some after) :
    ClassChange ca env later rcn cmd (ca.resources.get rcn) after := by
  by_cases plain : cmd.isPlain
  · exact change_of_run (processCommand_ordered consistent plain yields).toGrouped applied found
  · cases cmd with
    | makeTrustAnchor => exact trustAnchorMake_change yields applied found
    | childRevokeKey child request =>
      obtain ⟨rc, present, classes⟩ := childRevokeKey_classes yields.liftExcept applied
      rw [classes] at found
      by_cases named : rcn = request.className
      · subst named
        rw [if_pos rfl] at found
        cases found
        rw [present]
        exact .keyRevoked rfl
      · rw [if_neg named] at found
        exact change_of_same found
    | removeParent =>
      exact change_of_same (removeParent_change yields.liftExcept applied found)
    | updateEntitlements => exact updateEntitlements_change consistent yields applied found
    | dropResourceClass rcn reason =>
      obtain ⟨rc, _, yields⟩ := yields.bind
      obtain ⟨revokeRequests, _, yields⟩ := yields.bind
      cases yields.pure
      rw [details_eventsFromDetails] at applied
      exact change_of_same
        (get_of_removals (List.forall_mem_singleton.mpr ⟨_, _, _, rfl⟩) applied found).1
    | repoUpdate => exact updateRepo_change consistent yields applied found
    | _ => exact absurd rfl plain

inductive ReachableWhen (meets : CertAuth → Surroundings → CmdDet → Prop) : CertAuth → Prop
  | init (handle : CaHandle) (id : Rfc8183Id) : ReachableWhen meets (.init handle id)
  | step {ca next : CertAuth} {env later : Surroundings} {cmd : CmdDet} {events : List CaEvt}
      {signer used : Signer} (reachable : ReachableWhen meets ca) (met : meets ca env cmd)
      (accepted : ca.processCommand env cmd signer = .ok events used)
      (applied : ca.applyAll later events = some next) : ReachableWhen meets next

theorem ReachableWhen.reachable (reachable : ReachableWhen meets ca) : Reachable ca := by
  induction reachable with
  | init handle id => exact .init handle id
  | step _ _ accepted applied induction => exact .step induction accepted applied

theorem ReachableWhen.replayOne (reachable : ReachableWhen meets ca) (met : meets ca env cmd)
    {last : CertAuth × Signer} (replayed : ca.replay env signer [cmd] = some last) :
    ReachableWhen meets last.1 := by
  obtain ⟨events, used, next, accepted, applied, same⟩ := replay_cons.mp replayed
  cases same
  exact reachable.step met accepted applied

theorem ReachableWhen.replay (reachable : ReachableWhen meets ca)
    (met : ∀ cmd ∈ cmds, ∀ before, meets before env cmd) {last : CertAuth × Signer}
    (replayed : ca.replay env signer cmds = some last) : ReachableWhen meets last.1 :=
  holds_of_replay _ reachable
    (fun cmd member _ _ _ _ _ held => held.step (met cmd member _)) replayed

theorem ReachableWhen.classes {invariant : ResourceClass → Prop}
    (reachable : ReachableWhen meets ca)
    (preserved : ∀ {ca : CertAuth} {env later : Surroundings} {cmd : CmdDet}
      {rcn : ResourceClassName} {after : ResourceClass}, meets ca env cmd →
      (∀ rc, ca.resources.get rcn = some rc → invariant rc) →
      ClassChange ca env later rcn cmd (ca.resources.get rcn) after → invariant after) :
    ∀ {rcn rc}, ca.resources.get rcn = some rc → invariant rc := by
  induction reachable with
  | init handle id =>
    intro rcn rc found
    cases (get_empty rcn).symm.trans found
  | step reachable met accepted applied induction =>
    intro rcn rc found
    rw [applyAll_eq] at applied
    exact preserved met (fun _ present => induction present)
      (processCommand_change reachable.reachable.consistent ⟨_, _, accepted⟩ applied found)

end CertAuth

end Krill.Ca
