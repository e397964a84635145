import Krill.Ca.Receiving

namespace Krill.Ca

open Rpki KrillSigner
open Stateful (FailsWith Yields)
open CaEvtDet
open KeyState

variable [Rpki]

def Error.isNoMatch : Error → Bool
  | .keyUseNoMatch _ => true
  | _ => false

section Answers

variable [KrillSigner]

def ResourceClass.Accepts (rc : ResourceClass) (key : KeyIdentifier) : Prop :=
  ∀ (env : Surroundings) (cert : ReceivedCert) (routes : Routes) (aspaDefs : AspaDefinitions)
    (bgpsecDefs : BgpSecDefinitions) (config : Config) (signer used : Signer) (error : Error),
    cert.keyIdentifier = key →
    rc.updateReceivedCert env cert routes aspaDefs bgpsecDefs config signer =
      .error error used → error.isNoMatch = false

abbrev Matching {A : Type} (program : SignM A) : Prop :=
  FailsWith program fun error => error.isNoMatch = false

theorem signing_matching : Matching (signing action) := by
  intro before after error failed
  unfold signing EStateM.adaptExcept at failed
  split at failed <;> cases failed
  rfl

theorem makeRoa_matching : Matching (Roas.makeRoa env authorizations name key validity) := by
  refine .bind (.liftExcept fun error failed => ?_) fun _ => ?_
  · unfold Roas.roaAddresses at failed
    split at failed
    · split at failed <;> cases failed
      rfl
    · cases failed
      rfl
  · exact .bind (signing_matching) fun _ => .bind (signing_matching) fun _ => .pure _

theorem updateRoas_matching (roas : Roas) : Matching (roas.update env routes key config) := by
  have simple (relevant : Routes) : Matching
      (roas.updateSimple env relevant key config.issuanceTiming) := by
    refine .bind (.mapM (fun auth => ?_) _) fun _ => .pure _
    exact .bind (makeRoa_matching) fun _ => .pure _
  have aggregate (relevant : Routes) : Matching
      (roas.updateAggregate env relevant key config.issuanceTiming) := by
    refine .bind (.mapM (fun desired => .bind ?_ fun _ => .pure _) _) fun _ => .pure _
    exact .bind (makeRoa_matching) fun _ => .pure _
  unfold Roas.update
  dsimp only
  split
  · exact simple _
  · exact .bind (simple _) fun _ => .pure _
  · exact .bind (aggregate _) fun _ => .pure _
  · exact aggregate _

theorem updateAspas_matching (aspas : AspaObjects) :
    Matching (aspas.update env definitions key config) := by
  refine .bind (.mapM (fun definition => ?_) _) fun _ => .pure _
  unfold AspaObjects.makeAspa
  dsimp only
  split
  · exact .bind (.throw rfl) fun _ => .bind (signing_matching) fun _ =>
      .bind (signing_matching) fun _ => .pure _
  · exact .bind (signing_matching) fun _ => .bind (signing_matching) fun _ => .pure _

theorem updateBgpsecs_matching (certs : BgpSecCertificates) :
    Matching (certs.update env definitions key config) :=
  .bind (.mapM (fun _ => .bind (signing_matching) fun _ => .bind (signing_matching) fun _ =>
    .pure _) _) fun _ => .pure _

theorem shrink_matching (cert : IssuedCertificate) :
    Matching (ChildCertificates.shrink env key timing cert) := by
  unfold ChildCertificates.shrink
  split
  · exact .pure _
  · split
    · exact .pure _
    · refine .bind ?_ fun _ => .pure _
      unfold ChildCertificates.reIssue makeIssuedCert
      dsimp only
      split
      · split
        · exact .bind (signing_matching) fun _ => .bind (signing_matching) fun _ => .pure _
        · exact .bind (.throw rfl) fun _ => .bind (signing_matching) fun _ =>
            .bind (signing_matching) fun _ => .pure _
      · exact .throw rfl

namespace ResourceClass

variable {rc : ResourceClass}

theorem updateRcvdCertCurrent_matching (isCurrent : cert.keyIdentifier = current.keyId) :
    Matching (rc.updateRcvdCertCurrent env current cert routes aspaDefs bgpsecDefs config) := by
  unfold updateRcvdCertCurrent
  dsimp only
  rw [if_neg (not_not.mpr isCurrent)]
  split
  · exact .pure _
  · refine .bind ?_ fun _ => .bind (updateRoas_matching _) fun _ =>
      .bind (updateAspas_matching _) fun _ =>
      .bind (updateBgpsecs_matching _) fun _ => .pure _
    exact .bind (.mapM shrink_matching _) fun _ =>
      .bind (.mapM shrink_matching _) fun _ => .pure _

theorem accepts_of_answers (answers : rc.keyState.Answers key) : rc.Accepts key := by
  intro env cert routes aspaDefs bgpsecDefs config signer used error forKey failed
  subst forKey
  have program : Matching (rc.updateReceivedCert env cert routes aspaDefs bgpsecDefs config) := by
    unfold updateReceivedCert
    dsimp only
    cases state : rc.keyState with
    | pending waiting =>
      rw [state] at answers
      have forWaiting : cert.keyIdentifier = waiting.keyId := answers
      dsimp only
      rw [if_neg (not_not.mpr forWaiting)]
      exact .bind (updateRoas_matching _) fun _ => .bind (updateAspas_matching _) fun _ =>
        .bind (updateBgpsecs_matching _) fun _ => .pure _
    | active current =>
      rw [state] at answers
      exact updateRcvdCertCurrent_matching answers
    | rollPending | rollNew =>
      rw [state] at answers
      dsimp only
      split
      · exact .pure _
      · next other => exact updateRcvdCertCurrent_matching (answers.resolve_left other)
    | rollOld current old =>
      rw [state] at answers
      exact updateRcvdCertCurrent_matching answers
  exact program _ _ _ failed

end ResourceClass

end Answers

def RequestFor (key : KeyIdentifier) (request : Option IssuanceRequest) : Prop :=
  ∀ given ∈ request, given.key = key

/-- Requests are attached to the keys that they are for, and none to an old key. -/
def KeyState.Matched : KeyState → Prop
  | .pending waiting => RequestFor waiting.keyId waiting.request
  | .active current => RequestFor current.keyId current.request
  | .rollPending waiting current =>
    RequestFor waiting.keyId waiting.request ∧ RequestFor current.keyId current.request
  | .rollNew new current =>
    RequestFor new.keyId new.request ∧ RequestFor current.keyId current.request
  | .rollOld current old =>
    RequestFor current.keyId current.request ∧ old.key.request = none

theorem requestFor_none : RequestFor key none :=
  fun _ member => absurd member (Option.not_mem_none _)

theorem requestFor_some (same : request.key = key) : RequestFor key (some request) :=
  fun _ member => Option.mem_some.mp member ▸ same

namespace KeyState

variable {state : KeyState}

theorem Matched.answers (matched : state.Matched) (isOpen : request ∈ state.certRequests) :
    state.Answers request.key := by
  cases state with
  | pending | active => exact matched request (Option.mem_toList.mp isOpen)
  | rollPending | rollNew =>
    obtain isOpen | isOpen := List.mem_append.mp isOpen
    · exact .inl (matched.1 request (Option.mem_toList.mp isOpen))
    · exact .inr (matched.2 request (Option.mem_toList.mp isOpen))
  | rollOld current old =>
    obtain isOpen | isOpen := List.mem_append.mp isOpen
    · exact matched.1 request (Option.mem_toList.mp isOpen)
    · rw [matched.2] at isOpen
      exact absurd isOpen List.not_mem_nil

theorem Matched.addRequest (matched : state.Matched) (answers : state.Answers key)
    (same : request.key = key) : (state.addRequest key request).Matched := by
  cases state with
  | pending | active => exact requestFor_some (same.trans answers)
  | rollPending waiting current =>
    unfold addRequest
    dsimp only
    split
    · next forWaiting => exact ⟨requestFor_some (same.trans forWaiting.symm), matched.2⟩
    · next other =>
      have forCurrent := answers.resolve_left fun equal => other equal.symm
      exact ⟨matched.1, requestFor_some (same.trans forCurrent)⟩
  | rollNew new current =>
    unfold addRequest
    dsimp only
    split
    · next forNew => exact ⟨requestFor_some (same.trans forNew.symm), matched.2⟩
    · next other =>
      have forCurrent := answers.resolve_left fun equal => other equal.symm
      exact ⟨matched.1, requestFor_some (same.trans forCurrent)⟩
  | rollOld current old =>
    have forCurrent : key = current.keyId := answers
    unfold addRequest
    dsimp only
    rw [if_pos forCurrent.symm]
    exact ⟨requestFor_some (same.trans forCurrent), matched.2⟩

theorem answers_addRequest :
    (state.addRequest key request).Answers other ↔ state.Answers other := by
  cases state with
  | pending | active => rfl
  | rollPending | rollNew | rollOld =>
    unfold addRequest
    dsimp only
    split <;> rfl

theorem answers_of_keysForRequests
    (listed : (repo, key) ∈ state.keysForRequests env entitlement baseRepo) :
    state.Answers key := by
  have ofUpdate {condition : Bool} {given : RepoInfo × KeyIdentifier}
      (listed : (repo, key) ∈ if condition then [given] else []) : key = given.2 := by
    split at listed
    · exact congrArg Prod.snd (List.mem_singleton.mp listed)
    · exact absurd listed List.not_mem_nil
  cases state with
  | pending waiting => exact congrArg Prod.snd (List.mem_singleton.mp listed)
  | active current => exact ofUpdate listed
  | rollPending waiting current =>
    obtain same | listed := List.mem_cons.mp listed
    · exact .inl (congrArg Prod.snd same)
    · exact .inr (ofUpdate listed)
  | rollNew new current =>
    exact (List.mem_append.mp listed).imp ofUpdate ofUpdate
  | rollOld current old =>
    obtain listed | listed := List.mem_append.mp listed <;> exact ofUpdate listed

end KeyState

def CaEvtDet.KeepsMatched (event : CaEvtDet) (state : KeyState) : Prop :=
  match event with
  | .certificateRequested _ request key => state.Answers key ∧ request.key = key
  | .keyPendingToNew _ new | .keyPendingToActive _ new => new.request = none
  | .keyRollActivated _ _ => ∀ new current, state = .rollNew new current →
      current.request = none
  | _ => True

theorem KeyState.Matched.step (step : KeyState.Step event state after) (matched : state.Matched)
    (keeps : event.KeepsMatched state) : after.Matched := by
  cases step with
  | requested => exact matched.addRequest keeps.1 keeps.2
  | receivedActive => exact requestFor_none
  | receivedRollPending => exact ⟨matched.1, requestFor_none⟩
  | receivedForNew => exact ⟨requestFor_none, matched.2⟩
  | receivedRollNew => exact ⟨matched.1, requestFor_none⟩
  | receivedRollOld => exact ⟨requestFor_none, matched.2⟩
  | receivedForOld => exact ⟨matched.1, rfl⟩
  | pendingKeyAdded => exact ⟨requestFor_none, matched⟩
  | pendingToNew =>
    refine ⟨?_, matched.2⟩
    rw [show _ = none from keeps]
    exact requestFor_none
  | pendingToActive =>
    change RequestFor _ _
    rw [show _ = none from keeps]
    exact requestFor_none
  | activated => exact ⟨matched.1, keeps _ _ rfl⟩
  | finished => exact matched.1
  | kept => exact matched

/-- The keys that are replaced have no open requests in the classes in which new keys are
about to be activated. -/
def CmdDet.NoOpenRequests (cmd : CmdDet) (ca : CertAuth) (env : Surroundings) : Prop :=
  match cmd with
  | .keyRollActivate stagingTime _ => ca.isTa = false → ∀ {rcn rc new current},
      ca.resources.get rcn = some rc → rc.keyState = .rollNew new current →
      ¬(stagingTime > 0 ∧ rc.lastKeyChange + stagingTime > env.now) → current.request = none
  | _ => True

namespace ResourceClass

/-- All open requests can be answered, and there are none for a key that is replaced. -/
structure Answerable [KrillSigner] (rc : ResourceClass) : Prop where
  accepted : ∀ request ∈ rc.keyState.certRequests, rc.Accepts request.key
  replaced : ∀ {current old}, rc.keyState = .rollOld current old → old.key.request = none

theorem matched_of_events (matched : rc.keyState.Matched)
    (done : onClassAll later (event :: rest) rc = some after)
    (keeps : event.KeepsMatched rc.keyState) (objects : ∀ other ∈ rest, other.isAboutKeys = false) :
    after.keyState.Matched := by
  obtain ⟨changed, first, rested⟩ := onClassAll_cons.mp done
  rw [keyState_of_objects objects rested]
  exact matched.step (onClass_spec first).2 keeps

theorem matched_of_objects (matched : rc.keyState.Matched)
    (objects : ∀ event ∈ own, event.isAboutKeys = false)
    (done : onClassAll later own rc = some after) : after.keyState.Matched := by
  rwa [keyState_of_objects objects done]

variable [KrillSigner]

def KeyInfoLaw : Prop :=
  ∀ {key : KeyIdentifier} {info : PublicKey}, Yields (getKeyInfo key) info →
    keyIdentifier info = key

variable {nameSpace : String}

theorem key_of_createIssuanceReq (law : KeyInfoLaw)
    (made : Yields (createIssuanceReq repo nameSpace className key) request) :
    request.key = key := by
  obtain ⟨csr, signed, made⟩ := made.bind
  cases made.pure
  obtain ⟨info, known, signed⟩ := signed.bind
  obtain ⟨_, _, signed⟩ := signed.bind
  cases signed.pure
  exact law (yields_of_signing known)

theorem matched_of_requested (law : KeyInfoLaw) {requesting : ResourceClass}
    (requested : requesting.Requested ca env own)
    (same : ∀ key, rc.keyState.Answers key ↔ requesting.keyState.Answers key)
    (matched : rc.keyState.Matched)
    (done : onClassAll later own rc = some after) : after.keyState.Matched := by
  induction own generalizing rc with
  | nil => cases done; exact matched
  | cons event rest induction =>
    obtain ⟨changed, first, rested⟩ := onClassAll_cons.mp done
    obtain ⟨entitlement, contact, repo, key, request, rfl, _, listed, made⟩ :=
      requested event List.mem_cons_self
    cases first
    refine induction (fun other member => requested other (List.mem_cons_of_mem _ member))
      (fun other => (answers_addRequest).trans (same other)) ?_ rested
    exact matched.addRequest ((same key).mpr (answers_of_keysForRequests listed))
      (key_of_createIssuanceReq law made)

theorem matched_of_received (matched : rc.keyState.Matched)
    (received : rc.Received env cert routes aspaDefs bgpsecDefs config own)
    (done : onClassAll later own rc = some after) : after.keyState.Matched := by
  have none_about : ∀ event ∈ ([] : List CaEvtDet), event.isAboutKeys = false :=
    List.forall_mem_nil _
  cases received with
  | activated _ _ updates =>
    refine matched_of_events matched done rfl fun event member => ?_
    obtain member | member := List.mem_append.mp member
    · obtain member | member := List.mem_append.mp member
      · exact (updates.roas.events_isObjects _ event member).2
      · exact (updates.aspas.events_isObjects _ event member).2
    · exact (updates.bgpsecs.events_isObjects _ event member).2
  | staged => exact matched_of_events matched done rfl none_about
  | forNew | renewed => exact matched_of_events matched done trivial none_about
  | changed _ _ _ _ certs updates _ =>
    refine matched_of_events matched done trivial fun event member => ?_
    obtain member | member := List.mem_append.mp member
    · obtain member | member := List.mem_append.mp member
      · obtain member | member := List.mem_append.mp member
        · exact (certs.events_isObjects _ event member).2
        · exact (updates.roas.events_isObjects _ event member).2
      · exact (updates.aspas.events_isObjects _ event member).2
    · exact (updates.bgpsecs.events_isObjects _ event member).2

theorem matched_of_group (law : KeyInfoLaw) (matched : rc.keyState.Matched)
    (noneOpen : cmd.NoOpenRequests ca env) (found : ca.resources.get rcn = some rc)
    (group : Group ca env rcn rc cmd own)
    (done : onClassAll later own rc = some after) : after.keyState.Matched := by
  cases group with
  | nothing => cases done; exact matched
  | certified | shifted =>
    exact matched_of_objects matched (List.forall_mem_singleton.mpr rfl) done
  | received received => exact matched_of_received matched received done
  | initiated _ state made =>
    obtain ⟨changed, first, rested⟩ := onClassAll_cons.mp done
    have waiting := matched.step (onClass_spec first).2 trivial
    change rc.pendingKeyIdAdded _ = some changed at first
    unfold pendingKeyIdAdded at first
    rw [state] at first
    cases first
    obtain ⟨repo, made⟩ := made
    refine matched_of_events waiting rested ⟨.inl rfl, key_of_createIssuanceReq law made⟩ ?_
    exact List.forall_mem_nil _
  | activated notTa state waited reissued =>
    refine matched_of_events matched done (fun new current same => ?_) fun event member => ?_
    · exact noneOpen notTa found same waited
    · obtain member | member := List.mem_append.mp member
      · obtain member | member := List.mem_append.mp member
        · obtain member | member := List.mem_append.mp member
          · exact (reissued.roas.events_isObjects _ event member).2
          · exact (reissued.aspas.events_isObjects _ event member).2
        · exact (reissued.certs.events_isObjects _ event member).2
      · exact (reissued.bgpsecs.events_isObjects _ event member).2
  | finished =>
    exact matched_of_events matched done trivial (List.forall_mem_nil _)
  | @roasUpdated _ _ _ _ roas | @roasRenewed _ _ _ roas =>
    exact matched_of_objects matched
      (fun event member => (roas.events_isObjects _ event member).2) done
  | @aspasUpdated _ _ _ _ _ _ aspas | @aspaUpdated _ _ _ _ aspas | @aspasRenewed _ aspas =>
    exact matched_of_objects matched
      (fun event member => (aspas.events_isObjects _ event member).2) done
  | @bgpsecsUpdated _ _ _ _ _ _ bgpsecs | @bgpsecsRenewed _ bgpsecs =>
    exact matched_of_objects matched
      (fun event member => (bgpsecs.events_isObjects _ event member).2) done

omit [KrillSigner] in
theorem matched_create {name : ResourceClassName} {parentRcName : ResourceClassName} :
    (create now name nameSpace parent parentRcName key).keyState.Matched :=
  requestFor_none

theorem matched_of_change (law : KeyInfoLaw) (noneOpen : cmd.NoOpenRequests ca env)
    (before : ∀ rc, ca.resources.get rcn = some rc → rc.keyState.Matched)
    (change : ClassChange ca env later rcn cmd (ca.resources.get rcn) after) :
    after.keyState.Matched := by
  generalize entry : ca.resources.get rcn = found at before change
  cases change with
  | grouped group done => exact matched_of_group law (before _ rfl) noneOpen entry group done
  | requested requested done =>
    exact matched_of_requested law requested (fun _ => Iff.rfl) (before _ rfl) done
  | created requested done =>
    exact matched_of_requested law requested (fun _ => Iff.rfl) matched_create done
  | trustAnchorMade => exact matched_create
  | @moved _ _ _ middle group done =>
    have matched := matched_of_group law (before _ rfl) noneOpen entry group done
    cases ca.repository with
    | none => exact matched
    | some existing =>
      change (middle.keyState.setOldRepoIfInActiveState existing.repoInfo).Matched
      unfold setOldRepoIfInActiveState
      cases state : middle.keyState <;> rw [state] at matched <;> exact matched
  | @keyRevoked _ _ rc => exact before rc rfl

end ResourceClass

namespace CertAuth

variable [KrillSigner]

/-- If no key is replaced while a request is open for it, then all open requests can be
answered. -/
theorem open_requests_answerable (law : ResourceClass.KeyInfoLaw) {ca : CertAuth}
    (reachable : ReachableWhen (fun ca env cmd => cmd.NoOpenRequests ca env) ca)
    {rcn : ResourceClassName} {rc : ResourceClass} (found : ca.resources.get rcn = some rc) :
    rc.Answerable := by
  have matched : rc.keyState.Matched :=
    reachable.classes (ResourceClass.matched_of_change law) found
  refine ⟨fun request isOpen => rc.accepts_of_answers (matched.answers isOpen), ?_⟩
  intro current old state
  rw [state] at matched
  exact matched.2

end CertAuth

end Krill.Ca

namespace Krill.Ca.Numbered

open CertAuth

theorem keyInfoLaw : ResourceClass.KeyInfoLaw := fun known => known.pure

theorem activated_answerable : ∃ rc : ResourceClass,
    activated.1.resources.get "0" = some rc ∧ rc.Answerable := by
  have reachable : ReachableWhen (fun ca env cmd => cmd.NoOpenRequests ca env) staged.1 := by
    refine (ReachableWhen.init _ _).replay (fun cmd member before => ?_)
      (Option.some_get (by decide)).symm
    simp only [stage, roll, List.cons_append, List.nil_append, List.mem_cons,
      List.not_mem_nil, or_false] at member
    rcases member with rfl | rfl | rfl | rfl | rfl | rfl | rfl <;> trivial
  have noneOpen : activation.NoOpenRequests staged.1 env := by
    intro _ rcn rc new current found state _
    have listed := HashMap.mem_entries.mpr found
    change (rcn, rc) ∈ [("0", _)] at listed
    cases List.mem_singleton.mp listed
    cases state
    rfl
  have replayed : staged.1.replay env staged.2 [activation] = some activated :=
    (Option.some_get _).symm
  obtain ⟨rc, found⟩ : ∃ rc : ResourceClass, activated.1.resources.get "0" = some rc :=
    ⟨_, rfl⟩
  exact ⟨rc, found, open_requests_answerable keyInfoLaw
    (reachable.replayOne noneOpen replayed) found⟩

/-- The parent offers fewer resources before the new key is activated. -/
def reduced : CertAuth × Nat :=
  (start.replay env (0 : Nat)
    (stage 7 ++ [.updateEntitlements "parent" [entitlement 3], activation])).get (by decide)

/-- The request for the current key is still open when that key has become the old one, and
the certificate for it is turned away. -/
theorem old_key_request_turned_away :
    ∃ (ca : CertAuth) (rc : ResourceClass) (current : CurrentKey) (old : OldKey)
      (request : IssuanceRequest) (error : Error) (used : Nat), Reachable ca ∧
      ca.resources.get "0" = some rc ∧ rc.keyState = .rollOld current old ∧
      old.key.request = some request ∧ request ∈ rc.keyState.certRequests ∧
      rc.updateReceivedCert env (received request.key 3) ca.routes ca.aspas ca.bgpsecDefs config
        reduced.2 = .error error used ∧ error.isNoMatch = true :=
  ⟨reduced.1, _, _, _, _, _, _, (Reachable.init _ _).replay (Option.some_get (by decide)).symm,
    rfl, rfl, rfl, List.mem_append_right _ (List.mem_singleton_self _), rfl, rfl⟩

end Krill.Ca.Numbered
