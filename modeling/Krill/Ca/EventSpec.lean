import Krill.Ca.Commands

namespace Krill.Ca

open Rpki
open ChildCertificates
open HashMap

variable [Rpki]

namespace CaEvtDet

def target : CaEvtDet → Option ResourceClassName
  | .childCertificatesUpdated rcn _
  | .certificateRequested rcn _ _
  | .certificateReceived rcn _ _
  | .keyRollPendingKeyAdded rcn _
  | .keyPendingToNew rcn _
  | .keyPendingToActive rcn _
  | .keyRollActivated rcn _
  | .keyRollFinished rcn
  | .roasUpdated rcn _
  | .aspaObjectsUpdated rcn _
  | .bgpSecCertificatesUpdated rcn _ => some rcn
  | _ => none

def onClass (env : Surroundings) (event : CaEvtDet) (rc : ResourceClass) :
    Option ResourceClass :=
  match event with
  | .childCertificatesUpdated _ updates => some (CertAuth.certificatesUpdated rc updates)
  | .certificateRequested _ request key => some (rc.addRequest key request)
  | .certificateReceived _ cert key => rc.receivedCert key cert
  | .keyRollPendingKeyAdded _ pendingKey => rc.pendingKeyIdAdded pendingKey
  | .keyPendingToNew _ newKey => rc.pendingKeyToNew newKey
  | .keyPendingToActive _ currentKey => rc.pendingKeyToActive currentKey
  | .keyRollActivated _ revokeReq => rc.newKeyActivated revokeReq
  | .keyRollFinished _ => rc.oldKeyRemoved
  | .roasUpdated _ updates => some (rc.roasUpdated env.order updates)
  | .aspaObjectsUpdated _ updates => some (rc.aspaObjectsUpdated updates)
  | .bgpSecCertificatesUpdated _ updates => some (rc.bgpsecCertificatesUpdated updates)
  | _ => some rc

def isAboutChild : CaEvtDet → Bool
  | .childAdded _ _ _
  | .childRemoved _
  | .childCertificateIssued _ _ _
  | .childKeyRevoked _ _ _ => true
  | _ => false

def revokedKeys : CaEvtDet → List KeyIdentifier
  | .childCertificatesUpdated _ updates => updates.removed
  | _ => []

def isAboutKeys : CaEvtDet → Bool
  | .certificateRequested _ _ _
  | .certificateReceived _ _ _
  | .keyRollPendingKeyAdded _ _
  | .keyPendingToNew _ _
  | .keyPendingToActive _ _
  | .keyRollActivated _ _
  | .keyRollFinished _ => true
  | _ => false

/-- Whether an event changes what the CA is configured to authorize, in a way that needs
nothing to be there before. -/
def isConfig : CaEvtDet → Bool
  | .routeAuthorizationAdded _
  | .routeAuthorizationComment _ _
  | .routeAuthorizationRemoved _
  | .aspaConfigAdded _
  | .aspaConfigRemoved _
  | .bgpSecDefinitionAdded _ _
  | .bgpSecDefinitionUpdated _ _
  | .bgpSecDefinitionRemoved _ => true
  | _ => false

def isPublished : CaEvtDet → Bool
  | .roasUpdated _ _
  | .aspaObjectsUpdated _ _
  | .bgpSecCertificatesUpdated _ _
  | .childCertificatesUpdated _ _
  | .keyPendingToActive _ _
  | .keyPendingToNew _ _
  | .keyRollActivated _ _
  | .keyRollFinished _
  | .certificateReceived _ _ _
  | .resourceClassRemoved _ _ _
  | .repoUpdated _ => true
  | _ => false

def newRepository : CaEvtDet → Option RepositoryContact
  | .repoUpdated contact => some contact
  | _ => none

end CaEvtDet

def ChildCertificates.updated (self : ChildCertificates) (updates : ChildCertificateUpdates) :
    ChildCertificates :=
  let issued := updates.issued.foldl certificateIssued self
  let unsuspended := updates.unsuspended.foldl certificateUnsuspended issued
  let removed := updates.removed.foldl keyRevoked unsuspended
  updates.suspended.foldl certificateSuspended removed

theorem CertAuth.certificatesUpdated_eq (rc : ResourceClass) (updates : ChildCertificateUpdates) :
    CertAuth.certificatesUpdated rc updates =
      { rc with certificates := rc.certificates.updated updates } := by
  have lifted {A : Type} (change : ChildCertificates → A → ChildCertificates)
      (changeClass : ResourceClass → A → ResourceClass)
      (same : ∀ certificates item, changeClass { rc with certificates } item =
        { rc with certificates := change certificates item })
      (items : List A) (certificates : ChildCertificates) :
      items.foldl changeClass { rc with certificates } =
        { rc with certificates := items.foldl change certificates } :=
    List.foldl_hom (fun certificates => { rc with certificates }) same
  have issued : updates.issued.foldl ResourceClass.certificateIssued rc = _ :=
    lifted certificateIssued _ (fun _ _ => rfl) _ rc.certificates
  dsimp only [CertAuth.certificatesUpdated]
  rw [issued, lifted certificateUnsuspended _ fun _ _ => rfl, lifted keyRevoked _ fun _ _ => rfl,
    lifted certificateSuspended _ fun _ _ => rfl]
  rfl

inductive KeyState.Step : CaEvtDet → KeyState → KeyState → Prop
  | requested (state : KeyState) :
      Step (.certificateRequested rcn request key) state (state.addRequest key request)
  | receivedActive :
      Step (.certificateReceived rcn cert key) (.active current)
        (.active (current.setIncomingCert cert))
  | receivedRollPending :
      Step (.certificateReceived rcn cert key) (.rollPending waiting current)
        (.rollPending waiting (current.setIncomingCert cert))
  | receivedForNew (same : new.keyId = key) :
      Step (.certificateReceived rcn cert key) (.rollNew new current)
        (.rollNew (new.setIncomingCert cert) current)
  | receivedRollNew (other : new.keyId ≠ key) :
      Step (.certificateReceived rcn cert key) (.rollNew new current)
        (.rollNew new (current.setIncomingCert cert))
  | receivedRollOld (same : current.keyId = key) :
      Step (.certificateReceived rcn cert key) (.rollOld current old)
        (.rollOld (current.setIncomingCert cert) old)
  | receivedForOld (other : current.keyId ≠ key) :
      Step (.certificateReceived rcn cert key) (.rollOld current old)
        (.rollOld current (old.setIncomingCert cert))
  | pendingKeyAdded :
      Step (.keyRollPendingKeyAdded rcn key) (.active current) (.rollPending (.new key) current)
  | pendingToNew :
      Step (.keyPendingToNew rcn new) (.rollPending waiting current) (.rollNew new current)
  | pendingToActive : Step (.keyPendingToActive rcn new) (.pending waiting) (.active new)
  | activated :
      Step (.keyRollActivated rcn revokeReq) (.rollNew new current)
        (.rollOld new { key := current, revokeReq })
  | finished : Step (.keyRollFinished rcn) (.rollOld current old) (.active current)
  | kept (state : KeyState) (objects : event.isAboutKeys = false) : Step event state state

theorem KeyState.currentKey_addRequest (state : KeyState) (key : KeyIdentifier) :
    (state.addRequest key request).currentKey.isSome = state.currentKey.isSome := by
  cases state <;> first | rfl | (unfold KeyState.addRequest; dsimp only; split <;> rfl)

namespace CaEvtDet

variable {event : CaEvtDet}

theorem onClass_spec (done : event.onClass env rc = some changed) :
    changed = { rc with
      keyState := changed.keyState, roas := changed.roas, aspas := changed.aspas
      bgpsecCertificates := changed.bgpsecCertificates
      certificates := changed.certificates } ∧
    KeyState.Step event rc.keyState changed.keyState := by
  obtain ⟨_, _, _, _, _, _, _, _, _, state⟩ := rc
  cases event with
  | childCertificatesUpdated _ updates =>
    cases done
    rw [CertAuth.certificatesUpdated_eq]
    exact ⟨rfl, .kept _ rfl⟩
  | certificateRequested => cases done; exact ⟨rfl, .requested _⟩
  | certificateReceived _ cert key =>
    change ResourceClass.receivedCert _ key cert = some changed at done
    unfold ResourceClass.receivedCert at done
    cases state with
    | pending => cases done
    | active => cases done; exact ⟨rfl, .receivedActive⟩
    | rollPending => cases done; exact ⟨rfl, .receivedRollPending⟩
    | rollNew new current =>
      by_cases same : new.keyId = key
      · cases (if_pos same).symm.trans done; exact ⟨rfl, .receivedForNew same⟩
      · cases (if_neg same).symm.trans done; exact ⟨rfl, .receivedRollNew same⟩
    | rollOld current old =>
      by_cases same : current.keyId = key
      · cases (if_pos same).symm.trans done; exact ⟨rfl, .receivedRollOld same⟩
      · cases (if_neg same).symm.trans done; exact ⟨rfl, .receivedForOld same⟩
  | keyRollPendingKeyAdded => cases state <;> cases done; exact ⟨rfl, .pendingKeyAdded⟩
  | keyPendingToNew => cases state <;> cases done; exact ⟨rfl, .pendingToNew⟩
  | keyPendingToActive => cases state <;> cases done; exact ⟨rfl, .pendingToActive⟩
  | keyRollActivated => cases state <;> cases done; exact ⟨rfl, .activated⟩
  | keyRollFinished => cases state <;> cases done; exact ⟨rfl, .finished⟩
  | _ => cases done; exact ⟨rfl, .kept _ rfl⟩

theorem currentKey_onClass (done : event.onClass env rc = some changed)
    (certified : rc.currentKey.isSome) : changed.currentKey.isSome := by
  have step := (onClass_spec done).2
  unfold ResourceClass.currentKey at certified ⊢
  generalize rc.keyState = before at step certified
  generalize changed.keyState = after at step ⊢
  cases step with
  | requested => rwa [KeyState.currentKey_addRequest]
  | kept => exact certified
  | _ => rfl

end CaEvtDet

namespace CertAuth

theorem updateClass_eq_some {ca : CertAuth} : ca.updateClass rcn change = some next ↔
      ∃ rc changed, ca.resources.get rcn = some rc ∧ change rc = some changed ∧
        next = { ca with resources := ca.resources.insert rcn changed } := by
  unfold updateClass
  constructor
  · intro updated
    cases found : (ca.resources.get rcn).bind change with
    | none => rw [found] at updated; cases updated
    | some changed =>
      rw [found] at updated
      obtain ⟨rc, present, done⟩ := Option.bind_eq_some_iff.mp found
      cases updated
      exact ⟨rc, changed, present, done, rfl⟩
  · intro updated
    obtain ⟨rc, changed, present, done, rfl⟩ := updated
    rw [present, Option.bind_some, done]

variable {child : ChildHandle}

theorem updateChild_eq_some {ca : CertAuth} : ca.updateChild child change = some next ↔
      ∃ details, ca.children.get child = some details ∧
        next = { ca with children := ca.children.insert child (change details) } := by
  unfold updateChild
  cases found : ca.children.get child with
  | none => simp
  | some details => simp [eq_comm]

theorem applyDetails_target (ca : CertAuth) (env : Surroundings) (about : event.target = some rcn) :
    ca.applyDetails env event = (ca.updateClass rcn (event.onClass env)).map fun next =>
      { next with children := revokeResponses next.children event.revokedKeys } := by
  have unchanged (result : Option CertAuth) : result = result.map fun next =>
      { next with children := revokeResponses next.children [] } := by
    cases result <;> rfl
  cases event <;> cases about
  case childCertificatesUpdated updates => rfl
  all_goals exact unchanged _

variable {env : Surroundings}

theorem applyDetails_target_eq_some {ca : CertAuth} (about : event.target = some rcn) :
    ca.applyDetails env event = some next ↔
      ∃ rc changed, ca.resources.get rcn = some rc ∧ event.onClass env rc = some changed ∧
        next = { ca with
          resources := ca.resources.insert rcn changed
          children := revokeResponses ca.children event.revokedKeys } := by
  rw [applyDetails_target ca env about, Option.map_eq_some_iff]
  constructor
  · intro applied
    obtain ⟨between, updated, rfl⟩ := applied
    obtain ⟨rc, changed, present, done, rfl⟩ := updateClass_eq_some.mp updated
    exact ⟨rc, changed, present, done, rfl⟩
  · intro changes
    obtain ⟨rc, changed, present, done, rfl⟩ := changes
    exact ⟨_, updateClass_eq_some.mpr ⟨rc, changed, present, done, rfl⟩, rfl⟩

theorem applyDetails_childKeyRevoked {ca : CertAuth} :
    ca.applyDetails env (.childKeyRevoked child rcn key) = some next ↔
      ∃ rc details, ca.resources.get rcn = some rc ∧ ca.children.get child = some details ∧
        next = { ca with
          resources := ca.resources.insert rcn (rc.keyRevoked key)
          children := ca.children.insert child (details.addRevokeResponse key) } := by
  change Option.bind _ _ = some next ↔ _
  rw [Option.bind_eq_some_iff]
  constructor
  · intro applied
    obtain ⟨between, updated, last⟩ := applied
    obtain ⟨rc, changed, found, done, rfl⟩ := updateClass_eq_some.mp updated
    obtain ⟨details, foundChild, rfl⟩ := updateChild_eq_some.mp last
    cases done
    exact ⟨rc, details, found, foundChild, rfl⟩
  · intro changes
    obtain ⟨rc, details, found, foundChild, rfl⟩ := changes
    exact ⟨_, updateClass_eq_some.mpr ⟨rc, _, found, rfl, rfl⟩,
      updateChild_eq_some.mpr ⟨details, foundChild, rfl⟩⟩

theorem get_revokeResponses (children : HashMap ChildHandle ChildDetails)
    (removed : List KeyIdentifier) (child : ChildHandle) :
    (revokeResponses children removed).get child =
      (children.get child).map fun details => removed.foldl ChildDetails.loseKey details := by
  induction removed generalizing children with
  | nil => simp [revokeResponses]
  | cons key rest induction =>
    change (revokeResponses (children.mapValues _) rest).get child = _
    rw [induction, get_mapValues, Option.map_map]
    rfl

inductive Effect (env : Surroundings) (ca : CertAuth) : CaEvtDet → CertAuth → Prop
  | onClass {event : CaEvtDet} {rcn : ResourceClassName} (about : event.target = some rcn)
      (found : ca.resources.get rcn = some rc) (done : event.onClass env rc = some changed) :
      Effect env ca event { ca with
        resources := ca.resources.insert rcn changed
        children := revokeResponses ca.children event.revokedKeys }
  | trustAnchorMade {next : CertAuth} (numbered : next.nextClassName = ca.nextClassName + 1)
      (added : next.resources = ca.resources.insert (.ofNumber ca.nextClassName)
        (.forTa env.now (.ofNumber ca.nextClassName) details.cert.keyIdentifier))
      (children : next.children = ca.children) (handle : next.handle = ca.handle) :
      Effect env ca (.trustAnchorMade details) next
  | resourceClassAdded {rcn : ResourceClassName} :
      Effect env ca (.resourceClassAdded rcn parent parentRcn pendingKey) { ca with
        nextClassName := ca.nextClassName + 1
        resources := ca.resources.insert rcn
          (.create env.now rcn rcn parent parentRcn pendingKey) }
  | resourceClassRemoved {rcn : ResourceClassName} :
      Effect env ca (.resourceClassRemoved rcn parent requests)
        { ca with resources := ca.resources.remove rcn }
  | parentRemoved :
      Effect env ca (.parentRemoved parent) { ca with
        parents := ca.parents.remove parent
        resources := ca.resources.filter fun _ rc => rc.parentHandle != parent }
  | repoUpdated {next : CertAuth}
      (classes : ∀ rcn, next.resources.get rcn = (ca.resources.get rcn).map fun rc =>
        match ca.repository with
        | some current => rc.setOldRepo current.repoInfo
        | none => rc) (numbered : next.nextClassName = ca.nextClassName)
      (children : next.children = ca.children) (handle : next.handle = ca.handle) :
      Effect env ca (.repoUpdated contact) next
  | childCertificateIssued {child : ChildHandle} {rcn : ResourceClassName} {key : KeyIdentifier}
      (found : ca.children.get child = some details) :
      Effect env ca (.childCertificateIssued child rcn key)
        { ca with children := ca.children.insert child (details.addIssueResponse rcn key) }
  | childKeyRevoked {child : ChildHandle} {rcn : ResourceClassName} {key : KeyIdentifier}
      (found : ca.resources.get rcn = some rc) (foundChild : ca.children.get child = some details) :
      Effect env ca (.childKeyRevoked child rcn key) { ca with
        resources := ca.resources.insert rcn (rc.keyRevoked key)
        children := ca.children.insert child (details.addRevokeResponse key) }
  /-- A child is added without keys, or changed with its keys as they are. -/
  | childChanged {event : CaEvtDet} {child : ChildHandle}
      (unpublished : event.isPublished = false) (keys : details.usedKeys = .empty ∨
        ∃ before, ca.children.get child = some before ∧ details.usedKeys = before.usedKeys) :
      Effect env ca event { ca with children := ca.children.insert child details }
  | childRemoved {child : ChildHandle} :
      Effect env ca (.childRemoved child) { ca with children := ca.children.remove child }
  | other {event : CaEvtDet} {next : CertAuth} (unpublished : event.isPublished = false)
      (classes : next.resources = ca.resources) (children : next.children = ca.children)
      (numbered : next.nextClassName = ca.nextClassName) (handle : next.handle = ca.handle) :
      Effect env ca event next

theorem effect_of_updateChild {ca : CertAuth} (unpublished : event.isPublished = false)
    (updated : ca.updateChild child change = some next)
    (keys : ∀ details, (change details).usedKeys = details.usedKeys) :
    Effect env ca event next := by
  obtain ⟨details, found, rfl⟩ := updateChild_eq_some.mp updated
  exact .childChanged unpublished (.inr ⟨details, found, keys details⟩)

theorem effect_of_apply {ca : CertAuth} (applied : ca.applyDetails env event = some next) :
    Effect env ca event next := by
  have targeted {rcn : ResourceClassName} (about : event.target = some rcn) :
      Effect env ca event next := by
    obtain ⟨rc, changed, found, done, rfl⟩ := (applyDetails_target_eq_some about).mp applied
    exact .onClass about found done
  cases event with
  | trustAnchorMade => cases applied; exact .trustAnchorMade rfl rfl rfl rfl
  | childAdded => cases applied; exact .childChanged rfl (.inl rfl)
  | childCertificateIssued =>
    obtain ⟨details, found, rfl⟩ := updateChild_eq_some.mp applied
    exact .childCertificateIssued found
  | childKeyRevoked =>
    obtain ⟨rc, details, found, foundChild, rfl⟩ := applyDetails_childKeyRevoked.mp applied
    exact .childKeyRevoked found foundChild
  | childUpdatedIdCert => exact effect_of_updateChild rfl applied fun _ => rfl
  | childUpdatedResources => exact effect_of_updateChild rfl applied fun _ => rfl
  | childSuspended => exact effect_of_updateChild rfl applied fun _ => rfl
  | childUnsuspended => exact effect_of_updateChild rfl applied fun _ => rfl
  | childRemoved => cases applied; exact .childRemoved
  | parentRemoved => cases applied; exact .parentRemoved
  | resourceClassAdded => cases applied; exact .resourceClassAdded
  | resourceClassRemoved => cases applied; exact .resourceClassRemoved
  | repoUpdated contact =>
    cases applied
    refine .repoUpdated (fun rcn => ?_) rfl rfl rfl
    cases ca.repository with
    | none => exact Option.map_id'.symm
    | some current => exact get_mapValues _ _ _
  | aspaConfigUpdated =>
    obtain ⟨aspas, _, rfl⟩ := Option.map_eq_some_iff.mp applied
    exact .other rfl rfl rfl rfl rfl
  | idUpdated | parentAdded | parentUpdated | unexpectedKeyFound | routeAuthorizationAdded
  | routeAuthorizationComment | routeAuthorizationRemoved | aspaConfigAdded
  | aspaConfigRemoved | bgpSecDefinitionAdded | bgpSecDefinitionUpdated
  | bgpSecDefinitionRemoved | rtaSigned | rtaPrepared =>
    cases applied
    exact .other rfl rfl rfl rfl rfl
  | childCertificatesUpdated | certificateRequested | certificateReceived
  | keyRollPendingKeyAdded | keyPendingToNew | keyPendingToActive | keyRollActivated
  | keyRollFinished | roasUpdated | aspaObjectsUpdated | bgpSecCertificatesUpdated =>
    exact targeted rfl

theorem handle_of_apply {ca : CertAuth} (applied : ca.applyDetails env event = some next) :
    next.handle = ca.handle := by
  cases effect_of_apply applied <;> first | rfl | assumption

theorem version_repository_of_apply {ca : CertAuth}
    (applied : ca.applyDetails env event = some next) :
    next.version = ca.version ∧ next.repository = event.newRepository.or ca.repository := by
  cases about : event.target with
  | some rcn =>
    obtain ⟨rc, changed, found, done, rfl⟩ := (applyDetails_target_eq_some about).mp applied
    cases event <;> first | exact ⟨rfl, rfl⟩ | cases about
  | none =>
    cases event with
    | childCertificateIssued | childUpdatedIdCert | childUpdatedResources | childSuspended
    | childUnsuspended =>
      obtain ⟨details, found, rfl⟩ := updateChild_eq_some.mp applied
      exact ⟨rfl, rfl⟩
    | childKeyRevoked =>
      obtain ⟨rc, details, found, foundChild, rfl⟩ :=
        applyDetails_childKeyRevoked.mp applied
      exact ⟨rfl, rfl⟩
    | aspaConfigUpdated =>
      obtain ⟨aspas, _, rfl⟩ := Option.map_eq_some_iff.mp applied
      exact ⟨rfl, rfl⟩
    | _ => first | (cases applied; exact ⟨rfl, rfl⟩) | cases about

theorem repository_of_apply {ca : CertAuth} (applied : ca.applyDetails env event = some next) :
    next.repository = event.newRepository.or ca.repository :=
  (version_repository_of_apply applied).2

end CertAuth

def CertAuth.keyUse (self : CertAuth) (child : ChildHandle) (key : KeyIdentifier) :
    Option UsedKeyState :=
  (self.children.get child).bind fun details => details.usedKeys.get key

namespace CaEvtDet

def onKeyUse (child : ChildHandle) (key : KeyIdentifier) (event : CaEvtDet)
    (before : Option UsedKeyState) : Option UsedKeyState :=
  match event with
  | .childAdded other _ _ => if child = other then none else before
  | .childRemoved other => if child = other then none else before
  | .childCertificateIssued other rcn issued =>
    if child = other ∧ key = issued then some (.current rcn) else before
  | .childKeyRevoked other _ revoked =>
    if child = other ∧ key = revoked then some .revoked else before
  | event => if key ∈ event.revokedKeys then before.map fun _ => .revoked else before

variable {event : CaEvtDet}

theorem isAboutChild_of_target (targeted : event.target = some rcn) :
    event.isAboutChild = false := by
  cases event <;> first | rfl | cases targeted

theorem onKeyUse_of_unrelated (unrelated : event.isAboutChild = false)
    (before : Option UsedKeyState) :
    event.onKeyUse child key before =
      if key ∈ event.revokedKeys then before.map fun _ => .revoked else before := by
  cases event <;> first | rfl | cases unrelated

theorem current_of_onKeyUse (current : event.onKeyUse child key use = some (.current rcn)) :
    event = .childCertificateIssued child rcn key ∨ use = some (.current rcn) := by
  unfold onKeyUse at current
  split at current <;> split at current <;> simp_all

end CaEvtDet

namespace CertAuth

variable {ca next : CertAuth}

theorem usedKeys_loseKeys (removed : List KeyIdentifier) :
    (removed.foldl ChildDetails.loseKey details).usedKeys.get key =
      if key ∈ removed then (details.usedKeys.get key).map fun _ => .revoked
      else details.usedKeys.get key := by
  induction removed generalizing details with
  | nil => rfl
  | cons first rest induction =>
    have lost : (details.loseKey first).usedKeys.get key =
        if key = first then (details.usedKeys.get key).map fun _ => .revoked
        else details.usedKeys.get key := by
      unfold ChildDetails.loseKey ChildDetails.isIssued
      by_cases same : key = first
      · subst same
        rw [if_pos rfl]
        cases use : details.usedKeys.get key with
        | none => exact use
        | some state =>
          cases state with
          | current rcn => exact get_insert_self _ _ _
          | revoked => exact use
      · rw [if_neg same]
        split
        · exact (get_insert _ _ _ _).trans (if_neg same)
        · rfl
    rw [List.foldl_cons, induction, lost]
    by_cases same : key = first <;> by_cases inRest : key ∈ rest <;>
      simp [same, inRest, Function.comp_def]

theorem keyUse_of_insert (children : next.children = ca.children.insert other details) :
    next.keyUse child key =
      if child = other then details.usedKeys.get key else ca.keyUse child key := by
  unfold keyUse
  rw [children, get_insert]
  split <;> rfl

theorem keyUse_of_insertKey (found : ca.children.get other = some details)
    (children : next.children = ca.children.insert other
      { details with usedKeys := details.usedKeys.insert changed state }) :
    next.keyUse child key =
      if child = other ∧ key = changed then some state else ca.keyUse child key := by
  rw [keyUse_of_insert children]
  by_cases same : child = other
  · subst same
    rw [if_pos rfl, get_insert]
    unfold keyUse
    rw [found]
    by_cases sameKey : key = changed
    · rw [if_pos sameKey, if_pos ⟨rfl, sameKey⟩]
    · rw [if_neg sameKey, if_neg fun both => sameKey both.2]
      rfl
  · rw [if_neg same, if_neg fun both => same both.1]

theorem keyUse_of_updateChild {change : ChildDetails → ChildDetails}
    (updated : ca.updateChild other change = some next)
    (keys : ∀ details, (change details).usedKeys = details.usedKeys) :
    next.keyUse child key = ca.keyUse child key := by
  obtain ⟨details, found, rfl⟩ := updateChild_eq_some.mp updated
  rw [keyUse_of_insert rfl]
  split
  · next same =>
    unfold keyUse
    rw [same, found, keys]
    rfl
  · rfl

theorem keyUse_of_apply (applied : ca.applyDetails env event = some next) :
    next.keyUse child key = event.onKeyUse child key (ca.keyUse child key) := by
  have targeted {rcn : ResourceClassName} (about : event.target = some rcn) :
      next.keyUse child key = event.onKeyUse child key (ca.keyUse child key) := by
    obtain ⟨rc, changed, _, _, rfl⟩ := (applyDetails_target_eq_some about).mp applied
    rw [CaEvtDet.onKeyUse_of_unrelated (CaEvtDet.isAboutChild_of_target about)]
    unfold keyUse
    dsimp only
    rw [get_revokeResponses]
    cases ca.children.get child with
    | none => split <;> rfl
    | some details => exact usedKeys_loseKeys _
  cases event with
  | childAdded other idCert resources =>
    cases applied
    refine (keyUse_of_insert rfl).trans ?_
    unfold CaEvtDet.onKeyUse
    dsimp only
    split
    · exact get_empty _
    · rfl
  | childRemoved other =>
    cases applied
    unfold CaEvtDet.onKeyUse keyUse
    dsimp only
    rw [get_remove]
    split <;> rfl
  | childCertificateIssued other rcn issued =>
    obtain ⟨details, found, rfl⟩ := updateChild_eq_some.mp applied
    exact keyUse_of_insertKey found rfl
  | childKeyRevoked other rcn revoked =>
    obtain ⟨rc, details, _, found, rfl⟩ := applyDetails_childKeyRevoked.mp applied
    exact keyUse_of_insertKey found rfl
  | childUpdatedIdCert => exact keyUse_of_updateChild applied fun _ => rfl
  | childUpdatedResources => exact keyUse_of_updateChild applied fun _ => rfl
  | childSuspended => exact keyUse_of_updateChild applied fun _ => rfl
  | childUnsuspended => exact keyUse_of_updateChild applied fun _ => rfl
  | aspaConfigUpdated =>
    obtain ⟨aspas, _, rfl⟩ := Option.map_eq_some_iff.mp applied
    rfl
  | childCertificatesUpdated | certificateRequested | certificateReceived
  | keyRollPendingKeyAdded | keyPendingToNew | keyPendingToActive | keyRollActivated
  | keyRollFinished | roasUpdated | aspaObjectsUpdated | bgpSecCertificatesUpdated =>
    exact targeted rfl
  | _ => cases applied; rfl

theorem usedKey_of_apply (applied : ca.applyDetails env event = some next)
    (found : next.children.get child = some details)
    (used : details.usedKeys.get key = some (.current rcn)) :
    (∃ before, ca.children.get child = some before ∧
      before.usedKeys.get key = some (.current rcn)) ∨
    event = .childCertificateIssued child rcn key := by
  have use : next.keyUse child key = some (.current rcn) :=
    Option.bind_eq_some_iff.mpr ⟨details, found, used⟩
  rw [keyUse_of_apply applied] at use
  exact (CaEvtDet.current_of_onKeyUse use).symm.imp_left Option.bind_eq_some_iff.mp

end CertAuth

end Krill.Ca
