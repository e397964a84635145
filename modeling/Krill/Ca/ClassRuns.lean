import Krill.Ca.SoundRuns

namespace Krill.Ca

open CaEvtDet

variable [Rpki]

namespace CaEvtDet

/-- Whether an event leaves all classes as they are, or changes just the one it is about. -/
def isPlain : CaEvtDet → Bool
  | .trustAnchorMade _
  | .childKeyRevoked _ _ _
  | .parentRemoved _
  | .resourceClassAdded _ _ _ _
  | .resourceClassRemoved _ _ _
  | .repoUpdated _ => false
  | _ => true

def about (rcn : ResourceClassName) (events : List CaEvtDet) : List CaEvtDet :=
  events.filter fun event => event.target = some rcn

def onClassAll (env : Surroundings) (events : List CaEvtDet) (rc : ResourceClass) :
    Option ResourceClass :=
  events.foldlM (fun rc event => event.onClass env rc) rc

variable {event : CaEvtDet}

theorem onClassAll_cons : onClassAll env (event :: rest) rc = some last ↔
      ∃ changed, event.onClass env rc = some changed ∧ onClassAll env rest changed = some last := by
  unfold onClassAll
  rw [List.foldlM_cons]
  exact Option.bind_eq_some_iff

theorem onClassAll_append : onClassAll env (first ++ second) rc = some last ↔
      ∃ changed, onClassAll env first rc = some changed ∧
        onClassAll env second changed = some last := by
  unfold onClassAll
  rw [List.foldlM_append]
  exact Option.bind_eq_some_iff

theorem about_append (rcn : ResourceClassName) (first second : List CaEvtDet) :
    about rcn (first ++ second) = about rcn first ++ about rcn second :=
  List.filter_append _ _

theorem about_eq_self (targeted : ∀ event ∈ events, event.target = some rcn) :
    about rcn events = events :=
  List.filter_eq_self.mpr fun event member => decide_eq_true (targeted event member)

theorem about_eq_nil (elsewhere : ∀ event ∈ events, event.target ≠ some rcn) :
    about rcn events = [] :=
  List.filter_eq_nil_iff.mpr fun event member targeted =>
    elsewhere event member (of_decide_eq_true targeted)

theorem about_cons_self (targeted : event.target = some rcn) :
    about rcn (event :: events) = event :: about rcn events :=
  List.filter_cons_of_pos (decide_eq_true targeted)

theorem about_cons_other (elsewhere : event.target ≠ some rcn) :
    about rcn (event :: events) = about rcn events :=
  List.filter_cons_of_neg (by simpa using elsewhere)

theorem about_flatMap {items : List A} (distinct : (items.map name).Nodup)
    (targeted : ∀ item ∈ items, ∀ event ∈ own item, event.target = some (name item))
    (member : item ∈ items) : about (name item) (items.flatMap own) = own item := by
  induction items with
  | nil => exact absurd member List.not_mem_nil
  | cons first rest induction =>
    obtain ⟨fresh, distinctRest⟩ := List.nodup_cons.mp distinct
    have targetedRest : ∀ other ∈ rest, ∀ event ∈ own other,
        event.target = some (name other) := fun other listed =>
      targeted other (List.mem_cons_of_mem _ listed)
    rw [List.flatMap_cons, about_append]
    obtain rfl | listed := List.mem_cons.mp member
    · rw [about_eq_self (targeted item List.mem_cons_self), about_eq_nil, List.append_nil]
      intro event inRest same
      obtain ⟨other, listed, inOther⟩ := List.mem_flatMap.mp inRest
      rw [targetedRest other listed event inOther, Option.some.injEq] at same
      exact fresh (List.mem_map.mpr ⟨other, listed, same⟩)
    · rw [induction distinctRest targetedRest listed, about_eq_nil, List.nil_append]
      intro event inFirst same
      rw [targeted first List.mem_cons_self event inFirst, Option.some.injEq] at same
      exact fresh (List.mem_map.mpr ⟨item, listed, same.symm⟩)

theorem isPlain_of_target (targeted : event.target = some rcn) : event.isPlain := by
  cases event <;> first | rfl | cases targeted

end CaEvtDet

theorem Roas.updated_of_isEmpty {roas : Roas} (order : IterOrder) (unchanged : updates.isEmpty) :
    roas.updated order updates = roas := by
  have empty {K : Type} {map : HashMap K RoaInfo} (isEmpty : map.isEmpty) :
      map.iter order = [] := by
    rw [HashMap.iter, List.isEmpty_iff.mp isEmpty]
    exact List.perm_nil.mp (order.perm [])
  unfold RoaUpdates.isEmpty at unchanged
  simp only [Bool.and_eq_true] at unchanged
  obtain ⟨⟨⟨simpleEmpty, simpleRemoved⟩, aggregateEmpty⟩, aggregateRemoved⟩ := unchanged
  unfold Roas.updated
  rw [empty simpleEmpty, empty aggregateEmpty, List.isEmpty_iff.mp simpleRemoved,
    List.isEmpty_iff.mp aggregateRemoved]
  rfl

theorem AspaObjects.updated_of_isEmpty {aspas : AspaObjects} (unchanged : updates.isEmpty) :
    aspas.updated updates = aspas := by
  unfold AspaObjectsUpdates.isEmpty at unchanged
  simp only [Bool.and_eq_true, List.isEmpty_iff] at unchanged
  unfold AspaObjects.updated
  rw [unchanged.1, unchanged.2]
  rfl

theorem BgpSecCertificates.updated_of_isEmpty {certs : BgpSecCertificates}
    (unchanged : updates.isEmpty) : certs.updated updates = certs := by
  unfold BgpSecCertificateUpdates.isEmpty at unchanged
  simp only [Bool.and_eq_true, List.isEmpty_iff] at unchanged
  unfold BgpSecCertificates.updated
  rw [unchanged.1, unchanged.2]
  rfl

theorem ChildCertificates.updated_of_isEmpty {certs : ChildCertificates}
    (unchanged : updates.isEmpty) : certs.updated updates = certs := by
  unfold ChildCertificateUpdates.isEmpty at unchanged
  simp only [Bool.and_eq_true, List.isEmpty_iff] at unchanged
  obtain ⟨⟨⟨issued, removed⟩, suspended⟩, unsuspended⟩ := unchanged
  unfold ChildCertificates.updated
  rw [issued, removed, suspended, unsuspended]
  rfl

def ResourceClass.childCertificatesUpdated (self : ResourceClass)
    (updates : ChildCertificateUpdates) : ResourceClass :=
  { self with certificates := self.certificates.updated updates }

namespace CaEvtDet

variable (env : Surroundings) (rcn : ResourceClassName) (rc : ResourceClass)

@[simp] theorem onClassAll_singleton (event : CaEvtDet) :
    onClassAll env [event] rc = event.onClass env rc := by
  unfold onClassAll
  rw [List.foldlM_cons]
  cases event.onClass env rc <;> rfl

theorem onClassAll_roaUpdates (updates : RoaUpdates) :
    onClassAll env (updates.events rcn) rc = some (rc.roasUpdated env.order updates) := by
  unfold RoaUpdates.events RoaUpdates.containsChanges
  cases unchanged : updates.isEmpty with
  | false => rfl
  | true =>
    rw [ResourceClass.roasUpdated, Roas.updated_of_isEmpty _ unchanged]
    rfl

theorem onClassAll_aspaUpdates (updates : AspaObjectsUpdates) :
    onClassAll env (updates.events rcn) rc = some (rc.aspaObjectsUpdated updates) := by
  unfold AspaObjectsUpdates.events AspaObjectsUpdates.containsChanges
  cases unchanged : updates.isEmpty with
  | false => rfl
  | true =>
    rw [ResourceClass.aspaObjectsUpdated, AspaObjects.updated_of_isEmpty unchanged]
    rfl

theorem onClassAll_bgpsecUpdates (updates : BgpSecCertificateUpdates) :
    onClassAll env (updates.events rcn) rc = some (rc.bgpsecCertificatesUpdated updates) := by
  unfold BgpSecCertificateUpdates.events BgpSecCertificateUpdates.containsChanges
  cases unchanged : updates.isEmpty with
  | false => rfl
  | true =>
    rw [ResourceClass.bgpsecCertificatesUpdated, BgpSecCertificates.updated_of_isEmpty unchanged]
    rfl

theorem onClass_childCertificatesUpdated (updates : ChildCertificateUpdates) :
    (childCertificatesUpdated rcn updates).onClass env rc =
      some (rc.childCertificatesUpdated updates) :=
  congrArg some (CertAuth.certificatesUpdated_eq rc updates)

theorem onClassAll_certUpdates :
    onClassAll env (updates.events rcn) rc = some (rc.childCertificatesUpdated updates) := by
  unfold ChildCertificateUpdates.events
  cases unchanged : updates.isEmpty with
  | false =>
    rw [if_neg Bool.false_ne_true, onClassAll_singleton]
    exact onClass_childCertificatesUpdated env rcn rc updates
  | true =>
    rw [ResourceClass.childCertificatesUpdated, ChildCertificates.updated_of_isEmpty unchanged]
    rfl

end CaEvtDet

def ResourceClass.objectsUpdated (self : ResourceClass) (order : IterOrder) (roas : RoaUpdates)
    (aspas : AspaObjectsUpdates) (bgpsecs : BgpSecCertificateUpdates)
    (certs : ChildCertificateUpdates) : ResourceClass :=
  { self with
    roas := self.roas.updated order roas
    aspas := self.aspas.updated aspas
    bgpsecCertificates := self.bgpsecCertificates.updated bgpsecs
    certificates := self.certificates.updated certs }

namespace CaEvtDet

theorem onClassAll_changed : onClassAll env (certs.events rcn ++ roas.events rcn ++
      aspas.events rcn ++ bgpsecs.events rcn) rc =
    some (rc.objectsUpdated env.order roas aspas bgpsecs certs) := by
  refine onClassAll_append.mpr ⟨_, onClassAll_append.mpr ⟨_, onClassAll_append.mpr
    ⟨_, onClassAll_certUpdates .., onClassAll_roaUpdates ..⟩, onClassAll_aspaUpdates ..⟩, ?_⟩
  exact onClassAll_bgpsecUpdates ..

theorem onClassAll_started : onClassAll env (roas.events rcn ++ aspas.events rcn ++
      bgpsecs.events rcn) rc =
    some (rc.objectsUpdated env.order roas aspas bgpsecs .default) := by
  have unchanged : rc.certificates.updated .default = rc.certificates :=
    ChildCertificates.updated_of_isEmpty rfl
  unfold ResourceClass.objectsUpdated
  rw [unchanged]
  refine onClassAll_append.mpr ⟨_, onClassAll_append.mpr
    ⟨_, onClassAll_roaUpdates .., onClassAll_aspaUpdates ..⟩, ?_⟩
  exact onClassAll_bgpsecUpdates ..

theorem onClassAll_reissued : onClassAll env (roas.events rcn ++ aspas.events rcn ++
      certs.events rcn ++ bgpsecs.events rcn) rc =
    some (rc.objectsUpdated env.order roas aspas bgpsecs certs) := by
  refine onClassAll_append.mpr ⟨_, onClassAll_append.mpr ⟨_, onClassAll_append.mpr
    ⟨_, onClassAll_roaUpdates .., onClassAll_aspaUpdates ..⟩, onClassAll_certUpdates ..⟩, ?_⟩
  exact onClassAll_bgpsecUpdates ..

variable {env rc} in
theorem onClass_keys {event : CaEvtDet} (aboutKeys : event.isAboutKeys = true)
    (done : event.onClass env rc = some changed) :
    changed = { rc with keyState := changed.keyState } := by
  have keysOnly {state : KeyState} (same : some { rc with keyState := state } = some changed) :
      changed = { rc with keyState := changed.keyState } := by
    cases same
    rfl
  cases event with
  | certificateRequested => exact keysOnly done
  | certificateReceived _ cert key =>
    change rc.receivedCert key cert = some changed at done
    unfold ResourceClass.receivedCert at done
    split at done
    · cases done
    · exact keysOnly done
    · exact keysOnly done
    · split at done <;> exact keysOnly done
    · split at done <;> exact keysOnly done
  | keyRollPendingKeyAdded _ key =>
    change rc.pendingKeyIdAdded key = some changed at done
    unfold ResourceClass.pendingKeyIdAdded at done
    split at done
    · exact keysOnly done
    · cases done
  | keyPendingToNew _ key =>
    change rc.pendingKeyToNew key = some changed at done
    unfold ResourceClass.pendingKeyToNew at done
    split at done
    · exact keysOnly done
    · cases done
  | keyPendingToActive _ key =>
    change rc.pendingKeyToActive key = some changed at done
    unfold ResourceClass.pendingKeyToActive at done
    split at done
    · exact keysOnly done
    · cases done
  | keyRollActivated _ revokeReq =>
    change rc.newKeyActivated revokeReq = some changed at done
    unfold ResourceClass.newKeyActivated at done
    split at done
    · exact keysOnly done
    · cases done
  | keyRollFinished =>
    change rc.oldKeyRemoved = some changed at done
    unfold ResourceClass.oldKeyRemoved at done
    split at done
    · exact keysOnly done
    · cases done
  | _ => exact Bool.noConfusion aboutKeys

theorem keyState_of_objects {env : Surroundings} {rc : ResourceClass}
    (objects : ∀ event ∈ events, event.isAboutKeys = false)
    (done : onClassAll env events rc = some last) : last.keyState = rc.keyState := by
  induction events generalizing rc with
  | nil => cases done; rfl
  | cons event rest induction =>
    obtain ⟨changed, first, rested⟩ := onClassAll_cons.mp done
    refine (induction (fun other member => objects other (List.mem_cons_of_mem _ member))
      rested).trans ?_
    have objectsOnly := objects event List.mem_cons_self
    have step := (onClass_spec first).2
    generalize rc.keyState = before at step ⊢
    generalize changed.keyState = after at step ⊢
    cases step <;> first | rfl | cases objectsOnly

end CaEvtDet

namespace CertAuth

theorem resources_of_plain {ca : CertAuth} (plain : event.isPlain)
    (untargeted : event.target = none) (applied : ca.applyNext env event = some next) :
    next.resources = ca.resources := by
  cases effect_of_apply applied with
  | onClass targeted _ _ => rw [untargeted] at targeted; cases targeted
  | other _ classes _ _ _ => exact classes
  | trustAnchorMade => cases plain
  | resourceClassAdded => cases plain
  | resourceClassRemoved => cases plain
  | parentRemoved => cases plain
  | repoUpdated => cases plain
  | childKeyRevoked => cases plain
  | _ => rfl

theorem repository_of_plainAll {ca : CertAuth} (plain : ∀ event ∈ events, event.isPlain)
    (applied : ca.applyNextAll env events = some last) : last.repository = ca.repository :=
  holds_of_applied (fun next => next.repository = ca.repository) rfl
    (fun event member _ _ held done => by
      rw [repository_of_apply done, held]
      have plain := plain event member
      cases event <;> first | rfl | cases plain) applied

theorem resources_of_plainAll {ca : CertAuth}
    (plain : ∀ event ∈ events, event.isPlain ∧ event.target = none)
    (applied : ca.applyNextAll env events = some last) : last.resources = ca.resources :=
  holds_of_applied (fun next => next.resources = ca.resources) rfl
    (fun event member _ _ held done =>
      (resources_of_plain (plain event member).1 (plain event member).2 done).trans held) applied

theorem soundAll_of_about (targeted : ∀ event ∈ events, ∃ rcn,
      event.target = some rcn ∧ (ca.resources.get rcn).isSome)
    (sound : ∀ {rcn rc}, ca.resources.get rcn = some rc →
      ClassSound env rc (about rcn events)) : SoundAll env ca events := by
  induction events generalizing ca with
  | nil => trivial
  | cons event rest induction =>
    obtain ⟨rcn, about, present⟩ := targeted event List.mem_cons_self
    obtain ⟨rc, found⟩ := Option.isSome_iff_exists.mp present
    have own := sound found
    rw [about_cons_self about] at own
    refine ⟨sound_of_target about found own.1, fun next done => ?_⟩
    obtain ⟨before, changed, present, changes, rfl⟩ := (applyDetails_target_eq_some about).mp done
    cases found.symm.trans present
    refine induction (fun other member => ?_) fun {named other} present => ?_
    · obtain ⟨named, about, present⟩ := targeted other (List.mem_cons_of_mem _ member)
      exact ⟨named, about, HashMap.isSome_get_insert.mpr (.inr present)⟩
    · by_cases same : named = rcn
      · subst same
        cases (HashMap.get_insert_self _ _ _).symm.trans present
        exact own.2 changed changes
      · have later := sound (((HashMap.get_insert _ _ _ _).trans (if_neg same)).symm.trans present)
        rwa [about_cons_other (by simpa [about] using Ne.symm same)] at later

inductive ClassRun (env : Surroundings) (own : List CaEvtDet) :
    Option ResourceClass → Option ResourceClass → Prop
  | absent : ClassRun env own none none
  | changed {rc : ResourceClass} (done : onClassAll env own rc = some last) :
      ClassRun env own (some rc) (some last)

theorem ClassRun.nil (entry : Option ResourceClass) : ClassRun env [] entry entry := by
  cases entry with
  | none => exact .absent
  | some rc => exact .changed rfl

theorem ClassRun.eq_none (run : ClassRun env own none last) : last = none := by
  cases run
  rfl

theorem ClassRun.eq_of_nil (run : ClassRun env [] entry last) : last = entry := by
  cases run with
  | absent => rfl
  | changed done => exact done.symm

theorem classRun_of_plain {ca : CertAuth} (plain : ∀ event ∈ events, event.isPlain)
    (applied : ca.applyNextAll env events = some last) (rcn : ResourceClassName) :
    ClassRun env (about rcn events) (ca.resources.get rcn) (last.resources.get rcn) := by
  induction events generalizing ca with
  | nil => cases applied; exact .nil _
  | cons event rest induction =>
    obtain ⟨next, done, finished⟩ := applyNextAll_cons.mp applied
    have later := induction (fun other member => plain other (List.mem_cons_of_mem _ member))
      finished
    have skipped (other : event.target ≠ some rcn)
        (same : next.resources.get rcn = ca.resources.get rcn) :
        ClassRun env (about rcn (event :: rest)) (ca.resources.get rcn)
          (last.resources.get rcn) := by
      rw [about_cons_other other, ← same]
      exact later
    cases targeted : event.target with
    | none =>
      refine skipped (by rw [targeted]; exact nofun) ?_
      rw [resources_of_plain (plain event List.mem_cons_self) targeted done]
    | some named =>
      by_cases same : named = rcn
      · subst same
        obtain ⟨rc, changed, found, changes, rfl⟩ :=
          (applyDetails_target_eq_some targeted).mp done
        change ClassRun env _ ((ca.resources.insert named changed).get named) _ at later
        rw [HashMap.get_insert_self] at later
        change ca.resources.get named = some rc at found
        rw [found, about_cons_self targeted]
        generalize last.resources.get named = entry at later ⊢
        cases later with
        | changed rested =>
          exact .changed (onClassAll_cons.mpr ⟨changed, changes, rested⟩)
      · refine skipped (by rw [targeted]; simpa using same) ?_
        exact (Keeps.ofTarget targeted done).classes (fun equal => same equal.symm)

end CertAuth

end Krill.Ca
