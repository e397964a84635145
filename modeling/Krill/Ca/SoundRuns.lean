import Krill.Ca.Sound

namespace Krill.Ca

variable [Rpki]

namespace CertAuth

def applyNext (env : Surroundings) (self : CertAuth) (details : CaEvtDet) : Option CertAuth :=
  applyDetails { self with version := self.version + 1 } env details

def applyNextAll (env : Surroundings) (self : CertAuth) (details : List CaEvtDet) :
    Option CertAuth :=
  details.foldlM (applyNext env) self

theorem applyAll_eq (env : Surroundings) (ca : CertAuth) (events : List CaEvt) :
    ca.applyAll env events = ca.applyNextAll env (events.map StoredEvent.details) := by
  unfold applyAll applyNextAll
  induction events generalizing ca with
  | nil => rfl
  | cons event rest induction =>
    rw [List.map_cons, List.foldlM_cons, List.foldlM_cons]
    exact bind_congr fun next => induction next

variable {ca : CertAuth}

theorem applyNextAll_cons : ca.applyNextAll env (event :: rest) = some last ↔
      ∃ next, ca.applyNext env event = some next ∧ next.applyNextAll env rest = some last := by
  unfold applyNextAll
  rw [List.foldlM_cons]
  exact Option.bind_eq_some_iff

theorem applyNextAll_append : ca.applyNextAll env (first ++ second) = some last ↔
      ∃ next, ca.applyNextAll env first = some next ∧
        next.applyNextAll env second = some last := by
  unfold applyNextAll
  rw [List.foldlM_append]
  exact Option.bind_eq_some_iff

theorem details_eventsFromDetails (ca : CertAuth) (details : List CaEvtDet) :
    (ca.eventsFromDetails details).map StoredEvent.details = details := by
  unfold eventsFromDetails
  rw [List.map_map]
  exact List.zipIdx_map_fst 0 details

def SoundAll (env : Surroundings) : CertAuth → List CaEvtDet → Prop
  | _, [] => True
  | ca, event :: rest => ca.Sound event ∧
      ∀ next, ca.applyNext env event = some next → SoundAll env next rest

theorem applyNext_of_sound (env : Surroundings) (sound : ca.Sound event) :
    ∃ next, ca.applyNext env event = some next :=
  applyDetails_of_sound env sound

theorem SoundAll.applied (sound : SoundAll env ca events) :
    ∃ last, ca.applyNextAll env events = some last := by
  induction events generalizing ca with
  | nil => exact ⟨ca, rfl⟩
  | cons event rest induction =>
    obtain ⟨inPlace, later⟩ := sound
    obtain ⟨next, done⟩ := applyNext_of_sound env inPlace
    obtain ⟨last, finished⟩ := induction (later next done)
    exact ⟨last, applyNextAll_cons.mpr ⟨next, done, finished⟩⟩

theorem soundAll_append (sound : SoundAll env ca first)
    (later : ∀ next, ca.applyNextAll env first = some next → SoundAll env next second) :
    SoundAll env ca (first ++ second) := by
  induction first generalizing ca with
  | nil => exact later ca rfl
  | cons event rest induction =>
    refine ⟨sound.1, fun next done => induction (sound.2 next done) fun last finished => ?_⟩
    exact later last (applyNextAll_cons.mpr ⟨next, done, finished⟩)

theorem soundAll_singleton (sound : ca.Sound event) : SoundAll env ca [event] :=
  ⟨sound, fun _ _ => trivial⟩

theorem soundAll_of_stable (holds : CertAuth → Prop) (initially : holds ca)
    (sound : ∀ event ∈ events, ∀ ca, holds ca → ca.Sound event)
    (stable : ∀ event ∈ events, ∀ ca next, holds ca → ca.applyNext env event = some next →
      holds next) : SoundAll env ca events := by
  induction events generalizing ca with
  | nil => trivial
  | cons event rest induction =>
    have here : event ∈ event :: rest := List.mem_cons_self
    refine ⟨sound event here ca initially, fun next done => ?_⟩
    exact induction (stable event here ca next initially done)
      (fun other member => sound other (List.mem_cons_of_mem _ member))
      (fun other member => stable other (List.mem_cons_of_mem _ member))

theorem holds_of_applied (holds : CertAuth → Prop) (initially : holds ca)
    (stable : ∀ event ∈ events, ∀ ca next, holds ca → ca.applyNext env event = some next →
      holds next) (applied : ca.applyNextAll env events = some last) : holds last := by
  induction events generalizing ca with
  | nil => cases applied; exact initially
  | cons first rest induction =>
    obtain ⟨next, done, finished⟩ := applyNextAll_cons.mp applied
    exact induction (stable first List.mem_cons_self ca next initially done)
      (fun other listed => stable other (List.mem_cons_of_mem _ listed)) finished

theorem exists_applied (holds : CertAuth → Prop) (initially : holds ca)
    (stable : ∀ event ∈ events, ∀ ca next, holds ca → ca.applyNext env event = some next →
      holds next) (applied : ca.applyNextAll env events = some last) (member : event ∈ events) :
    ∃ before next, holds before ∧ before.applyNext env event = some next := by
  obtain ⟨first, rest, rfl⟩ := List.append_of_mem member
  obtain ⟨middle, started, applied⟩ := applyNextAll_append.mp applied
  obtain ⟨next, done, _⟩ := applyNextAll_cons.mp applied
  exact ⟨middle, next, holds_of_applied holds initially
    (fun other listed => stable other (List.mem_append_left _ listed)) started, done⟩

theorem Consistent.applyNext (consistent : ca.Consistent) (orderly : ca.Orderly event)
    (applied : ca.applyNext env event = some next) : next.Consistent := by
  have same : ({ ca with version := ca.version + 1 } : CertAuth).Consistent :=
    ⟨consistent.named, consistent.numbered, consistent.usedNumbered, consistent.usedCertified⟩
  exact same.apply orderly applied

def OrderlyAll (env : Surroundings) : CertAuth → List CaEvtDet → Prop
  | _, [] => True
  | ca, event :: rest => ca.Orderly event ∧
      ∀ next, ca.applyNext env event = some next → OrderlyAll env next rest

theorem SoundAll.orderly (sound : SoundAll env ca events) : OrderlyAll env ca events := by
  induction events generalizing ca with
  | nil => trivial
  | cons event rest induction =>
    exact ⟨sound.1.orderly, fun next done => induction (sound.2 next done)⟩

theorem Consistent.applyNextAll (consistent : ca.Consistent) (orderly : OrderlyAll env ca events)
    (applied : ca.applyNextAll env events = some last) : last.Consistent := by
  induction events generalizing ca with
  | nil => cases applied; exact consistent
  | cons event rest induction =>
    obtain ⟨next, done, finished⟩ := applyNextAll_cons.mp applied
    exact induction (consistent.applyNext orderly.1 done) (orderly.2 next done) finished

structure Keeps (touched : ResourceClassName → Prop) (ca next : CertAuth) : Prop where
  classes : ∀ {rcn}, ¬touched rcn → next.resources.get rcn = ca.resources.get rcn
  numbered : next.nextClassName = ca.nextClassName
  children : ∀ {child}, ca.hasChild child → next.hasChild child
  aspas : next.aspas = ca.aspas

namespace Keeps

theorem refl (touched : ResourceClassName → Prop) (ca : CertAuth) : Keeps touched ca ca :=
  ⟨fun _ => rfl, rfl, fun known => known, rfl⟩

theorem trans (before : Keeps touched first second) (after : Keeps touched second third) :
    Keeps touched first third where
  classes := fun other => (after.classes other).trans (before.classes other)
  numbered := after.numbered.trans before.numbered
  children := fun known => after.children (before.children known)
  aspas := after.aspas.trans before.aspas

theorem ofTarget (about : event.target = some rcn) (applied : ca.applyNext env event = some next) :
    Keeps (· = rcn) ca next := by
  obtain ⟨rc, changed, found, done, rfl⟩ := (applyDetails_target_eq_some about).mp applied
  refine ⟨fun other => ?_, rfl, fun known => ?_, rfl⟩
  · exact (HashMap.get_insert _ _ _ _).trans (if_neg other)
  · change Option.isSome _ = true
    rw [get_revokeResponses, Option.isSome_map]
    exact known

theorem ofTargets (about : ∀ event ∈ events, ∃ rcn, event.target = some rcn ∧ touched rcn)
    (applied : ca.applyNextAll env events = some last) : Keeps touched ca last := by
  refine holds_of_applied (Keeps touched ca) (.refl _ _) (fun event member _ _ kept done => ?_)
    applied
  obtain ⟨rcn, targeted, inside⟩ := about event member
  have other := ofTarget targeted done
  exact kept.trans { other with
    classes := fun apart => other.classes fun same => apart (same ▸ inside) }

end Keeps

end CertAuth

def ClassSound (env : Surroundings) : ResourceClass → List CaEvtDet → Prop
  | _, [] => True
  | rc, event :: rest => event.Fits rc ∧
      ∀ changed, event.onClass env rc = some changed → ClassSound env changed rest

/-- All events are about a class, and they are in place one after the other. -/
structure SoundFor (env : Surroundings) (rcn : ResourceClassName) (rc : ResourceClass)
    (events : List CaEvtDet) : Prop where
  about : ∀ event ∈ events, event.target = some rcn
  sound : ClassSound env rc events

namespace SoundFor

theorem nil : SoundFor env rcn rc [] :=
  ⟨List.forall_mem_nil _, trivial⟩

theorem cons (about : event.target = some rcn) (fits : event.Fits rc)
    (later : ∀ changed, event.onClass env rc = some changed →
      SoundFor env rcn changed rest) : SoundFor env rcn rc (event :: rest) := by
  refine ⟨fun other member => ?_, fits, fun changed done => (later changed done).sound⟩
  obtain ⟨changed, done⟩ := CaEvtDet.onClass_of_fits env about fits
  obtain rfl | member := List.mem_cons.mp member
  · exact about
  · exact (later changed done).about other member

theorem ofObjects (certified : rc.currentKey.isSome)
    (objects : ∀ event ∈ events, event.target = some rcn ∧ event.isAboutKeys = false) :
    SoundFor env rcn rc events := by
  induction events generalizing rc with
  | nil => exact .nil
  | cons event rest induction =>
    obtain ⟨about, objectsOnly⟩ := objects event List.mem_cons_self
    refine .cons about (event.fits_of_objects objectsOnly certified) ?_
    intro changed done
    exact induction (CaEvtDet.currentKey_onClass done certified)
      fun other member => objects other (List.mem_cons_of_mem _ member)

end SoundFor

end Krill.Ca
