import Krill.Ca.ClassChange

namespace Krill.Ca

open KrillSigner
open Stateful (Yields)

variable [Rpki] [KrillSigner]

def ResourceClass.origin (self : ResourceClass) : ParentHandle × ResourceClassName :=
  (self.parentHandle, self.parentRcName)

omit [KrillSigner] in
theorem CaEvtDet.origin_onClassAll (done : CaEvtDet.onClassAll later own rc = some after) :
    after.origin = rc.origin := by
  induction own generalizing rc with
  | nil => cases done; rfl
  | cons event rest induction =>
    obtain ⟨changed, first, done⟩ := onClassAll_cons.mp done
    rw [induction done, (onClass_spec first).1]
    rfl

def CertAuth.newClassNames (self : CertAuth) (env : Surroundings) (parent : ParentHandle)
    (entitlements : ResourceClassListResponse) : List ResourceClassName :=
  (entitlements.map (·.className)).filter fun name =>
    (self.findParentRc env.order parent name).isNone

def CmdDet.NamesClassesOnce (ca : CertAuth) (env : Surroundings) : CmdDet → Prop
  | .updateEntitlements parent entitlements => (ca.newClassNames env parent entitlements).Nodup
  | _ => True

def CmdDet.addsClasses : CmdDet → Bool
  | .updateEntitlements _ _ | .makeTrustAnchor _ _ => true
  | _ => false

namespace CertAuth

def OnePerOrigin (self : CertAuth) : Prop :=
  ∀ ⦃first second rc other⦄, self.resources.get first = some rc →
    self.resources.get second = some other → rc.origin = other.origin → first = second

/-- All classes were there before, for the same class of the same parent. -/
def Remains (before after : CertAuth) : Prop :=
  ∀ ⦃rcn rc⦄, after.resources.get rcn = some rc →
    ∃ was, before.resources.get rcn = some was ∧ rc.origin = was.origin

variable {ca next : CertAuth}

omit [KrillSigner] in
theorem OnePerOrigin.remains (single : ca.OnePerOrigin) (remains : ca.Remains next) :
    next.OnePerOrigin := by
  intro first second rc other inFirst inSecond same
  obtain ⟨was, before, origin⟩ := remains inFirst
  obtain ⟨also, present, otherOrigin⟩ := remains inSecond
  exact single before present (origin.symm.trans (same.trans otherOrigin))

omit [KrillSigner] in
theorem OnePerOrigin.insert (single : ca.OnePerOrigin)
    (inserted : next.resources = ca.resources.insert named added)
    (fresh : ∀ rcn rc, ca.resources.get rcn = some rc → rc.origin ≠ added.origin) :
    next.OnePerOrigin := by
  intro first second rc other inFirst inSecond same
  rw [inserted] at inFirst inSecond
  obtain ⟨rfl, rfl⟩ | wasFirst := HashMap.get_insert_eq_some inFirst
  · obtain ⟨rfl, _⟩ | wasSecond := HashMap.get_insert_eq_some inSecond
    · rfl
    · exact absurd same.symm (fresh second other wasSecond)
  · obtain ⟨_, rfl⟩ | wasSecond := HashMap.get_insert_eq_some inSecond
    · exact absurd same (fresh first rc wasFirst)
    · exact single wasFirst wasSecond same

omit [KrillSigner] in
theorem remains_of_plain (plain : ∀ event ∈ details, event.isPlain)
    (applied : ca.applyNextAll later details = some last) : ca.Remains last := by
  intro rcn rc found
  have run := classRun_of_plain plain applied rcn
  rw [found] at run
  generalize ca.resources.get rcn = before at run
  cases run with
  | changed done => exact ⟨_, rfl, CaEvtDet.origin_onClassAll done⟩

theorem remains_of_change (adds : cmd.addsClasses = false)
    (changes : ∀ {rcn rc}, next.resources.get rcn = some rc →
      ClassChange ca env later rcn cmd (ca.resources.get rcn) rc) : ca.Remains next := by
  intro rcn rc found
  have change := changes found
  generalize ca.resources.get rcn = before at change
  cases change with
  | grouped _ done => exact ⟨_, rfl, CaEvtDet.origin_onClassAll done⟩
  | requested | created | trustAnchorMade => cases adds
  | moved _ done =>
    refine ⟨_, rfl, Eq.trans ?_ (CaEvtDet.origin_onClassAll done)⟩
    cases ca.repository <;> rfl
  | keyRevoked => exact ⟨_, rfl, rfl⟩

theorem requestForEntitlements_onePerOrigin
    (yields : Yields (ca.requestForEntitlements env parent number entitlements) details)
    (applied : next.applyNextAll later details = some last)
    (once : (ca.newClassNames env parent entitlements).Nodup)
    (single : next.OnePerOrigin) (unknown : ∀ entitlement ∈ entitlements,
      ca.findParentRc env.order parent entitlement.className = none →
      ∀ rcn rc, next.resources.get rcn = some rc → rc.origin ≠ (parent, entitlement.className)) :
    last.OnePerOrigin := by
  induction entitlements generalizing number details next with
  | nil =>
    cases yields.pure
    cases applied
    exact single
  | cons entitlement rest induction =>
    unfold requestForEntitlements at yields
    rw [newClassNames, List.map_cons] at once
    have others := fun other member => unknown other (List.mem_cons_of_mem _ member)
    cases present : ca.findParentRc env.order parent entitlement.className with
    | some rc =>
      rw [present] at yields
      obtain ⟨requests, requested, yields⟩ := yields.bind
      obtain ⟨_, continued, yields⟩ := yields.bind
      cases yields.pure
      obtain ⟨middle, started, rested⟩ := applyNextAll_append.mp applied
      have remains := remains_of_plain (fun event member =>
        isPlain_of_isRequest (makeRequestEvents_yields requested event member)) started
      rw [List.filter_cons_of_neg (by simp [present])] at once
      refine induction continued rested once (single.remains remains) ?_
      intro other member absent rcn rc found
      obtain ⟨was, before, origin⟩ := remains found
      exact origin ▸ others other member absent rcn was before
    | none =>
      rw [present] at yields
      obtain ⟨pendingKey, _, yields⟩ := yields.bind
      obtain ⟨requests, requested, yields⟩ := yields.bind
      obtain ⟨_, continued, yields⟩ := yields.bind
      cases yields.pure
      obtain ⟨added, done, rested⟩ := applyNextAll_cons.mp applied
      cases done
      obtain ⟨middle, started, rested⟩ := applyNextAll_append.mp rested
      have remains := remains_of_plain (fun event member =>
        isPlain_of_isRequest (makeRequestEvents_yields requested event member)) started
      have fresh := unknown entitlement List.mem_cons_self present
      rw [List.filter_cons_of_pos (by simp [present])] at once
      obtain ⟨different, once⟩ := List.nodup_cons.mp once
      refine induction continued rested once (OnePerOrigin.remains ?_ remains) ?_
      · exact single.insert rfl fresh
      · intro other member absent rcn rc found
        obtain ⟨was, before, origin⟩ := remains found
        rw [origin]
        obtain ⟨_, rfl⟩ | before := HashMap.get_insert_eq_some before
        · intro same
          have named : entitlement.className = other.className := congrArg Prod.snd same
          rw [named] at different
          exact different (List.mem_filter.mpr
            ⟨List.mem_map_of_mem member, Option.isNone_iff_eq_none.mpr absent⟩)
        · exact others other member absent rcn was before

theorem processCommand_onePerOrigin (consistent : ca.Consistent) (single : ca.OnePerOrigin)
    (once : cmd.NamesClassesOnce ca env) (yields : Yields (ca.processCommand env cmd) events)
    (applied : ca.applyNextAll later (events.map StoredEvent.details) = some last) :
    last.OnePerOrigin := by
  have changes : ∀ {rcn rc}, last.resources.get rcn = some rc →
      ClassChange ca env later rcn cmd (ca.resources.get rcn) rc :=
    processCommand_change consistent yields applied
  cases cmd with
  | updateEntitlements parent entitlements =>
    obtain ⟨removed, removals, yields⟩ := yields.bind
    obtain ⟨requests, requested, yields⟩ := yields.bind
    cases yields.pure
    rw [details_eventsFromDetails] at applied
    obtain ⟨middle, gone, applied⟩ := applyNextAll_append.mp applied
    have kept : ∀ {rcn rc}, middle.resources.get rcn = some rc →
        ca.resources.get rcn = some rc := fun found =>
      (get_of_removals (removeLostClasses_yields removals) gone found).1
    refine requestForEntitlements_onePerOrigin requested applied once
      (single.remains fun rcn rc found => ⟨rc, kept found, rfl⟩) ?_
    intro entitlement _ absent rcn rc found same
    have checked := List.find?_eq_none.mp absent rc (HashMap.mem_intoValues.mpr ⟨rcn, kept found⟩)
    obtain ⟨rfl, named⟩ := Prod.mk.inj same
    simp [named] at checked
  | makeTrustAnchor uris rsyncUri =>
    obtain ⟨nothing, details, same⟩ := trustAnchorMake_yields yields
    rw [same] at applied
    obtain ⟨_, done, same⟩ := applyNextAll_cons.mp applied
    cases done
    cases same
    refine single.insert rfl fun rcn rc found => ?_
    cases (HashMap.isEmpty_iff.mp nothing rcn).symm.trans found
  | _ => exact single.remains (remains_of_change rfl changes)

def allocatedAll (env : Surroundings) : CertAuth → List CaEvtDet → List ResourceClassName
  | _, [] => []
  | ca, event :: rest => (ca.allocated event).toList ++
    ((ca.applyNext env event).map fun next => allocatedAll env next rest).getD []

inductive History (meets : CertAuth → Surroundings → CmdDet → Prop) :
    CertAuth → List ResourceClassName → Prop
  | init (handle : CaHandle) (id : Rfc8183Id) : History meets (.init handle id) []
  | step {ca next : CertAuth} {names : List ResourceClassName} {env later : Surroundings}
      {cmd : CmdDet} {events : List CaEvt} {signer used : Signer}
      (history : History meets ca names) (met : meets ca env cmd)
      (accepted : ca.processCommand env cmd signer = .ok events used)
      (applied : ca.applyAll later events = some next) :
      History meets next (names ++ ca.allocatedAll later (events.map StoredEvent.details))

omit [KrillSigner] in
theorem allocatedAll_eq (orderly : OrderlyAll later ca details)
    (applied : ca.applyNextAll later details = some last) :
    ∃ count, last.nextClassName = ca.nextClassName + count ∧ ca.allocatedAll later details =
        (List.range' ca.nextClassName count).map ResourceClassName.ofNumber := by
  induction details generalizing ca with
  | nil =>
    cases applied
    exact ⟨0, rfl, rfl⟩
  | cons event rest induction =>
    obtain ⟨next, done, applied⟩ := applyNextAll_cons.mp applied
    obtain ⟨count, reached, names⟩ := induction (orderly.2 next done) applied
    have numbered : next.nextClassName = ca.nextClassName + (ca.allocated event).toList.length :=
      @nextClassName_of_apply _ { ca with version := ca.version + 1 } _ _ _ done
    simp only [allocatedAll, done, Option.map_some, Option.getD_some, names]
    cases given : ca.allocated event with
    | none =>
      rw [given] at numbered
      exact ⟨count, reached.trans (congrArg (· + count) numbered), by rw [numbered]; rfl⟩
    | some rcn =>
      have named : rcn = .ofNumber ca.nextClassName := by
        cases event with
        | resourceClassAdded => exact (Option.some.inj given).symm.trans orderly.1
        | trustAnchorMade => exact (Option.some.inj given).symm
        | _ => cases given
      rw [given] at numbered
      change next.nextClassName = ca.nextClassName + 1 at numbered
      refine ⟨count + 1, by omega, ?_⟩
      rw [List.range'_succ, numbered, named]
      rfl

variable {names : List ResourceClassName}

theorem History.reachable (history : History meets ca names) : ReachableWhen meets ca := by
  induction history with
  | init handle id => exact .init handle id
  | step _ met accepted applied induction => exact induction.step met accepted applied

theorem ReachableWhen.exists_history (reachable : ReachableWhen meets ca) :
    ∃ names, History meets ca names := by
  induction reachable with
  | init handle id => exact ⟨[], .init handle id⟩
  | step _ met accepted applied induction =>
    obtain ⟨names, history⟩ := induction
    exact ⟨_, history.step met accepted applied⟩

theorem History.names_eq (history : History meets ca names) :
    names = (List.range ca.nextClassName).map ResourceClassName.ofNumber := by
  induction history with
  | init handle id => rfl
  | step history met accepted applied induction =>
    rw [applyAll_eq] at applied
    obtain ⟨count, reached, allocated⟩ := allocatedAll_eq (processCommand_orderly
      history.reachable.reachable.consistent ⟨_, _, accepted⟩ applied) applied
    rw [induction, allocated, reached, List.range_add, ← List.range'_eq_map_range, List.map_append]

end CertAuth

end Krill.Ca

namespace Krill.Ca.Numbered

open CertAuth

def entitle (entitlements : ResourceClassListResponse) : List CmdDet :=
  [.repoUpdate (contact 0), .addParent "parent" (.rfc6492 (0 : Nat)),
   .updateEntitlements "parent" entitlements]

def entitled : CertAuth × Nat :=
  (start.replay env (0 : Nat) (entitle [entitlement 7])).get (by decide)

def repeated : CertAuth × Nat :=
  (start.replay env (0 : Nat) (entitle [entitlement 7, entitlement 7])).get (by decide)

end Krill.Ca.Numbered
