import Krill.Ca.CaManager

namespace Krill.Ca

open KrillSigner
open Stateful (Yields)

variable [Rpki]

def CaObjects.reIssueRequired (self : CaObjects) (env : Surroundings) (force : Bool)
    (timing : IssuanceTimingConfig) : Bool :=
  (self.classes.intoValues env.order).any fun rco =>
    force || rco.requiresReIssuance env.now timing.timingPublishHoursBeforeNext

theorem CaObjects.reIssueRequired_iff {objects : CaObjects} :
    objects.reIssueRequired env force timing = true ↔
    ∃ rcn rco, objects.classes.get rcn = some rco ∧
      (force || rco.requiresReIssuance env.now timing.timingPublishHoursBeforeNext) = true := by
  unfold reIssueRequired
  rw [List.any_eq_true]
  constructor
  · rintro ⟨rco, listed, due⟩
    obtain ⟨rcn, found⟩ := HashMap.mem_intoValues.mp listed
    exact ⟨rcn, rco, found, due⟩
  · rintro ⟨rcn, rco, found, due⟩
    exact ⟨rco, HashMap.mem_intoValues.mpr ⟨rcn, found⟩, due⟩

variable [KrillSigner]

abbrev StoreM := EStateM Error (CaObjectsStore × Signer)

namespace CaObjectsStore

def reissueCa (env : Surroundings) (force : Bool) (ca : CaHandle) : StoreM Bool :=
  fun (store, signer) =>
    let timing := store.issuanceTiming
    match store.withCaObjects ca (fun objects => objects.reIssue env force timing) signer with
    | .ok stored used => .ok ((store.caObjects ca).reIssueRequired env force timing) (stored, used)
    | .error failure used => .error failure (store, used)

/-- One CA after the other, each at its own time. The CAs that were updated are listed. -/
def reissueCas (surroundings : CaHandle → Surroundings) (force : Bool) :
    List CaHandle → StoreM (List CaHandle)
  | [] => return []
  | ca :: rest => do
    let required ← reissueCa (surroundings ca) force ca
    let others ← reissueCas surroundings force rest
    return if required then ca :: others else others

def cas (self : CaObjectsStore) (order : IterOrder) : List CaHandle :=
  (self.store.iter order).map Prod.fst

end CaObjectsStore

/-- What is true of the signer after a serial number or a signature, or an attempt at one. -/
structure KeptByAttempts (kept : Signer → Prop) : Prop where
  randomSerial : Stateful.Always kept randomSerial
  sign : ∀ object key, Stateful.Always kept (sign object key)

section Attempts

variable {kept : Signer → Prop} (attempts : KeptByAttempts kept)

theorem signing_always (always : Stateful.Always kept action) :
    Stateful.Always kept (signing action) := by
  intro before holds
  have done := always before holds
  unfold signing EStateM.adaptExcept
  cases ran : action before with
  | ok | error =>
    rw [ran] at done
    exact done

include attempts

theorem KeyObjectSet.reissue_always (set : KeyObjectSet) (env : Surroundings)
    (timing : IssuanceTimingConfig) : Stateful.Always kept (set.reissue env timing) :=
  .bind (.bind (signing_always (attempts.sign _ _)) fun _ => .pure _) fun _ =>
    .bind (.bind (signing_always attempts.randomSerial) fun _ =>
      .bind (signing_always (attempts.sign _ _)) fun _ => .pure _) fun _ => .pure _

theorem ResourceClassObjects.reissue_always (rco : ResourceClassObjects) (env : Surroundings)
    (timing : IssuanceTimingConfig) : Stateful.Always kept (rco.reissue env timing) := by
  obtain ⟨set | ⟨new, set⟩ | ⟨set, old⟩⟩ := rco
  · exact .bind (set.reissue_always attempts env timing) fun _ => .pure _
  · exact .bind (new.reissue_always attempts env timing) fun _ =>
      .bind (set.reissue_always attempts env timing) fun _ => .pure _
  · exact .bind (old.reissue_always attempts env timing) fun _ =>
      .bind (set.reissue_always attempts env timing) fun _ => .pure _

theorem CaObjects.reIssue_always (objects : CaObjects) (env : Surroundings) (force : Bool)
    (timing : IssuanceTimingConfig) :
    Stateful.Always kept (objects.reIssue env force timing) := by
  refine .bind (.mapM ?_) fun _ => .pure _
  rintro ⟨rcn, rco⟩
  dsimp only
  split
  · exact .bind (rco.reissue_always attempts env timing) fun _ => .pure _
  · exact .pure _

end Attempts

namespace CaObjectsStore

variable {store : CaObjectsStore}

omit [KrillSigner] in
theorem caObjects_putCaObjects (store : CaObjectsStore) (ca other : CaHandle)
    (objects : CaObjects) : (store.putCaObjects ca objects).caObjects other =
      if other = ca then objects else store.caObjects other := by
  unfold caObjects putCaObjects
  rw [HashMap.get_insert]
  split <;> rfl

theorem reissueCa_eq_ok
    (done : reissueCa env force ca (store, signer) = .ok required (stored, used)) :
    required = (store.caObjects ca).reIssueRequired env force store.issuanceTiming ∧
      ∃ objects, (store.caObjects ca).reIssue env force store.issuanceTiming signer =
        .ok objects used ∧ stored = store.putCaObjects ca objects := by
  unfold reissueCa at done
  dsimp only at done
  split at done
  case h_1 ran =>
    cases done
    obtain ⟨objects, _, reissued, returned⟩ := Stateful.bind_eq_ok.mp ran
    cases returned
    exact ⟨rfl, objects, reissued, rfl⟩
  case h_2 => cases done

variable {failure : Error}

theorem reissueCa_eq_error
    (failed : reissueCa env force ca (store, signer) = .error failure (stored, used)) :
    stored = store := by
  unfold reissueCa at failed
  dsimp only at failed
  split at failed
  case h_1 => cases failed
  case h_2 =>
    cases failed
    rfl

structure Reissued (surroundings : CaHandle → Surroundings) (force : Bool)
    (cas : List CaHandle) (before after : CaObjectsStore) : Prop where
  issuanceTiming : after.issuanceTiming = before.issuanceTiming
  others : ∀ ca ∉ cas, after.store.get ca = before.store.get ca
  reissued : ∀ ca ∈ cas, Yields ((before.caObjects ca).reIssue (surroundings ca) force
    before.issuanceTiming) (after.caObjects ca)

theorem reissueCas_eq_ok {cas : List CaHandle} (distinct : cas.Nodup)
    (done : reissueCas surroundings force cas (store, signer) = .ok reported (stored, used)) :
    Reissued surroundings force cas store stored ∧
      reported = cas.filter fun ca => (store.caObjects ca).reIssueRequired (surroundings ca)
        force store.issuanceTiming := by
  induction cas generalizing store signer reported with
  | nil =>
    cases done
    exact ⟨⟨rfl, fun _ _ => rfl, List.forall_mem_nil _⟩, rfl⟩
  | cons ca rest induction =>
    obtain ⟨first, distinct⟩ := List.nodup_cons.mp distinct
    obtain ⟨required, ⟨between, middle⟩, here, done⟩ := Stateful.bind_eq_ok.mp done
    obtain ⟨others, last, later, returned⟩ := Stateful.bind_eq_ok.mp done
    cases returned
    obtain ⟨isRequired, objects, reissued, rfl⟩ := reissueCa_eq_ok here
    obtain ⟨spec, rfl⟩ := induction distinct later
    have elsewhere {other : CaHandle} (member : other ∈ rest) :
        (store.putCaObjects ca objects).caObjects other = store.caObjects other := by
      rw [caObjects_putCaObjects, if_neg]
      rintro rfl
      exact first member
    refine ⟨⟨spec.issuanceTiming, fun other notMember => ?_, ?_⟩, ?_⟩
    · obtain ⟨apart, notRest⟩ := not_or.mp (mt List.mem_cons.mpr notMember)
      rw [spec.others other notRest]
      exact (HashMap.get_insert _ _ _ _).trans (if_neg apart)
    · intro other member
      obtain rfl | member := List.mem_cons.mp member
      · have same : stored.caObjects other = objects := by
          unfold caObjects
          rw [spec.others other first]
          exact (caObjects_putCaObjects store other other objects).trans (if_pos rfl)
        rw [same]
        exact ⟨_, _, reissued⟩
      · have again := spec.reissued other member
        rw [elsewhere member] at again
        exact again
    · have sameFilter : rest.filter (fun other =>
            ((store.putCaObjects ca objects).caObjects other).reIssueRequired
              (surroundings other) force store.issuanceTiming) =
          rest.filter fun other => (store.caObjects other).reIssueRequired
            (surroundings other) force store.issuanceTiming :=
        List.filter_congr fun other member => by rw [elsewhere member]
      rw [List.filter_cons, ← isRequired]
      change (if required then _ else _) = _
      rw [← sameFilter]
      rfl

theorem reissueCas_eq_error {cas : List CaHandle}
    (failed : reissueCas surroundings force cas (store, signer) = .error failure (stored, used)) :
    ∃ pre fail post reported middle, cas = pre ++ fail :: post ∧
      reissueCas surroundings force pre (store, signer) = .ok reported (stored, middle) ∧
      reissueCa (surroundings fail) force fail (stored, middle) =
        .error failure (stored, used) := by
  induction cas generalizing store signer with
  | nil => cases failed
  | cons ca rest induction =>
    unfold reissueCas at failed
    cases here : reissueCa (surroundings ca) force ca (store, signer) with
    | error refused state =>
      rw [Stateful.bind_of_error here] at failed
      cases failed
      have kept := reissueCa_eq_error here
      subst kept
      exact ⟨[], ca, rest, [], signer, rfl, rfl, here⟩
    | ok required state =>
      obtain ⟨between, middle⟩ := state
      rw [Stateful.bind_of_ok here] at failed
      cases later : reissueCas surroundings force rest (between, middle) with
      | ok others state =>
        rw [Stateful.bind_of_ok later] at failed
        cases failed
      | error refused state =>
        rw [Stateful.bind_of_error later] at failed
        cases failed
        obtain ⟨pre, fail, post, reported, reached, rfl, early, failing⟩ := induction later
        refine ⟨ca :: pre, fail, post, if required then ca :: reported else reported,
          reached, rfl, ?_, failing⟩
        unfold reissueCas
        rw [Stateful.bind_of_ok here, Stateful.bind_of_ok early]
        rfl

theorem reissueCas_of_error (post : List CaHandle)
    (early : reissueCas surroundings force pre (store, signer) = .ok reported (between, middle))
    (failed : reissueCa (surroundings fail) force fail (between, middle) =
      .error failure (stored, used)) :
    reissueCas surroundings force (pre ++ fail :: post) (store, signer) =
      .error failure (stored, used) := by
  induction pre generalizing store signer reported with
  | nil =>
    cases early
    exact Stateful.bind_of_error failed
  | cons ca rest induction =>
    obtain ⟨required, ⟨next, following⟩, here, early⟩ := Stateful.bind_eq_ok.mp early
    obtain ⟨others, ⟨last, reached⟩, later, returned⟩ := Stateful.bind_eq_ok.mp early
    cases returned
    change (reissueCa (surroundings ca) force ca >>= _) (store, signer) = _
    rw [Stateful.bind_of_ok here]
    exact Stateful.bind_of_error (induction later)

end CaObjectsStore

end Krill.Ca
