import Mathlib.Algebra.BigOperators.Group.Finset.Piecewise
import Mathlib.Algebra.GroupWithZero.Nat
import Mathlib.Algebra.Order.BigOperators.Group.List
import Mathlib.Algebra.Order.Group.Nat
import Mathlib.Logic.Function.Basic
import Krill.Ca.RepoElements

namespace Krill.Ca

open Rpki
open Stateful (Yields)
open KeyObjectSet
open ResourceClassObjects

theorem sum_bins [DecidableEq Bin] {items : List Item} {bin : Item → Bin}
    (inside : ∀ item ∈ items, bin item ∈ bins) :
    ∑ contents ∈ bins, (items.map fun item => if bin item = contents then weight item else 0).sum =
      (items.map weight).sum := by
  induction items with
  | nil => simp
  | cons item rest induction =>
    obtain ⟨here, later⟩ := List.forall_mem_cons.mp inside
    simp only [List.map_cons, List.sum_cons, Finset.sum_add_distrib, induction later]
    rw [Finset.sum_ite_eq, if_pos here]

variable [Rpki]

def KeyObjectSet.edition (set : KeyObjectSet) :
    ObjectSetRevision × HashMap ObjectName PublishedObject :=
  (set.revision, set.publishedObjects)

def CaObjects.editions (objects : CaObjects) (rcn : ResourceClassName) :
    Option (List (ObjectSetRevision × HashMap ObjectName PublishedObject)) :=
  (objects.classes.get rcn).map fun rco => rco.sets.map edition

section Numbers

variable (decode : Base64 → Option ToBeSigned)

noncomputable def numberIn (base64 : Base64) : Nat :=
  match decode base64 with
  | some (.manifest number _ _ _ _) => Function.invFun serialFrom number
  | _ => 0

noncomputable def numbersIn (elements : List PublishElement) : Nat :=
  (elements.map fun element => numberIn decode element.base64).sum

noncomputable def numbers
    (edition : ObjectSetRevision × HashMap ObjectName PublishedObject) : Nat :=
  edition.1.number +
    ((edition.2.iter .stored).map fun entry => numberIn decode entry.2.base64).sum

noncomputable def numbersOf
    (editions : Option (List (ObjectSetRevision × HashMap ObjectName PublishedObject))) : Nat :=
  ((editions.getD []).map (numbers decode)).sum

end Numbers

theorem KeyObjectSet.Issued.numbersIn {set : KeyObjectSet} (issued : set.Issued decode)
    (serials : Function.Injective (serialFrom : Nat → Serial)) (order : IterOrder) :
    Ca.numbersIn decode (set.elements order) = numbers decode set.edition := by
  obtain ⟨entries, object, manifest, _⟩ := issued.manifest
  obtain ⟨issuer, aki, crl⟩ := issued.crl
  have ofManifest : numberIn decode set.manifest.base64 = set.revision.number := by
    unfold numberIn
    rw [manifest]
    exact Function.leftInverse_invFun serials _
  have ofCrl : numberIn decode set.crl.base64 = 0 := by
    unfold numberIn
    rw [crl]
  have ofObjects : ((set.publishedObjects.iter order).map fun entry =>
      numberIn decode entry.2.base64).sum =
      ((set.publishedObjects.iter .stored).map fun entry => numberIn decode entry.2.base64).sum :=
    (((order.perm _).trans (IterOrder.stored.perm _).symm).map _).sum_eq
  simp only [elements, Ca.numbersIn, PublishedItem.publishElement, List.cons_append,
    List.nil_append, List.map_cons, List.sum_cons, List.map_map, ofManifest, ofCrl, Nat.zero_add]
  exact congrArg _ ofObjects

theorem KeyObjectSet.numbers_lt_reissue [KrillSigner] {before : KeyObjectSet}
    (yields : Yields (before.reissue env timing) after) :
    numbers decode before.edition < numbers decode after.edition := by
  obtain ⟨_, _, _, rfl⟩ := reissue_yields yields
  exact Nat.add_lt_add_right (Nat.lt_succ_self _) _

namespace CaObjects

variable {objects before : CaObjects} {names : List ResourceClassName}

theorem numbersOf_editions : numbersOf decode (objects.editions rcn) =
      ((setsOf (objects.classes.get rcn)).map fun set => numbers decode set.edition).sum := by
  unfold numbersOf editions setsOf
  cases objects.classes.get rcn <;> simp [Function.comp_def]

theorem sum_numbersIn (serials : Function.Injective (serialFrom : Nat → Serial))
    (issued : objects.EverySet fun _ set => set.Issued decode) (distinct : names.Nodup)
    (all : ∀ rcn, (objects.classes.get rcn).isSome → rcn ∈ names) :
    ∃ least : Finset RepositoryContact, ∀ contacts, least ⊆ contacts → (∑ contact ∈ contacts,
        numbersIn decode ((objects.repoElementsMap .stored).elementsIn contact)) =
      if objects.repo.isSome then
        (names.map fun rcn => numbersOf decode (objects.editions rcn)).sum else 0 := by
  cases hasRepo : objects.repo with
  | none =>
    refine ⟨∅, fun contacts _ => Finset.sum_eq_zero fun contact _ => ?_⟩
    rw [Silent.elementsIn (.inl hasRepo)]
    rfl
  | some dfltRepo =>
    refine ⟨((objects.setsNamed names).map fun set => set.publishesIn dfltRepo).toFinset,
      fun contacts inside => ?_⟩
    have perContact (contact : RepositoryContact) :
        numbersIn decode ((objects.repoElementsMap .stored).elementsIn contact) =
          ((objects.setsNamed names).map fun set =>
            if set.publishesIn dfltRepo = contact then numbers decode set.edition else 0).sum := by
      unfold numbersIn
      rw [((elementsIn_perm hasRepo distinct all).map _).sum_eq, List.map_flatMap,
        List.flatMap_def, List.sum_flatten, List.map_map]
      refine congrArg _ (List.map_congr_left fun set member => ?_)
      obtain ⟨rcn, _, listed⟩ := List.mem_flatMap.mp member
      obtain ⟨rco, found, listed⟩ := mem_setsOf.mp listed
      change numbersIn decode (set.elementsIn .stored dfltRepo contact) = _
      unfold elementsIn
      split
      · exact (issued found set listed).numbersIn serials .stored
      · rfl
    simp only [perContact]
    rw [sum_bins fun set member =>
      inside (List.mem_toFinset.mpr (List.mem_map_of_mem member)), setsNamed, List.map_flatMap,
      List.flatMap_def, List.sum_flatten, List.map_map]
    exact congrArg List.sum (List.map_congr_left fun rcn _ => (numbersOf_editions).symm)

theorem changed_of_numbers (serials : Function.Injective (serialFrom : Nat → Serial))
    (issuedBefore : before.EverySet fun _ set => set.Issued decode)
    (issuedAfter : after.EverySet fun _ set => set.Issued decode) (hasRepo : after.repo.isSome)
    (later : ∀ rcn, numbersOf decode (before.editions rcn) ≤ numbersOf decode (after.editions rcn))
    (grown : numbersOf decode (before.editions rcn) < numbersOf decode (after.editions rcn)) :
    ¬before.SameElements after := by
  rintro ⟨same, _⟩
  let names := (before.classes.iter .stored).map Prod.fst ∪
    (after.classes.iter .stored).map Prod.fst
  have distinct : names.Nodup := List.Nodup.union _ (HashMap.iter_keys_nodup _ _)
  obtain ⟨contacts, total⟩ := sum_numbersIn serials issuedBefore distinct fun rcn present =>
    List.mem_union_iff.mpr (.inl (HashMap.mem_iter_keys.mpr present))
  have allAfter (rcn : ResourceClassName) (present : (after.classes.get rcn).isSome) :
      rcn ∈ names := List.mem_union_iff.mpr (.inr (HashMap.mem_iter_keys.mpr present))
  obtain ⟨contacts', total'⟩ := sum_numbersIn serials issuedAfter distinct allAfter
  have equal : ∑ contact ∈ contacts ∪ contacts',
        numbersIn decode ((before.repoElementsMap .stored).elementsIn contact) =
      ∑ contact ∈ contacts ∪ contacts',
        numbersIn decode ((after.repoElementsMap .stored).elementsIn contact) :=
    Finset.sum_congr rfl fun contact _ => ((same _ _ contact).map _).sum_eq
  rw [total _ Finset.subset_union_left, total' _ Finset.subset_union_right, if_pos hasRepo] at equal
  have present : (after.classes.get rcn).isSome := by
    by_contra absent
    simp [editions, numbersOf, Option.not_isSome_iff_eq_none.mp absent] at grown
  have less : (names.map fun rcn => numbersOf decode (before.editions rcn)).sum <
      (names.map fun rcn => numbersOf decode (after.editions rcn)).sum :=
    List.sum_lt_sum _ _ (fun other _ => later other) ⟨rcn, allAfter rcn present, grown⟩
  -- without a repository nothing was published before
  split at equal <;> omega

def receive (objects : CaObjects) : CaEvtDet → CaObjects
  | .certificateReceived rcn cert _ =>
    match objects.updateReceivedCert rcn cert with
    | .ok received => received
    | .error _ => objects
  | _ => objects

def receiveAll (objects : CaObjects) (events : List CaEvtDet) : CaObjects :=
  events.foldl receive objects

variable [KrillSigner] {middle : CaObjects}

def DueIn (objects : CaObjects) (env : Surroundings) (force : Bool)
    (timing : IssuanceTimingConfig) (rcn : ResourceClassName) : Prop :=
  ∃ rco, objects.classes.get rcn = some rco ∧
    (force || rco.requiresReIssuance env.now timing.timingPublishHoursBeforeNext) = true

omit [KrillSigner] in
theorem dueIn_iff : objects.DueIn env force timing rcn ↔
    ∃ editions, objects.editions rcn = some editions ∧ (force = true ∨ ∃ edition ∈ editions,
      env.now > edition.1.nextUpdate - hours timing.timingPublishHoursBeforeNext) := by
  unfold DueIn editions requiresReIssuance
  simp [anySet_iff, edition, requiresReissuance, nextUpdate]

theorem reissued (same : middle.editions = before.editions)
    (yields : Yields (middle.reIssue env force timing) after) (rcn : ResourceClassName) :
    before.DueIn env force timing rcn ∧ (∀ decode,
        numbersOf decode (before.editions rcn) < numbersOf decode (after.editions rcn)) ∨
      ¬before.DueIn env force timing rcn ∧
        after.classes.get rcn = middle.classes.get rcn := by
  have related := yields_reIssue yields rcn
  rw [dueIn_iff, ← same, ← dueIn_iff]
  unfold DueIn editions
  generalize middle.classes.get rcn = entry at related ⊢
  generalize after.classes.get rcn = last at related ⊢
  cases related with
  | none => exact .inr ⟨by simp, rfl⟩
  | some reissued =>
    unfold ResourceClassObjects.Reissued at reissued
    split at reissued
    case isTrue due =>
      refine .inl ⟨⟨_, rfl, due⟩, fun decode => ?_⟩
      cases reissued with
      | current made =>
        simpa [numbersOf, sets] using numbers_lt_reissue made
      | staging madeNew made =>
        simpa [numbersOf, sets] using Nat.add_lt_add
          (numbers_lt_reissue madeNew) (numbers_lt_reissue made)
      | old made madeOld =>
        simpa [numbersOf, sets] using Nat.add_lt_add
          (numbers_lt_reissue made) (numbers_lt_reissue madeOld)
    case isFalse early => exact .inr ⟨by simpa using early, congrArg some reissued⟩

theorem changed_of_due (same : middle.editions = before.editions)
    (yields : Yields (middle.reIssue env force timing) after)
    (serials : Function.Injective (serialFrom : Nat → Serial))
    (issuedBefore : before.EverySet fun _ set => set.Issued decode)
    (issuedAfter : after.EverySet fun _ set => set.Issued decode) (hasRepo : after.repo.isSome)
    (due : before.DueIn env force timing rcn) : ¬before.SameElements after := by
  obtain ⟨_, grown⟩ | ⟨early, _⟩ := reissued same yields rcn
  · refine changed_of_numbers serials issuedBefore issuedAfter hasRepo (fun other => ?_)
      (grown decode)
    obtain ⟨_, grown⟩ | ⟨_, unchanged⟩ := reissued same yields other
    · exact Nat.le_of_lt (grown decode)
    · rw [← same, editions, editions, unchanged]
  · exact absurd due early

end CaObjects

end Krill.Ca
