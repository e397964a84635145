import Krill.Pubd.RepositoryAccess
import Krill.Pubd.UriView

namespace Krill.Pubd

open Rpki UriText
open RepositoryContent
open HashMap

variable [Rpki]

variable [UriText]

namespace RepositoryStores

/-- The base URI that is made of the one handle is not below that of the other. -/
def Nested (outer inner : PublisherHandle) : Prop :=
  (outer ++ "/").toList <+: (inner ++ "/").toList

instance (outer inner : PublisherHandle) : Decidable (Nested outer inner) :=
  inferInstanceAs (Decidable (_ <+: _))

/-- A publisher is only added with a handle that is not nested with that of another one. -/
def Separate (stores : RepositoryStores) : RepositoryRequest → Prop
  | .createPublisher request => ∀ other, (stores.access.publishers.get other).isSome →
      other ≠ request.publisherHandle →
        ¬ Nested other request.publisherHandle ∧ ¬ Nested request.publisherHandle other
  | _ => True

/-- No publisher has a URI, or gets one accepted, that is below the base URI of another. -/
structure Isolated (stores : RepositoryStores) : Prop where
  spaces : ∀ {first second one other uri}, stores.access.publishers.get first = some one →
    stores.access.publishers.get second = some other → first ≠ second →
    isParentOf one.baseUri uri = true → isParentOf other.baseUri uri = false
  accepted : ∀ {first second other env delta},
    stores.access.publishers.get second = some other → first ≠ second →
    (stores.publish env first delta).1 = .ok () →
    ∀ element ∈ (DeltaElements.from delta).toList, isParentOf other.baseUri element.uri = false
  held : ∀ {first second one other objects hash element},
    stores.access.publishers.get first = some one →
    stores.access.publishers.get second = some other → first ≠ second →
    stores.content.publishers.get first = some objects →
    objects.map.get hash = some element → isParentOf other.baseUri element.uri = false

structure Fenced (stores : RepositoryStores) : Prop where
  derived : ∀ {name publisher}, stores.access.publishers.get name = some publisher →
    fromStr (toText stores.access.rsyncBase ++ (name ++ "/")) = some publisher.baseUri
  apart : ∀ {outer inner}, (stores.access.publishers.get outer).isSome →
    (stores.access.publishers.get inner).isSome → outer ≠ inner → ¬ Nested outer inner
  held : ∀ {name publisher objects hash uri},
    stores.access.publishers.get name = some publisher →
    stores.content.publishers.get name = some objects → objects.Names hash uri →
    isParentOf publisher.baseUri uri = true

variable {stores : RepositoryStores}

theorem Fenced.disjoint (laws : UriLaws) (fenced : stores.Fenced)
    (known : stores.access.publishers.get first = some one)
    (alsoKnown : stores.access.publishers.get second = some other) (different : first ≠ second)
    (inside : isParentOf one.baseUri uri = true) : isParentOf other.baseUri uri = false := by
  apply Bool.eq_false_of_not_eq_true
  intro alsoInside
  have left := laws.isParentOf inside
  have right := laws.isParentOf alsoInside
  rw [laws.canonical_fromStr (fenced.derived known)] at left
  rw [laws.canonical_fromStr (fenced.derived alsoKnown)] at right
  have someKnown := Option.isSome_of_eq_some known
  have someAlso := Option.isSome_of_eq_some alsoKnown
  rcases List.prefix_or_prefix_of_prefix left right with nested | nested
  · exact fenced.apart someKnown someAlso different ((List.prefix_append_right_inj _).mp nested)
  · exact fenced.apart someAlso someKnown different.symm
      ((List.prefix_append_right_inj _).mp nested)

theorem Fenced.init (rsyncBase : Uri) (env : Surroundings) : (init rsyncBase env).Fenced where
  derived := nofun
  apart := nofun
  held := nofun

variable {content : RepositoryContent}

theorem Fenced.created {request : PublisherRequest} (fenced : stores.Fenced)
    (separate : stores.Separate (.createPublisher request))
    (derived : fromStr (toText stores.access.rsyncBase ++ (request.publisherHandle ++ "/")) =
      some baseUri) (sent : stores.content.sendCommand env (.addPublisher request.publisherHandle) =
      .ok content) :
    Fenced ⟨stores.access.apply (.publisherAdded request.publisherHandle { baseUri }),
      content⟩ := by
  cases sent_of_ok sent
  have knownBefore {name : PublisherHandle} (other : name ≠ request.publisherHandle)
      (known : ((stores.access.publishers.insert request.publisherHandle
        { baseUri }).get name).isSome) : (stores.access.publishers.get name).isSome := by
    rw [get_insert, if_neg other] at known
    exact known
  refine ⟨?_, ?_, ?_⟩
  · intro name publisher known
    obtain ⟨rfl, rfl⟩ | known := get_insert_eq_some known
    · exact derived
    · exact fenced.derived known
  · intro outer inner outerKnown innerKnown different
    by_cases isOuter : outer = request.publisherHandle
    · subst isOuter
      exact (separate inner (knownBefore different.symm innerKnown) different.symm).2
    · by_cases isInner : inner = request.publisherHandle
      · subst isInner
        exact (separate outer (knownBefore isOuter outerKnown) isOuter).1
      · exact fenced.apart (knownBefore isOuter outerKnown) (knownBefore isInner innerKnown)
          different
  · intro name publisher objects hash uri known found names
    by_cases new : name = request.publisherHandle
    · subst new
      rw [show (_ : HashMap _ _).get _ = _ from get_insert_self ..] at found
      cases found
      obtain ⟨element, present, -⟩ := names
      cases present
    · have known : stores.access.publishers.get name = some publisher := by
        rw [← known]
        exact ((get_insert ..).trans (if_neg new)).symm
      have found : stores.content.publishers.get name = some objects := by
        rw [← found]
        exact ((get_insert ..).trans (if_neg new)).symm
      exact fenced.held known found names

theorem Fenced.removed {access : RepositoryAccess} (fenced : stores.Fenced)
    (sent : stores.content.sendCommand env (.removePublisher name) = .ok content)
    (rest : access = stores.access ∨ access = stores.access.apply (.publisherRemoved name)) :
    Fenced ⟨access, content⟩ := by
  have sameBase : access.rsyncBase = stores.access.rsyncBase := by
    rcases rest with rfl | rfl <;> rfl
  have knownBefore {other : PublisherHandle} {publisher : Publisher}
      (known : access.publishers.get other = some publisher) :
      stores.access.publishers.get other = some publisher := by
    rcases rest with rfl | rfl
    · exact known
    · exact get_of_remove known
  have foundBefore {other : PublisherHandle} {objects : CurrentObjects}
      (found : content.publishers.get other = some objects) :
      stores.content.publishers.get other = some objects := by
    cases sent_of_ok sent with
    | unknown => exact found
    | removed => exact get_of_remove found
  refine ⟨?_, ?_, ?_⟩
  · intro other publisher known
    rw [show (_ : RepositoryStores).access.rsyncBase = _ from sameBase]
    exact fenced.derived (knownBefore known)
  · intro outer inner outerKnown innerKnown different
    obtain ⟨one, outerFound⟩ := Option.isSome_iff_exists.mp outerKnown
    obtain ⟨two, innerFound⟩ := Option.isSome_iff_exists.mp innerKnown
    exact fenced.apart (Option.isSome_of_eq_some (knownBefore outerFound))
      (Option.isSome_of_eq_some (knownBefore innerFound)) different
  · intro other publisher objects hash uri known found names
    exact fenced.held (knownBefore known) (foundBefore found) names

theorem Fenced.published (fenced : stores.Fenced)
    (known : stores.access.publishers.get name = some publisher)
    (verified : stores.content.verifyRequest name delta publisher.baseUri = .ok ())
    (sent : stores.content.sendCommand env (.publish name delta) = .ok content) :
    Fenced { stores with content } := by
  obtain ⟨objects, found, accepted⟩ := verifyRequest_eq_ok.mp verified
  rw [sendCommand_publish found] at sent
  cases sent
  refine ⟨fenced.derived, fenced.apart, ?_⟩
  intro other owner held hash uri ownerKnown heldFound names
  obtain ⟨rfl, rfl⟩ | before := get_insert_eq_some heldFound
  · cases known.symm.trans ownerKnown
    rcases CurrentObjects.applyDelta_names names with names | ⟨element, member, rfl, -⟩
    · exact fenced.held known found names
    · exact CurrentObjects.verifyDelta_inside accepted member
  · exact fenced.held ownerKnown before names

theorem Fenced.served (fenced : stores.Fenced)
    (same : content.publishers = stores.content.publishers) :
    Fenced { stores with content } := by
  refine ⟨fenced.derived, fenced.apart, ?_⟩
  intro name publisher objects hash uri known found names
  rw [show (_ : RepositoryStores).content.publishers = _ from same] at found
  exact fenced.held known found names

theorem Fenced.step (fenced : stores.Fenced) (separate : stores.Separate request)
    (serves : stores.Serves env request after) : after.Fenced := by
  cases serves with
  | refused => exact fenced
  | created unknown derived sent => exact fenced.created separate derived sent
  | removed sent rest => exact fenced.removed sent rest
  | published known verified sent => exact fenced.published known verified sent
  | updated sent => cases sent_of_ok sent <;> exact fenced.served rfl
  | reset sent => cases sent; exact fenced.served rfl

omit [UriText] in
theorem verified_of_publish (done : (stores.publish env name delta).1 = .ok ()) :
    ∃ (publisher : Publisher) (objects : CurrentObjects),
      stores.access.publishers.get name = some publisher ∧
      objects.verifyDelta (.from delta) publisher.baseUri = .ok () := by
  unfold publish at done
  cases found : stores.access.getPublisher name with
  | error failure =>
    rw [found] at done
    cases done
  | ok publisher =>
    rw [found] at done
    simp only [inTurn] at done
    cases finished : stores.publishContent env name delta publisher.baseUri with
    | error failure =>
      rw [finished] at done
      cases done
    | ok after =>
      obtain ⟨verified, -⟩ := publishContent_eq_ok.mp finished
      obtain ⟨objects, -, accepted⟩ := verifyRequest_eq_ok.mp verified
      exact ⟨publisher, objects, RepositoryAccess.getPublisher_eq_ok.mp found, accepted⟩

/-- Publishers are isolated from each other in every run in which none is added with a handle
that is nested with that of another one. -/
theorem publishers_isolated (laws : UriLaws) (runs : Runs Separate stores) :
    stores.Isolated := by
  have fenced : stores.Fenced :=
    runs.invariant Fenced.init fun fenced separate serves => fenced.step separate serves
  refine ⟨fenced.disjoint laws, ?_, ?_⟩
  · intro first second other env delta alsoKnown different done element member
    obtain ⟨publisher, objects, known, accepted⟩ := verified_of_publish done
    exact fenced.disjoint laws known alsoKnown different
      (CurrentObjects.verifyDelta_inside accepted member)
  · intro first second one other objects hash element known alsoKnown different found present
    exact fenced.disjoint laws known alsoKnown different
      (fenced.held known found ⟨element, present, rfl⟩)

end RepositoryStores

end Krill.Pubd

namespace Krill.Pubd.Texts

open Rpki RepositoryStores

theorem separate_of_iter {stores : RepositoryStores}
    (checked : ∀ other ∈ (stores.access.publishers.iter .stored).map Prod.fst,
      other ≠ name → ¬ Nested other name ∧ ¬ Nested name other) : stores.Separate (add name) :=
  fun other known => checked other (HashMap.mem_iter_keys.mpr known)

/-- Two publishers, none of whose handles continues the other one. -/
theorem neighbours_isolated : (start.serveAll env [add "alice", add "alice2"]).Isolated := by
  refine publishers_isolated laws ((Runs.init base env).serveAll ?_)
  exact ⟨by decide, separate_of_iter (by decide), by decide,
    separate_of_iter (by decide +kernel), trivial⟩

def nested : RepositoryStores := start.serveAll env [add "alice", add "alice/sub"]

def inSub : Uri := "rsync://localhost/repo/alice/sub/1"

theorem nested_not_isolated : Runs (fun _ _ => True) nested ∧
      (nested.publish env "alice" [.publish none inSub (1 : Nat)]).1 = .ok () ∧
      (nested.publish env "alice/sub" [.publish none inSub (2 : Nat)]).1 = .ok () ∧
      ¬ nested.Isolated := by
  have accepted : (nested.publish env "alice" [.publish none inSub (1 : Nat)]).1 = .ok () := by
    decide +kernel
  refine ⟨(Runs.init base env).serveAll ?_, accepted, by decide +kernel, fun isolated => ?_⟩
  · exact ⟨by decide, trivial, by decide, trivial, trivial⟩
  · have sub : nested.access.publishers.get "alice/sub" =
        some ⟨"rsync://localhost/repo/alice/sub/"⟩ := by decide +kernel
    have outside := isolated.accepted sub (by decide) accepted (.publish ⟨(1 : Nat), inSub⟩)
      List.mem_cons_self
    revert outside
    decide +kernel

end Krill.Pubd.Texts
