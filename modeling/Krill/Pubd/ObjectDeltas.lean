import Krill.Pubd.SyncConverges

namespace Krill.Pubd

open Rpki Changeset

variable [Rpki]

namespace CurrentObjects

structure Separate (objects : CurrentObjects) (delta : DeltaElements) : Prop where
  distinct : (delta.toList.map DeltaElement.uri).Nodup
  absent : ∀ p ∈ delta.publishes, ∀ base64, (p.uri, base64) ∉ objects.pairs
  oneHome : Relator.RightUnique fun hash uri => objects.Names hash uri ∨ delta.Names hash uri

inductive Separated (jail : Uri) : CurrentObjects → Prop
  | default : Separated jail .default
  | publish {objects : CurrentObjects} {delta : DeltaElements} (earlier : Separated jail objects)
      (accepted : objects.verifyDelta delta jail = .ok ()) (separate : objects.Separate delta) :
      Separated jail (objects.applyDelta delta)

variable {jail : Uri} {objects : CurrentObjects} {delta : DeltaElements}

theorem Shows.follows (shows : objects.Shows content)
    (accepted : objects.verifyDelta delta jail = .ok ()) (separate : objects.Separate delta) :
    (objects.applyDelta delta).Shows (patch delta.changeAt content) := by
  refine shows.applyDelta separate.distinct separate.oneHome fun element member => ?_
  exact (shows.verified_fits accepted separate.absent member).weaken fun _ => Exactly.atMost

theorem Separated.exists_shows (run : Separated jail objects) :
    ∃ content, objects.Shows content := by
  induction run with
  | default => exact ⟨_, shows_default⟩
  | publish _ accepted separate induction =>
    obtain ⟨content, shows⟩ := induction
    exact ⟨_, shows.follows accepted separate⟩

end CurrentObjects

end Krill.Pubd

namespace Krill.Pubd.Flat

open CurrentObjects

def publishing (content : Nat) : DeltaElements := ⟨[⟨content, firstFile⟩], [], []⟩

theorem first_separate : CurrentObjects.default.Separate (publishing 1) where
  distinct := by decide
  absent := by
    rintro p listed base64 ⟨hash, found⟩
    cases found
  oneHome := by
    rintro hash left right (⟨_, found, _⟩ | ⟨element, member, rfl, _⟩) other
    · cases found
    · rcases other with ⟨_, found, _⟩ | ⟨other, also, rfl, _⟩
      · cases found
      · cases List.mem_singleton.mp member
        cases List.mem_singleton.mp also
        rfl

end Krill.Pubd.Flat
