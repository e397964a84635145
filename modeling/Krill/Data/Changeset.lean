import Mathlib.Logic.Function.Basic
import Mathlib.Data.List.Nodup

namespace Krill.Changeset

/-! Changes to a partial map from keys to contents, where a change to a present
content names the digest of the content it replaces. -/

variable {K C H : Type}

inductive Change (C H : Type) where
  | publish (content : C)
  | update (hash : H) (content : C)
  | withdraw (hash : H)
  deriving DecidableEq

def Exactly (digest : C → H) (hash : H) (present : Option C) : Prop :=
  ∃ content, present = some content ∧ digest content = hash

def AtMost (digest : C → H) (hash : H) (present : Option C) : Prop :=
  ∀ content, present = some content → digest content = hash

theorem Exactly.atMost {hash : H} (exact : Exactly digest hash present) :
    AtMost digest hash present := by
  obtain ⟨content, rfl, named⟩ := exact
  intro other same
  cases same
  exact named

instance [DecidableEq H] (digest : C → H) (hash : H) :
    (present : Option C) → Decidable (Exactly digest hash present)
  | none => isFalse (by rintro ⟨_, absent, _⟩; cases absent)
  | some content => decidable_of_iff (digest content = hash)
      ⟨fun named => ⟨content, rfl, named⟩, fun ⟨_, same, named⟩ => by cases same; exact named⟩

namespace Change

def result : Change C H → Option C
  | .publish content => some content
  | .update _ content => some content
  | .withdraw _ => none

def Fits (matching : H → Option C → Prop) : Change C H → Option C → Prop
  | .publish _, present => present = none
  | .update hash _, present => matching hash present
  | .withdraw hash, present => matching hash present

instance (matching : H → Option C → Prop)
    [∀ hash present, Decidable (matching hash present)] :
    (change : Change C H) → (present : Option C) → Decidable (change.Fits matching present)
  | .publish _, none => isTrue rfl
  | .publish _, some _ => isFalse (by intro absent; cases absent)
  | .update hash _, present => inferInstanceAs (Decidable (matching hash present))
  | .withdraw hash, present => inferInstanceAs (Decidable (matching hash present))

theorem Fits.weaken {change : Change C H}
    (implied : ∀ hash, strong hash present → weak hash present)
    (fits : change.Fits strong present) : change.Fits weak present := by
  cases change with
  | publish _ => exact fits
  | update hash _ => exact implied hash fits
  | withdraw hash => exact implied hash fits

/-- The change left to make when `next` follows a change that is still to be
made. A withdraw is kept as it is, whatever it follows. -/
def merge : Option (Change C H) → Change C H → Change C H
  | some (.withdraw hash), .publish content => .update hash content
  | _, .publish content => .publish content
  | some (.publish _), .update _ content => .publish content
  | some (.update hash _), .update _ content => .update hash content
  | _, .update hash content => .update hash content
  | _, .withdraw hash => .withdraw hash

@[simp] theorem merge_withdraw (first : Option (Change C H)) (hash : H) :
    merge first (.withdraw hash) = .withdraw hash := by
  rcases first with _ | (_ | _ | _) <;> rfl

@[simp] theorem merge_result : (merge first next).result = next.result := by
  cases next with
  | publish | update | withdraw => rcases first with _ | (_ | _ | _) <;> rfl

end Change

def patch (changes : K → Option (Change C H)) (base : K → Option C) : K → Option C :=
  fun key => ((changes key).map Change.result).getD (base key)

variable {changes : K → Option (Change C H)} {base : K → Option C}

@[simp] theorem patch_none (unchanged : changes key = none) :
    patch changes base key = base key := by
  simp [patch, unchanged]

@[simp] theorem patch_some (changed : changes key = some change) :
    patch changes base key = change.result := by
  simp [patch, changed]

def stage (staged changes : K → Option (Change C H)) : K → Option (Change C H) :=
  fun key => match changes key with
    | none => staged key
    | some change => some (Change.merge (staged key) change)

theorem patch_stage (changes : K → Option (Change C H)) (base : K → Option C) :
    patch (stage staged changes) base = patch changes (patch staged base) := by
  funext key
  cases changed : changes key with
  | none | some => simp [patch, stage, changed]

/-- The changes in `staged` lead from `base` to `current`, and each fits what
`base` has. -/
structure Pending (matching : H → Option C → Prop) (base current : K → Option C)
    (staged : K → Option (Change C H)) : Prop where
  total : patch staged base = current
  fits : ∀ {key change}, staged key = some change → change.Fits matching (base key)

namespace Pending

theorem flush (matching : H → Option C → Prop) (current : K → Option C) :
    Pending matching current current (fun _ => (none : Option (Change C H))) :=
  ⟨funext fun _ => rfl, fun impossible => nomatch impossible⟩

theorem current_eq_base (pending : Pending matching base current staged)
    (unstaged : staged key = none) : current key = base key := by
  rw [← pending.total, patch_none unstaged]

variable {change : Change C H}

theorem current_eq_result (pending : Pending matching base current staged)
    (found : staged key = some change) :
    current key = change.result := by
  rw [← pending.total, patch_some found]

/-- A change that fits the current content merges into one that fits the base,
provided that a withdraw fits the base as it is. -/
theorem merge_fits (pending : Pending matching base current staged) (implied : ∀ hash present,
      Exactly digest hash present → matching hash present)
    (fits : change.Fits (Exactly digest) (current key))
    (withdrawn : ∀ hash, change = .withdraw hash → matching hash (base key)) :
    (Change.merge (staged key) change).Fits matching (base key) := by
  cases found : staged key with
  | none =>
    rw [pending.current_eq_base found] at fits
    cases change with
    | publish content => exact fits
    | update hash content => exact implied hash _ fits
    | withdraw hash => exact implied hash _ fits
  | some first =>
    have firstFits := pending.fits found
    have present := pending.current_eq_result found
    rw [present] at fits
    cases change with
    | publish content =>
      cases first with
      | publish _ => cases fits
      | update _ _ => cases fits
      | withdraw hash => exact firstFits
    | update hash content =>
      cases first with
      | publish _ => exact firstFits
      | update _ _ => exact firstFits
      | withdraw _ =>
        obtain ⟨_, absent, _⟩ := fits
        cases absent
    | withdraw hash =>
      rw [Change.merge_withdraw]
      exact withdrawn hash rfl

theorem stage (pending : Pending matching base current staged) (implied : ∀ hash present,
      Exactly digest hash present → matching hash present)
    (fits : ∀ {key change}, changes key = some change →
      change.Fits (Exactly digest) (current key))
    (withdrawn : ∀ {key hash}, changes key = some (.withdraw hash) →
      matching hash (base key)) :
    Pending matching base (patch changes current) (stage staged changes) := by
  refine ⟨by rw [patch_stage, pending.total], ?_⟩
  intro key change found
  cases changed : changes key with
  | none =>
    simp only [Changeset.stage, changed] at found
    exact pending.fits found
  | some next =>
    simp only [Changeset.stage, changed, Option.some.injEq] at found
    subst found
    exact pending.merge_fits implied (fits changed)
      (fun hash same => withdrawn (by rw [changed, same]))

end Pending

section Strict

variable [DecidableEq K] [DecidableEq H]

def strictApply (digest : C → H) :
    List (K × Change C H) → (K → Option C) → Option (K → Option C)
  | [], base => some base
  | (key, change) :: rest, base =>
    if change.Fits (Exactly digest) (base key) then
      strictApply digest rest (Function.update base key change.result)
    else none

variable {changes : List (K × Change C H)}

omit [DecidableEq H] in
theorem lookup_mem (found : changes.lookup key = some change) : (key, change) ∈ changes := by
  induction changes with
  | nil => cases found
  | cons first rest induction =>
    obtain ⟨firstKey, firstChange⟩ := first
    rw [List.lookup_cons] at found
    by_cases same : key = firstKey
    · subst same
      simp only [beq_self_eq_true, Option.some.injEq] at found
      subst found
      exact List.mem_cons_self
    · rw [beq_false_of_ne same] at found
      exact List.mem_cons_of_mem _ (induction found)

omit [DecidableEq H] in
theorem mem_lookup (distinct : (changes.map Prod.fst).Nodup) (member : (key, change) ∈ changes) :
    changes.lookup key = some change := by
  induction changes with
  | nil => cases member
  | cons first rest induction =>
    obtain ⟨firstKey, firstChange⟩ := first
    simp only [List.map_cons, List.nodup_cons] at distinct
    rw [List.lookup_cons]
    rcases List.mem_cons.mp member with same | later
    · cases same
      simp
    · have different : key ≠ firstKey := by
        rintro rfl
        exact distinct.1 (List.mem_map.mpr ⟨_, later, rfl⟩)
      rw [beq_false_of_ne different]
      exact induction distinct.2 later

omit [DecidableEq H] in
theorem lookup_fresh (fresh : key ∉ changes.map Prod.fst) : changes.lookup key = none := by
  cases found : changes.lookup key with
  | none => rfl
  | some change =>
    exact absurd (List.mem_map.mpr ⟨_, lookup_mem found, rfl⟩) fresh

omit [DecidableEq H] in
theorem patch_cons (base : K → Option C) (fresh : key ∉ rest.map Prod.fst) :
    patch (fun other => ((key, change) :: rest).lookup other) base =
      patch (fun other => rest.lookup other) (Function.update base key change.result) := by
  funext other
  by_cases same : other = key
  · subst same
    simp [patch, lookup_fresh fresh]
  · simp [patch, List.lookup_cons, beq_false_of_ne same, same]

omit [DecidableEq H] in
theorem stage_cons (staged : K → Option (Change C H)) (fresh : key ∉ rest.map Prod.fst) :
    stage staged (fun other => ((key, change) :: rest).lookup other) =
      stage (Function.update staged key (some (Change.merge (staged key) change)))
        (fun other => rest.lookup other) := by
  funext other
  by_cases same : other = key
  · subst same
    simp [stage, lookup_fresh fresh]
  · simp [stage, List.lookup_cons, beq_false_of_ne same, same]

theorem strictApply_eq_patch (digest : C → H) (base : K → Option C)
    (distinct : (changes.map Prod.fst).Nodup) (fits : ∀ entry ∈ changes,
      entry.2.Fits (Exactly digest) (base entry.1)) :
    strictApply digest changes base = some (patch (fun key => changes.lookup key) base) := by
  induction changes generalizing base with
  | nil => rfl
  | cons first rest induction =>
    obtain ⟨key, change⟩ := first
    simp only [List.map_cons, List.nodup_cons] at distinct
    have restFits : ∀ entry ∈ rest, entry.2.Fits (Exactly digest)
        (Function.update base key change.result entry.1) := by
      intro entry member
      have different : entry.1 ≠ key := by
        rintro rfl
        exact distinct.1 (List.mem_map.mpr ⟨entry, member, rfl⟩)
      rw [Function.update_of_ne different]
      exact fits entry (List.mem_cons_of_mem _ member)
    rw [strictApply, if_pos (fits (key, change) List.mem_cons_self),
      induction _ distinct.2 restFits, patch_cons base distinct.1]

end Strict

end Krill.Changeset
