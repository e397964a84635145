import Krill.Data.HashMap
import Krill.Data.Stateful
import Mathlib.Data.List.Perm.Subperm

namespace Krill

/-! Computations that draw new things from a state which knows what it gave out. -/

theorem subperm_map {small : List A} (inside : small.Subperm large) (change : A → B) :
    (small.map change).Subperm (large.map change) := by
  obtain ⟨between, perm, sublist⟩ := inside
  exact ⟨between.map change, perm.map change, sublist.map change⟩

theorem HashMap.entries_insertAll_subperm [DecidableEq K] (added : List (K × V)) :
    (HashMap.empty.insertAll added).entries.Subperm added := by
  refine List.Nodup.subperm ?_ fun entry member => ?_
  · exact List.Nodup.of_map Prod.fst (HashMap.keys_nodup _)
  · obtain ⟨key, value⟩ := entry
    exact HashMap.mem_of_get_insertAll (HashMap.mem_entries.mp member)

/-- Between two states, all of these were drawn, and none of them was given out before. -/
structure Drawn {S T : Type} (given : S → T → Prop) (before after : S) (items : List T) :
    Prop where
  kept : ∀ item, given before item → given after item
  distinct : items.Nodup
  fresh : ∀ item ∈ items, ¬given before item
  given : ∀ item ∈ items, given after item

namespace Drawn

variable {given : S → T → Prop}

theorem refl (state : S) : Drawn given state state [] :=
  ⟨fun _ known => known, .nil, List.forall_mem_nil _, List.forall_mem_nil _⟩

theorem trans (early : Drawn given before between first)
    (late : Drawn given between after second) : Drawn given before after (first ++ second) where
  kept := fun item known => late.kept item (early.kept item known)
  distinct := by
    refine List.nodup_append.mpr ⟨early.distinct, late.distinct, ?_⟩
    rintro item inFirst _ inSecond rfl
    exact late.fresh item inSecond (early.given item inFirst)
  fresh := by
    intro item member known
    obtain inFirst | inSecond := List.mem_append.mp member
    · exact early.fresh item inFirst known
    · exact late.fresh item inSecond (early.kept item known)
  given := by
    intro item member
    obtain inFirst | inSecond := List.mem_append.mp member
    · exact late.kept item (early.given item inFirst)
    · exact late.given item inSecond

theorem subperm (drawn : Drawn given before after items) (inside : first.Subperm items) :
    Drawn given before after first where
  kept := drawn.kept
  distinct := by
    obtain ⟨part, perm, sublist⟩ := inside
    exact (sublist.nodup drawn.distinct).perm perm
  fresh := fun item member => drawn.fresh item (inside.subset member)
  given := fun item member => drawn.given item (inside.subset member)

end Drawn

/-- Whatever was drawn before, the computation goes on to draw, so that the items that
belong to its result were all drawn. -/
def Draws {E S T A : Type} (given : S → T → Prop) (taken : List T) (program : EStateM E S A)
    (items : A → List T) : Prop :=
  ∀ ⦃start before after value⦄, Drawn given start before taken →
    program before = .ok value after → Drawn given start after (items value)

namespace Draws

variable {program : EStateM E S A} {own : A → List T}

theorem drawn (draws : Draws given [] program items) (ran : program before = .ok value after) :
    Drawn given before after (items value) :=
  draws (.refl before) ran

theorem subperm (draws : Draws given taken program own)
    (inside : ∀ value, (items value).Subperm (own value)) : Draws given taken program items :=
  fun _ _ _ _ earlier ran => (draws earlier ran).subperm (inside _)

theorem pure (inside : (items value).Subperm taken) :
    Draws given taken (pure value : EStateM E S A) items := by
  intro start before after result earlier ran
  cases ran
  exact earlier.subperm inside

theorem throw (failure : E) : Draws given taken (throw failure : EStateM E S A) items := by
  intro start before after result earlier ran
  cases ran

variable {next : A → EStateM E S B}

theorem bind (starts : Draws given [] program own)
    (continues : ∀ value, Draws given (taken ++ own value) (next value) results) :
    Draws given taken (program >>= next) results := by
  intro start before after result earlier ran
  obtain ⟨value, between, done, ran⟩ := Stateful.bind_eq_ok.mp ran
  exact continues value (earlier.trans (starts.drawn done)) ran

theorem bindQuiet (starts : Draws given [] program fun _ => [])
    (continues : ∀ value, Draws given taken (next value) results) :
    Draws given taken (program >>= next) results := by
  refine starts.bind fun value => ?_
  rw [List.append_nil]
  exact continues value

theorem bindKnowing {known : A → Prop} (starts : ∀ {before after value},
      program before = .ok value after → known value ∧ Drawn given before after [])
    (continues : ∀ value, known value → Draws given taken (next value) results) :
    Draws given taken (program >>= next) results := by
  intro start before after result earlier ran
  obtain ⟨value, between, done, ran⟩ := Stateful.bind_eq_ok.mp ran
  obtain ⟨isKnown, drawn⟩ := starts done
  have still := earlier.trans drawn
  rw [List.append_nil] at still
  exact continues value isKnown still ran

theorem lift {outcome : Except E A}
    (continues : ∀ value, outcome = .ok value → Draws given taken (next value) results) :
    Draws given taken (liftExcept outcome >>= next) results := by
  intro start before after result earlier ran
  obtain ⟨value, between, done, ran⟩ := Stateful.bind_eq_ok.mp ran
  obtain ⟨succeeded, rfl⟩ := Stateful.liftExcept_eq_ok.mp done
  exact continues value succeeded earlier ran

theorem guarded [Decidable condition] {failure : E}
    (continues : ¬condition → Draws given taken program items) :
    Draws given taken (if condition then MonadExcept.throw failure else program) items := by
  split
  · exact throw failure
  · next unmet => exact continues unmet

theorem mapM {list : List A} (each : ∀ item ∈ list, Draws given [] (action item) results) :
    Draws given [] (list.mapM action) fun values => values.flatMap results := by
  induction list with
  | nil =>
    rw [List.mapM_nil]
    exact pure (.refl _)
  | cons item rest induction =>
    rw [List.mapM_cons]
    refine (each item List.mem_cons_self).bind fun value => ?_
    refine (induction fun other member => each other (List.mem_cons_of_mem _ member)).bind ?_
    exact fun others => pure (.refl _)

theorem mapMQuiet {list : List A} (each : ∀ item ∈ list, Draws given [] (action item) fun _ => []) :
    Draws given [] (list.mapM action) fun _ => [] :=
  (mapM each).subperm fun _ => List.nil_subperm

end Draws

end Krill
