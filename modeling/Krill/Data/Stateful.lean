import Mathlib.Data.List.Forall2

namespace Krill.Stateful

/-! Rules for computations with a state that an error leaves as it is. -/

variable {B : Type}

variable {first : EStateM E S A} {next : A → EStateM E S B}

theorem bind_of_ok (done : first before = .ok value after) :
    (first >>= next) before = next value after := by
  change EStateM.bind first next before = _
  simp only [EStateM.bind, done]

theorem bind_of_error {failure : E} (failed : first before = .error failure after) :
    (first >>= next) before = .error failure after := by
  change EStateM.bind first next before = _
  simp only [EStateM.bind, failed]

@[simp] theorem pure_run : (pure value : EStateM E S A) state = .ok value state := rfl

@[simp] theorem throw_run (failure : E) :
    (throw failure : EStateM E S A) state = .error failure state := rfl

@[simp] theorem get_bind_run (next : S → EStateM E S A) (state : S) :
    (get >>= next) state = next state state := rfl

theorem bind_eq_ok : (first >>= next) before = .ok result after ↔
      ∃ value between, first before = .ok value between ∧
        next value between = .ok result after := by
  change EStateM.bind first next before = _ ↔ _
  unfold EStateM.bind
  cases ran : first before with
  | ok value between =>
    constructor
    · intro continued
      exact ⟨value, between, rfl, continued⟩
    · rintro ⟨_, _, same, continued⟩
      cases same
      exact continued
  | error failure between =>
    constructor
    · intro impossible
      cases impossible
    · rintro ⟨_, _, impossible, _⟩
      cases impossible

theorem liftExcept_eq_ok {given : Except E A} :
    (liftExcept given : EStateM E S A) before = .ok value after ↔
      given = .ok value ∧ before = after := by
  cases given with
  | ok found =>
    change (pure found : EStateM E S A) before = _ ↔ _
    rw [pure_run, EStateM.Result.ok.injEq, Except.ok.injEq]
  | error failure =>
    change (throw failure : EStateM E S A) before = _ ↔ _
    rw [throw_run]
    constructor
    · intro impossible
      cases impossible
    · rintro ⟨impossible, _⟩
      cases impossible

def Yields (program : EStateM E S A) (result : A) : Prop :=
  ∃ before after, program before = .ok result after

namespace Yields

theorem bind (yields : Yields (first >>= next) result) :
    ∃ value, Yields first value ∧ Yields (next value) result := by
  obtain ⟨before, after, ran⟩ := yields
  obtain ⟨value, between, done, continued⟩ := bind_eq_ok.mp ran
  exact ⟨value, ⟨before, between, done⟩, between, after, continued⟩

theorem pure (yields : Yields (pure value : EStateM E S A) result) : result = value := by
  obtain ⟨before, after, ran⟩ := yields
  cases ran
  rfl

theorem throw {failure : E} (yields : Yields (throw failure : EStateM E S A) result) : False := by
  obtain ⟨before, after, ran⟩ := yields
  cases ran

theorem liftExcept {given : Except E A}
    (yields : Yields (liftExcept given : EStateM E S A) result) : given = .ok result := by
  obtain ⟨before, after, ran⟩ := yields
  exact (liftExcept_eq_ok.mp ran).1

theorem guarded [Decidable condition] {failure : E} {next : EStateM E S A}
    (yields : Yields (if condition then MonadExcept.throw failure else next) result) :
    ¬condition ∧ Yields next result := by
  by_cases failed : condition
  · rw [if_pos failed] at yields
    exact yields.throw.elim
  · rw [if_neg failed] at yields
    exact ⟨failed, yields⟩

variable {items : List A}

theorem mapM (yields : Yields (items.mapM action) results) :
    List.Forall₂ (fun item result => Yields (action item) result) items results := by
  induction items generalizing results with
  | nil =>
    cases yields.pure
    exact .nil
  | cons item rest induction =>
    rw [List.mapM_cons] at yields
    obtain ⟨result, done, continued⟩ := yields.bind
    obtain ⟨others, looped, returned⟩ := continued.bind
    cases returned.pure
    exact .cons done (induction looped)

theorem exists_of_paired {result : B} (paired : List.Forall₂ related items results)
    (member : result ∈ results) : ∃ item ∈ items, related item result := by
  induction paired with
  | nil => exact absurd member List.not_mem_nil
  | cons done others induction =>
    obtain rfl | later := List.mem_cons.mp member
    · exact ⟨_, List.mem_cons_self, done⟩
    · obtain ⟨item, listed, yielded⟩ := induction later
      exact ⟨item, List.mem_cons_of_mem _ listed, yielded⟩

theorem exists_item {result : B} (yields : Yields (items.mapM action) results)
    (member : result ∈ results) : ∃ item ∈ items, Yields (action item) result :=
  exists_of_paired yields.mapM member

theorem exists_result (yields : Yields (items.mapM action) results) (member : item ∈ items) :
    ∃ result ∈ results, Yields (action item) result :=
  exists_of_paired yields.mapM.flip member

theorem mapM_entries {K V : Type} {action : K → V → EStateM E S B} {entries : List (K × V)}
    (yields : Yields (entries.mapM fun (key, value) => action key value) results) :
    ∃ groups : List (K × B), groups.map Prod.snd = results ∧
      groups.map Prod.fst = entries.map Prod.fst ∧
      ∀ group ∈ groups, ∃ value, (group.1, value) ∈ entries ∧
        Yields (action group.1 value) group.2 := by
  have paired := yields.mapM
  clear yields
  induction paired with
  | nil => exact ⟨[], rfl, rfl, List.forall_mem_nil _⟩
  | @cons entry result entries results done others induction =>
    obtain ⟨groups, sameResults, sameKeys, each⟩ := induction
    refine ⟨(entry.1, result) :: groups, ?_, ?_, ?_⟩
    · rw [List.map_cons, sameResults]
    · rw [List.map_cons, List.map_cons, sameKeys]
    · intro group member
      obtain rfl | later := List.mem_cons.mp member
      · exact ⟨entry.2, List.mem_cons_self, done⟩
      · obtain ⟨value, listed, yielded⟩ := each group later
        exact ⟨value, List.mem_cons_of_mem _ listed, yielded⟩

end Yields

/-- It returns a state with the invariant and a value as expected, or it fails with an
error as expected. -/
def Triple (invariant : S → Prop) (program : EStateM E S A) (returns : A → Prop)
    (fails : E → Prop) : Prop :=
  ∀ before, invariant before →
    match program before with
    | .ok value after => invariant after ∧ returns value
    | .error failure _ => fails failure

namespace Triple

theorem pure (holds : returns value) : Triple invariant (pure value) returns fails :=
  fun _ before => ⟨before, holds⟩

theorem throw {failure : E} (expected : fails failure) :
    Triple invariant (throw failure) returns fails :=
  fun _ _ => expected

theorem bind {returns : B → Prop} (starts : Triple invariant first between fails)
    (continues : ∀ value, between value → Triple invariant (next value) returns fails) :
    Triple invariant (first >>= next) returns fails := by
  intro before holds
  have started := starts before holds
  cases ran : first before with
  | ok value after =>
    rw [ran] at started
    rw [bind_of_ok ran]
    exact continues value started.2 after started.1
  | error failure after =>
    rw [ran] at started
    rw [bind_of_error ran]
    exact started

theorem liftExcept {given : Except E A} (succeeds : ∀ value, given = .ok value → returns value)
    (expected : ∀ failure, given = .error failure → fails failure) :
    Triple invariant (liftExcept given) returns fails := by
  cases given with
  | ok value => exact pure (succeeds value rfl)
  | error failure => exact throw (expected failure rfl)

theorem mono (triple : Triple invariant program returns fails)
    (implies : ∀ value, returns value → weaker value) : Triple invariant program weaker fails := by
  intro before holds
  have done := triple before holds
  cases ran : program before with
  | ok value after =>
    rw [ran] at done
    exact ⟨done.1, implies value done.2⟩
  | error failure after =>
    rw [ran] at done
    exact done

theorem weaken (triple : Triple invariant program returns fails)
    (implies : ∀ failure, fails failure → other failure) :
    Triple invariant program returns other := by
  intro before holds
  have done := triple before holds
  cases ran : program before with
  | ok value after =>
    rw [ran] at done
    exact done
  | error failure after =>
    rw [ran] at done
    exact implies failure done

theorem mapM {returns : A → B → Prop}
    (each : ∀ item ∈ items, Triple invariant (action item) (returns item) fails) :
    Triple invariant (items.mapM action) (List.Forall₂ returns items) fails := by
  induction items with
  | nil => exact pure .nil
  | cons item rest induction =>
    rw [List.mapM_cons]
    refine bind (each item List.mem_cons_self) fun result done => ?_
    refine bind (induction fun other member => each other (List.mem_cons_of_mem _ member)) ?_
    exact fun others looped => pure (.cons done looped)

theorem returned (triple : Triple invariant program returns fails) (holds : invariant before)
    (ran : program before = .ok value after) : returns value := by
  have done := triple before holds
  rw [ran] at done
  exact done.2

theorem kept (triple : Triple invariant program returns fails) (holds : invariant before)
    (ran : program before = .ok value after) : invariant after := by
  have done := triple before holds
  rw [ran] at done
  exact done.1

theorem failed {failure : E} (triple : Triple invariant program returns fails)
    (holds : invariant before) (ran : program before = .error failure after) : fails failure := by
  have done := triple before holds
  rw [ran] at done
  exact done

end Triple

def lastState : EStateM.Result E S A → S
  | .ok _ after => after
  | .error _ after => after

def Always (kept : S → Prop) (program : EStateM E S A) : Prop :=
  ∀ before, kept before → kept (lastState (program before))

namespace Always

theorem pure (value : A) : Always kept (pure value : EStateM E S A) := fun _ holds => holds

theorem bind (starts : Always kept first) (continues : ∀ value, Always kept (next value)) :
    Always kept (first >>= next) := by
  intro before holds
  have started := starts before holds
  cases ran : first before with
  | ok value after =>
    rw [ran] at started
    rw [bind_of_ok ran]
    exact continues value after started
  | error failure after =>
    rw [ran] at started
    rw [bind_of_error ran]
    exact started

theorem mapM {items : List A} (each : ∀ item, Always kept (action item)) :
    Always kept (items.mapM action) := by
  induction items with
  | nil => exact pure []
  | cons item rest induction =>
    rw [List.mapM_cons]
    exact bind (each item) fun _ => bind induction fun _ => pure _

end Always

/-- The computation returns, or it fails with an error as expected. -/
def FailsWith (program : EStateM E S A) (fails : E → Prop) : Prop :=
  ∀ before after failure, program before = .error failure after → fails failure

namespace FailsWith

theorem pure (value : A) : FailsWith (pure value : EStateM E S A) fails := by
  intro before after failure failed
  cases failed

theorem throw {failure : E} (expected : fails failure) :
    FailsWith (throw failure : EStateM E S A) fails := by
  intro before after other failed
  cases failed
  exact expected

theorem bind (starts : FailsWith first fails) (continues : ∀ value, FailsWith (next value) fails) :
    FailsWith (first >>= next) fails := by
  intro before after failure failed
  cases ran : first before with
  | ok value between =>
    rw [bind_of_ok ran] at failed
    exact continues value _ _ _ failed
  | error other between =>
    rw [bind_of_error ran] at failed
    cases failed
    exact starts _ _ _ ran

theorem liftExcept {given : Except E A}
    (expected : ∀ failure, given = .error failure → fails failure) :
    FailsWith (liftExcept given : EStateM E S A) fails := by
  cases given with
  | ok value => exact pure value
  | error failure => exact throw (expected failure rfl)

theorem mapM (each : ∀ item, FailsWith (action item) fails) (items : List A) :
    FailsWith (items.mapM action) fails := by
  induction items with
  | nil => exact pure []
  | cons item rest induction =>
    rw [List.mapM_cons]
    exact (each item).bind fun _ => induction.bind fun _ => pure _

end FailsWith

/-- From every state, the computation succeeds if and only if the condition holds. -/
def Decides (program : EStateM E S A) (condition : Prop) : Prop :=
  ∀ before, (∃ value after, program before = .ok value after) ↔ condition

namespace Decides

theorem pure (value : A) : Decides (pure value : EStateM E S A) True :=
  fun before => iff_of_true ⟨value, before, rfl⟩ trivial

theorem throw (failure : E) : Decides (throw failure : EStateM E S A) False := by
  refine fun before => iff_of_false (fun returned => ?_) not_false
  obtain ⟨value, after, ran⟩ := returned
  cases ran

theorem bind (starts : Decides first early) (continues : ∀ value, Decides (next value) late) :
    Decides (first >>= next) (early ∧ late) := by
  intro before
  constructor
  · rintro ⟨result, last, ran⟩
    obtain ⟨value, after, started, continued⟩ := bind_eq_ok.mp ran
    exact ⟨(starts before).mp ⟨value, after, started⟩,
      (continues value after).mp ⟨result, last, continued⟩⟩
  · rintro ⟨early, late⟩
    obtain ⟨value, after, started⟩ := (starts before).mpr early
    obtain ⟨result, last, continued⟩ := (continues value after).mpr late
    exact ⟨result, last, bind_eq_ok.mpr ⟨value, after, started, continued⟩⟩

theorem iff (decides : Decides program condition) (same : condition ↔ other) :
    Decides program other := fun before => (decides before).trans same

theorem andThen (starts : Decides first True)
    (continues : ∀ value, Decides (next value) condition) : Decides (first >>= next) condition :=
  (starts.bind continues).iff (iff_of_eq (true_and _))

theorem throwThen (failure : E) (next : A → EStateM E S B) :
    Decides (MonadExcept.throw failure >>= next) False := by
  refine fun before => iff_of_false (fun returned => ?_) not_false
  obtain ⟨value, after, ran⟩ := returned
  cases ran

theorem liftExcept (given : Except E A) :
    Decides (liftExcept given : EStateM E S A) (∃ value, given = .ok value) := by
  intro before
  constructor
  · rintro ⟨value, after, ran⟩
    exact ⟨value, (liftExcept_eq_ok.mp ran).1⟩
  · rintro ⟨value, rfl⟩
    exact ⟨value, before, rfl⟩

variable {action : A → EStateM E S B}

theorem mapM {condition : A → Prop} {items : List A}
    (each : ∀ item ∈ items, Decides (action item) (condition item)) :
    Decides (items.mapM action) (∀ item ∈ items, condition item) := by
  induction items with
  | nil => exact (pure []).iff (iff_of_true trivial (List.forall_mem_nil _))
  | cons item rest induction =>
    rw [List.mapM_cons]
    have rested := induction fun other member => each other (List.mem_cons_of_mem _ member)
    have looped := (each item List.mem_cons_self).bind fun result : B =>
      rested.bind fun others => pure (result :: others)
    refine looped.iff ?_
    rw [and_true, List.forall_mem_cons]

theorem mapM_true {items : List A} (each : ∀ item ∈ items, Decides (action item) True) :
    Decides (items.mapM action) True :=
  (mapM each).iff (iff_of_true (fun _ _ => trivial) trivial)

end Decides

def finalState : EStateM.Result E S A → S
  | .ok _ state => state
  | .error _ state => state

theorem forM_if (condition : A → Prop) [DecidablePred condition]
    (action : A → EStateM E S Unit) (items : List A) :
    (items.forM fun item => if condition item then action item else pure ()) =
      (items.filter condition).forM action := by
  induction items with
  | nil => rfl
  | cons item rest induction =>
    by_cases holds : condition item
    · rw [List.filter_cons_of_pos (by simpa using holds)]
      change ((if condition item then action item else pure ()) >>= fun _ => _) = _
      rw [if_pos holds, induction]
      rfl
    · rw [List.filter_cons_of_neg (by simpa using holds), ← induction]
      change ((if condition item then action item else pure ()) >>= fun _ => _) = _
      rw [if_neg holds]
      rfl

end Krill.Stateful
