import Mathlib.Logic.Relation

namespace Krill

/-! Programs that work on a state in single operations. Between two of them a
program may be stopped, and others may work on the same state. -/

inductive Program (S E A : Type) where
  | done (result : Except E A)
  /-- Continue by what the state is now. -/
  | look (next : S → Program S E A)
  /-- An operation whose failure ends the program. -/
  | act (change : S → Except E S) (next : Program S E A)
  /-- An operation whose failure is ignored. -/
  | attempt (change : S → S) (next : Program S E A)

namespace Program

variable {S E A B : Type}

def bind : Program S E A → (A → Program S E B) → Program S E B
  | .done (.ok value), follow => follow value
  | .done (.error failure), _ => .done (.error failure)
  | .look next, follow => .look fun state => (next state).bind follow
  | .act change next, follow => .act change (next.bind follow)
  | .attempt change next, follow => .attempt change (next.bind follow)

instance : Monad (Program S E) where
  pure value := .done (.ok value)
  bind := bind

def fail (failure : E) : Program S E A := .done (.error failure)

def view (read : S → A) : Program S E A := .look fun state => pure (read state)

def perform (change : S → Except E S) : Program S E Unit := .act change (pure ())

def attemptTo (change : S → S) : Program S E Unit := .attempt change (pure ())

def forEach (action : B → Program S E Unit) : List B → Program S E Unit
  | [] => pure ()
  | first :: rest => do
    action first
    forEach action rest

def run : Program S E A → S → Except E A × S
  | .done result, state => (result, state)
  | .look next, state => (next state).run state
  | .act change next, state =>
    match change state with
    | .ok changed => next.run changed
    | .error failure => (.error failure, state)
  | .attempt change next, state => next.run (change state)

theorem run_bind (program : Program S E A) (state : S) : (program >>= follow).run state =
      match program.run state with
      | (.ok value, after) => (follow value).run after
      | (.error failure, after) => (.error failure, after) := by
  change (program.bind follow).run state = _
  induction program generalizing state with
  | done result =>
    cases result with
    | ok value => rfl
    | error failure => rfl
  | look next induction => exact induction state state
  | act change next induction =>
    cases changed : change state with
    | ok after =>
      simp only [bind, run, changed]
      exact induction after
    | error failure => simp only [bind, run, changed]
  | attempt change next induction => exact induction (change state)

variable {program : Program S E A}

theorem run_bind_of_ok (ran : program.run state = (.ok value, after)) (follow : A → Program S E B) :
    (program >>= follow).run state = (follow value).run after := by
  rw [run_bind, ran]

theorem run_bind_of_error {failure : E} (ran : program.run state = (.error failure, after))
    (follow : A → Program S E B) : (program >>= follow).run state = (.error failure, after) := by
  rw [run_bind, ran]

@[simp] theorem run_pure : (pure value : Program S E A).run state = (.ok value, state) := rfl

@[simp] theorem run_fail (failure : E) :
    (fail failure : Program S E A).run state = (.error failure, state) := rfl

@[simp] theorem run_view_bind (read : S → A) (follow : A → Program S E B) (state : S) :
    (view read >>= follow).run state = (follow (read state)).run state := rfl

theorem run_perform (change : S → Except E S) (state : S) : (perform change).run state =
      match change state with
      | .ok changed => (.ok (), changed)
      | .error failure => (.error failure, state) := rfl

def advance : Program S E A → S → Program S E A × S
  | .done result, state => (.done result, state)
  | .look next, state => (next state, state)
  | .act change next, state =>
    match change state with
    | .ok changed => (next, changed)
    | .error failure => (fail failure, state)
  | .attempt change next, state => (next, change state)

theorem run_advance (program : Program S E A) (state : S) :
    (program.advance state).1.run (program.advance state).2 = program.run state := by
  cases program with
  | done | look => rfl
  | act change next =>
    cases changed : change state with
    | ok after => simp only [advance, run, changed]
    | error failure => simp only [advance, run, changed, run_fail]
  | attempt change next => rfl

def Total (program : Program S E A) : Prop :=
  ∀ state, ∃ value after, program.run state = (.ok value, after)

namespace Total

theorem pure (value : A) : (Pure.pure value : Program S E A).Total :=
  fun state => ⟨value, state, rfl⟩

theorem attemptTo (change : S → S) : (attemptTo change : Program S E Unit).Total :=
  fun state => ⟨(), change state, rfl⟩

theorem bind {follow : A → Program S E B} (total : program.Total)
    (follows : ∀ value, (follow value).Total) : (program >>= follow).Total := by
  intro state
  obtain ⟨value, between, ran⟩ := total state
  rw [run_bind_of_ok ran]
  exact follows value between

theorem look {next : S → Program S E A} (nexts : ∀ state, (next state).Total) :
    (Program.look next).Total :=
  fun state => nexts state state

theorem forEach {action : B → Program S E Unit} (actions : ∀ item, (action item).Total)
    (items : List B) : (forEach action items).Total := by
  induction items with
  | nil => exact .pure ()
  | cons first rest induction => exact (actions first).bind fun _ => induction

end Total

def visited : Program S E A → S → List S
  | .done _, state => [state]
  | .look next, state => (next state).visited state
  | .act change next, state =>
    state :: match change state with
      | .ok changed => next.visited changed
      | .error _ => []
  | .attempt change next, state => state :: next.visited (change state)

inductive Step : Program S E A × S → Program S E A × S → Prop
  | look {next : S → Program S E A} {state : S} : Step (.look next, state) (next state, state)
  | act {change : S → Except E S} {next : Program S E A} {state changed : S}
      (succeeds : change state = .ok changed) : Step (.act change next, state) (next, changed)
  | fails {change : S → Except E S} {next : Program S E A} {state : S} (failure : E) :
      Step (.act change next, state) (fail failure, state)
  | attempt {change : S → S} {next : Program S E A} {state : S} :
      Step (.attempt change next, state) (next, change state)
  | missed {change : S → S} {next : Program S E A} {state : S} :
      Step (.attempt change next, state) (next, state)

/-- The program may get from one state to the other, with something still to do. -/
def Reaches (program : Program S E A) (state : S) (rest : Program S E A) (after : S) : Prop :=
  Relation.ReflTransGen Step (program, state) (rest, after)

theorem reaches_run (program : Program S E A) (state : S) :
    program.Reaches state (.done (program.run state).1) (program.run state).2 := by
  induction program generalizing state with
  | done result => exact .refl
  | look next induction => exact .head .look (induction state state)
  | act change next induction =>
    cases changed : change state with
    | ok after =>
      simp only [run, changed]
      exact .head (.act changed) (induction after)
    | error failure =>
      simp only [run, changed]
      exact .single (.fails failure)
  | attempt change next induction => exact .head .attempt (induction (change state))

/-- Whatever fails and wherever the program is stopped, `stopped` holds, and `post` holds
when it returns a value. -/
def Guarantees (stopped : S → Prop) (post : A → S → Prop) : Program S E A → S → Prop
  | .done (.ok value), state => stopped state ∧ post value state
  | .done (.error _), state => stopped state
  | .look next, state => stopped state ∧ (next state).Guarantees stopped post state
  | .act change next, state => stopped state ∧
      ∀ changed, change state = .ok changed → next.Guarantees stopped post changed
  | .attempt change next, state => stopped state ∧
      next.Guarantees stopped post (change state) ∧ next.Guarantees stopped post state

namespace Guarantees

theorem now (guarantees : program.Guarantees stopped post state) : stopped state := by
  cases program with
  | done result =>
    cases result with
    | ok value => exact guarantees.1
    | error failure => exact guarantees
  | _ => exact guarantees.1

theorem step (guarantees : program.Guarantees stopped post state)
    (steps : Step (program, state) (rest, after)) : rest.Guarantees stopped post after := by
  cases steps with
  | look => exact guarantees.2
  | act succeeds => exact guarantees.2 _ succeeds
  | fails failure => exact guarantees.1
  | attempt => exact guarantees.2.1
  | missed => exact guarantees.2.2

theorem advance (guarantees : program.Guarantees stopped post state) :
    (program.advance state).1.Guarantees stopped post (program.advance state).2 := by
  cases program with
  | done result => exact guarantees
  | look next => exact guarantees.2
  | act change next =>
    cases changed : change state with
    | ok after =>
      simp only [Program.advance, changed]
      exact guarantees.2 after changed
    | error failure =>
      simp only [Program.advance, changed]
      exact guarantees.1
  | attempt change next => exact guarantees.2.1

theorem reaches (guarantees : program.Guarantees stopped post state)
    (reaches : program.Reaches state rest after) : rest.Guarantees stopped post after := by
  unfold Reaches at reaches
  generalize here : (program, state) = start at reaches
  generalize there : (rest, after) = goal at reaches
  induction reaches generalizing rest after with
  | refl =>
    subst here
    cases there
    exact guarantees
  | tail _ step induction =>
    subst there
    rename_i middle _
    obtain ⟨between, midway⟩ := middle
    exact (induction rfl).step step

theorem mono (guarantees : program.Guarantees stopped post state)
    (stops : ∀ state, stopped state → weaker state)
    (posts : ∀ value state, post value state → looser value state) :
    program.Guarantees weaker looser state := by
  induction program generalizing state with
  | done result =>
    cases result with
    | ok value => exact ⟨stops _ guarantees.1, posts _ _ guarantees.2⟩
    | error failure => exact stops _ guarantees
  | look next induction => exact ⟨stops _ guarantees.1, induction _ guarantees.2⟩
  | act change next induction =>
    exact ⟨stops _ guarantees.1, fun changed succeeds =>
      induction (guarantees.2 changed succeeds)⟩
  | attempt change next induction =>
    exact ⟨stops _ guarantees.1, induction guarantees.2.1, induction guarantees.2.2⟩

theorem bind {after : B → S → Prop} (guarantees : program.Guarantees stopped
      (fun value state => (follow value).Guarantees stopped after state) state) :
    (program >>= follow).Guarantees stopped after state := by
  change (program.bind follow).Guarantees stopped after state
  induction program generalizing state with
  | done result =>
    cases result with
    | ok value => exact guarantees.2
    | error failure => exact guarantees
  | look next induction => exact ⟨guarantees.1, induction _ guarantees.2⟩
  | act change next induction =>
    exact ⟨guarantees.1, fun changed succeeds => induction (guarantees.2 changed succeeds)⟩
  | attempt change next induction =>
    exact ⟨guarantees.1, induction guarantees.2.1, induction guarantees.2.2⟩

theorem trivial (program : Program S E A) (state : S) :
    program.Guarantees (fun _ => True) (fun _ _ => True) state := by
  induction program generalizing state with
  | done result =>
    cases result with
    | ok value => exact ⟨True.intro, True.intro⟩
    | error failure => exact True.intro
  | look next induction => exact ⟨True.intro, induction state state⟩
  | act change next induction => exact ⟨True.intro, fun changed _ => induction changed⟩
  | attempt change next induction =>
    exact ⟨True.intro, induction (change state), induction state⟩

theorem forEach {action : B → Program S E Unit} {items : List B} {keeps : S → Prop}
    (turn : ∀ item ∈ items, ∀ state, keeps state →
      (action item).Guarantees stopped (fun _ after => keeps after) state)
    (stops : ∀ state, keeps state → stopped state) (before : keeps state) :
    (Program.forEach action items).Guarantees stopped (fun _ after => keeps after) state := by
  induction items generalizing state with
  | nil => exact ⟨stops state before, before⟩
  | cons first rest induction =>
    refine bind ((turn first List.mem_cons_self state before).mono (fun _ holds => holds)
      fun _ between kept => induction (fun item member => turn item
        (List.mem_cons_of_mem _ member)) kept)

end Guarantees

end Program

end Krill
