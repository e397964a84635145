namespace Krill.Phases

/-! A call that is made in phases. Each phase does one operation on the shared state, and then
the call goes on in its next phase or returns. -/

variable {S C D R Q : Type}

inductive Progress (C R : Type) where
  | next (call : C)
  | done (result : R)

def Progress.within (part : Progress C R) (around : C → D) (after : R → Progress D Q) :
    Progress D Q :=
  match part with
  | .next call => .next (around call)
  | .done result => after result

/-- The call comes to an end while nothing else touches the state. -/
inductive Returns (advance : S → C → S × Progress C R) : S → C → S → R → Prop where
  | done {state after : S} {call : C} {result : R}
      (ends : advance state call = (after, .done result)) : Returns advance state call after result
  | next {state between after : S} {call later : C} {result : R}
      (goesOn : advance state call = (between, .next later))
      (returns : Returns advance between later after result) :
      Returns advance state call after result

section Within

variable {advance : S → C → S × Progress C R} {outer : S → D → S × Progress D Q} {around : C → D}
  {after : R → Progress D Q} (parts : ∀ state call, outer state (around call) =
    ((advance state call).1, (advance state call).2.within around after))
  {state : S} {call : C}

include parts

theorem Returns.within_next (part : Returns advance state call between result)
    (goesOn : after result = .next later) (rest : Returns outer between later last answer) :
    Returns outer state (around call) last answer := by
  induction part with
  | done ends =>
    refine .next ?_ rest
    rw [parts, ends, Progress.within, goesOn]
  | next step _ induction =>
    refine .next ?_ (induction goesOn rest)
    rw [parts, step, Progress.within]

theorem Returns.within_done (part : Returns advance state call between result)
    (ends : after result = .done answer) : Returns outer state (around call) between answer := by
  induction part with
  | done step =>
    refine .done ?_
    rw [parts, step, Progress.within, ends]
  | next step _ induction =>
    refine .next ?_ (induction ends)
    rw [parts, step, Progress.within]

end Within

end Krill.Phases
