import Mathlib.Logic.Basic

namespace Krill.Fallible

/-! Rules for computations that stop at their first error. -/

theorem bind_eq_ok {next : A → Except E B} :
    (first >>= next) = .ok result ↔ ∃ value, first = .ok value ∧ next value = .ok result := by
  cases first with
  | error failure =>
    constructor
    · intro impossible
      cases impossible
    · rintro ⟨_, impossible, _⟩
      cases impossible
  | ok value =>
    constructor
    · intro continued
      exact ⟨value, rfl, continued⟩
    · rintro ⟨_, same, continued⟩
      cases same
      exact continued

theorem then_eq_ok {next : Except E B} :
    (first >>= fun _ => next) = .ok result ↔ first = .ok () ∧ next = .ok result := by
  rw [bind_eq_ok]
  constructor
  · intro chained
    obtain ⟨_, checked, continued⟩ := chained
    exact ⟨checked, continued⟩
  · intro both
    exact ⟨(), both⟩

theorem forM_eq_ok {check : A → Except E Unit} {items : List A} :
    items.forM check = .ok () ↔ ∀ item ∈ items, check item = .ok () := by
  induction items with
  | nil => simp [List.forM, pure, Except.pure]
  | cons item rest induction =>
    change (check item >>= fun _ => rest.forM check) = .ok () ↔ _
    rw [then_eq_ok, List.forall_mem_cons, ← induction]

theorem ite_error_eq_ok [Decidable condition] {failure : E} {otherwise : Except E A} :
    (if condition then .error failure else otherwise) = .ok result ↔
      ¬ condition ∧ otherwise = .ok result := by
  by_cases holds : condition <;> simp [holds]

end Krill.Fallible
