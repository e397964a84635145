import Mathlib.Data.List.Basic

namespace Krill.LastWrite

/-! One place that is written to in turn. Each item sets a value or leaves the place alone, and
the last item that sets one decides. -/

variable {A V : Type} {write : A → Option V}

def settle (write : A → Option V) (initial : V) (items : List A) : V :=
  items.foldl (fun value item => (write item).getD value) initial

@[simp] theorem settle_cons (initial : V) (item : A) (rest : List A) :
    settle write initial (item :: rest) = settle write ((write item).getD initial) rest := rfl

@[simp] theorem settle_append :
    settle write initial (first ++ second) = settle write (settle write initial first) second :=
  List.foldl_append

theorem settle_untouched (untouched : ∀ item ∈ items, write item = none) :
    settle write initial items = initial := by
  induction items with
  | nil => rfl
  | cons item rest induction =>
    rw [settle_cons, untouched item List.mem_cons_self, Option.getD_none]
    apply induction
    intro later member
    exact untouched later (List.mem_cons_of_mem _ member)

theorem settle_last_write (sets : write item = some value)
    (untouched : ∀ later ∈ after, write later = none) :
    settle write initial (before ++ item :: after) = value := by
  rw [settle_append, settle_cons, sets, Option.getD_some, settle_untouched untouched]

theorem exists_last_write (touched : ∃ item ∈ items, (write item).isSome) :
    ∃ before item after value, items = before ++ item :: after ∧ write item = some value ∧
      ∀ later ∈ after, write later = none := by
  induction items with
  | nil =>
    obtain ⟨item, member, -⟩ := touched
    cases member
  | cons first rest induction =>
    by_cases more : ∃ item ∈ rest, (write item).isSome
    · obtain ⟨before, item, after, value, rfl, sets, untouched⟩ := induction more
      exact ⟨first :: before, item, after, value, rfl, sets, untouched⟩
    · have untouched : ∀ later ∈ rest, write later = none := fun later member =>
        Option.not_isSome_iff_eq_none.mp fun sets => more ⟨later, member, sets⟩
      obtain ⟨item, member, sets⟩ := touched
      rcases List.mem_cons.mp member with rfl | inRest
      · obtain ⟨value, found⟩ := Option.isSome_iff_exists.mp sets
        exact ⟨[], item, rest, value, rfl, found, untouched⟩
      · exact absurd ⟨item, inRest, sets⟩ more

theorem settle_cases (initial : V) (items : List A) :
    (∃ item ∈ items, write item = some (settle write initial items)) ∨
      settle write initial items = initial := by
  by_cases touched : ∃ item ∈ items, (write item).isSome
  · obtain ⟨before, item, after, value, rfl, sets, untouched⟩ := exists_last_write touched
    exact .inl ⟨item, by simp, by rw [settle_last_write sets untouched, sets]⟩
  · exact .inr (settle_untouched fun item member =>
      Option.not_isSome_iff_eq_none.mp fun sets => touched ⟨item, member, sets⟩)

/-- Among items that are processed rank by rank, the value comes from one that no item of a
later rank overwrites. -/
theorem settle_ranked {rank : A → Nat}
    (ranked : items.Pairwise fun earlier later => rank earlier ≤ rank later)
    (touched : ∃ item ∈ items, (write item).isSome) :
    ∃ item ∈ items, write item = some (settle write initial items) ∧
      ∀ later ∈ items, rank item < rank later → write later = none := by
  obtain ⟨before, item, after, value, rfl, sets, untouched⟩ := exists_last_write touched
  refine ⟨item, by simp, ?_, ?_⟩
  · rw [settle_last_write sets untouched, sets]
  · intro later member higher
    rw [List.pairwise_append] at ranked
    rcases List.mem_append.mp member with early | late
    · exact absurd (ranked.2.2 later early item List.mem_cons_self) (by omega)
    · rcases List.mem_cons.mp late with rfl | late
      · exact absurd higher (Nat.lt_irrefl _)
      · exact untouched later late

end Krill.LastWrite
