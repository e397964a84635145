import Mathlib.Data.List.Sort

namespace Krill.StableSort

open List

/-! Sorting by insertion keeps the order of items that rank equal. -/

variable {r : A → A → Prop} [DecidableRel r] [Std.Total r] [IsTrans A r]

theorem orderedInsert_comm (after : ¬r first second) (items : List A) :
    (items.orderedInsert r first).orderedInsert r second =
      (items.orderedInsert r second).orderedInsert r first := by
  have before : r second first := (total_of r first second).resolve_left after
  induction items with
  | nil => simp [before, after]
  | cons next rest induction =>
    by_cases firstHere : r first next
    · have secondHere : r second next := trans_of r before firstHere
      simp [firstHere, secondHere, before, after]
    · by_cases secondHere : r second next <;> simp [firstHere, secondHere, after, induction]

theorem insertionSort_append (items others : List A) :
    (items.insertionSort r ++ others).insertionSort r = (items ++ others).insertionSort r := by
  have inserted (item : A) (sorted base : List A) :
      (sorted.orderedInsert r item).foldr (orderedInsert r) base =
        (sorted.foldr (orderedInsert r) base).orderedInsert r item := by
    induction sorted with
    | nil => rfl
    | cons first rest induction =>
      by_cases before : r item first
      · rw [orderedInsert_cons_of_le _ _ before, foldr_cons]
      · rw [orderedInsert_cons, if_neg before, foldr_cons, induction, foldr_cons,
          orderedInsert_comm before]
  unfold insertionSort
  rw [foldr_append, foldr_append]
  induction items with
  | nil => rfl
  | cons first rest induction => rw [foldr_cons, foldr_cons, inserted, induction]

omit [Std.Total r] [IsTrans A r] in
theorem eq_of_insertionSort_reverse {items : List A} (distinct : items.Nodup)
    (same : items.insertionSort r = items.reverse.insertionSort r) (firstIn : first ∈ items)
    (secondIn : second ∈ items) (le : r first second) (ge : r second first) : first = second := by
  by_contra different
  have either : [first, second] <+ items ∨ [second, first] <+ items := by
    clear same distinct
    induction items with grind
  have distinct : (items.insertionSort r).Nodup :=
    (perm_insertionSort r items).nodup_iff.mpr distinct
  have both (forward : [first, second] <+ items.insertionSort r)
      (backward : [second, first] <+ items.insertionSort r) : False := by
    generalize items.insertionSort r = sorted at distinct forward backward
    clear same firstIn secondIn either
    induction sorted with grind
  obtain pair | pair := either
  · exact both (pair_sublist_insertionSort le pair)
      (same ▸ pair_sublist_insertionSort ge pair.reverse)
  · exact both (same ▸ pair_sublist_insertionSort le pair.reverse)
      (pair_sublist_insertionSort ge pair)

end Krill.StableSort
