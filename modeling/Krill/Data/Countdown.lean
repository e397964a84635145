import Mathlib.Data.List.Sort
import Mathlib.Data.List.Chain

namespace Krill

/-! Lists that are numbered downwards without a gap, newest first. -/

variable {A : Type}

def Countdown (top : Nat) (numbers : List Nat) : Prop :=
  ((top + 1) :: numbers).IsChain fun newer older => newer = older + 1

namespace Countdown

theorem nil (top : Nat) : Countdown top [] := .singleton _

theorem cons (countdown : Countdown top numbers) : Countdown (top + 1) ((top + 1) :: numbers) :=
  List.isChain_cons_cons.mpr ⟨rfl, countdown⟩

theorem of_prefix (countdown : Countdown top numbers) (first : front <+: numbers) :
    Countdown top front :=
  List.IsChain.prefix countdown ((List.prefix_cons_inj _).mpr first)

theorem pairwise_cons (countdown : Countdown top numbers) :
    ((top + 1) :: numbers).Pairwise (· > ·) := by
  have chain : ((top + 1) :: numbers).IsChain (· > ·) :=
    List.IsChain.imp (fun newer older next => by omega) countdown
  exact chain.pairwise

theorem pairwise (countdown : Countdown top numbers) : numbers.Pairwise (· > ·) :=
  (List.pairwise_cons.mp countdown.pairwise_cons).2

theorem le (countdown : Countdown top numbers) (member : number ∈ numbers) : number ≤ top :=
  Nat.lt_succ_iff.mp ((List.pairwise_cons.mp countdown.pairwise_cons).1 number member)

theorem head_eq (countdown : Countdown top numbers) (first : numbers.head? = some number) :
    number = top := by
  cases numbers with
  | nil => cases first
  | cons newest rest =>
    cases first
    have next := (List.isChain_cons_cons.mp countdown).1
    omega

end Countdown

theorem insertionSort_eq_reverse [DecidableRel before] {items : List A}
    (descending : items.Pairwise fun left right => ¬ before left right) :
    items.insertionSort before = items.reverse := by
  have last : ∀ {item : A} {sorted : List A}, (∀ other ∈ sorted, ¬ before item other) →
      sorted.orderedInsert before item = sorted ++ [item] := by
    intro item sorted after
    induction sorted with
    | nil => rfl
    | cons first rest induction =>
      rw [List.orderedInsert, if_neg (after first List.mem_cons_self),
        induction fun other member => after other (List.mem_cons_of_mem _ member)]
      rfl
  induction items with
  | nil => rfl
  | cons first rest induction =>
    obtain ⟨smaller, descending⟩ := List.pairwise_cons.mp descending
    rw [List.insertionSort_cons, induction descending, List.reverse_cons]
    exact last fun other member => smaller other (List.mem_reverse.mp member)

section Numbered

variable {number : A → Nat}

theorem number_getLast_le {items : List A}
    (descending : items.Pairwise fun left right => number left > number right)
    (last : items.getLast? = some lowest) (member : item ∈ items) :
    number lowest ≤ number item := by
  obtain ⟨front, rfl⟩ := List.getLast?_eq_some_iff.mp last
  rcases List.mem_append.mp member with earlier | same
  · exact (List.pairwise_append.mp descending).2.2 item earlier lowest
      (List.mem_singleton.mpr rfl) |>.le
  · rw [List.mem_singleton.mp same]

theorem filter_gt_append_filter_le {items : List A}
    (descending : items.Pairwise fun left right => number left > number right) (top : Nat) :
    (items.filter fun item => ¬ number item ≤ top) ++ (items.filter fun item => number item ≤ top)
      = items := by
  induction items with
  | nil => rfl
  | cons first rest induction =>
    obtain ⟨smaller, descending⟩ := List.pairwise_cons.mp descending
    by_cases below : number first ≤ top
    · -- so is everything after it
      have allBelow : ∀ item ∈ first :: rest, number item ≤ top := by
        intro item member
        rcases List.mem_cons.mp member with rfl | later
        · exact below
        · exact (smaller item later).le.trans below
      rw [List.filter_eq_nil_iff.mpr, List.nil_append, List.filter_eq_self.mpr]
      · exact fun item member => decide_eq_true (allBelow item member)
      · exact fun item member above => of_decide_eq_true above (allBelow item member)
    · rw [List.filter_cons_of_pos, List.filter_cons_of_neg, List.cons_append, induction descending]
      · exact fun le => below (of_decide_eq_true le)
      · exact decide_eq_true below

/-- Two versions of a numbered list, where the newer one has grown at the front and was cut
at the end: what the older one has that is not too old is what they have in common. -/
theorem filter_ge_eq_common {newer : List A}
    (newerDescending : newer.Pairwise fun left right => number left > number right)
    (olderDescending : older.Pairwise fun left right => number left > number right)
    (bounded : ∀ item ∈ older, number item ≤ top)
    (common : newer.filter (fun item => number item ≤ top) <+: older)
    (last : newer.getLast? = some lowest) :
    older.filter (fun item => number item ≥ number lowest) =
      newer.filter fun item => number item ≤ top := by
  obtain ⟨dropped, split⟩ := common
  have lowestMember : lowest ∈ newer := List.mem_of_getLast? last
  have kept : (newer.filter fun item => number item ≤ top).filter
      (fun item => number item ≥ number lowest) = newer.filter fun item => number item ≤ top := by
    refine List.filter_eq_self.mpr fun item member => ?_
    have listed := (List.mem_filter.mp member).1
    exact decide_eq_true (number_getLast_le newerDescending last listed)
  have gone : dropped.filter (fun item => number item ≥ number lowest) = [] := by
    refine List.filter_eq_nil_iff.mpr fun item member high => ?_
    have atLeast : number lowest ≤ number item := of_decide_eq_true high
    have listed : item ∈ older := split ▸ List.mem_append_right _ member
    -- the lowest number is among the common ones, which are all above the dropped ones
    have shared : lowest ∈ newer.filter fun item => number item ≤ top :=
      List.mem_filter.mpr ⟨lowestMember, decide_eq_true (atLeast.trans (bounded item listed))⟩
    rw [← split] at olderDescending
    have above := (List.pairwise_append.mp olderDescending).2.2 lowest shared item member
    omega
  rw [← split, List.filter_append, kept, gone, List.append_nil]

end Numbered

end Krill
