import Mathlib.Algebra.Group.Nat.Defs
import Mathlib.Data.List.Basic

namespace Krill.Text

theorem repr_injective : Function.Injective Nat.repr := by
  intro left right same
  rw [Nat.repr_eq_ofList_toDigits, Nat.repr_eq_ofList_toDigits, String.ofList_inj] at same
  have digits (number : Nat) : Nat.ofDigitChars 10 (Nat.toDigits 10 number) 0 = number :=
    Nat.ofDigitChars_toDigits (by omega) (by omega)
  rw [← digits left, same, digits right]

theorem repr_toList_inj : (Nat.repr left).toList = (Nat.repr right).toList ↔ left = right :=
  String.toList_inj.trans repr_injective.eq_iff

theorem notMem_repr (other : char.isDigit = false) : char ∉ (Nat.repr number).toList := by
  rw [Nat.repr_eq_ofList_toDigits, String.toList_ofList]
  intro member
  rw [Nat.isDigit_of_mem_toDigits (by omega) (by omega) member] at other
  cases other

theorem append_cons_inj {char : Char} (before : char ∉ left) (before' : char ∉ right)
    (same : left ++ char :: rest = right ++ char :: rest') : left = right ∧ rest = rest' := by
  have cut {text rest : List Char} (before : char ∉ text) :
      (text ++ char :: rest).takeWhile (· ≠ char) = text := by
    rw [List.takeWhile_append_of_pos, List.takeWhile_cons_of_neg (by simp), List.append_nil]
    exact fun other member => decide_eq_true fun equal => before (equal ▸ member)
  obtain rfl : left = right := by rw [← cut before, same, cut before']
  exact ⟨rfl, (List.cons.inj (List.append_cancel_left same)).2⟩

def isHexDigit (char : Char) : Bool :=
  char.isDigit || 'a' ≤ char && char ≤ 'f' || 'A' ≤ char && char ≤ 'F'

def hexDigits : Nat → Nat → List Char
  | 0, _ => []
  | width + 1, number => hexDigits width (number / 16) ++ [(Nat.digitChar (number % 16)).toUpper]

theorem hexDigits_injective (width : Nat) {left right : Nat} (fits : left < 16 ^ width)
    (fits' : right < 16 ^ width) (same : hexDigits width left = hexDigits width right) :
    left = right := by
  induction width generalizing left right with
  | zero => omega
  | succ width induction =>
    rw [Nat.pow_succ] at fits fits'
    obtain ⟨high, low⟩ := List.append_inj' same rfl
    have high := induction (by omega) (by omega) high
    have digits : ∀ a < 16, ∀ b < 16,
        (Nat.digitChar a).toUpper = (Nat.digitChar b).toUpper → a = b := by decide
    have low := digits _ (Nat.mod_lt left (by omega)) _ (Nat.mod_lt right (by omega))
      (List.singleton_inj.mp low)
    omega

theorem length_hexDigits (width number : Nat) : (hexDigits width number).length = width := by
  induction width generalizing number with
  | zero => rfl
  | succ width induction => rw [hexDigits, List.length_append, induction, List.length_singleton]

theorem hexDigits_upper (member : char ∈ hexDigits width number) :
    ∃ digit < 16, char = (Nat.digitChar digit).toUpper := by
  induction width generalizing number with
  | zero => cases member
  | succ width induction =>
    obtain member | member := List.mem_append.mp member
    · exact induction member
    · exact ⟨_, Nat.mod_lt number (by omega), List.mem_singleton.mp member⟩

end Krill.Text
