import Mathlib.Data.Option.Basic

/-! # Sequential logic

    A condition is true, false or undefined.  AND and OR look at their right
    operand only when the left one does not decide, so an undefined right
    operand can go unnoticed.

    The laws here hold for undefined operands too.  Neither operator commutes,
    and they distribute from the left only: `none` on one side of a decided
    operand is not `none` on the other. -/

namespace SequentialLogic

/-- NOT. -/
def neg (x : Option Bool) : Option Bool := x.map (!·)

/-- AND. -/
def conj : Option Bool → Option Bool → Option Bool
  | some true, y => y
  | some false, _ => some false
  | none, _ => none

/-- OR. -/
def disj : Option Bool → Option Bool → Option Bool
  | some true, _ => some true
  | some false, y => y
  | none, _ => none

variable (x y z : Option Bool)

theorem neg_neg : neg (neg x) = x := by
  rcases x with _ | _ | _ <;> rfl

variable {x} in
theorem neg_eq_some {b : Bool} : neg x = some b ↔ x = some !b := by
  rcases x with _ | _ | _ <;> cases b <;> decide

theorem neg_conj : neg (conj x y) = disj (neg x) (neg y) := by
  rcases x with _ | _ | _ <;> rfl

theorem neg_disj : neg (disj x y) = conj (neg x) (neg y) := by
  rcases x with _ | _ | _ <;> rfl

theorem conj_assoc : conj (conj x y) z = conj x (conj y z) := by
  rcases x with _ | _ | _ <;> rfl

theorem disj_assoc : disj (disj x y) z = disj x (disj y z) := by
  rcases x with _ | _ | _ <;> rfl

theorem conj_self : conj x x = x := by
  rcases x with _ | _ | _ <;> rfl

theorem disj_self : disj x x = x := by
  rcases x with _ | _ | _ <;> rfl

theorem conj_true : conj x (some true) = x := by
  rcases x with _ | _ | _ <;> rfl

theorem disj_false : disj x (some false) = x := by
  rcases x with _ | _ | _ <;> rfl

/-- AND distributes over OR from the left. -/
theorem conj_disj : conj x (disj y z) = disj (conj x y) (conj x z) := by
  rcases x with _ | _ | _ <;> rfl

/-- OR distributes over AND from the left. -/
theorem disj_conj : disj x (conj y z) = conj (disj x y) (disj x z) := by
  rcases x with _ | _ | _ <;> rfl

/-- AND does not commute. -/
example : conj (some false) none ≠ conj none (some false) := by decide

end SequentialLogic
