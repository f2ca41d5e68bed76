import Mathlib.Order.Basic
import Mathlib.Tactic.Ring

/-! # 64-bit signed arithmetic that may be undefined

    The arithmetic of a language in which signed overflow and division by zero
    are undefined: an operation has the mathematical result when that fits in
    64 bits, and no result (`none`) otherwise.  Division truncates toward zero.

    `shortAnd` and `shortOr` are the connectives that do not look at the second
    operand when the first decides, so that a guard can protect the operations
    behind it.

    The rules are of two kinds.  An operation whose exact result fits is the
    machine's own operation (`add_eq`, `sub_eq` and so on).  A comparison with a
    truncating quotient is the comparison of the product
    (`tdiv_lt_iff_lt_mul` and the three other signs). -/

namespace SignedWord

/-- The 64-bit signed integers. -/
def Fits (n : Int) : Prop := -2 ^ 63 ≤ n ∧ n ≤ 2 ^ 63 - 1

instance (n : Int) : Decidable (Fits n) := inferInstanceAs (Decidable (_ ∧ _))

/-- The word with this value, where there is one. -/
def exactly (n : Int) : Option Int64 := if Fits n then some (Int64.ofInt n) else none

def neg (a : Int64) : Option Int64 := exactly (-a.toInt)

def add (a b : Int64) : Option Int64 := exactly (a.toInt + b.toInt)

def sub (a b : Int64) : Option Int64 := exactly (a.toInt - b.toInt)

def mul (a b : Int64) : Option Int64 := exactly (a.toInt * b.toInt)

def div (a b : Int64) : Option Int64 :=
  if b = 0 then none else exactly (a.toInt.tdiv b.toInt)

/-- `first && second`. -/
def shortAnd (first : Bool) (second : Option Bool) : Option Bool :=
  if first then second else some false

/-- `first || second`. -/
def shortOr (first second : Option Bool) : Option Bool :=
  first.bind fun b => if b then some true else second

/-! ## Operations -/

theorem fits_toInt (a : Int64) : Fits a.toInt :=
  ⟨a.le_toInt, Int.le_sub_one_of_lt a.toInt_lt⟩

/-- A value that fits is not wrapped. -/
theorem bmod_of_fits {n : Int} (h : Fits n) : n.bmod (2 ^ 64) = n := by
  obtain ⟨hlow, hhigh⟩ := h
  rw [Int.bmod_eq_of_le] <;> omega

theorem toInt_ofInt {n : Int} (h : Fits n) : (Int64.ofInt n).toInt = n :=
  Int64.toInt_ofInt_of_le h.1 (by have := h.2; omega)

/-- **EXACT OR UNDEFINED**: the result is the word with this value. -/
theorem exactly_eq_some_iff {n : Int} {a : Int64} : exactly n = some a ↔ a.toInt = n := by
  rw [exactly]
  constructor
  · intro h
    split at h
    · rename_i hfits
      cases h
      exact toInt_ofInt hfits
    · cases h
  · rintro rfl
    rw [if_pos (fits_toInt a), Int64.ofInt_toInt]

theorem toInt_neg {a : Int64} (h : Fits (-a.toInt)) : (-a).toInt = -a.toInt := by
  rw [Int64.toInt_neg, bmod_of_fits h]

theorem toInt_add {a b : Int64} (h : Fits (a.toInt + b.toInt)) :
    (a + b).toInt = a.toInt + b.toInt := by
  rw [Int64.toInt_add, bmod_of_fits h]

theorem toInt_sub {a b : Int64} (h : Fits (a.toInt - b.toInt)) :
    (a - b).toInt = a.toInt - b.toInt := by
  rw [Int64.toInt_sub, bmod_of_fits h]

theorem toInt_mul {a b : Int64} (h : Fits (a.toInt * b.toInt)) :
    (a * b).toInt = a.toInt * b.toInt := by
  rw [Int64.toInt_mul, bmod_of_fits h]

theorem toInt_div {a b : Int64} (h : Fits (a.toInt.tdiv b.toInt)) :
    (a / b).toInt = a.toInt.tdiv b.toInt := by
  rw [Int64.toInt_div, bmod_of_fits h]

theorem neg_eq {a : Int64} (h : Fits (-a.toInt)) : neg a = some (-a) :=
  exactly_eq_some_iff.mpr (toInt_neg h)

theorem add_eq {a b : Int64} (h : Fits (a.toInt + b.toInt)) : add a b = some (a + b) :=
  exactly_eq_some_iff.mpr (toInt_add h)

theorem sub_eq {a b : Int64} (h : Fits (a.toInt - b.toInt)) : sub a b = some (a - b) :=
  exactly_eq_some_iff.mpr (toInt_sub h)

theorem mul_eq {a b : Int64} (h : Fits (a.toInt * b.toInt)) : mul a b = some (a * b) :=
  exactly_eq_some_iff.mpr (toInt_mul h)

theorem div_eq {a b : Int64} (hb : b ≠ 0) (h : Fits (a.toInt.tdiv b.toInt)) :
    div a b = some (a / b) := by
  rw [div, if_neg hb]
  exact exactly_eq_some_iff.mpr (toInt_div h)

theorem not_fits_iff_of_nonneg {n : Int} (h : 0 ≤ n) : ¬Fits n ↔ 2 ^ 63 - 1 < n := by
  rw [Fits]
  omega

theorem not_fits_iff_of_nonpos {n : Int} (h : n ≤ 0) : ¬Fits n ↔ n < -2 ^ 63 := by
  rw [Fits]
  omega

/-- The only quotient that does not fit is that of the least word and -1. -/
theorem fits_tdiv {a b : Int} (ha : Fits a) (h : ¬(a = -2 ^ 63 ∧ b = -1)) : Fits (a.tdiv b) := by
  have habs := Int.natAbs_tdiv_le_natAbs a b
  obtain ⟨hlow, hhigh⟩ := ha
  by_cases hmin : a = -2 ^ 63
  · -- the quotient of the least word: at most half as large, or by 1 or 0
    by_cases hb : b.natAbs ≤ 1
    · have hcases : b = 0 ∨ b = 1 := by omega
      rcases hcases with rfl | rfl
      · rw [Int.tdiv_zero]
        exact ⟨by omega, by omega⟩
      · rw [Int.tdiv_one]
        exact ⟨hlow, hhigh⟩
    · have hhalf : (a.tdiv b).natAbs ≤ a.natAbs / 2 := by
        rw [Int.natAbs_tdiv]
        exact Nat.div_le_div_left (by omega) (by decide)
      exact ⟨by omega, by omega⟩
  · exact ⟨by omega, by omega⟩

/-! ## Guards -/

/-- A guard protects the operation behind it: when the operation is defined
    wherever the guard lets it be evaluated, the conjunction is the plain one. -/
theorem shortAnd_eq {guard : Prop} [Decidable guard] {operation : Option Int64} {limit : Int64}
    {test : Int64 → Bool} (h : guard → operation = some limit) :
    shortAnd guard (test <$> operation) = some (decide guard && test limit) := by
  by_cases hguard : guard
  · rw [shortAnd, if_pos (decide_eq_true hguard), h hguard, decide_eq_true hguard]
    rfl
  · rw [decide_eq_false hguard]
    rfl

theorem shortOr_some (first second : Bool) :
    shortOr (some first) (some second) = some (first || second) := by
  cases first <;> rfl

/-! ## Quotients as bounds of products -/

section

variable {l r m : Int}

theorem tdiv_lt_iff_lt_mul (hm : 0 ≤ m) (hr : 0 < r) : m.tdiv r < l ↔ m < l * r := by
  rw [Int.tdiv_eq_ediv_of_nonneg hm, Int.ediv_lt_iff_lt_mul hr]

theorem lt_tdiv_iff_mul_lt (hm : m ≤ 0) (hr : 0 < r) : l < m.tdiv r ↔ l * r < m := by
  have h := tdiv_lt_iff_lt_mul (l := -l) (Int.neg_nonneg_of_nonpos hm) hr
  rw [Int.neg_tdiv, Int.neg_mul] at h
  omega

theorem lt_tdiv_iff_lt_mul_of_neg (hm : 0 ≤ m) (hr : r < 0) : l < m.tdiv r ↔ m < l * r := by
  have h := tdiv_lt_iff_lt_mul (l := -l) hm (Int.neg_pos_of_neg hr)
  rw [Int.tdiv_neg, Int.neg_mul_neg] at h
  omega

end

end SignedWord
