import MattSql.Library.SignedWordProofs
import MattSql.ValueProofs

/-! # Checked integer arithmetic

    The `CheckedInteger` functions of `common/value_utils.hpp`, on which the
    evaluator and the optimizer rest.  In C++ a signed operation whose result
    does not fit is undefined, in the guards as well as in the results.

    `ValueProofs` has the functions with the wrapping operations of `Int64`.
    Here they are once more with operations that may be undefined, in the order
    in which the source evaluates them.  `checkedIntegers_exact` says that
    nothing undefined is ever evaluated, that the two versions are the same, and
    that the result is the mathematical one or an `ExecutionError`. -/

namespace MattSql

open SignedWord

/-! ## The functions with undefined operations -/

variable (value left right : Int64) (context : Bytes)

/-- `CheckedIntegerNegate`. -/
def evalCheckedIntegerNegate : Option (Result Int64) :=
  if value = Int64.minValue then some (overflowResult context) else .ok <$> neg value

/-- `CheckedIntegerAdd`. -/
def evalCheckedIntegerAdd : Option (Result Int64) := do
  let overflows ← shortOr
    (shortAnd (right > 0) ((fun limit => decide (left > limit)) <$> sub Int64.maxValue right))
    (shortAnd (right < 0) ((fun limit => decide (left < limit)) <$> sub Int64.minValue right))
  if overflows then some (overflowResult context) else .ok <$> add left right

/-- `CheckedIntegerSubtract`. -/
def evalCheckedIntegerSubtract : Option (Result Int64) := do
  let overflows ← shortOr
    (shortAnd (right > 0) ((fun limit => decide (left < limit)) <$> add Int64.minValue right))
    (shortAnd (right < 0) ((fun limit => decide (left > limit)) <$> add Int64.maxValue right))
  if overflows then some (overflowResult context) else .ok <$> sub left right

/-- `CheckedIntegerMultiply`. -/
def evalCheckedIntegerMultiply : Option (Result Int64) :=
  if left = 0 ∨ right = 0 then some (.ok 0)
  else if left = -1 then evalCheckedIntegerNegate right context
  else if right = -1 then evalCheckedIntegerNegate left context
  else do
    let overflows ←
      if left > 0 then
        shortOr
          (shortAnd (right > 0) ((fun limit => decide (left > limit)) <$> div Int64.maxValue right))
          (shortAnd (right < 0) ((fun limit => decide (right < limit)) <$> div Int64.minValue left))
      else
        shortOr
          (shortAnd (right > 0) ((fun limit => decide (left < limit)) <$> div Int64.minValue right))
          (shortAnd (right < 0) ((fun limit => decide (left < limit)) <$> div Int64.maxValue right))
    if overflows then some (overflowResult context) else .ok <$> mul left right

/-- `CheckedIntegerDivide`. -/
def evalCheckedIntegerDivide : Option (Result Int64) :=
  if right = 0 then some (errorResult .executionError (ascii "division by zero"))
  else if left = Int64.minValue ∧ right = -1 then some (overflowResult context)
  else .ok <$> div left right

/-! ## Exact results -/

/-- The result is a number exactly when the mathematical value exists and fits,
    it is that value then, and an `ExecutionError` otherwise. -/
structure ExactResult (result : Result Int64) (exact : Option Int) : Prop where
  ok_iff : ∀ r, result = .ok r ↔ ∃ n, exact = some n ∧ Fits n ∧ r.toInt = n
  code : ∀ st, result = .error st → st.code = .executionError

variable {value left right context}

theorem exactResult_ok {r : Int64} : ExactResult (.ok r) (some r.toInt) where
  ok_iff s := by
    constructor
    · intro h
      cases h
      exact ⟨_, rfl, fits_toInt r, rfl⟩
    · rintro ⟨n, h, -, hs⟩
      cases h
      rw [Int64.toInt_inj.mp hs]
  code st h := nomatch h

theorem exactResult_overflow {n : Int} (h : ¬Fits n) : ExactResult (overflowResult context) (some n)
    where
  ok_iff s := by
    constructor
    · intro h'
      cases h'
    · rintro ⟨_, h', hfits, -⟩
      cases h'
      exact absurd hfits h
  code st h := by
    cases h
    rfl

/-- A guard that decides whether the result fits, in front of the operation. -/
theorem exactResult_guarded {n : Int} {overflows : Prop} [Decidable overflows] {r : Int64}
    (hguard : overflows ↔ ¬Fits n) (hvalue : Fits n → r.toInt = n) :
    ExactResult (if overflows then overflowResult context else .ok r) (some n) := by
  by_cases hfits : Fits n
  · rw [if_neg fun h => hguard.mp h hfits, ← hvalue hfits]
    exact exactResult_ok
  · rw [if_pos (hguard.mpr hfits)]
    exact exactResult_overflow hfits

/-- The function with the undefined operations in it, when its guards come down
    to one test of the exact value. -/
theorem eval_guarded {n : Int} {overflows : Prop} [Decidable overflows] {r : Int64}
    {operation : Option Int64} (hguard : overflows ↔ ¬Fits n)
    (hoperation : Fits n → operation = some r) :
    (if overflows then some (overflowResult context) else .ok <$> operation)
      = some (if overflows then overflowResult context else .ok r) := by
  by_cases hfits : Fits n
  · have hno : ¬overflows := fun h => hguard.mp h hfits
    rw [if_neg hno, if_neg hno, hoperation hfits]
    rfl
  · rw [if_pos (hguard.mpr hfits), if_pos (hguard.mpr hfits)]

/-- Two guarded comparisons, both defined. -/
theorem eval_or {c c' : Prop} [Decidable c] [Decidable c'] {operation operation' : Option Int64}
    {limit limit' : Int64} {test test' : Int64 → Prop} [DecidablePred test] [DecidablePred test']
    (h : c → operation = some limit) (h' : c' → operation' = some limit') :
    shortOr (shortAnd c ((fun limit => decide (test limit)) <$> operation))
        (shortAnd c' ((fun limit => decide (test' limit)) <$> operation'))
      = some (decide ((c ∧ test limit) ∨ c' ∧ test' limit')) := by
  rw [shortAnd_eq h, shortAnd_eq h', shortOr_some, Bool.decide_or, Bool.decide_and,
    Bool.decide_and]

/-! ## The five functions -/

theorem toInt_pos_iff {a : Int64} : a > 0 ↔ 0 < a.toInt := Int64.lt_iff_toInt_lt

theorem toInt_neg_iff {a : Int64} : a < 0 ↔ a.toInt < 0 := Int64.lt_iff_toInt_lt

theorem negate_exact :
    evalCheckedIntegerNegate value context = some (checkedIntegerNegate value context)
      ∧ ExactResult (checkedIntegerNegate value context) (some (-value.toInt)) := by
  have hguard : value = Int64.minValue ↔ ¬Fits (-value.toInt) := by
    obtain ⟨hlow, hhigh⟩ := fits_toInt value
    rw [← Int64.toInt_inj, Int64.toInt_minValue, Fits]
    omega
  exact ⟨eval_guarded hguard neg_eq, exactResult_guarded hguard toInt_neg⟩

theorem add_exact :
    evalCheckedIntegerAdd left right context = some (checkedIntegerAdd left right context)
      ∧ ExactResult (checkedIntegerAdd left right context) (some (left.toInt + right.toInt)) := by
  obtain ⟨hlow, hhigh⟩ := fits_toInt left
  obtain ⟨hlow', hhigh'⟩ := fits_toInt right
  -- both limits fit where they are computed
  have hmax : right > 0 → Fits (Int64.maxValue.toInt - right.toInt) := by
    rw [toInt_pos_iff, Int64.toInt_maxValue]
    intro h
    exact ⟨by omega, by omega⟩
  have hmin : right < 0 → Fits (Int64.minValue.toInt - right.toInt) := by
    rw [toInt_neg_iff, Int64.toInt_minValue]
    intro h
    exact ⟨by omega, by omega⟩
  have hguard : ((right > 0 ∧ left > Int64.maxValue - right)
      ∨ right < 0 ∧ left < Int64.minValue - right) ↔ ¬Fits (left.toInt + right.toInt) := by
    have habove (h : right > 0) : left > Int64.maxValue - right
        ↔ Int64.maxValue.toInt - right.toInt < left.toInt := by
      rw [gt_iff_lt, Int64.lt_iff_toInt_lt, toInt_sub (hmax h)]
    have hbelow (h : right < 0) : left < Int64.minValue - right
        ↔ left.toInt < Int64.minValue.toInt - right.toInt := by
      rw [Int64.lt_iff_toInt_lt, toInt_sub (hmin h)]
    rw [and_congr_right habove, and_congr_right hbelow, toInt_pos_iff, toInt_neg_iff,
      Int64.toInt_maxValue, Int64.toInt_minValue, Fits]
    omega
  constructor
  · rw [evalCheckedIntegerAdd, eval_or (fun h => sub_eq (hmax h)) (fun h => sub_eq (hmin h)),
      Option.bind_eq_bind, Option.bind_some, checkedIntegerAdd]
    simp only [decide_eq_true_eq]
    exact eval_guarded hguard add_eq
  · exact exactResult_guarded hguard toInt_add

theorem subtract_exact :
    evalCheckedIntegerSubtract left right context
        = some (checkedIntegerSubtract left right context)
      ∧ ExactResult (checkedIntegerSubtract left right context)
        (some (left.toInt - right.toInt)) := by
  obtain ⟨hlow, hhigh⟩ := fits_toInt left
  obtain ⟨hlow', hhigh'⟩ := fits_toInt right
  have hmin : right > 0 → Fits (Int64.minValue.toInt + right.toInt) := by
    rw [toInt_pos_iff, Int64.toInt_minValue]
    intro h
    exact ⟨by omega, by omega⟩
  have hmax : right < 0 → Fits (Int64.maxValue.toInt + right.toInt) := by
    rw [toInt_neg_iff, Int64.toInt_maxValue]
    intro h
    exact ⟨by omega, by omega⟩
  have hguard : ((right > 0 ∧ left < Int64.minValue + right)
      ∨ right < 0 ∧ left > Int64.maxValue + right) ↔ ¬Fits (left.toInt - right.toInt) := by
    have hbelow (h : right > 0) : left < Int64.minValue + right
        ↔ left.toInt < Int64.minValue.toInt + right.toInt := by
      rw [Int64.lt_iff_toInt_lt, toInt_add (hmin h)]
    have habove (h : right < 0) : left > Int64.maxValue + right
        ↔ Int64.maxValue.toInt + right.toInt < left.toInt := by
      rw [gt_iff_lt, Int64.lt_iff_toInt_lt, toInt_add (hmax h)]
    rw [and_congr_right hbelow, and_congr_right habove, toInt_pos_iff, toInt_neg_iff,
      Int64.toInt_maxValue, Int64.toInt_minValue, Fits]
    omega
  constructor
  · rw [evalCheckedIntegerSubtract, eval_or (fun h => add_eq (hmin h)) (fun h => add_eq (hmax h)),
      Option.bind_eq_bind, Option.bind_some, checkedIntegerSubtract]
    simp only [decide_eq_true_eq]
    exact eval_guarded hguard sub_eq
  · exact exactResult_guarded hguard toInt_sub

/-- The quotients in the guards of the product fit: none divides the least
    number by -1. -/
theorem fits_maxValue_tdiv (divisor : Int64) :
    Fits (Int64.maxValue.toInt.tdiv divisor.toInt) :=
  fits_tdiv (fits_toInt _) fun h => absurd h.1 (by decide)

theorem fits_minValue_tdiv {divisor : Int64} (h : divisor ≠ -1) :
    Fits (Int64.minValue.toInt.tdiv divisor.toInt) :=
  fits_tdiv (fits_toInt _) fun h' => h (Int64.toInt_inj.mp h'.2)

/-- A positive factor on the left. -/
theorem multiplyGuard_pos (hleft : left > 0) :
    ((right > 0 ∧ left > Int64.maxValue / right) ∨ right < 0 ∧ right < Int64.minValue / left)
      ↔ right ≠ 0 ∧ ¬Fits (left.toInt * right.toInt) := by
  have hl : 0 < left.toInt := toInt_pos_iff.mp hleft
  have hmin : left ≠ -1 := by
    rintro rfl
    exact absurd hleft (by decide)
  rw [toInt_pos_iff, toInt_neg_iff, gt_iff_lt, Int64.lt_iff_toInt_lt, Int64.lt_iff_toInt_lt,
    toInt_div (fits_maxValue_tdiv right), toInt_div (fits_minValue_tdiv hmin),
    Int64.toInt_maxValue, Int64.toInt_minValue, ← Int64.toInt_inj.ne, Int64.toInt_zero]
  rcases Int.lt_trichotomy right.toInt 0 with hr | hr | hr
  · rw [not_fits_iff_of_nonpos (Int.le_of_lt (Int.mul_neg_of_pos_of_neg hl hr)),
      lt_tdiv_iff_mul_lt (by decide) hl, Int.mul_comm]
    omega
  · omega
  · rw [not_fits_iff_of_nonneg (Int.le_of_lt (Int.mul_pos hl hr)),
      tdiv_lt_iff_lt_mul (by decide) hr]
    omega

/-- A negative factor on the left. -/
theorem multiplyGuard_neg (hleft : left < 0) (hright : right ≠ -1) :
    ((right > 0 ∧ left < Int64.minValue / right) ∨ right < 0 ∧ left < Int64.maxValue / right)
      ↔ right ≠ 0 ∧ ¬Fits (left.toInt * right.toInt) := by
  have hl : left.toInt < 0 := toInt_neg_iff.mp hleft
  rw [toInt_pos_iff, toInt_neg_iff, Int64.lt_iff_toInt_lt, Int64.lt_iff_toInt_lt,
    toInt_div (fits_maxValue_tdiv right), toInt_div (fits_minValue_tdiv hright),
    Int64.toInt_maxValue, Int64.toInt_minValue, ← Int64.toInt_inj.ne, Int64.toInt_zero]
  rcases Int.lt_trichotomy right.toInt 0 with hr | hr | hr
  · rw [not_fits_iff_of_nonneg (Int.le_of_lt (Int.mul_pos_of_neg_of_neg hl hr)),
      lt_tdiv_iff_lt_mul_of_neg (m := 2 ^ 63 - 1) (by decide) hr]
    omega
  · omega
  · rw [not_fits_iff_of_nonpos (Int.le_of_lt (Int.mul_neg_of_neg_of_pos hl hr)),
      lt_tdiv_iff_mul_lt (by decide) hr]
    omega

theorem ne_zero_of_pos {a : Int64} (h : a > 0) : a ≠ 0 := by
  rintro rfl
  exact absurd h (by decide)

theorem ne_zero_of_neg {a : Int64} (h : a < 0) : a ≠ 0 := by
  rintro rfl
  exact absurd h (by decide)

theorem multiply_exact :
    evalCheckedIntegerMultiply left right context
        = some (checkedIntegerMultiply left right context)
      ∧ ExactResult (checkedIntegerMultiply left right context)
        (some (left.toInt * right.toInt)) := by
  rw [evalCheckedIntegerMultiply, checkedIntegerMultiply]
  by_cases hzero : left = 0 ∨ right = 0
  · have hproduct : left.toInt * right.toInt = (0 : Int64).toInt := by
      rcases hzero with rfl | rfl
      · exact Int.zero_mul _
      · exact Int.mul_zero _
    rw [if_pos hzero, if_pos hzero, hproduct]
    exact ⟨rfl, exactResult_ok⟩
  rw [if_neg hzero, if_neg hzero]
  obtain ⟨hleft0, hright0⟩ := not_or.mp hzero
  by_cases hleft1 : left = -1
  · have hproduct : left.toInt * right.toInt = -right.toInt := by
      rw [hleft1]
      exact Int.neg_one_mul _
    rw [if_pos hleft1, if_pos hleft1, hproduct]
    exact negate_exact
  rw [if_neg hleft1, if_neg hleft1]
  by_cases hright1 : right = -1
  · have hproduct : left.toInt * right.toInt = -left.toInt := by
      rw [hright1]
      exact Int.mul_neg_one _
    rw [if_pos hright1, if_pos hright1, hproduct]
    exact negate_exact
  rw [if_neg hright1, if_neg hright1]
  by_cases hpos : left > 0
  · have hguard := @multiplyGuard_pos left right hpos
    rw [and_iff_right hright0] at hguard
    constructor
    · rw [if_pos hpos, if_pos hpos,
        eval_or (fun h => div_eq (ne_zero_of_pos h) (fits_maxValue_tdiv right))
          (fun _ => div_eq hleft0 (fits_minValue_tdiv hleft1)),
        Option.bind_eq_bind, Option.bind_some]
      simp only [decide_eq_true_eq]
      exact eval_guarded hguard mul_eq
    · rw [if_pos hpos]
      exact exactResult_guarded hguard toInt_mul
  · have hneg : left < 0 := by
      rw [toInt_neg_iff]
      rw [toInt_pos_iff] at hpos
      have hne : left.toInt ≠ 0 := fun h => hleft0 (Int64.toInt_inj.mp h)
      omega
    have hguard := multiplyGuard_neg hneg hright1
    rw [and_iff_right hright0] at hguard
    constructor
    · rw [if_neg hpos, if_neg hpos,
        eval_or (fun _ => div_eq hright0 (fits_minValue_tdiv hright1))
          (fun h => div_eq (ne_zero_of_neg h) (fits_maxValue_tdiv right)),
        Option.bind_eq_bind, Option.bind_some]
      simp only [decide_eq_true_eq]
      exact eval_guarded hguard mul_eq
    · rw [if_neg hpos]
      exact exactResult_guarded hguard toInt_mul

theorem exactResult_undefined {message : Bytes} :
    ExactResult (errorResult .executionError message) none where
  ok_iff s := by
    constructor
    · intro h
      cases h
    · rintro ⟨_, h, -⟩
      cases h
  code st h := by
    cases h
    rfl

/-- The mathematical quotient, truncated toward zero. -/
def quotient (left right : Int) : Option Int := if right = 0 then none else some (left.tdiv right)

theorem divide_exact :
    evalCheckedIntegerDivide left right context = some (checkedIntegerDivide left right context)
      ∧ ExactResult (checkedIntegerDivide left right context)
        (quotient left.toInt right.toInt) := by
  rw [evalCheckedIntegerDivide, checkedIntegerDivide]
  by_cases hzero : right = 0
  · rw [if_pos hzero, if_pos hzero, quotient, if_pos (by rw [hzero]; rfl)]
    exact ⟨rfl, exactResult_undefined⟩
  have hzero' : right.toInt ≠ 0 := fun h => hzero (Int64.toInt_inj.mp h)
  rw [if_neg hzero, if_neg hzero, quotient, if_neg hzero']
  have hguard : (left = Int64.minValue ∧ right = -1) ↔ ¬Fits (left.toInt.tdiv right.toInt) := by
    constructor
    · rintro ⟨rfl, rfl⟩
      decide
    · intro h
      by_contra hne
      refine h (fits_tdiv (fits_toInt left) fun h' => hne ?_)
      exact ⟨Int64.toInt_inj.mp h'.1, Int64.toInt_inj.mp h'.2⟩
  exact ⟨eval_guarded hguard (div_eq hzero), exactResult_guarded hguard toInt_div⟩

/-- **CHECKED ARITHMETIC IS EXACT.**  Nothing undefined is evaluated, in the
    guards or behind them, and the result is the mathematical one where it
    exists and fits in 64 bits, and an `ExecutionError` otherwise. -/
theorem checkedIntegers_exact (a b : Int64) (context : Bytes) :
    (evalCheckedIntegerAdd a b context = some (checkedIntegerAdd a b context)
      ∧ ExactResult (checkedIntegerAdd a b context) (some (a.toInt + b.toInt)))
    ∧ (evalCheckedIntegerSubtract a b context = some (checkedIntegerSubtract a b context)
      ∧ ExactResult (checkedIntegerSubtract a b context) (some (a.toInt - b.toInt)))
    ∧ (evalCheckedIntegerMultiply a b context = some (checkedIntegerMultiply a b context)
      ∧ ExactResult (checkedIntegerMultiply a b context) (some (a.toInt * b.toInt)))
    ∧ (evalCheckedIntegerNegate a context = some (checkedIntegerNegate a context)
      ∧ ExactResult (checkedIntegerNegate a context) (some (-a.toInt)))
    ∧ (evalCheckedIntegerDivide a b context = some (checkedIntegerDivide a b context)
      ∧ ExactResult (checkedIntegerDivide a b context) (quotient a.toInt b.toInt)) :=
  ⟨add_exact, subtract_exact, multiply_exact, negate_exact, divide_exact⟩

end MattSql
