import Mathlib.Data.List.Basic
import Mathlib.Data.List.Lex
import Mathlib.Tactic.Ring
import MattSql.Library.FallibleProofs

/-! # Status codes, SQL values and checked integer arithmetic

    The data every layer exchanges: `Status` and `Result`, the scalar `Value`
    with its runtime type, and the helpers of `common/value_utils.hpp`.

    Text is a byte string, as `std::string` is: `Bytes` is a list of bytes and
    nothing assumes that it is printable.  A `std::int64_t` is an `Int64`, so
    no value outside its range exists.  `std::numeric_limits` are
    `Int64.minValue` and `Int64.maxValue`. -/

namespace MattSql

/-- A `std::string`: any bytes. -/
abbrev Bytes := List UInt8

/-- The bytes of a source-code string literal. -/
def ascii (s : String) : Bytes := s.toUTF8.data.toList

/-- `mattsql::ErrorCode` without `Ok`, which is the `ok` side of a `Result`.
    `undefined` is the one code the source does not have: the model returns it
    where the C++ code would leave its defined behaviour (an access outside a
    container, an uncaught exception), so that "never happens" is a statement
    about results like any other. -/
inductive ErrorCode where
  | invalidArgument
  | notFound
  | alreadyExists
  | typeMismatch
  | parseError
  | bindError
  | planError
  | executionError
  | ioError
  | corruption
  | transactionConflict
  | notSupported
  | internal
  | undefined
  deriving DecidableEq, Repr

/-- A failing `mattsql::Status`. -/
structure Status where
  code : ErrorCode
  message : Bytes
  deriving DecidableEq, Repr

/-- `mattsql::Result<T>`: a value or a failing status. -/
abbrev Result (α : Type) := Except Status α

/-- `error_result`: a failed result from a code and a message. -/
def errorResult {α : Type} (code : ErrorCode) (message : Bytes) : Result α :=
  .error ⟨code, message⟩

instance {α : Type} [DecidableEq α] : DecidableEq (Result α)
  | .ok a, .ok b => decidable_of_iff (a = b) ⟨congrArg _, Except.ok.inj⟩
  | .error a, .error b =>
      decidable_of_iff (a = b) ⟨congrArg _, Except.error.inj⟩
  | .ok _, .error _ => isFalse nofun
  | .error _, .ok _ => isFalse nofun

/-- The outcome of a call without its value: success or the status code. -/
def statusCode {α : Type} : Result α → Option ErrorCode
  | .ok _ => none
  | .error st => some st.code

/-- A guarded computation succeeds exactly when the guard is passed. -/
theorem guard_ok_iff {α : Type} {p : Prop} [Decidable p] {code : ErrorCode}
    {message : Bytes} {x : Result α} {a : α} :
    (if p then errorResult code message else x) = .ok a ↔ ¬ p ∧ x = .ok a := by
  by_cases hp : p
  · rw [if_pos hp]
    exact ⟨nofun, fun h => absurd hp h.1⟩
  · rw [if_neg hp]
    exact ⟨fun h => ⟨hp, h⟩, fun h => h.2⟩

/-- `FoldIdentifierKey`: ASCII lower case, byte by byte (`std::tolower` in the
    C locale). -/
def foldIdentifierKey (value : Bytes) : Bytes :=
  value.map fun c => if 65 ≤ c ∧ c ≤ 90 then c + 32 else c

/-- `mattsql::SqlType`. -/
inductive SqlType where
  | integer
  | text
  | boolean
  | null
  deriving DecidableEq, Repr

/-- `mattsql::Value`, the scalar variant. -/
inductive Value where
  | null
  | integer (value : Int64)
  | boolean (value : Bool)
  | text (value : Bytes)
  deriving DecidableEq

/-- `IsNull`. -/
def isNull : Value → Bool
  | .null => true
  | _ => false

/-- `ValueTypeOf`. -/
def valueTypeOf : Value → SqlType
  | .integer _ => .integer
  | .text _ => .text
  | .boolean _ => .boolean
  | .null => .null

/-- `ValueMatchesType`. -/
def valueMatchesType (value : Value) (type : SqlType) : Bool :=
  valueTypeOf value = type

/-- `IntegralValue`: integers, and booleans as 0 and 1. -/
def integralValue : Value → Option Int64
  | .integer i => some i
  | .boolean b => some (if b then 1 else 0)
  | _ => none

/-- `RequireInteger`. -/
def requireInteger (value : Value) (context : Bytes) : Result Int64 :=
  match value with
  | .integer i => .ok i
  | _ => errorResult .typeMismatch (context ++ ascii " requires INTEGER operands")

/-- `RequireBoolean`. -/
def requireBoolean (value : Value) (context : Bytes) : Result Bool :=
  match value with
  | .boolean b => .ok b
  | _ => errorResult .typeMismatch (context ++ ascii " requires BOOLEAN operands")

/-- The overflow failure all checked operations share. -/
def overflowResult (context : Bytes) : Result Int64 :=
  errorResult .executionError (context ++ ascii " overflow")

/-- `CheckedIntegerNegate`. -/
def checkedIntegerNegate (value : Int64) (context : Bytes) : Result Int64 :=
  if value = Int64.minValue then overflowResult context else .ok (-value)

/-- `CheckedIntegerAdd`. -/
def checkedIntegerAdd (left right : Int64) (context : Bytes) : Result Int64 :=
  if (right > 0 ∧ left > Int64.maxValue - right)
      ∨ (right < 0 ∧ left < Int64.minValue - right) then
    overflowResult context
  else .ok (left + right)

/-- `CheckedIntegerSubtract`. -/
def checkedIntegerSubtract (left right : Int64) (context : Bytes) : Result Int64 :=
  if (right > 0 ∧ left < Int64.minValue + right)
      ∨ (right < 0 ∧ left > Int64.maxValue + right) then
    overflowResult context
  else .ok (left - right)

/-- `CheckedIntegerMultiply`. -/
def checkedIntegerMultiply (left right : Int64) (context : Bytes) : Result Int64 :=
  if left = 0 ∨ right = 0 then .ok 0
  else if left = -1 then checkedIntegerNegate right context
  else if right = -1 then checkedIntegerNegate left context
  else if left > 0 then
    if (right > 0 ∧ left > Int64.maxValue / right)
        ∨ (right < 0 ∧ right < Int64.minValue / left) then
      overflowResult context
    else .ok (left * right)
  else if (right > 0 ∧ left < Int64.minValue / right)
      ∨ (right < 0 ∧ left < Int64.maxValue / right) then
    overflowResult context
  else .ok (left * right)

/-- `CheckedIntegerDivide`; `Int64` division truncates toward zero, as the
    C++ operator does. -/
def checkedIntegerDivide (left right : Int64) (context : Bytes) : Result Int64 :=
  if right = 0 then errorResult .executionError (ascii "division by zero")
  else if left = Int64.minValue ∧ right = -1 then overflowResult context
  else .ok (left / right)

/-- `CompareValues`: `-1`, `0` or `1`.  Text is compared as
    `std::string::operator<` does, byte by byte and unsigned. -/
def compareValues (left right : Value) : Result Int :=
  if isNull left ∨ isNull right then
    errorResult .executionError (ascii "cannot compare NULL values")
  else
    match integralValue left, integralValue right with
    | some l, some r => .ok (if l < r then -1 else if r < l then 1 else 0)
    | _, _ =>
      match left, right with
      | .text l, .text r => .ok (if l < r then -1 else if r < l then 1 else 0)
      | _, _ =>
        errorResult .typeMismatch (ascii "cannot compare values with different types")

/-! ## How the helpers can fail

    One lemma for each helper says every way it can end; the evaluator's
    error analysis is assembled from these. -/

/-- The failures of checked integer arithmetic: overflow and division by
    zero, nothing else. -/
def ArithmeticFailure (st : Status) : Prop :=
  st.code = .executionError ∧
    (st.message = ascii "division by zero" ∨
      ∃ context, st.message = context ++ ascii " overflow")

theorem overflowResult_failure {context : Bytes} {st : Status}
    (h : overflowResult context = .error st) : ArithmeticFailure st := by
  cases h
  exact ⟨rfl, Or.inr ⟨context, rfl⟩⟩

theorem checkedIntegerNegate_failure {v : Int64} {context : Bytes} {st : Status}
    (h : checkedIntegerNegate v context = .error st) : ArithmeticFailure st := by
  rw [checkedIntegerNegate] at h
  split at h
  · exact overflowResult_failure h
  · exact nomatch h

theorem checkedIntegerAdd_failure {l r : Int64} {context : Bytes} {st : Status}
    (h : checkedIntegerAdd l r context = .error st) : ArithmeticFailure st := by
  rw [checkedIntegerAdd] at h
  split at h
  · exact overflowResult_failure h
  · exact nomatch h

theorem checkedIntegerSubtract_failure {l r : Int64} {context : Bytes} {st : Status}
    (h : checkedIntegerSubtract l r context = .error st) : ArithmeticFailure st := by
  rw [checkedIntegerSubtract] at h
  split at h
  · exact overflowResult_failure h
  · exact nomatch h

theorem checkedIntegerMultiply_failure {l r : Int64} {context : Bytes} {st : Status}
    (h : checkedIntegerMultiply l r context = .error st) : ArithmeticFailure st := by
  rw [checkedIntegerMultiply] at h
  split_ifs at h
  · exact checkedIntegerNegate_failure h
  · exact checkedIntegerNegate_failure h
  · exact overflowResult_failure h
  · exact overflowResult_failure h

theorem checkedIntegerDivide_failure {l r : Int64} {context : Bytes} {st : Status}
    (h : checkedIntegerDivide l r context = .error st) : ArithmeticFailure st := by
  rw [checkedIntegerDivide] at h
  split_ifs at h
  · cases h
    exact ⟨rfl, Or.inl rfl⟩
  · exact overflowResult_failure h

/-- Two integral values always compare. -/
theorem compareValues_integral {l r : Value} {i j : Int64}
    (hl : integralValue l = some i) (hr : integralValue r = some j) :
    ∃ c, compareValues l r = .ok c := by
  have hln : isNull l = false := by
    cases l with
    | null => exact nomatch hl
    | _ => rfl
  have hrn : isNull r = false := by
    cases r with
    | null => exact nomatch hr
    | _ => rfl
  unfold compareValues
  rw [hln, hrn, hl, hr, if_neg (by decide)]
  exact ⟨_, rfl⟩

/-- Two texts always compare. -/
theorem compareValues_text (l r : Bytes) :
    ∃ c, compareValues (.text l) (.text r) = .ok c := by
  rw [compareValues]
  rw [if_neg (by simp [isNull])]
  exact ⟨_, rfl⟩

/-- Values of one type other than NULL always compare. -/
theorem compareValues_same_type {l r : Value} (h : valueTypeOf l = valueTypeOf r)
    (hn : valueTypeOf l ≠ .null) : ∃ c, compareValues l r = .ok c := by
  cases l with
  | null => exact absurd rfl hn
  | integer i =>
      cases r with
      | integer j => exact compareValues_integral rfl rfl
      | _ => exact nomatch h
  | boolean b =>
      cases r with
      | boolean c => exact compareValues_integral rfl rfl
      | _ => exact nomatch h
  | text s =>
      cases r with
      | text t => exact compareValues_text s t
      | _ => exact nomatch h

/-- A NULL operand makes the comparison fail, whatever the other one is. -/
theorem compareValues_null {l r : Value} (h : isNull l ∨ isNull r) :
    compareValues l r
      = errorResult .executionError (ascii "cannot compare NULL values") := by
  unfold compareValues
  rw [if_pos h]

theorem isNull_iff (v : Value) : isNull v = true ↔ v = .null := by
  cases v <;> simp [isNull]

theorem valueTypeOf_null_iff (v : Value) : valueTypeOf v = .null ↔ v = .null := by
  cases v <;> simp [valueTypeOf]

/-- Folding a folded key changes nothing. -/
theorem foldIdentifierKey_idem (value : Bytes) :
    foldIdentifierKey (foldIdentifierKey value) = foldIdentifierKey value := by
  unfold foldIdentifierKey
  rw [List.map_map]
  apply List.map_congr_left
  intro c _
  have key : ∀ c : UInt8,
      (if 65 ≤ (if 65 ≤ c ∧ c ≤ 90 then c + 32 else c)
          ∧ (if 65 ≤ c ∧ c ≤ 90 then c + 32 else c) ≤ 90
        then (if 65 ≤ c ∧ c ≤ 90 then c + 32 else c) + 32
        else (if 65 ≤ c ∧ c ≤ 90 then c + 32 else c))
        = if 65 ≤ c ∧ c ≤ 90 then c + 32 else c := by
    intro c
    split_ifs with h1 h2
    · exfalso
      have hc1 := UInt8.le_iff_toNat_le.mp h1.1
      have hc2 := UInt8.le_iff_toNat_le.mp h1.2
      have hd := UInt8.le_iff_toNat_le.mp h2.2
      rw [UInt8.toNat_add] at hd
      simp at hc1 hc2 hd
      omega
    · rfl
    · rfl
  exact key c

end MattSql
