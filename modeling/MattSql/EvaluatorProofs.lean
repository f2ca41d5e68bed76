import MattSql.BinderProofs

/-! # The expression evaluator

    `execution/expression_evaluator.cpp`: bound expressions over one row.

    `Outcome` says what the evaluation of a well-typed expression can end in: a
    value of the expression's type, an arithmetic failure, or, when a column
    the expression reads holds NULL, a NULL or one of the two NULL failures.
    One lemma for each operator carries it through the tree. -/

namespace MattSql

open Fallible

/-- `EvaluationContext`; the pointers may be null. -/
structure EvaluationContext where
  schema : Option TableSchema := none
  row : Option (List Value) := none

/-- `evaluate_unary` on the operand's value. -/
def evaluateUnary (op : UnaryOperator) (operand : Value) : Result Value :=
  match op with
  | .plus => do
    let integer ← requireInteger operand (ascii "unary plus")
    .ok (.integer integer)
  | .minus => do
    let integer ← requireInteger operand (ascii "unary minus")
    let negated ← checkedIntegerNegate integer (ascii "unary minus")
    .ok (.integer negated)
  | .not => do
    let boolean ← requireBoolean operand (ascii "NOT")
    .ok (.boolean (!boolean))

/-- `evaluate_logical_and` and `evaluate_logical_or`: the decisive value on the
    left ends the evaluation. -/
def evaluateLogical (label : Bytes) (decisive : Bool) (left right : Result Value) :
    Result Value := do
  let leftBoolean ← requireBoolean (← left) label
  if leftBoolean = decisive then .ok (.boolean decisive)
  else do
    let rightBoolean ← requireBoolean (← right) label
    .ok (.boolean rightBoolean)

/-- `evaluate_logical_and`. -/
def evaluateLogicalAnd (left right : Result Value) : Result Value :=
  evaluateLogical (ascii "AND") false left right

/-- `evaluate_logical_or`. -/
def evaluateLogicalOr (left right : Result Value) : Result Value :=
  evaluateLogical (ascii "OR") true left right

/-- The inner `switch` of the arithmetic operators. -/
def evaluateArithmetic (op : BinaryOperator) (left right : Int64) : Result Int64 :=
  match op with
  | .add => checkedIntegerAdd left right (ascii "integer addition")
  | .subtract => checkedIntegerSubtract left right (ascii "integer subtraction")
  | .multiply => checkedIntegerMultiply left right (ascii "integer multiplication")
  | .divide => checkedIntegerDivide left right (ascii "integer division")
  | _ => errorResult .executionError (ascii "unknown binary operator")

/-- The inner `switch` of the ordering comparisons. -/
def orderingHolds (op : BinaryOperator) (comparison : Int) : Option Bool :=
  match op with
  | .less => some (comparison < 0)
  | .lessEqual => some (comparison ≤ 0)
  | .greater => some (comparison > 0)
  | .greaterEqual => some (comparison ≥ 0)
  | _ => none

/-- The `switch` of `evaluate_binary` on the operands' values. -/
def evaluateOperands (op : BinaryOperator) (left right : Value) : Result Value :=
  match op with
  | .add | .subtract | .multiply | .divide => do
    let leftInteger ← requireInteger left (ascii "arithmetic")
    let rightInteger ← requireInteger right (ascii "arithmetic")
    let result ← evaluateArithmetic op leftInteger rightInteger
    .ok (.integer result)
  | .equal =>
    if isNull left ∨ isNull right then .ok (.boolean false)
    else do
      let comparison ← compareValues left right
      .ok (.boolean (comparison = 0))
  | .notEqual =>
    if isNull left ∨ isNull right then .ok (.boolean false)
    else do
      let comparison ← compareValues left right
      .ok (.boolean (comparison ≠ 0))
  | .less | .lessEqual | .greater | .greaterEqual => do
    let comparison ← compareValues left right
    match orderingHolds op comparison with
    | some holds => .ok (.boolean holds)
    | none => errorResult .executionError (ascii "unknown binary operator")
  | .and | .or => errorResult .executionError (ascii "unknown binary operator")

/-- `evaluate_binary`; the operands are handed over unevaluated, since AND and
    OR look at the right one only when the left one does not decide. -/
def evaluateBinary (op : BinaryOperator) (left right : Result Value) : Result Value :=
  match op with
  | .and => evaluateLogicalAnd left right
  | .or => evaluateLogicalOr left right
  | op => do evaluateOperands op (← left) (← right)

/-- The column case of `Evaluate`. -/
def evaluateColumn (context : EvaluationContext) (columnId : Nat) : Result Value :=
  match context.schema, context.row with
  | some schema, some row =>
    if columnId ≥ row.length ∨ columnId ≥ schema.columns.length then
      errorResult .executionError (ascii "column id is out of range")
    else
      match row[columnId]? with
      | some value => .ok value
      | none => errorResult .undefined (ascii "row[column_id]")
  | _, _ => errorResult .executionError (ascii "column expression requires a row context")

/-- `DefaultExpressionEvaluator::Evaluate`. -/
def evaluate (context : EvaluationContext) : BoundExpression → Result Value
  | .literal _ value => .ok value
  | .column _ _ columnId _ _ => evaluateColumn context columnId
  | .unary _ op operand => do evaluateUnary op (← evaluate context operand)
  | .binary _ left op right =>
    evaluateBinary op (evaluate context left) (evaluate context right)
  | .star _ => errorResult .executionError (ascii "unsupported expression")

/-- `ProjectionName`. -/
def projectionName (expression : BoundExpression) (index : Nat) : Bytes :=
  match expression with
  | .column _ _ _ _ columnName => columnName
  | _ => ascii "expr" ++ ascii (toString (index + 1))

/-- `EvaluateExpressions`. -/
def evaluateExpressions (expressions : List BoundExpression) (context : EvaluationContext) :
    Result (List Value) :=
  expressions.mapM (evaluate context)

/-! ## What an evaluation can end in -/

/-- A column that the expression reads holds NULL in the row. -/
def BoundExpression.ReadsNull (row : List Value) : BoundExpression → Prop
  | .literal _ _ => False
  | .column _ _ columnId _ _ => row[columnId]? = some .null
  | .unary _ _ operand => operand.ReadsNull row
  | .binary _ left _ right => left.ReadsNull row ∨ right.ReadsNull row
  | .star _ => False

/-- The failures a NULL can cause: an ordering comparison, or an operator that
    requires a value of its own type. -/
def NullFailure (st : Status) : Prop :=
  st = ⟨.executionError, ascii "cannot compare NULL values"⟩ ∨ st.code = .typeMismatch

/-- What a well-typed expression of the given type can end in, where `nullRead`
    says whether a NULL was there to be read. -/
def Outcome (type : SqlType) (nullRead : Prop) : Result Value → Prop
  | .ok value => valueTypeOf value = type ∨ value = .null ∧ nullRead
  | .error st => ArithmeticFailure st ∨ NullFailure st ∧ nullRead

variable {type : SqlType} {p q : Prop} {r : Result Value}

theorem Outcome.imp (h : Outcome type p r) (hpq : p → q) : Outcome type q r := by
  cases r with
  | ok v => exact h.imp_right fun hv => ⟨hv.1, hpq hv.2⟩
  | error st => exact h.imp_right fun hst => ⟨hst.1, hpq hst.2⟩

/-- Sequencing: a failure passes through, a value goes on. -/
theorem Outcome.bind {type' : SqlType} {f : Value → Result Value}
    (h : Outcome type p r)
    (hf : ∀ v, valueTypeOf v = type ∨ v = .null ∧ p → Outcome type' p (f v)) :
    Outcome type' p (r >>= f) := by
  cases r with
  | ok v => exact hf v h
  | error st => exact h

/-- An operand of type INTEGER passes the check, or it is a NULL that was
    read. -/
theorem Outcome.requireInteger {v : Value} (context : Bytes) {f : Int64 → Result Value}
    (hv : valueTypeOf v = .integer ∨ v = .null ∧ p) (hf : ∀ i, Outcome type p (f i)) :
    Outcome type p (requireInteger v context >>= f) := by
  rcases hv with hv | ⟨rfl, hp⟩
  · cases v with
    | integer i => exact hf i
    | _ => exact nomatch hv
  · exact Or.inr ⟨Or.inr rfl, hp⟩

theorem Outcome.requireBoolean {v : Value} (context : Bytes) {f : Bool → Result Value}
    (hv : valueTypeOf v = .boolean ∨ v = .null ∧ p) (hf : ∀ b, Outcome type p (f b)) :
    Outcome type p (requireBoolean v context >>= f) := by
  rcases hv with hv | ⟨rfl, hp⟩
  · cases v with
    | boolean b => exact hf b
    | _ => exact nomatch hv
  · exact Or.inr ⟨Or.inr rfl, hp⟩

/-- A checked computation gives an integer or an arithmetic failure. -/
theorem Outcome.arithmetic {r : Result Int64}
    (h : ∀ st, r = .error st → ArithmeticFailure st) :
    Outcome .integer p (r >>= fun i => .ok (.integer i)) := by
  cases r with
  | ok i => exact Or.inl rfl
  | error st => exact Or.inl (h st rfl)

theorem evaluateUnary_outcome {op : UnaryOperator} {operand : SqlType} {v : Value}
    (ht : UnaryTyped op operand type) (hv : valueTypeOf v = operand ∨ v = .null ∧ p) :
    Outcome type p (evaluateUnary op v) := by
  cases op with
  | plus =>
      obtain ⟨rfl, rfl⟩ := ht
      exact Outcome.requireInteger _ hv fun _ => Or.inl rfl
  | minus =>
      obtain ⟨rfl, rfl⟩ := ht
      exact Outcome.requireInteger _ hv fun _ =>
        Outcome.arithmetic fun _ => checkedIntegerNegate_failure
  | not =>
      obtain ⟨rfl, rfl⟩ := ht
      exact Outcome.requireBoolean _ hv fun _ => Or.inl rfl

theorem evaluateLogical_outcome {left right : Result Value} (label : Bytes) (decisive : Bool)
    (hl : Outcome .boolean p left) (hr : Outcome .boolean p right) :
    Outcome .boolean p (evaluateLogical label decisive left right) := by
  refine hl.bind fun l hl => Outcome.requireBoolean _ hl fun b => ?_
  split
  · exact Or.inl rfl
  · exact hr.bind fun r hr => Outcome.requireBoolean _ hr fun _ => Or.inl rfl

theorem evaluateArithmetic_failure {op : BinaryOperator} (hop : isArithmetic op)
    {l r : Int64} {st : Status} (h : evaluateArithmetic op l r = .error st) :
    ArithmeticFailure st := by
  cases op with
  | add => exact checkedIntegerAdd_failure h
  | subtract => exact checkedIntegerSubtract_failure h
  | multiply => exact checkedIntegerMultiply_failure h
  | divide => exact checkedIntegerDivide_failure h
  | _ => exact nomatch hop

/-- The value types `CompareValues` can tell apart or order. -/
def TypesCompare (left right : SqlType) : Prop :=
  left = right ∨ left = .boolean ∧ right = .integer ∨ left = .integer ∧ right = .boolean

/-- Values other than NULL of comparable types compare. -/
theorem compareValues_ok {l r : Value} (hl : isNull l = false) (hr : isNull r = false)
    (ht : TypesCompare (valueTypeOf l) (valueTypeOf r)) : ∃ c, compareValues l r = .ok c := by
  rcases ht with ht | ⟨htl, htr⟩ | ⟨htl, htr⟩
  · refine compareValues_same_type ht fun hn => ?_
    rw [(valueTypeOf_null_iff l).mp hn] at hl
    exact nomatch hl
  · cases l with
    | boolean b =>
        cases r with
        | integer i => exact compareValues_integral rfl rfl
        | _ => exact nomatch htr
    | _ => exact nomatch htl
  · cases l with
    | integer i =>
        cases r with
        | boolean b => exact compareValues_integral rfl rfl
        | _ => exact nomatch htr
    | _ => exact nomatch htl

/-- An equality comparison never fails on comparable operands. -/
theorem evaluateEquality_outcome {l r : Value} {tl tr : SqlType} (test : Int → Bool)
    (ht : tl = .null ∨ tr = .null ∨ TypesCompare tl tr)
    (hl : valueTypeOf l = tl ∨ l = .null ∧ p) (hr : valueTypeOf r = tr ∨ r = .null ∧ p) :
    Outcome .boolean p
      (if isNull l ∨ isNull r then .ok (.boolean false)
        else compareValues l r >>= fun c => .ok (.boolean (test c))) := by
  split
  · exact Or.inl rfl
  · rename_i hnull
    rw [not_or, Bool.not_eq_true, Bool.not_eq_true] at hnull
    have hnl : l ≠ .null := fun h => by rw [h] at hnull; exact nomatch hnull.1
    have hnr : r ≠ .null := fun h => by rw [h] at hnull; exact nomatch hnull.2
    have htl : valueTypeOf l = tl := hl.resolve_right fun h => hnl h.1
    have htr : valueTypeOf r = tr := hr.resolve_right fun h => hnr h.1
    have hcmp : TypesCompare (valueTypeOf l) (valueTypeOf r) := by
      rcases ht with rfl | rfl | ht
      · exact absurd ((valueTypeOf_null_iff l).mp htl) hnl
      · exact absurd ((valueTypeOf_null_iff r).mp htr) hnr
      · rw [htl, htr]
        exact ht
    obtain ⟨c, hc⟩ := compareValues_ok hnull.1 hnull.2 hcmp
    rw [hc]
    exact Or.inl rfl

/-- An ordering comparison fails only on a NULL that was read. -/
theorem evaluateOrdering_outcome {l r : Value} {t : SqlType} (test : Int → Bool)
    (ht : t ≠ .null) (hl : valueTypeOf l = t ∨ l = .null ∧ p)
    (hr : valueTypeOf r = t ∨ r = .null ∧ p) :
    Outcome .boolean p (compareValues l r >>= fun c => .ok (.boolean (test c))) := by
  have hfail : isNull l ∨ isNull r → p →
      Outcome .boolean p (compareValues l r >>= fun c => .ok (.boolean (test c))) := by
    intro hnull hp
    rw [compareValues_null hnull]
    exact Or.inr ⟨Or.inl rfl, hp⟩
  rcases hl with hl | ⟨rfl, hp⟩
  · rcases hr with hr | ⟨rfl, hp⟩
    · obtain ⟨c, hc⟩ := compareValues_same_type (hl.trans hr.symm) (hl ▸ ht)
      rw [hc]
      exact Or.inl rfl
    · exact hfail (Or.inr rfl) hp
  · exact hfail (Or.inl rfl) hp

theorem equalityComparable_types {left right : BoundExpression}
    (h : equalityComparable left right) :
    left.type = .null ∨ right.type = .null ∨ TypesCompare left.type right.type := by
  have hlit : ∀ e, isBooleanIntegerLiteral e = true → e.type = .integer := by
    intro e he
    unfold isBooleanIntegerLiteral at he
    split at he
    · rfl
    · exact nomatch he
  rcases of_decide_eq_true h with h | h | h | ⟨hb, hi⟩ | ⟨hb, hi⟩
  · exact Or.inl h
  · exact Or.inr (Or.inl h)
  · exact Or.inr (Or.inr (Or.inl h))
  · exact Or.inr (Or.inr (Or.inr (Or.inl ⟨hb, hlit _ hi⟩)))
  · exact Or.inr (Or.inr (Or.inr (Or.inr ⟨hlit _ hi, hb⟩)))

theorem orderingComparable_types {left right : SqlType} (h : orderingComparable left right) :
    left = right ∧ left ≠ .null := by
  obtain ⟨heq, hint | htext⟩ := of_decide_eq_true h
  · exact ⟨heq, by rw [hint]; decide⟩
  · exact ⟨heq, by rw [htext]; decide⟩

theorem evaluateBinary_outcome {left right : BoundExpression} {op : BinaryOperator}
    {l r : Result Value} (ht : BinaryTyped left op right type)
    (hl : Outcome left.type p l) (hr : Outcome right.type p r) :
    Outcome type p (evaluateBinary op l r) := by
  -- AND and OR may skip the right operand; every other operator needs both
  cases op with
  | and =>
      obtain ⟨htl, htr, rfl⟩ := ht
      exact evaluateLogical_outcome _ _ (htl ▸ hl) (htr ▸ hr)
  | or =>
      obtain ⟨htl, htr, rfl⟩ := ht
      exact evaluateLogical_outcome _ _ (htl ▸ hl) (htr ▸ hr)
  | equal =>
      obtain ⟨hcmp, rfl⟩ := ht
      exact hl.bind fun lv hlv => hr.bind fun rv hrv =>
        evaluateEquality_outcome (fun c => c = 0) (equalityComparable_types hcmp) hlv hrv
  | notEqual =>
      obtain ⟨hcmp, rfl⟩ := ht
      exact hl.bind fun lv hlv => hr.bind fun rv hrv =>
        evaluateEquality_outcome (fun c => c ≠ 0) (equalityComparable_types hcmp) hlv hrv
  | less =>
      obtain ⟨hcmp, rfl⟩ := ht
      obtain ⟨heq, hn⟩ := orderingComparable_types hcmp
      exact hl.bind fun lv hlv => hr.bind fun rv hrv =>
        evaluateOrdering_outcome (fun c => c < 0) hn hlv (heq ▸ hrv)
  | lessEqual =>
      obtain ⟨hcmp, rfl⟩ := ht
      obtain ⟨heq, hn⟩ := orderingComparable_types hcmp
      exact hl.bind fun lv hlv => hr.bind fun rv hrv =>
        evaluateOrdering_outcome (fun c => c ≤ 0) hn hlv (heq ▸ hrv)
  | greater =>
      obtain ⟨hcmp, rfl⟩ := ht
      obtain ⟨heq, hn⟩ := orderingComparable_types hcmp
      exact hl.bind fun lv hlv => hr.bind fun rv hrv =>
        evaluateOrdering_outcome (fun c => c > 0) hn hlv (heq ▸ hrv)
  | greaterEqual =>
      obtain ⟨hcmp, rfl⟩ := ht
      obtain ⟨heq, hn⟩ := orderingComparable_types hcmp
      exact hl.bind fun lv hlv => hr.bind fun rv hrv =>
        evaluateOrdering_outcome (fun c => c ≥ 0) hn hlv (heq ▸ hrv)
  | add | subtract | multiply | divide =>
      obtain ⟨htl, htr, rfl⟩ := ht
      exact hl.bind fun lv hlv => hr.bind fun rv hrv =>
        Outcome.requireInteger _ (htl ▸ hlv) fun _ =>
          Outcome.requireInteger _ (htr ▸ hrv) fun _ =>
            Outcome.arithmetic fun _ => evaluateArithmetic_failure rfl

/-! ## What an operator yields -/

/-- The type of what a unary operator yields. -/
def UnaryOperator.resultType : UnaryOperator → SqlType
  | .plus | .minus => .integer
  | .not => .boolean

/-- The type of what a binary operator yields. -/
def BinaryOperator.resultType : BinaryOperator → SqlType
  | .add | .subtract | .multiply | .divide => .integer
  | _ => .boolean

theorem UnaryOperator.resultType_ne_null (op : UnaryOperator) : op.resultType ≠ .null := by
  cases op <;> decide

theorem BinaryOperator.resultType_ne_null (op : BinaryOperator) : op.resultType ≠ .null := by
  cases op <;> decide

/-- A unary operator that succeeds yields a value of its type, whatever its
    operand. -/
theorem evaluateUnary_type {op : UnaryOperator} {operand v : Value}
    (h : evaluateUnary op operand = .ok v) : valueTypeOf v = op.resultType := by
  cases op with
  | plus =>
      obtain ⟨i, -, h⟩ := bind_ok_iff.mp h
      cases h
      rfl
  | minus =>
      obtain ⟨i, -, h⟩ := bind_ok_iff.mp h
      obtain ⟨n, -, h⟩ := bind_ok_iff.mp h
      cases h
      rfl
  | not =>
      obtain ⟨b, -, h⟩ := bind_ok_iff.mp h
      cases h
      rfl

theorem evaluateLogical_type {label : Bytes} {decisive : Bool} {left right : Result Value}
    {v : Value} (h : evaluateLogical label decisive left right = .ok v) :
    valueTypeOf v = .boolean := by
  obtain ⟨l, -, h⟩ := bind_ok_iff.mp h
  obtain ⟨lb, -, h⟩ := bind_ok_iff.mp h
  split at h
  · cases h
    rfl
  · obtain ⟨r, -, h⟩ := bind_ok_iff.mp h
    obtain ⟨rb, -, h⟩ := bind_ok_iff.mp h
    cases h
    rfl

theorem evaluateOperands_type {op : BinaryOperator} {left right v : Value}
    (h : evaluateOperands op left right = .ok v) : valueTypeOf v = op.resultType := by
  cases op with
  | add | subtract | multiply | divide =>
      obtain ⟨l, -, h⟩ := bind_ok_iff.mp h
      obtain ⟨r, -, h⟩ := bind_ok_iff.mp h
      obtain ⟨i, -, h⟩ := bind_ok_iff.mp h
      cases h
      rfl
  | equal | notEqual =>
      unfold evaluateOperands at h
      dsimp only at h
      split at h
      · cases h
        rfl
      · obtain ⟨c, -, h⟩ := bind_ok_iff.mp h
        cases h
        rfl
  | less | lessEqual | greater | greaterEqual =>
      obtain ⟨c, -, h⟩ := bind_ok_iff.mp h
      cases h
      rfl
  | and | or => exact nomatch h

/-- A binary operator that succeeds yields a value of its type, whatever its
    operands. -/
theorem evaluateBinary_type {op : BinaryOperator} {left right : Result Value} {v : Value}
    (h : evaluateBinary op left right = .ok v) : valueTypeOf v = op.resultType := by
  cases op with
  | and | or => exact evaluateLogical_type h
  | _ =>
      obtain ⟨l, -, h⟩ := bind_ok_iff.mp h
      obtain ⟨r, -, h⟩ := bind_ok_iff.mp h
      exact evaluateOperands_type h

theorem evaluateUnary_ne_null {op : UnaryOperator} {operand v : Value}
    (h : evaluateUnary op operand = .ok v) : v ≠ .null := by
  rintro rfl
  exact op.resultType_ne_null (evaluateUnary_type h).symm

theorem evaluateBinary_ne_null {op : BinaryOperator} {left right : Result Value} {v : Value}
    (h : evaluateBinary op left right = .ok v) : v ≠ .null := by
  rintro rfl
  exact op.resultType_ne_null (evaluateBinary_type h).symm

/-! ## Type soundness -/

/-- The context holds, for every column in scope, a value of its type or
    NULL. -/
def EvaluationContext.Fits (context : EvaluationContext) (columns : List ColumnSchema) :
    Prop :=
  ∀ id c, columns[id]? = some c → ∃ schema row v,
    context.schema = some schema ∧ context.row = some row
      ∧ id < schema.columns.length ∧ row[id]? = some v
      ∧ (v = .null ∨ valueTypeOf v = c.type)

/-- Without columns in scope every context will do. -/
theorem EvaluationContext.fits_nil (context : EvaluationContext) : context.Fits [] :=
  nofun

/-- A row that fits the schema makes a context that fits its columns. -/
theorem RowFits.context {schema : TableSchema} {row : List Value} (h : RowFits schema row) :
    EvaluationContext.Fits ⟨some schema, some row⟩ schema.columns := by
  have hget : ∀ {cs : List ColumnSchema} {vs : List Value},
      List.Forall₂ (fun c v => v = .null ∨ valueTypeOf v = c.type) cs vs →
      ∀ (id : Nat) c, cs[id]? = some c →
        ∃ v, vs[id]? = some v ∧ (v = .null ∨ valueTypeOf v = c.type) := by
    intro cs vs hall
    induction hall with
    | nil => exact nofun
    | @cons c v cs vs hcv _ ih =>
        intro id c' hid
        cases id with
        | zero =>
            cases hid
            exact ⟨v, rfl, hcv⟩
        | succ id => exact ih id c' hid
  intro id c hc
  obtain ⟨v, hv, ht⟩ := hget h id c hc
  exact ⟨schema, row, v, rfl, rfl, (List.getElem?_eq_some_iff.mp hc).1, hv, ht⟩

/-- The column case: the value of the column is found. -/
theorem evaluateColumn_ok {context : EvaluationContext} {columns : List ColumnSchema}
    (hc : context.Fits columns) {id : Nat} {c : ColumnSchema} (hid : columns[id]? = some c) :
    ∃ v, evaluateColumn context id = .ok v ∧ (context.row.getD [])[id]? = some v
      ∧ (v = .null ∨ valueTypeOf v = c.type) := by
  obtain ⟨schema, row, v, hs, hr, hlt, hv, ht⟩ := hc id c hid
  have hlt' := (List.getElem?_eq_some_iff.mp hv).1
  refine ⟨v, ?_, by rw [hr]; exact hv, ht⟩
  rw [evaluateColumn]
  rw [hs, hr]
  dsimp only
  rw [if_neg (by omega), hv]

/-- **OUTCOMES**: a well-typed expression over a fitting context ends in a value
    of its type, an arithmetic failure, or what a NULL it reads leads to. -/
theorem evaluate_outcome {context : EvaluationContext} {columns : List ColumnSchema}
    (hc : context.Fits columns) {e : BoundExpression} (hw : e.WellTyped columns) :
    Outcome e.type (e.ReadsNull (context.row.getD [])) (evaluate context e) := by
  induction e with
  | literal type value => exact Or.inl hw
  | column type tableId columnId tableName columnName =>
      obtain ⟨c, hid, rfl⟩ := hw
      obtain ⟨v, hev, hv, ht⟩ := evaluateColumn_ok hc hid
      rw [evaluate, hev]
      rcases ht with rfl | ht
      · exact Or.inr ⟨rfl, hv⟩
      · exact Or.inl ht
  | unary type op operand ih =>
      exact (ih hw.1).bind fun v hv => evaluateUnary_outcome hw.2 hv
  | binary type left op right ihl ihr =>
      exact evaluateBinary_outcome hw.2.2 ((ihl hw.1).imp Or.inl) ((ihr hw.2.1).imp Or.inr)
  | star type => exact absurd hw id

/-- A row without NULLs gives nothing to stumble over. -/
theorem RowFull.not_readsNull {schema : TableSchema} {row : List Value}
    (h : RowFull schema row) (e : BoundExpression) : ¬ e.ReadsNull row := by
  induction e with
  | literal type value => exact id
  | column type tableId columnId tableName columnName =>
      exact fun hread => h.null_notMem (List.mem_of_getElem? hread)
  | unary type op operand ih => exact ih
  | binary type left op right ihl ihr =>
      rintro (hread | hread)
      · exact ihl hread
      · exact ihr hread
  | star type => exact id

/-- Nor does an expression without columns. -/
theorem BoundExpression.ColumnFree.not_readsNull {e : BoundExpression} (h : e.ColumnFree)
    (row : List Value) : ¬ e.ReadsNull row := by
  induction e with
  | literal type value => exact id
  | column type tableId columnId tableName columnName => exact absurd h id
  | unary type op operand ih => exact ih h
  | binary type left op right ihl ihr =>
      rintro (hread | hread)
      · exact ihl h.1 hread
      · exact ihr h.2 hread
  | star type => exact id

/-- **TYPE SOUNDNESS OF BINDING**: what the binder accepts evaluates, on every
    row that holds a value in each column, to a value of exactly the bound
    type, or fails in integer arithmetic and in no other way. -/
theorem bindExpression_type_sound (e : Expression) (table : Option TableInfo)
    (hv : ∀ t, table = some t → t.schema.Valid) (b : BoundExpression)
    (hb : bindExpression table e = .ok b) (context : EvaluationContext)
    (hc : ∀ t, table = some t →
      ∃ row, context = ⟨some t.schema, some row⟩ ∧ RowFull t.schema row) :
    (∀ v, evaluate context b = .ok v → valueTypeOf v = b.type)
    ∧ ∀ st, evaluate context b = .error st → ArithmeticFailure st := by
  have hw := bindExpression_wellTyped hv hb
  obtain ⟨hfits, hread⟩ : context.Fits (scopeColumns table)
      ∧ ¬ b.ReadsNull (context.row.getD []) := by
    cases table with
    | none =>
        exact ⟨context.fits_nil, hw.columnFree.not_readsNull _⟩
    | some t =>
        obtain ⟨row, rfl, hfull⟩ := hc t rfl
        exact ⟨hfull.fits.context, hfull.not_readsNull b⟩
  have hout := evaluate_outcome hfits hw
  constructor
  · intro v hval
    rw [hval] at hout
    exact hout.resolve_right fun h => hread h.2
  · intro st hst
    rw [hst] at hout
    exact hout.resolve_right fun h => hread h.2

/-- `id / (id - 3)` over a table with one integer column and the row `3`. -/
theorem bindExpression_type_sound_division :
    let column : ColumnSchema := ⟨ascii "id", .integer, true, 0⟩
    let table : TableInfo := { id := 1, name := ascii "t", schema := ⟨[column]⟩ }
    let e : Expression := .binary (.columnRef (ascii "t.id")) .divide
      (.binary (.columnRef (ascii "id")) .subtract (.integerLiteral 3))
    ∃ b, bindExpression (some table) e = .ok b
      ∧ (∀ st, evaluate ⟨some table.schema, some [.integer 3]⟩ b = .error st →
          ArithmeticFailure st)
      ∧ evaluate ⟨some table.schema, some [.integer 3]⟩ b
          = errorResult .executionError (ascii "division by zero") := by
  intro column table e
  have hvalid : table.schema.Valid := by
    refine ⟨by decide, by decide, by decide, ?_, by decide⟩
    intro i c hi
    cases i with
    | zero =>
        cases hi
        rfl
    | succ i => exact nomatch hi
  refine ⟨_, rfl, ?_, by decide⟩
  exact (bindExpression_type_sound e (some table) (fun t ht => by cases ht; exact hvalid) _ rfl
    _ (fun t ht => by
      cases ht
      exact ⟨_, rfl, .cons ⟨by decide, rfl⟩ .nil⟩)).2

end MattSql
