import Mathlib.Order.Compare
import MattSql.CheckedArithmeticProofs
import MattSql.GrowthProofs
import MattSql.TypingProofs

/-! # The meaning of a SELECT

    What a SELECT answers, read off the statement as it was parsed: integers are
    exact or there is no answer, AND and OR are those of sequential logic, a
    column is looked up by its name, a star is the row.  Nothing is bound,
    planned or optimized.

    `select_means` says that the engine answers exactly when the statement is
    well formed and has a meaning, and that the answer is the meaning. -/

namespace MattSql

open Fallible SequentialLogic

/-! ## Values -/

/-- The number of an INTEGER. -/
def Value.number : Value → Option Int64
  | .integer i => some i
  | _ => none

/-- Whether a BOOLEAN is TRUE. -/
def Value.truth : Value → Option Bool
  | .boolean b => some b
  | _ => none

/-- What a value counts as among numbers: TRUE is 1 and FALSE is 0. -/
def Value.count : Value → Option Int
  | .integer i => some i.toInt
  | .boolean b => some (if b then 1 else 0)
  | _ => none

/-- The order of two numbers, or of two texts byte by byte. -/
def Value.order (left right : Value) : Option Ordering :=
  match left, right with
  | .text l, .text r => some (cmp l r)
  | left, right => do some (cmp (← left.count) (← right.count))

/-- The arithmetic operators: exact, or undefined. -/
def BinaryOperator.exact : BinaryOperator → Int64 → Int64 → Option Int64
  | .add => SignedWord.add
  | .subtract => SignedWord.sub
  | .multiply => SignedWord.mul
  | .divide => SignedWord.div
  | _ => fun _ _ => none

/-- The orders at which a comparison holds. -/
def BinaryOperator.holdsAt : BinaryOperator → Ordering → Bool
  | .equal => Ordering.isEq
  | .notEqual => Ordering.isNe
  | .less => Ordering.isLT
  | .lessEqual => Ordering.isLE
  | .greater => Ordering.isGT
  | .greaterEqual => Ordering.isGE
  | _ => fun _ => false

/-! ## Expressions -/

def unaryMeaning (op : UnaryOperator) (operand : Value) : Option Value :=
  match op with
  | .plus => operand.number.map .integer
  | .minus => (operand.number.bind SignedWord.neg).map .integer
  | .not => operand.truth.map fun b => .boolean !b

/-- An operator that needs both operands.  No equality holds of a NULL, and no
    inequality either. -/
def operandsMeaning (op : BinaryOperator) (left right : Value) : Option Value :=
  if isArithmetic op then do
    some (.integer (← op.exact (← left.number) (← right.number)))
  else if isEqualityComparison op ∧ (left = .null ∨ right = .null) then some (.boolean false)
  else do some (.boolean (op.holdsAt (← left.order right)))

def binaryMeaning (op : BinaryOperator) (left right : Option Value) : Option Value :=
  match op with
  | .and => (conj (left.bind Value.truth) (right.bind Value.truth)).map .boolean
  | .or => (disj (left.bind Value.truth) (right.bind Value.truth)).map .boolean
  | op => do operandsMeaning op (← left) (← right)

/-- The value in the column of that name. -/
def columnMeaning (table : Option TableInfo) (row : List Value) (name : Bytes) : Option Value := do
  let source ← table
  let index ← source.schema.columns.findIdx? fun column =>
    foldIdentifierKey column.name = foldIdentifierKey (referencedColumn name)
  row[index]?

/-- The value of an expression at a row. -/
def Expression.meaning (table : Option TableInfo) (row : List Value) : Expression → Option Value
  | .integerLiteral value => some (.integer value)
  | .stringLiteral value => some (.text value)
  | .booleanLiteral value => some (.boolean value)
  | .nullLiteral => some .null
  | .columnRef name => columnMeaning table row name
  | .unary op operand => do unaryMeaning op (← operand.meaning table row)
  | .binary left op right =>
    binaryMeaning op (left.meaning table row) (right.meaning table row)
  | .star => none

/-! ## Queries -/

/-- Whether WHERE keeps the row; without WHERE it is kept. -/
def whereMeaning (table : Option TableInfo) (predicate : Option Expression) (row : List Value) :
    Option Bool :=
  match predicate with
  | none => some true
  | some p => (p.meaning table row).bind Value.truth

/-- The values a projection shows of a row; a star shows the row. -/
def SelectProjection.meaning (table : Option TableInfo) (row : List Value)
    (projection : SelectProjection) : Option (List Value) :=
  if projection.expression = .star then some row
  else (projection.expression.meaning table row).map fun value => [value]

/-- The values a projection list shows of a row. -/
def projectionsMeaning (table : Option TableInfo) (row : List Value) :
    List SelectProjection → Option (List Value)
  | [] => some []
  | projection :: rest => do
    some ((← projection.meaning table row) ++ (← projectionsMeaning table row rest))

/-- The rows that are shown, in the order of the rows they come from. -/
def rowsMeaning (table : Option TableInfo) (projections : List SelectProjection)
    (predicate : Option Expression) : List (List Value) → Option (List (List Value))
  | [] => some []
  | row :: rows => do
    let shown ←
      if ← whereMeaning table predicate row then
        (projectionsMeaning table row projections).map fun values => [values]
      else some []
    some (shown ++ (← rowsMeaning table projections predicate rows))

/-- The names of a projection, behind so many columns; a star has no alias. -/
def SelectProjection.header (columns : List ColumnSchema) (position : Nat)
    (projection : SelectProjection) : List Bytes :=
  if projection.expression = .star then columns.map (·.name)
  else projectionHeader columns position projection

/-- The names of a projection list, behind so many columns. -/
def headerMeaning (columns : List ColumnSchema) : Nat → List SelectProjection → List Bytes
  | _, [] => []
  | position, projection :: rest =>
    let names := projection.header columns position
    names ++ headerMeaning columns (position + names.length) rest

/-- The answer of a SELECT over these rows. -/
def selectMeaning (table : Option TableInfo) (projections : List SelectProjection)
    (predicate : Option Expression) (rows : List (List Value)) : Option QueryResult := do
  some ⟨headerMeaning (scopeColumns table) 0 projections,
    ← rowsMeaning table projections predicate rows⟩

/-! ## The evaluator computes the meaning of operators -/

theorem okValue_bind {α β : Type} (r : Result α) (f : α → Result β) :
    okValue (r >>= f) = (okValue r).bind fun a => okValue (f a) := by
  cases r <;> rfl

/-- A computation with an exact result has it where it fits. -/
theorem ExactResult.okValue_eq {r : Result Int64} {n : Option Int} (h : ExactResult r n) :
    okValue r = n.bind SignedWord.exactly := by
  ext a
  rw [okValue_eq_some_iff, h.ok_iff, Option.bind_eq_some_iff]
  constructor
  · rintro ⟨k, hk, -, ha⟩
    exact ⟨k, hk, SignedWord.exactly_eq_some_iff.mpr ha⟩
  · rintro ⟨k, hk, ha⟩
    have hvalue := SignedWord.exactly_eq_some_iff.mp ha
    exact ⟨k, hk, hvalue ▸ SignedWord.fits_toInt a, hvalue⟩

theorem okValue_requireInteger (value : Value) (context : Bytes) :
    okValue (requireInteger value context) = value.number := by
  cases value <;> rfl

theorem okValue_evaluateArithmetic (op : BinaryOperator) (left right : Int64) :
    okValue (evaluateArithmetic op left right) = op.exact left right := by
  cases op with
  | add => exact add_exact.2.okValue_eq
  | subtract => exact subtract_exact.2.okValue_eq
  | multiply => exact multiply_exact.2.okValue_eq
  | divide =>
      refine divide_exact.2.okValue_eq.trans ?_
      show _ = SignedWord.div left right
      have hiff : right.toInt = 0 ↔ right = 0 := @Int64.toInt_inj right 0
      rw [quotient, SignedWord.div]
      by_cases hzero : right = 0
      · rw [if_pos hzero, if_pos (hiff.mpr hzero)]
        rfl
      · rw [if_neg hzero, if_neg fun h => hzero (hiff.mp h)]
        rfl
  | _ => rfl

/-- The sign that `CompareValues` gives an order. -/
def orderSign : Ordering → Int
  | .lt => -1
  | .eq => 0
  | .gt => 1

theorem orderSign_cmp {α : Type} [LT α] [DecidableLT α] (l r : α) :
    orderSign (cmp l r) = if l < r then -1 else if r < l then 1 else 0 := by
  unfold cmp cmpUsing
  by_cases hlt : l < r
  · rw [if_pos hlt, if_pos hlt]
    rfl
  · rw [if_neg hlt, if_neg hlt]
    by_cases hgt : r < l
    · rw [if_pos hgt, if_pos hgt]
      rfl
    · rw [if_neg hgt, if_neg hgt]
      rfl

/-- Values are compared by their order. -/
theorem okValue_compareValues (left right : Value) :
    okValue (compareValues left right) = (left.order right).map orderSign := by
  have hnumbers : ∀ {l r : Value} {i j : Int64}, integralValue l = some i →
      integralValue r = some j → isNull l = false → isNull r = false →
      okValue (compareValues l r) = some (orderSign (cmp i.toInt j.toInt)) := by
    intro l r i j hi hj hl hr
    unfold compareValues
    rw [hl, hr, hi, hj, if_neg (by decide), orderSign_cmp]
    simp only [okValue, Int64.lt_iff_toInt_lt]
  cases left with
  | null => cases right <;> rfl
  | integer i =>
      cases right with
      | integer j => exact hnumbers rfl rfl rfl rfl
      | boolean c =>
          refine (hnumbers rfl rfl rfl rfl).trans ?_
          cases c <;> rfl
      | _ => rfl
  | boolean b =>
      cases right with
      | integer j =>
          refine (hnumbers rfl rfl rfl rfl).trans ?_
          cases b <;> rfl
      | boolean c =>
          refine (hnumbers rfl rfl rfl rfl).trans ?_
          cases b <;> cases c <;> rfl
      | _ => rfl
  | text s =>
      cases right with
      | text t =>
          show some _ = some (orderSign (cmp s t))
          rw [orderSign_cmp]
      | _ => rfl

theorem okValue_evaluateUnary (op : UnaryOperator) (operand : Value) :
    okValue (evaluateUnary op operand) = unaryMeaning op operand := by
  cases op with
  | plus => cases operand <;> rfl
  | minus =>
      rw [evaluateUnary, okValue_bind, okValue_requireInteger, unaryMeaning, Option.map_bind]
      congr 1
      funext i
      rw [okValue_bind, negate_exact.2.okValue_eq]
      show (SignedWord.neg i).bind _ = (SignedWord.neg i).map _
      cases SignedWord.neg i <;> rfl
  | not => cases operand <;> rfl

/-- A comparison tests the sign of the order. -/
theorem okValue_comparison {op : BinaryOperator} {test : Int → Bool}
    (htest : ∀ order, test (orderSign order) = op.holdsAt order) (left right : Value) :
    okValue (compareValues left right >>= fun sign => .ok (Value.boolean (test sign)))
      = (left.order right).bind fun order => some (.boolean (op.holdsAt order)) := by
  rw [okValue_bind, okValue_compareValues, Option.bind_map]
  congr 1
  funext order
  exact congrArg (fun b => some (Value.boolean b)) (htest order)

/-- An equality comparison looks for NULLs first. -/
theorem okValue_equality {op : BinaryOperator} (hop : isEqualityComparison op = true)
    {test : Int → Bool} (htest : ∀ order, test (orderSign order) = op.holdsAt order)
    (left right : Value) :
    okValue (if isNull left ∨ isNull right then .ok (.boolean false)
        else compareValues left right >>= fun sign => .ok (Value.boolean (test sign)))
      = operandsMeaning op left right := by
  have harith : isArithmetic op = false := by
    cases op with
    | equal | notEqual => rfl
    | _ => cases hop
  rw [operandsMeaning, harith, if_neg Bool.false_ne_true]
  by_cases hnull : left = .null ∨ right = .null
  · rw [if_pos (by simpa only [isNull_iff] using hnull), if_pos ⟨hop, hnull⟩]
    rfl
  · rw [if_neg (by simpa only [isNull_iff] using hnull), if_neg fun h => hnull h.2]
    exact okValue_comparison htest left right

theorem okValue_evaluateOperands {op : BinaryOperator} (hop : isBooleanOperator op = false)
    (left right : Value) :
    okValue (evaluateOperands op left right) = operandsMeaning op left right := by
  cases op with
  | add | subtract | multiply | divide =>
      rw [evaluateOperands, okValue_bind, okValue_requireInteger]
      show _ = left.number.bind _
      congr 1
      funext i
      rw [okValue_bind, okValue_requireInteger]
      show _ = right.number.bind _
      congr 1
      funext j
      rw [okValue_bind, okValue_evaluateArithmetic]
      rfl
  | equal =>
      refine @okValue_equality .equal rfl (fun sign => decide (sign = 0)) ?_ left right
      rintro (_ | _ | _) <;> rfl
  | notEqual =>
      refine @okValue_equality .notEqual rfl (fun sign => decide (sign ≠ 0)) ?_ left right
      rintro (_ | _ | _) <;> rfl
  | less =>
      refine @okValue_comparison .less (fun sign => decide (sign < 0)) ?_ left right
      rintro (_ | _ | _) <;> rfl
  | lessEqual =>
      refine @okValue_comparison .lessEqual (fun sign => decide (sign ≤ 0)) ?_ left right
      rintro (_ | _ | _) <;> rfl
  | greater =>
      refine @okValue_comparison .greater (fun sign => decide (sign > 0)) ?_ left right
      rintro (_ | _ | _) <;> rfl
  | greaterEqual =>
      refine @okValue_comparison .greaterEqual (fun sign => decide (sign ≥ 0)) ?_ left right
      rintro (_ | _ | _) <;> rfl
  | and | or => cases hop

/-- AND and OR are those of sequential logic. -/
theorem okValue_evaluateLogical (label : Bytes) (decisive : Bool) (left right : Result Value) :
    okValue (evaluateLogical label decisive left right)
      = (if decisive then disj ((okValue left).bind Value.truth) ((okValue right).bind Value.truth)
          else conj ((okValue left).bind Value.truth) ((okValue right).bind Value.truth)).map
        .boolean := by
  cases left with
  | error st => cases decisive <;> rfl
  | ok l =>
      cases l with
      | boolean b =>
          cases right with
          | error st => cases b <;> cases decisive <;> rfl
          | ok r =>
              cases r with
              | boolean c => cases b <;> cases decisive <;> rfl
              | _ => cases b <;> cases decisive <;> rfl
      | _ => cases decisive <;> rfl

theorem okValue_evaluateBinary (op : BinaryOperator) (left right : Result Value) :
    okValue (evaluateBinary op left right) = binaryMeaning op (okValue left) (okValue right) := by
  have hoperands : isBooleanOperator op = false →
      okValue (left >>= fun l => right >>= fun r => evaluateOperands op l r)
        = (okValue left).bind fun l => (okValue right).bind fun r => operandsMeaning op l r := by
    intro hop
    simp only [okValue_bind, okValue_evaluateOperands hop]
  cases op with
  | and => exact okValue_evaluateLogical (ascii "AND") false left right
  | or => exact okValue_evaluateLogical (ascii "OR") true left right
  | _ => exact hoperands rfl

/-! ## The evaluator computes the meaning of expressions -/

section

variable {table : Option TableInfo} {row : List Value}

/-- A column has the name that speaks of it, without the table. -/
theorem Names.referenced {source : TableInfo} {column : ColumnSchema} {name : Bytes}
    (h : Names source column name) :
    foldIdentifierKey column.name = foldIdentifierKey (referencedColumn name) := by
  cases h with
  | plain undotted same =>
      rw [referencedColumn, findIdx?_undotted undotted]
      exact same
  | @qualified qualifier part _ undotted _ _ same =>
      have hdrop : (qualifier ++ 46 :: part).drop (qualifier.length + 1) = part := by simp
      rw [referencedColumn, findIdx?_dot undotted]
      dsimp only
      rw [hdrop]
      exact same

/-- The column a reference speaks of is the first of its name. -/
theorem Names.findIdx {source : TableInfo} (hv : source.schema.Valid) {column : ColumnSchema}
    {name : Bytes} (h : Names source column name) {i : Nat}
    (hi : source.schema.columns[i]? = some column) :
    (source.schema.columns.findIdx? fun c =>
      foldIdentifierKey c.name = foldIdentifierKey (referencedColumn name)) = some i := by
  obtain ⟨hlt, hget⟩ := List.getElem?_eq_some_iff.mp hi
  refine List.findIdx?_eq_some_iff_getElem.mpr ⟨hlt, ?_, ?_⟩
  · rw [hget]
    exact decide_eq_true h.referenced
  · intro j hj hsame
    -- folded names are distinct
    have hdistinct := List.nodup_iff_pairwise_ne.mp hv.distinct
    rw [List.pairwise_map] at hdistinct
    refine List.pairwise_iff_getElem.mp hdistinct j i (by omega) hlt hj ?_
    rw [hget, h.referenced]
    exact of_decide_eq_true hsame

/-- **AN EXPRESSION EVALUATES TO ITS MEANING**, or fails where it has none.  The
    induction is on the expression. -/
theorem evaluate_meaning (hv : ∀ t, table = some t → t.schema.Valid)
    (hlength : ∀ t, table = some t → row.length = t.schema.columns.length) {e : Expression}
    {bound : BoundExpression} (h : bindExpression table e = .ok bound) :
    okValue (evaluate ⟨some (table.getD {}).schema, some row⟩ bound) = e.meaning table row := by
  induction e generalizing bound with
  | columnRef name =>
      cases table with
      | none => cases h
      | some source =>
          obtain ⟨column, hcolumn, h⟩ := bind_ok_iff.mp h
          cases h
          obtain ⟨hmem, hnames⟩ := (resolveColumn_ok_iff (hv source rfl)).mp hcolumn
          obtain ⟨i, hi⟩ := List.getElem?_of_mem hmem
          obtain ⟨value, hvalue, hevaluate⟩ :=
            evaluate_boundColumn (hv source rfl) (hlength source rfl) hi
          rw [Option.getD_some, hevaluate]
          show some value = (List.findIdx? _ _).bind fun index => row[index]?
          rw [hnames.findIdx (hv source rfl) hi]
          exact hvalue.symm
  | unary op operand ih =>
      obtain ⟨o, ho, h⟩ := bind_ok_iff.mp h
      obtain ⟨type, rfl, -⟩ := bindUnary_ok_iff.mp h
      rw [evaluate, okValue_bind, ih ho, Expression.meaning]
      simp only [okValue_evaluateUnary]
      rfl
  | binary left op right ihl ihr =>
      obtain ⟨l, hl, h⟩ := bind_ok_iff.mp h
      obtain ⟨r, hr, h⟩ := bind_ok_iff.mp h
      obtain ⟨type, rfl, -⟩ := bindBinary_ok_iff.mp h
      rw [evaluate, okValue_evaluateBinary, ihl hl, ihr hr, Expression.meaning]
  | star => cases h
  | _ =>
      cases h
      rfl

/-! ## The executor computes the meaning of queries -/

/-- The bound projections all have a value at the row, and these are the values. -/
def Shows (bounds : List (BoundExpression × Bytes)) (schema : TableSchema)
    (row values : List Value) : Prop :=
  ProjectionsEvaluate (bounds.map (·.1)) schema row
    ∧ values = (bounds.map (·.1)).map (valueAt schema row)

theorem shows_append {front back : List (BoundExpression × Bytes)} {schema : TableSchema}
    {values : List Value} :
    Shows (front ++ back) schema row values
      ↔ ∃ first rest, Shows front schema row first ∧ Shows back schema row rest
        ∧ first ++ rest = values := by
  simp only [Shows, ProjectionsEvaluate, List.map_append, List.forall_mem_append]
  constructor
  · rintro ⟨⟨hfront, hback⟩, rfl⟩
    exact ⟨_, _, ⟨hfront, rfl⟩, ⟨hback, rfl⟩, rfl⟩
  · rintro ⟨first, rest, ⟨hfront, rfl⟩, ⟨hback, rfl⟩, rfl⟩
    exact ⟨⟨hfront, hback⟩, rfl⟩

theorem shows_singleton {bound : BoundExpression} {name : Bytes} {schema : TableSchema}
    {values : List Value} :
    Shows [(bound, name)] schema row values
      ↔ (okValue (evaluate ⟨some schema, some row⟩ bound)).map (fun value => [value])
        = some values := by
  simp only [Shows, ProjectionsEvaluate, List.map_cons, List.map_nil, List.forall_mem_singleton,
    valueAt]
  cases evaluate ⟨some schema, some row⟩ bound with
  | error st => exact iff_of_false (fun h => by obtain ⟨⟨_, ⟨⟩⟩, -⟩ := h) (by rintro ⟨⟩)
  | ok value =>
      refine ⟨fun h => congrArg some h.2.symm, fun h => ⟨⟨value, rfl⟩, ?_⟩⟩
      exact (Option.some.inj h).symm

/-- One projection shows its meaning. -/
theorem SelectProjection.meaning_iff (hv : ∀ t, table = some t → t.schema.Valid)
    (hlength : ∀ t, table = some t → row.length = t.schema.columns.length)
    {projection : SelectProjection} {bounds : List (BoundExpression × Bytes)}
    (h : bindProjection table projection = .ok bounds) {values : List Value} :
    projection.meaning table row = some values
      ↔ Shows bounds (table.getD {}).schema row values := by
  rw [SelectProjection.meaning]
  unfold bindProjection at h
  by_cases hstar : projection.expression = .star
  · rw [if_pos hstar] at h ⊢
    cases table with
    | none => cases h
    | some source =>
        cases h
        have hmap : (source.schema.columns.map fun column =>
            (makeBoundColumn source column, column.name)).map (·.1)
              = source.schema.columns.map (makeBoundColumn source) := by
          rw [List.map_map]
          rfl
        rw [Shows, hmap, Option.getD_some, columns_valueAt (hv source rfl) (hlength source rfl)]
        refine ⟨fun hrow => ⟨?_, (Option.some.inj hrow).symm⟩, fun hshown => by rw [hshown.2]⟩
        intro bound hbound
        obtain ⟨column, hcolumn, rfl⟩ := List.mem_map.mp hbound
        obtain ⟨i, hi⟩ := List.getElem?_of_mem hcolumn
        obtain ⟨value, -, hvalue⟩ := evaluate_boundColumn (hv source rfl) (hlength source rfl) hi
        exact ⟨value, hvalue⟩
  · rw [if_neg hstar] at h ⊢
    obtain ⟨bound, hbound, h⟩ := bind_ok_iff.mp h
    cases h
    rw [shows_singleton, evaluate_meaning hv hlength hbound]

/-- A projection list shows its meaning.  The induction is on the list. -/
theorem projectionsMeaning_iff (hv : ∀ t, table = some t → t.schema.Valid)
    (hlength : ∀ t, table = some t → row.length = t.schema.columns.length)
    {projections : List SelectProjection} {bounds : List (BoundExpression × Bytes)}
    (h : bindProjections table projections = .ok bounds) {values : List Value} :
    projectionsMeaning table row projections = some values
      ↔ Shows bounds (table.getD {}).schema row values := by
  induction projections generalizing bounds values with
  | nil =>
      cases h
      refine ⟨fun hnil => ⟨List.forall_mem_nil _, (Option.some.inj hnil).symm⟩, ?_⟩
      rintro ⟨-, rfl⟩
      rfl
  | cons projection rest ih =>
      obtain ⟨front, hfront, h⟩ := bind_ok_iff.mp h
      obtain ⟨back, hback, h⟩ := bind_ok_iff.mp h
      cases h
      rw [shows_append]
      simp only [← ih hback, ← SelectProjection.meaning_iff hv hlength hfront]
      rw [projectionsMeaning]
      cases projection.meaning table row with
      | none => simp
      | some first => cases projectionsMeaning table row rest <;> simp

/-- One projection is named as it means. -/
theorem SelectProjection.header_eq {projection : SelectProjection}
    {bounds : List (BoundExpression × Bytes)} (h : bindProjection table projection = .ok bounds)
    (index : Nat) :
    projection.header (scopeColumns table) index = namesFrom index bounds := by
  rw [SelectProjection.header]
  by_cases hstar : projection.expression = .star
  · unfold bindProjection at h
    rw [if_pos hstar] at h ⊢
    cases table with
    | none => cases h
    | some source =>
        cases h
        exact (namesFrom_star source source.schema.columns index).symm
  · rw [if_neg hstar]
    rcases bindProjection_names h index with ⟨-, hnames⟩ | ⟨hlost, -⟩
    · exact hnames.symm
    · exact absurd hlost.1 hstar

/-- The header of a projection list is the one the executor shows. -/
theorem headerMeaning_eq {projections : List SelectProjection}
    {bounds : List (BoundExpression × Bytes)}
    (h : bindProjections table projections = .ok bounds) (index : Nat) :
    headerMeaning (scopeColumns table) index projections = namesFrom index bounds := by
  induction projections generalizing bounds index with
  | nil =>
      cases h
      rfl
  | cons projection rest ih =>
      obtain ⟨front, hfront, h⟩ := bind_ok_iff.mp h
      obtain ⟨back, hback, h⟩ := bind_ok_iff.mp h
      cases h
      rw [headerMeaning, projection.header_eq hfront, namesFrom_append, namesFrom_length,
        ih hback]

/-- WHERE decides as it means. -/
theorem whereDecision_eq (hv : ∀ t, table = some t → t.schema.Valid)
    (hlength : ∀ t, table = some t → row.length = t.schema.columns.length)
    {predicate : Option Expression} {p : Option BoundExpression}
    (h : bindPredicate table predicate = .ok p) :
    whereDecision p (table.getD {}).schema row = whereMeaning table predicate row := by
  cases predicate with
  | none =>
      cases h
      rfl
  | some e =>
      obtain ⟨bound, hbound, h⟩ := bind_ok_iff.mp h
      obtain ⟨-, h⟩ := guard_ok_iff.mp h
      cases h
      show decision _ _ _ = (e.meaning table row).bind Value.truth
      rw [← evaluate_meaning hv hlength hbound, decision]
      cases evaluate ⟨some (table.getD {}).schema, some row⟩ bound with
      | error st => rfl
      | ok value => cases value <;> rfl

/-- The first row is dropped, or shown in front of the others. -/
theorem rowsMeaning_cons {projections : List SelectProjection} {predicate : Option Expression}
    {rows out : List (List Value)} :
    rowsMeaning table projections predicate (row :: rows) = some out
      ↔ (whereMeaning table predicate row = some false
          ∧ rowsMeaning table projections predicate rows = some out)
        ∨ (whereMeaning table predicate row = some true
          ∧ ∃ values rest, projectionsMeaning table row projections = some values
            ∧ rowsMeaning table projections predicate rows = some rest ∧ values :: rest = out) := by
  rw [rowsMeaning]
  cases whereMeaning table predicate row with
  | none => simp
  | some keeps =>
      cases keeps with
      | false => cases rowsMeaning table projections predicate rows <;> simp
      | true =>
          cases projectionsMeaning table row projections with
          | none => simp
          | some values => cases rowsMeaning table projections predicate rows <;> simp

theorem selectYields_cons {bounds : List (BoundExpression × Bytes)} {schema : TableSchema}
    {decides : List Value → Option Bool} {rows out : List (List Value)} {names : List Bytes}
    (hnames : names = outputNames (bounds.map (·.1)) (bounds.map (·.2))) :
    SelectYields bounds schema decides (row :: rows) ⟨names, out⟩
      ↔ (decides row = some false ∧ SelectYields bounds schema decides rows ⟨names, out⟩)
        ∨ (decides row = some true
          ∧ ∃ values rest, Shows bounds schema row values
            ∧ SelectYields bounds schema decides rows ⟨names, rest⟩ ∧ values :: rest = out) := by
  subst hnames
  constructor
  · rintro ⟨hdecided, hevaluates, hresult⟩
    obtain ⟨keeps, hkeeps⟩ := hdecided row List.mem_cons_self
    have hdecided' := fun r hr => hdecided r (List.mem_cons_of_mem row hr)
    have hevaluates' := fun r hr => hevaluates r (List.mem_cons_of_mem row hr)
    cases keeps with
    | false =>
        refine .inl ⟨hkeeps, hdecided', hevaluates', ?_⟩
        rwa [List.filter_cons_of_neg (by rw [hkeeps]; decide)] at hresult
    | true =>
        rw [List.filter_cons_of_pos (by rw [hkeeps]; decide), List.map_cons] at hresult
        refine .inr ⟨hkeeps, _, _, ⟨hevaluates row List.mem_cons_self hkeeps, rfl⟩,
          ⟨hdecided', hevaluates', rfl⟩, ?_⟩
        exact ((QueryResult.mk.injEq ..).mp hresult).2.symm
  · rintro (⟨hkeeps, hdecided, hevaluates, hresult⟩
      | ⟨hkeeps, values, rest, ⟨hshown, rfl⟩, ⟨hdecided, hevaluates, hresult⟩, rfl⟩)
    · refine ⟨List.forall_mem_cons.mpr ⟨⟨false, hkeeps⟩, hdecided⟩,
        List.forall_mem_cons.mpr ⟨fun hkeeps' => ?_, hevaluates⟩, ?_⟩
      · rw [hkeeps] at hkeeps'
        cases hkeeps'
      · rwa [List.filter_cons_of_neg (by rw [hkeeps]; decide)]
    · refine ⟨List.forall_mem_cons.mpr ⟨⟨true, hkeeps⟩, hdecided⟩,
        List.forall_mem_cons.mpr ⟨fun _ => hshown, hevaluates⟩, ?_⟩
      rw [List.filter_cons_of_pos (by rw [hkeeps]; decide), List.map_cons,
        ← ((QueryResult.mk.injEq ..).mp hresult).2]

/-- The rows that are shown: every row is decided, and the kept ones are
    projected.  The induction is on the rows. -/
theorem rowsMeaning_iff {projections : List SelectProjection} {predicate : Option Expression}
    {bounds : List (BoundExpression × Bytes)} {schema : TableSchema}
    {decides : List Value → Option Bool} {rows : List (List Value)}
    (hdecides : ∀ row ∈ rows, decides row = whereMeaning table predicate row)
    (hshows : ∀ row ∈ rows, ∀ values,
      projectionsMeaning table row projections = some values ↔ Shows bounds schema row values)
    (out : List (List Value)) :
    rowsMeaning table projections predicate rows = some out
      ↔ SelectYields bounds schema decides rows
          ⟨outputNames (bounds.map (·.1)) (bounds.map (·.2)), out⟩ := by
  induction rows generalizing out with
  | nil =>
      refine ⟨fun h => ⟨List.forall_mem_nil _, List.forall_mem_nil _, ?_⟩, fun h => ?_⟩
      · cases h
        rfl
      · exact congrArg some ((QueryResult.mk.injEq ..).mp h.result).2.symm
  | cons row rows ih =>
      obtain ⟨hrow, hrows⟩ := List.forall_mem_cons.mp hdecides
      obtain ⟨hshow, hrest⟩ := List.forall_mem_cons.mp hshows
      simp only [rowsMeaning_cons, selectYields_cons rfl, hrow, hshow, ih hrows hrest]

end

/-! ## Answers -/

/-- Over what FROM finds, the engine yields the meaning. -/
theorem selectYields_iff_meaning {db : Database} (hdb : db.Consistent) {tableName : Bytes}
    {table : Option TableInfo} {projections : List SelectProjection}
    {predicate : Option Expression} {bounds : List (BoundExpression × Bytes)}
    {p : Option BoundExpression} (hfrom : bindFrom db.catalog.getTable tableName = .ok table)
    (hbounds : bindProjections table projections = .ok bounds)
    (hp : bindPredicate table predicate = .ok p) (result : QueryResult) :
    SelectYields bounds (table.getD {}).schema (whereDecision p (table.getD {}).schema)
        (db.sourceRows (table.getD {})) result
      ↔ selectMeaning table projections predicate (db.sourceRows (table.getD {}))
        = some result := by
  obtain ⟨hsource, hv⟩ := bindFrom_ok hdb hfrom
  have hlength : ∀ row ∈ db.sourceRows (table.getD {}), ∀ t, table = some t →
      row.length = t.schema.columns.length := by
    rintro row hrow t rfl
    exact (hdb.rowFits hsource hrow).length_eq.symm
  obtain ⟨columns, out⟩ := result
  have hrows := rowsMeaning_iff (fun row hrow => whereDecision_eq hv (hlength row hrow) hp)
    (fun row hrow values => projectionsMeaning_iff hv (hlength row hrow) hbounds) out
  rw [selectMeaning, headerMeaning_eq hbounds, ← outputNames_eq]
  constructor
  · intro h
    obtain ⟨rfl, -⟩ := (QueryResult.mk.injEq ..).mp h.result
    rw [hrows.mpr h]
    rfl
  · intro h
    obtain ⟨rows, hmeaning, h⟩ := Option.bind_eq_some_iff.mp h
    cases h
    exact hrows.mp hmeaning

/-- **A SELECT MEANS WHAT IT SAYS**: after any run it changes nothing, and it
    answers exactly when it is well formed and its meaning over the stored rows
    is defined; the answer is that meaning. -/
theorem select_means (texts : List Bytes) {sql : Bytes} {projections : List SelectProjection}
    {tableName : Bytes} {predicate : Option Expression}
    (hparse : parseSql sql = .ok (.select projections tableName predicate)) :
    let db := engineAfter texts
    (execute db sql).2 = db
      ∧ ∀ result, (execute db sql).1 = .ok result
        ↔ ∃ table, Sources db.catalog.getTable tableName table
          ∧ (∀ projection ∈ projections, projection.WellFormed table)
          ∧ (∀ p, predicate = some p → p.HasType table .boolean)
          ∧ selectMeaning table projections predicate (db.sourceRows (table.getD {}))
            = some result := by
  intro db
  have hdb : db.Consistent := engineAfter_consistent texts
  refine ⟨hdb.select_unchanged hparse, fun result => ?_⟩
  rw [execute_select_iff hdb hparse]
  constructor
  · rintro ⟨table, bounds, d, hfrom, hbounds, hd, h⟩
    have hv := (bindFrom_ok hdb hfrom).2
    rcases bindPredicate_condition predicate with ⟨p, hp, hd'⟩ | ⟨-, hnone⟩
    · cases hd.symm.trans hd'
      exact ⟨table, bindFrom_ok_iff.mp hfrom,
        (bindProjections_iff hv projections).mp ⟨bounds, hbounds⟩,
        (bindPredicate_iff hv predicate).mp ⟨p, hp⟩,
        (selectYields_iff_meaning hdb hfrom hbounds hp result).mp h⟩
    · cases hd.symm.trans hnone
  · rintro ⟨table, hsources, hprojected, hfiltered, hmeaning⟩
    have hfrom := bindFrom_ok_iff.mpr hsources
    have hv := (bindFrom_ok hdb hfrom).2
    obtain ⟨bounds, hbounds⟩ := (bindProjections_iff hv projections).mpr hprojected
    obtain ⟨p, hp⟩ := (bindPredicate_iff hv predicate).mpr hfiltered
    rcases bindPredicate_condition predicate with ⟨p', hp', hd⟩ | ⟨⟨st, hst⟩, -⟩
    · cases hp.symm.trans hp'
      exact ⟨table, bounds, _, hfrom, hbounds, hd,
        (selectYields_iff_meaning hdb hfrom hbounds hp result).mpr hmeaning⟩
    · cases hp.symm.trans hst

/-- The row with the NULL is dropped, so its NULL is never added to. -/
theorem select_means_null :
    let texts := [ascii "CREATE TABLE t (a INT, b TEXT)",
      ascii "INSERT INTO t VALUES (7, 'x')", ascii "INSERT INTO t VALUES (NULL, 'y')"]
    let db := engineAfter texts
    let sql := ascii "SELECT *, a + 1 AS n FROM t WHERE 7 = T.A"
    let result : QueryResult :=
      ⟨[ascii "a", ascii "b", ascii "n"], [[.integer 7, .text (ascii "x"), .integer 8]]⟩
    (execute db sql).1 = .ok result ∧ (execute db sql).2 = db
      ∧ ∃ table, Sources db.catalog.getTable (ascii "t") table
        ∧ selectMeaning table
          [⟨.star, []⟩, ⟨.binary (.columnRef (ascii "a")) .add (.integerLiteral 1), ascii "n"⟩]
          (some (.binary (.integerLiteral 7) .equal (.columnRef (ascii "T.A"))))
          (db.sourceRows (table.getD {})) = some result := by
  intro texts db sql result
  obtain ⟨hparse, hreply⟩ : parseSql sql = .ok (.select
        [⟨.star, []⟩, ⟨.binary (.columnRef (ascii "a")) .add (.integerLiteral 1), ascii "n"⟩]
        (ascii "t") (some (.binary (.integerLiteral 7) .equal (.columnRef (ascii "T.A")))))
      ∧ (execute db sql).1 = .ok result := by
    decide +kernel
  obtain ⟨hunchanged, hmeans⟩ := select_means texts hparse
  obtain ⟨table, hsources, -, -, hmeaning⟩ := (hmeans result).mp hreply
  exact ⟨hreply, hunchanged, table, hsources, hmeaning⟩

/-- An integer beyond the largest one is no value. -/
example : (Expression.binary (.integerLiteral Int64.maxValue) .add (.integerLiteral 1)).meaning
    none [] = none := by
  decide

end MattSql
