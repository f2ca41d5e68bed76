import MattSql.ParserProofs
import MattSql.SchemaProofs

/-! # Bound expressions

    `binder/bound_expression.hpp` and `binder/expression_utils.cpp`: expression
    trees with resolved columns and result types, and the walks over them that
    the planners and the optimizer share.

    Child pointers are never null here: a node without its child cannot be
    built. -/

namespace MattSql

open Fallible

/-- `BoundExpression`; each node carries its `type` field. -/
inductive BoundExpression where
  | literal (type : SqlType) (value : Value)
  | column (type : SqlType) (tableId columnId : Nat) (tableName columnName : Bytes)
  | unary (type : SqlType) (op : UnaryOperator) (operand : BoundExpression)
  | binary (type : SqlType) (left : BoundExpression) (op : BinaryOperator)
      (right : BoundExpression)
  | star (type : SqlType)
  deriving DecidableEq

def BoundExpression.type : BoundExpression → SqlType
  | .literal type _ => type
  | .column type _ _ _ _ => type
  | .unary type _ _ => type
  | .binary type _ _ _ => type
  | .star type => type

/-- `MakeBoundLiteral` with a type. -/
def makeTypedLiteral (value : Value) (type : SqlType) : BoundExpression :=
  .literal type value

/-- `MakeBoundLiteral` with the value's own type. -/
def makeBoundLiteral (value : Value) : BoundExpression :=
  makeTypedLiteral value (valueTypeOf value)

/-- `MakeBoundColumn`. -/
def makeBoundColumn (table : TableInfo) (column : ColumnSchema) : BoundExpression :=
  .column column.type table.id column.id table.name column.name

/-- `BoundLiteralValue`. -/
def boundLiteralValue : BoundExpression → Option Value
  | .literal _ value => some value
  | _ => none

/-- `CloneBoundExpression`. -/
def cloneBoundExpression : BoundExpression → Result BoundExpression
  | .literal type value => .ok (makeTypedLiteral value type)
  | .column type tableId columnId tableName columnName =>
    .ok (.column type tableId columnId tableName columnName)
  | .unary type op operand => do
    let operand ← cloneBoundExpression operand
    .ok (.unary type op operand)
  | .binary type left op right => do
    let left ← cloneBoundExpression left
    let right ← cloneBoundExpression right
    .ok (.binary type left op right)
  | .star _ =>
    errorResult .planError (ascii "star expressions must be expanded before planning")

/-- `CloneBoundExpressions`. -/
def cloneBoundExpressions (expressions : List BoundExpression) :
    Result (List BoundExpression) :=
  expressions.mapM cloneBoundExpression

/-- `CloneBoundExpressionRows`. -/
def cloneBoundExpressionRows (rows : List (List BoundExpression)) :
    Result (List (List BoundExpression)) :=
  rows.mapM cloneBoundExpressions

/-- `WalkBoundExpression`: the visitor sees a node before its children. -/
def walkBoundExpression (visitor : BoundExpression → Result Unit) :
    BoundExpression → Result Unit
  | .unary type op operand => do
    visitor (.unary type op operand)
    walkBoundExpression visitor operand
  | .binary type left op right => do
    visitor (.binary type left op right)
    walkBoundExpression visitor left
    walkBoundExpression visitor right
  | expression => visitor expression

/-- `TransformBoundExpression`: children first, then the node. -/
def transformBoundExpression (transform : BoundExpression → Result BoundExpression) :
    BoundExpression → Result BoundExpression
  | .star _ =>
    errorResult .planError
      (ascii "star expressions must be expanded before expression transforms")
  | .unary type op operand => do
    let operand ← transformBoundExpression transform operand
    transform (.unary type op operand)
  | .binary type left op right => do
    let left ← transformBoundExpression transform left
    let right ← transformBoundExpression transform right
    transform (.binary type left op right)
  | expression => transform expression

/-- The visitor of `ValidateNoColumnReferences`. -/
def rejectColumn : BoundExpression → Result Unit
  | .column .. =>
    errorResult .planError
      (ascii "column expression requires a table-producing input plan")
  | .star _ =>
    errorResult .planError (ascii "star expressions must be expanded before planning")
  | _ => .ok ()

/-- `ValidateNoColumnReferences` for one expression. -/
def validateNoColumnReferences (expression : BoundExpression) : Result Unit :=
  walkBoundExpression rejectColumn expression

/-- `ValidateNoColumnReferences` for a list of expressions. -/
def validateAllNoColumnReferences (expressions : List BoundExpression) : Result Unit :=
  expressions.forM validateNoColumnReferences

/-! ## The walks on the binder's output -/

/-- No star node occurs. -/
def BoundExpression.StarFree : BoundExpression → Prop
  | .literal _ _ => True
  | .column _ _ _ _ _ => True
  | .unary _ _ operand => operand.StarFree
  | .binary _ left _ right => left.StarFree ∧ right.StarFree
  | .star _ => False

/-- Neither a star nor a column occurs. -/
def BoundExpression.ColumnFree : BoundExpression → Prop
  | .literal _ _ => True
  | .column _ _ _ _ _ => False
  | .unary _ _ operand => operand.ColumnFree
  | .binary _ left _ right => left.ColumnFree ∧ right.ColumnFree
  | .star _ => False

/-- Cloning copies. -/
theorem cloneBoundExpression_eq {e : BoundExpression} (h : e.StarFree) :
    cloneBoundExpression e = .ok e := by
  induction e with
  | literal type value => rfl
  | column type tableId columnId tableName columnName => rfl
  | unary type op operand ih =>
      rw [cloneBoundExpression, ih h]
      rfl
  | binary type left op right ihl ihr =>
      rw [cloneBoundExpression, ihl h.1, ihr h.2]
      rfl
  | star type => exact absurd h id

theorem cloneBoundExpressions_eq {es : List BoundExpression} (h : ∀ e ∈ es, e.StarFree) :
    cloneBoundExpressions es = .ok es :=
  mapM_eq_self fun e he => cloneBoundExpression_eq (h e he)

theorem cloneBoundExpressionRows_eq {rows : List (List BoundExpression)}
    (h : ∀ row ∈ rows, ∀ e ∈ row, e.StarFree) : cloneBoundExpressionRows rows = .ok rows :=
  mapM_eq_self fun row hrow => cloneBoundExpressions_eq (h row hrow)

/-- Expressions without columns pass the planner's check. -/
theorem validateNoColumnReferences_ok {e : BoundExpression} (h : e.ColumnFree) :
    validateNoColumnReferences e = .ok () := by
  rw [validateNoColumnReferences]
  induction e with
  | literal type value => rfl
  | column type tableId columnId tableName columnName => exact absurd h id
  | unary type op operand ih => exact ih h
  | binary type left op right ihl ihr =>
      show (walkBoundExpression rejectColumn left >>= fun _ =>
        walkBoundExpression rejectColumn right) = _
      rw [ihl h.1]
      exact ihr h.2
  | star type => exact absurd h id

theorem validateAllNoColumnReferences_ok {es : List BoundExpression}
    (h : ∀ e ∈ es, e.ColumnFree) : validateAllNoColumnReferences es = .ok () := by
  rw [validateAllNoColumnReferences]
  induction es with
  | nil => rfl
  | cons e es ih =>
      show (validateNoColumnReferences e >>= fun _ =>
        es.forM validateNoColumnReferences) = _
      rw [validateNoColumnReferences_ok (h e List.mem_cons_self)]
      exact ih fun a ha => h a (List.mem_cons_of_mem e ha)

end MattSql
