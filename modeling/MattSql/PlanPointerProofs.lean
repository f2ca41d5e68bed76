import MattSql.ExecutorProofs

/-! # Plan trees as the executor receives them

    `planner/physical_plan.hpp` and `binder/bound_expression.hpp` hold their
    children behind pointers, and the executor checks each of them before it
    follows it.  The plans of the planner have no null pointers and no nodes of
    an unknown kind, and `ExecutorProofs` leaves these out; here they are in,
    so that a plan can be any tree a caller can build.

    `executePlanPtr_toPtr` says that on the planner's plans the two executors
    are the same.  The frame results are about all trees. -/

namespace MattSql

open Fallible

/-- `BoundExpressionPtr`: null, one of the nodes, or a node of no known kind. -/
inductive BoundExpressionPtr where
  | null
  | literal (type : SqlType) (value : Value)
  | column (type : SqlType) (tableId columnId : Nat) (tableName columnName : Bytes)
  | unary (type : SqlType) (op : UnaryOperator) (operand : BoundExpressionPtr)
  | binary (type : SqlType) (left : BoundExpressionPtr) (op : BinaryOperator)
      (right : BoundExpressionPtr)
  | star (type : SqlType)
  | unknown (type : SqlType)
  deriving DecidableEq

/-- `PhysicalPlanPtr`. -/
inductive PhysicalPlanPtr where
  | null
  | seqScan (children : List PhysicalPlanPtr) (table : TableInfo)
      (storage : TableStorageReference)
  | filter (children : List PhysicalPlanPtr) (predicate : BoundExpressionPtr)
  | projection (children : List PhysicalPlanPtr) (projections : List BoundExpressionPtr)
      (projectionNames : List Bytes)
  | values (children : List PhysicalPlanPtr) (rows : List (List BoundExpressionPtr))
  | insert (children : List PhysicalPlanPtr) (table : TableInfo)
      (storage : TableStorageReference)
  | createTable (children : List PhysicalPlanPtr) (request : CreateTableRequest)
      (storageMethod : TableStorageMethod)
  | unknown (children : List PhysicalPlanPtr)

def PhysicalPlanPtr.isNull : PhysicalPlanPtr → Bool
  | .null => true
  | _ => false

/-- `DefaultExpressionEvaluator::Evaluate`; every caller has checked that the
    pointer is not null. -/
def evaluatePtr (context : EvaluationContext) : BoundExpressionPtr → Result Value
  | .null => errorResult .undefined (ascii "*expression")
  | .literal _ value => .ok value
  | .column _ _ columnId _ _ => evaluateColumn context columnId
  | .unary _ op operand =>
    if operand = .null then
      errorResult .executionError (ascii "unary expression is missing its operand")
    else do evaluateUnary op (← evaluatePtr context operand)
  | .binary _ left op right =>
    if left = .null ∨ right = .null then
      errorResult .executionError (ascii "binary expression is missing an operand")
    else evaluateBinary op (evaluatePtr context left) (evaluatePtr context right)
  | .star _ => errorResult .executionError (ascii "unsupported expression")
  | .unknown _ => errorResult .executionError (ascii "unsupported expression")

/-- `EvaluateExpressions`. -/
def evaluateExpressionsPtr (expressions : List BoundExpressionPtr)
    (context : EvaluationContext) : Result (List Value) :=
  expressions.mapM fun expression =>
    if expression = .null then
      errorResult .executionError (ascii "expression cannot be null")
    else evaluatePtr context expression

/-- The name and schema of output column `index` of a projection; a null
    expression fails. -/
def projectionColumnPtr (projectionNames : List Bytes) (index : Nat) :
    BoundExpressionPtr → Result ColumnSchema
  | .null => errorResult .executionError (ascii "projection expression cannot be null")
  | .literal type _ | .unary type _ _ | .binary type _ _ _ | .star type | .unknown type =>
    .ok (column type (ascii "expr" ++ ascii (toString (index + 1))))
  | .column type _ _ _ columnName => .ok (column type columnName)
where
  column (type : SqlType) (default : Bytes) : ColumnSchema :=
    let name := projectionNames.getD index []
    { name := if name ≠ [] then name else default
      type := type
      id := index % 2 ^ 32 }

/-- `execute_projection` past its checks, on the input's result. -/
def executeProjectionPtr (projections : List BoundExpressionPtr) (projectionNames : List Bytes)
    (input : ExecutionResult) : Result ExecutionResult := do
  let columns ← projections.zipIdx.mapM fun (projection, index) =>
    projectionColumnPtr projectionNames index projection
  let rows ← input.rows.mapM fun row =>
    evaluateExpressionsPtr projections ⟨some input.schema, some row⟩
  .ok ⟨columns.map (·.name), ⟨columns⟩, rows⟩

/-- The loop of `execute_filter` over the input rows. -/
def filterRowsPtr (predicate : BoundExpressionPtr) (schema : TableSchema) :
    List (List Value) → Result (List (List Value))
  | [] => .ok []
  | row :: rows => do
    let value ← evaluatePtr ⟨some schema, some row⟩ predicate
    let included ← requireBoolean value (ascii "filter")
    let rest ← filterRowsPtr predicate schema rows
    .ok (if included then row :: rest else rest)

/-- `execute_filter` on the input's result. -/
def executeFilterPtr (predicate : BoundExpressionPtr) (input : ExecutionResult) :
    Result ExecutionResult := do
  let rows ← filterRowsPtr predicate input.schema input.rows
  .ok ⟨input.columns, input.schema, rows⟩

/-- `execute_values` past the check for a leaf. -/
def executeValuesPtr (rows : List (List BoundExpressionPtr)) : Result ExecutionResult := do
  let rows ← rows.mapM fun row => evaluateExpressionsPtr row {}
  .ok { rows := rows }

/-- The other failure of `RequireChildCount` in the executor. -/
def nullInput (operatorName : Bytes) : Result ExecutionResult :=
  errorResult .executionError (operatorName ++ ascii " contains a null input")

/-- `ExecutionDriver::execute_plan`; every caller has checked that the pointer
    is not null. -/
def executePlanPtr (transaction : Transaction) : PhysicalPlanPtr → Database →
    Result ExecutionResult × Database
  | .null, db => (errorResult .undefined (ascii "*plan"), db)
  | .createTable [] request storageMethod, db =>
    executeCreateTable transaction request storageMethod db
  | .createTable (_ :: _) _ _, db => (wrongInputs (ascii "CREATE TABLE"), db)
  | .insert [child] table storage, db =>
    if child.isNull then (nullInput (ascii "INSERT"), db)
    else
      match requireWritable transaction with
      | .error st => (.error st, db)
      | .ok () =>
        if storage.method ≠ .heap then
          (errorResult .notSupported (ascii "only heap table storage is supported"), db)
        else executeInsert table storage (executePlanPtr transaction child db)
  | .insert _ _ _, db => (wrongInputs (ascii "INSERT"), db)
  | .projection [child] projections projectionNames, db =>
    if child.isNull then (nullInput (ascii "projection"), db)
    else if projections = [] then
      (errorResult .executionError (ascii "projection requires expressions"), db)
    else if projectionNames ≠ [] ∧ projectionNames.length ≠ projections.length then
      (errorResult .executionError
        (ascii "projection name count does not match expressions"), db)
    else
      onInput (executeProjectionPtr projections projectionNames)
        (executePlanPtr transaction child db)
  | .projection _ _ _, db => (wrongInputs (ascii "projection"), db)
  | .filter [child] predicate, db =>
    if child.isNull then (nullInput (ascii "filter"), db)
    else if predicate = .null then
      (errorResult .executionError (ascii "filter requires a predicate"), db)
    else onInput (executeFilterPtr predicate) (executePlanPtr transaction child db)
  | .filter _ _, db => (wrongInputs (ascii "filter"), db)
  | .values [] rows, db => (executeValuesPtr rows, db)
  | .values (_ :: _) _, db => (wrongInputs (ascii "VALUES"), db)
  | .seqScan [] table storage, db => (executeSeqScan table storage db.storage, db)
  | .seqScan (_ :: _) _ _, db => (wrongInputs (ascii "SeqScan"), db)
  | .unknown _, db =>
    (errorResult .executionError (ascii "unsupported physical plan node"), db)

/-- `DefaultExecutor::Execute`. -/
def executePhysicalPtr (plan : PhysicalPlanPtr) (transaction : Transaction) (db : Database) :
    Result QueryResult × Database :=
  match requireActive transaction with
  | .error st => (.error st, db)
  | .ok () =>
    ((toQueryResult · ) <$> (executePlanPtr transaction plan db).1,
      (executePlanPtr transaction plan db).2)

/-! ## The planner's plans -/

def BoundExpression.toPtr : BoundExpression → BoundExpressionPtr
  | .literal type value => .literal type value
  | .column type tableId columnId tableName columnName =>
    .column type tableId columnId tableName columnName
  | .unary type op operand => .unary type op operand.toPtr
  | .binary type left op right => .binary type left.toPtr op right.toPtr
  | .star type => .star type

mutual

def PhysicalPlan.toPtr : PhysicalPlan → PhysicalPlanPtr
  | .seqScan children table storage => .seqScan (toPtrs children) table storage
  | .filter children predicate => .filter (toPtrs children) predicate.toPtr
  | .projection children projections projectionNames =>
    .projection (toPtrs children) (projections.map BoundExpression.toPtr) projectionNames
  | .values children rows =>
    .values (toPtrs children) (rows.map (List.map BoundExpression.toPtr))
  | .insert children table storage => .insert (toPtrs children) table storage
  | .createTable children request storageMethod =>
    .createTable (toPtrs children) request storageMethod

def PhysicalPlan.toPtrs : List PhysicalPlan → List PhysicalPlanPtr
  | [] => []
  | plan :: plans => plan.toPtr :: toPtrs plans

end

theorem BoundExpression.toPtr_ne_null (expression : BoundExpression) :
    expression.toPtr ≠ .null := by
  cases expression <;> exact BoundExpressionPtr.noConfusion

theorem PhysicalPlan.toPtr_isNull (plan : PhysicalPlan) : plan.toPtr.isNull = false := by
  cases plan <;> rfl

theorem evaluatePtr_toPtr (context : EvaluationContext) (expression : BoundExpression) :
    evaluatePtr context expression.toPtr = evaluate context expression := by
  induction expression with
  | literal type value => rfl
  | column type tableId columnId tableName columnName => rfl
  | unary type op operand ih =>
      rw [BoundExpression.toPtr, evaluatePtr, if_neg operand.toPtr_ne_null, ih]
      rfl
  | binary type left op right ihl ihr =>
      rw [BoundExpression.toPtr, evaluatePtr,
        if_neg (not_or.mpr ⟨left.toPtr_ne_null, right.toPtr_ne_null⟩), ihl, ihr]
      rfl
  | star type => rfl

theorem evaluateExpressionsPtr_toPtr (expressions : List BoundExpression)
    (context : EvaluationContext) :
    evaluateExpressionsPtr (expressions.map BoundExpression.toPtr) context
      = evaluateExpressions expressions context := by
  rw [evaluateExpressionsPtr, evaluateExpressions]
  induction expressions with
  | nil => rfl
  | cons expression expressions ih =>
      rw [List.map_cons, List.mapM_cons, List.mapM_cons, ih, if_neg expression.toPtr_ne_null,
        evaluatePtr_toPtr]

theorem projectionColumnPtr_toPtr (projectionNames : List Bytes) (index : Nat)
    (projection : BoundExpression) :
    projectionColumnPtr projectionNames index projection.toPtr
      = .ok (projectionColumn projectionNames index projection) := by
  cases projection <;> rfl

private theorem mapM_projectionColumnPtr (projectionNames : List Bytes)
    (projections : List BoundExpression) (start : Nat) :
    (((projections.map BoundExpression.toPtr).zipIdx start).mapM fun (projection, index) =>
        projectionColumnPtr projectionNames index projection)
      = .ok ((projections.zipIdx start).map fun (projection, index) =>
        projectionColumn projectionNames index projection) := by
  induction projections generalizing start with
  | nil => rfl
  | cons projection projections ih =>
      rw [List.map_cons, List.zipIdx_cons, List.mapM_cons, ih]
      dsimp only
      rw [projectionColumnPtr_toPtr]
      rfl

theorem executeProjectionPtr_toPtr (projections : List BoundExpression)
    (projectionNames : List Bytes) (input : ExecutionResult) :
    executeProjectionPtr (projections.map BoundExpression.toPtr) projectionNames input
      = executeProjection projections projectionNames input := by
  rw [executeProjectionPtr, executeProjection, projectRows]
  rw [mapM_projectionColumnPtr, ok_bind]
  simp only [evaluateExpressionsPtr_toPtr]

theorem executeFilterPtr_toPtr (predicate : BoundExpression) (input : ExecutionResult) :
    executeFilterPtr predicate.toPtr input = executeFilter predicate input := by
  have hrows : ∀ rows, filterRowsPtr predicate.toPtr input.schema rows
      = filterRows predicate input.schema rows := by
    intro rows
    induction rows with
    | nil => rfl
    | cons row rows ih => rw [filterRowsPtr, filterRows, evaluatePtr_toPtr, ih]
  rw [executeFilterPtr, executeFilter]
  rw [hrows]

theorem executeValuesPtr_toPtr (rows : List (List BoundExpression)) :
    executeValuesPtr (rows.map (List.map BoundExpression.toPtr)) = executeValues rows := by
  have hrows : ((rows.map (List.map BoundExpression.toPtr)).mapM fun row =>
      evaluateExpressionsPtr row {}) = rows.mapM fun row => evaluateExpressions row {} := by
    induction rows with
    | nil => rfl
    | cons row rows ih =>
        rw [List.map_cons, List.mapM_cons, List.mapM_cons, ih, evaluateExpressionsPtr_toPtr]
  rw [executeValuesPtr, executeValues]
  rw [hrows]

/-- On the planner's plans the pointer checks never fire. -/
theorem executePlanPtr_toPtr (transaction : Transaction) (plan : PhysicalPlan) (db : Database) :
    executePlanPtr transaction plan.toPtr db = executePlan transaction plan db := by
  induction plan, db using executePlan.induct transaction with
  | case1 request storageMethod db => rfl
  | case2 child rest request storageMethod db => rfl
  | case3 child table storage db st hst =>
      rw [PhysicalPlan.toPtr, PhysicalPlan.toPtrs, PhysicalPlan.toPtrs, executePlanPtr,
        executePlan, child.toPtr_isNull, if_neg Bool.false_ne_true, hst]
  | case4 child table storage db hst hmethod => exact absurd (by cases storage.method; rfl) hmethod
  | case5 child table storage db hst hmethod ih =>
      rw [PhysicalPlan.toPtr, PhysicalPlan.toPtrs, PhysicalPlan.toPtrs, executePlanPtr,
        executePlan, child.toPtr_isNull, if_neg Bool.false_ne_true, hst, ih]
  | case6 children table storage db hchildren =>
      rcases children with _ | ⟨child, _ | ⟨child', rest⟩⟩
      · rfl
      · exact absurd rfl (hchildren child)
      · rfl
  | case7 child projectionNames db =>
      rw [PhysicalPlan.toPtr, PhysicalPlan.toPtrs, PhysicalPlan.toPtrs, executePlanPtr,
        executePlan, child.toPtr_isNull, if_neg Bool.false_ne_true, if_pos rfl, if_pos]
      rfl
  | case8 child projections projectionNames db hsome hnames =>
      rw [PhysicalPlan.toPtr, PhysicalPlan.toPtrs, PhysicalPlan.toPtrs, executePlanPtr,
        executePlan, child.toPtr_isNull, if_neg Bool.false_ne_true, if_neg hsome,
        if_pos hnames, if_neg (mt List.map_eq_nil_iff.mp hsome),
        if_pos (by rw [List.length_map]; exact hnames)]
  | case9 child projections projectionNames db hsome hnames ih =>
      rw [PhysicalPlan.toPtr, PhysicalPlan.toPtrs, PhysicalPlan.toPtrs, executePlanPtr,
        executePlan, child.toPtr_isNull, if_neg Bool.false_ne_true, if_neg hsome,
        if_neg hnames, if_neg (mt List.map_eq_nil_iff.mp hsome),
        if_neg (by rw [List.length_map]; exact hnames), ih,
        funext (executeProjectionPtr_toPtr projections projectionNames)]
  | case10 children projections projectionNames db hchildren =>
      rcases children with _ | ⟨child, _ | ⟨child', rest⟩⟩
      · rfl
      · exact absurd rfl (hchildren child)
      · rfl
  | case11 child predicate db ih =>
      rw [PhysicalPlan.toPtr, PhysicalPlan.toPtrs, PhysicalPlan.toPtrs, executePlanPtr,
        executePlan, child.toPtr_isNull, if_neg Bool.false_ne_true,
        if_neg predicate.toPtr_ne_null, ih, funext (executeFilterPtr_toPtr predicate)]
  | case12 children predicate db hchildren =>
      rcases children with _ | ⟨child, _ | ⟨child', rest⟩⟩
      · rfl
      · exact absurd rfl (hchildren child)
      · rfl
  | case13 rows db =>
      rw [PhysicalPlan.toPtr, PhysicalPlan.toPtrs, executePlanPtr, executePlan,
        executeValuesPtr_toPtr]
  | case14 child rest rows db => rfl
  | case15 table storage db => rfl
  | case16 child rest table storage db => rfl

/-- `DefaultExecutor::Execute` on the planner's plans. -/
theorem executePhysicalPtr_toPtr (plan : PhysicalPlan) (transaction : Transaction)
    (db : Database) :
    executePhysicalPtr plan.toPtr transaction db = executePhysical plan transaction db := by
  rw [executePhysicalPtr, executePhysical]
  cases requireActive transaction with
  | error st => rfl
  | ok u =>
      dsimp only
      rw [executePlanPtr_toPtr]

/-! ## What one node does -/

/-- The children of the node, behind their pointers. -/
def PhysicalPlanPtr.children : PhysicalPlanPtr → List PhysicalPlanPtr
  | .null => []
  | .seqScan children _ _ | .filter children _ | .projection children _ _
  | .values children _ | .insert children _ _ | .createTable children _ _
  | .unknown children => children

/-- Induction over plan trees: from the children of a node to the node. -/
theorem PhysicalPlanPtr.children_induction {motive : PhysicalPlanPtr → Prop}
    (hnode : ∀ plan, (∀ child ∈ plan.children, motive child) → motive plan)
    (plan : PhysicalPlanPtr) : motive plan := by
  refine @PhysicalPlanPtr.rec motive (fun children => ∀ child ∈ children, motive child)
    ?_ ?_ ?_ ?_ ?_ ?_ ?_ ?_ ?_ ?_ plan
  · exact hnode .null fun child hchild => absurd hchild List.not_mem_nil
  · exact fun children table storage h => hnode (.seqScan children table storage) h
  · exact fun children predicate h => hnode (.filter children predicate) h
  · exact fun children projections names h => hnode (.projection children projections names) h
  · exact fun children rows h => hnode (.values children rows) h
  · exact fun children table storage h => hnode (.insert children table storage) h
  · exact fun children request method h => hnode (.createTable children request method) h
  · exact fun children h => hnode (.unknown children) h
  · exact fun child hchild => absurd hchild List.not_mem_nil
  · intro child rest hchild hrest other hother
    rcases List.mem_cons.mp hother with rfl | hother
    · exact hchild
    · exact hrest other hother

/-- Insert and CreateTable nodes. -/
def PhysicalPlanPtr.isWriter : PhysicalPlanPtr → Bool
  | .insert _ _ _ | .createTable _ _ _ => true
  | _ => false

/-- The tree has an Insert or a CreateTable node at some depth, below nodes of
    any kind and number of inputs. -/
inductive PhysicalPlanPtr.HasWriter : PhysicalPlanPtr → Prop where
  | here {plan : PhysicalPlanPtr} (hwriter : plan.isWriter = true) : plan.HasWriter
  | inside {plan child : PhysicalPlanPtr} (hchild : child ∈ plan.children)
      (hwriter : child.HasWriter) : plan.HasWriter

/-- Only an active read-write transaction may write. -/
theorem requireWritable_refused {transaction : Transaction}
    (h : transaction.state ≠ .active ∨ transaction.mode = .readOnly) :
    ∃ st, requireWritable transaction = .error st := by
  rw [requireWritable, requireActive]
  by_cases hstate : transaction.state = .active
  · have hmode : transaction.mode ≠ .readWrite := by
      rw [h.resolve_left (not_not.mpr hstate)]
      decide
    rw [if_neg (not_not.mpr hstate), ok_bind, if_pos hmode]
    exact ⟨_, rfl⟩
  · rw [if_pos hstate]
    exact ⟨_, rfl⟩

/-- A writing node checks the transaction before it writes and before it runs
    its input. -/
theorem executePlanPtr_writer {transaction : Transaction}
    (h : transaction.state ≠ .active ∨ transaction.mode = .readOnly) {plan : PhysicalPlanPtr}
    (hwriter : plan.isWriter = true) (db : Database) :
    ∃ st, executePlanPtr transaction plan db = (.error st, db) := by
  obtain ⟨st, hst⟩ := requireWritable_refused h
  cases plan with
  | createTable children request storageMethod =>
      cases children with
      | nil =>
          rw [executePlanPtr, executeCreateTable, hst]
          exact ⟨st, rfl⟩
      | cons child rest => exact ⟨_, rfl⟩
  | insert children table storage =>
      rcases children with _ | ⟨child, _ | ⟨child', rest⟩⟩
      · exact ⟨_, rfl⟩
      · rw [executePlanPtr]
        by_cases hnull : child.isNull = true
        · rw [if_pos hnull]
          exact ⟨_, rfl⟩
        · rw [if_neg hnull, hst]
          exact ⟨st, rfl⟩
      · exact ⟨_, rfl⟩
  | _ => exact absurd hwriter Bool.false_ne_true

/-- What any other node does, in any transaction: it ends without a look at a
    child, with success only when it has none, or it goes through its only
    child. -/
theorem executePlanPtr_reader {plan : PhysicalPlanPtr} (hreader : plan.isWriter = false)
    (db : Database) :
    (∃ result, (∀ transaction, executePlanPtr transaction plan db = (result, db))
      ∧ (plan.children = [] ∨ ∃ st, result = .error st))
    ∨ ∃ child step, plan.children = [child] ∧ ∀ transaction,
      executePlanPtr transaction plan db = onInput step (executePlanPtr transaction child db) := by
  cases plan with
  | null => exact Or.inl ⟨_, fun _ => rfl, Or.inl rfl⟩
  | unknown children => exact Or.inl ⟨_, fun _ => rfl, Or.inr ⟨_, rfl⟩⟩
  | values children rows =>
      cases children with
      | nil => exact Or.inl ⟨_, fun _ => rfl, Or.inl rfl⟩
      | cons child rest => exact Or.inl ⟨_, fun _ => rfl, Or.inr ⟨_, rfl⟩⟩
  | seqScan children table storage =>
      cases children with
      | nil => exact Or.inl ⟨_, fun _ => rfl, Or.inl rfl⟩
      | cons child rest => exact Or.inl ⟨_, fun _ => rfl, Or.inr ⟨_, rfl⟩⟩
  | filter children predicate =>
      rcases children with _ | ⟨child, _ | ⟨child', rest⟩⟩
      · exact Or.inl ⟨_, fun _ => rfl, Or.inr ⟨_, rfl⟩⟩
      · -- the checks before the child is run do not look at the transaction
        by_cases hnull : child.isNull = true
        · refine Or.inl ⟨nullInput (ascii "filter"), fun transaction => ?_, Or.inr ⟨_, rfl⟩⟩
          rw [executePlanPtr, if_pos hnull]
        · by_cases hpredicate : predicate = .null
          · refine Or.inl ⟨errorResult .executionError (ascii "filter requires a predicate"),
              fun transaction => ?_, Or.inr ⟨_, rfl⟩⟩
            rw [executePlanPtr, if_neg hnull, if_pos hpredicate]
          · refine Or.inr ⟨child, executeFilterPtr predicate, rfl, fun transaction => ?_⟩
            rw [executePlanPtr, if_neg hnull, if_neg hpredicate]
      · exact Or.inl ⟨_, fun _ => rfl, Or.inr ⟨_, rfl⟩⟩
  | projection children projections projectionNames =>
      rcases children with _ | ⟨child, _ | ⟨child', rest⟩⟩
      · exact Or.inl ⟨_, fun _ => rfl, Or.inr ⟨_, rfl⟩⟩
      · by_cases hnull : child.isNull = true
        · refine Or.inl ⟨nullInput (ascii "projection"), fun transaction => ?_, Or.inr ⟨_, rfl⟩⟩
          rw [executePlanPtr, if_pos hnull]
        · by_cases hnone : projections = []
          · refine Or.inl ⟨errorResult .executionError (ascii "projection requires expressions"),
              fun transaction => ?_, Or.inr ⟨_, rfl⟩⟩
            rw [executePlanPtr, if_neg hnull, if_pos hnone]
          · by_cases hnames : projectionNames ≠ [] ∧ projectionNames.length ≠ projections.length
            · refine Or.inl ⟨errorResult .executionError
                (ascii "projection name count does not match expressions"),
                fun transaction => ?_, Or.inr ⟨_, rfl⟩⟩
              rw [executePlanPtr, if_neg hnull, if_neg hnone, if_pos hnames]
            · refine Or.inr ⟨child, executeProjectionPtr projections projectionNames, rfl,
                fun transaction => ?_⟩
              rw [executePlanPtr, if_neg hnull, if_neg hnone, if_neg hnames]
      · exact Or.inl ⟨_, fun _ => rfl, Or.inr ⟨_, rfl⟩⟩
  | _ => exact absurd hreader (Bool.false_ne_true ∘ Eq.symm)

/-! ## Whole plans -/

/-- A transaction that may not write leaves the state alone, whatever the plan. -/
theorem executePlanPtr_frame {transaction : Transaction}
    (h : transaction.state ≠ .active ∨ transaction.mode = .readOnly) (plan : PhysicalPlanPtr)
    (db : Database) : (executePlanPtr transaction plan db).2 = db := by
  induction plan using PhysicalPlanPtr.children_induction with
  | hnode plan ih =>
      cases hwriter : plan.isWriter with
      | true =>
          obtain ⟨st, hst⟩ := executePlanPtr_writer h hwriter db
          rw [hst]
      | false =>
          rcases executePlanPtr_reader hwriter db with
            ⟨result, hrun, -⟩ | ⟨child, step, hchildren, hrun⟩
          · rw [hrun]
          · rw [hrun]
            exact ih child (by rw [hchildren]; exact List.mem_cons_self)

/-- A plan that does not write leaves the state alone and cannot tell
    transactions apart. -/
theorem executePlanPtr_of_not_hasWriter (plan : PhysicalPlanPtr) (h : ¬ plan.HasWriter)
    (db : Database) :
    ∃ result, ∀ transaction, executePlanPtr transaction plan db = (result, db) := by
  induction plan using PhysicalPlanPtr.children_induction with
  | hnode plan ih =>
      have hreader : plan.isWriter = false := by
        rw [← Bool.not_eq_true]
        exact fun hwriter => h (.here hwriter)
      rcases executePlanPtr_reader hreader db with
        ⟨result, hrun, -⟩ | ⟨child, step, hchildren, hrun⟩
      · exact ⟨result, hrun⟩
      · have hchild : child ∈ plan.children := by
          rw [hchildren]
          exact List.mem_cons_self
        obtain ⟨result, hresult⟩ := ih child hchild fun hwriter => h (.inside hchild hwriter)
        refine ⟨result >>= step, fun transaction => ?_⟩
        rw [hrun, hresult]
        rfl

/-- A plan with a writing node fails in a transaction that may not write.  A
    successful node has run all its children, so the writing node would have
    run and failed. -/
theorem executePlanPtr_of_hasWriter {transaction : Transaction}
    (h : transaction.state ≠ .active ∨ transaction.mode = .readOnly) {plan : PhysicalPlanPtr}
    (hplan : plan.HasWriter) (db : Database) :
    ∃ st, (executePlanPtr transaction plan db).1 = .error st := by
  induction hplan with
  | @here plan hwriter =>
      obtain ⟨st, hst⟩ := executePlanPtr_writer h hwriter db
      exact ⟨st, by rw [hst]⟩
  | @inside plan child hchild hwriter ih =>
      cases hself : plan.isWriter with
      | true =>
          obtain ⟨st, hst⟩ := executePlanPtr_writer h hself db
          exact ⟨st, by rw [hst]⟩
      | false =>
          rcases executePlanPtr_reader hself db with
            ⟨result, hrun, hleaf | ⟨st, rfl⟩⟩ | ⟨only, step, hchildren, hrun⟩
          · rw [hleaf] at hchild
            exact absurd hchild List.not_mem_nil
          · exact ⟨st, by rw [hrun]⟩
          · rw [hchildren, List.mem_singleton] at hchild
            subst hchild
            obtain ⟨st, hst⟩ := ih
            refine ⟨st, ?_⟩
            rw [hrun]
            show (executePlanPtr transaction child db).1 >>= step = .error st
            rw [hst]
            rfl

/-- **WRITES NEED A READ-WRITE TRANSACTION**: a transaction that is not active,
    or only reads, leaves catalog and heaps as they are; a plan without a
    writing node does so in any transaction, and its result is the same in a
    read-only and in a read-write transaction; and a plan with a writing node
    at any depth never succeeds in a read-only transaction. -/
theorem execute_writes_guarded (plan : PhysicalPlanPtr) (db : Database) :
    (∀ transaction : Transaction,
      transaction.state ≠ .active ∨ transaction.mode = .readOnly →
      (executePhysicalPtr plan transaction db).2 = db)
    ∧ (¬ plan.HasWriter →
      (∀ transaction, (executePhysicalPtr plan transaction db).2 = db)
      ∧ ∀ state, (executePhysicalPtr plan ⟨.readOnly, state⟩ db).1
        = (executePhysicalPtr plan ⟨.readWrite, state⟩ db).1)
    ∧ (plan.HasWriter → ∀ state,
      ∃ st, (executePhysicalPtr plan ⟨.readOnly, state⟩ db).1 = .error st) := by
  -- the state of the transaction is looked at once, before the plan
  have hactive : ∀ transaction : Transaction, transaction.state = .active →
      executePhysicalPtr plan transaction db
        = ((toQueryResult · ) <$> (executePlanPtr transaction plan db).1,
          (executePlanPtr transaction plan db).2) := by
    intro transaction hstate
    rw [executePhysicalPtr, requireActive]
    rw [if_neg (not_not.mpr hstate)]
  have hinactive : ∀ transaction : Transaction, transaction.state ≠ .active →
      executePhysicalPtr plan transaction db
        = (errorResult .transactionConflict (ascii "transaction is not active"), db) := by
    intro transaction hstate
    rw [executePhysicalPtr, requireActive]
    rw [if_pos hstate]
    rfl
  refine ⟨?_, ?_, ?_⟩
  · intro transaction h
    by_cases hstate : transaction.state = .active
    · rw [hactive transaction hstate]
      exact executePlanPtr_frame h plan db
    · rw [hinactive transaction hstate]
  · intro hplan
    obtain ⟨result, hresult⟩ := executePlanPtr_of_not_hasWriter plan hplan db
    constructor
    · intro transaction
      by_cases hstate : transaction.state = .active
      · rw [hactive transaction hstate, hresult]
      · rw [hinactive transaction hstate]
    · intro state
      by_cases hstate : state = .active
      · rw [hactive _ hstate, hactive _ hstate, hresult, hresult]
      · rw [hinactive _ hstate, hinactive _ hstate]
  · intro hplan state
    by_cases hstate : state = .active
    · obtain ⟨st, hst⟩ := executePlanPtr_of_hasWriter
        (Or.inr (rfl : (⟨.readOnly, state⟩ : Transaction).mode = .readOnly)) hplan db
      rw [hactive _ hstate, hst]
      exact ⟨st, rfl⟩
    · rw [hinactive _ hstate]
      exact ⟨_, rfl⟩

/-- An INSERT below a filter and a projection with three inputs. -/
theorem execute_writes_guarded_nested :
    let insert : PhysicalPlanPtr := .insert [.values [] []] {} {}
    let plan : PhysicalPlanPtr :=
      .projection [.null, .filter [insert] .null, .unknown []] [.null] []
    plan.HasWriter ∧ ¬ (PhysicalPlanPtr.filter [.seqScan [] {} {}] .null).HasWriter
    ∧ (executePhysicalPtr plan ⟨.readOnly, .active⟩ {}).2 = {}
    ∧ (executePhysicalPtr (.filter [.seqScan [] {} {}] .null) ⟨.readWrite, .active⟩ {}).2 = {}
    ∧ ∃ st, (executePhysicalPtr plan ⟨.readOnly, .active⟩ {}).1 = .error st := by
  intro insert plan
  have hwriter : plan.HasWriter :=
    .inside (List.mem_cons_of_mem _ List.mem_cons_self)
      (.inside List.mem_cons_self (.here rfl))
  have hreader : ¬ (PhysicalPlanPtr.filter [.seqScan [] {} {}] .null).HasWriter := by
    intro h
    cases h with
    | here h => cases h
    | inside hchild h =>
        cases List.mem_singleton.mp hchild
        cases h with
        | here h => cases h
        | inside hchild h => exact absurd hchild List.not_mem_nil
  exact ⟨hwriter, hreader,
    (execute_writes_guarded plan {}).1 ⟨.readOnly, .active⟩ (Or.inr rfl),
    ((execute_writes_guarded _ {}).2.1 hreader).1 ⟨.readWrite, .active⟩,
    (execute_writes_guarded plan {}).2.2 hwriter .active⟩

end MattSql
