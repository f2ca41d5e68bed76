import MattSql.BinderProofs
import MattSql.TableStorageProofs

/-! # Logical and physical planning

    `planner/default_logical_planner.cpp` and
    `planner/default_physical_planner.cpp`.  Plan nodes keep their children in
    a list, as the source's vectors do, so the checks on the number of inputs
    are real checks.  Child pointers are never null. -/

namespace MattSql

open Fallible

inductive LogicalPlan where
  | seqScan (children : List LogicalPlan) (table : TableInfo)
  | filter (children : List LogicalPlan) (predicate : BoundExpression)
  | projection (children : List LogicalPlan) (projections : List BoundExpression)
      (projectionNames : List Bytes)
  | values (children : List LogicalPlan) (rows : List (List BoundExpression))
  | insert (children : List LogicalPlan) (table : TableInfo)
  | createTable (children : List LogicalPlan) (request : CreateTableRequest)

inductive PhysicalPlan where
  | seqScan (children : List PhysicalPlan) (table : TableInfo)
      (storage : TableStorageReference)
  | filter (children : List PhysicalPlan) (predicate : BoundExpression)
  | projection (children : List PhysicalPlan) (projections : List BoundExpression)
      (projectionNames : List Bytes)
  | values (children : List PhysicalPlan) (rows : List (List BoundExpression))
  | insert (children : List PhysicalPlan) (table : TableInfo)
      (storage : TableStorageReference)
  | createTable (children : List PhysicalPlan) (request : CreateTableRequest)
      (storageMethod : TableStorageMethod)

/-- `RequireChildCount`. -/
def requireChildCount {α : Type} (children : List α) (expected : Nat)
    (operatorName : Bytes) (code : ErrorCode) : Result Unit :=
  if children.length ≠ expected then
    errorResult code (operatorName ++ ascii " has the wrong number of inputs")
  else .ok ()

/-- `RequireLeaf`. -/
def requireLeaf {α : Type} (children : List α) (operatorName : Bytes) (code : ErrorCode) :
    Result Unit :=
  requireChildCount children 0 operatorName code

/-! ## The logical planner -/

/-- `make_seq_scan_plan`. -/
def makeSeqScanPlan (table : TableInfo) : LogicalPlan := .seqScan [] table

/-- `make_filter_plan`. -/
def makeFilterPlan (predicate : BoundExpression) (child : LogicalPlan) :
    Result LogicalPlan :=
  if predicate.type ≠ .boolean then
    errorResult .typeMismatch (ascii "filter predicate must be BOOLEAN")
  else .ok (.filter [child] predicate)

/-- The check on the predicate of a SELECT without a table. -/
def validatePredicate : Option BoundExpression → Result Unit
  | none => .ok ()
  | some predicate => validateNoColumnReferences predicate

/-- The source of `plan_select`: a scan, or one empty row. -/
def planSource (projections : List BoundExpression) (table : TableInfo)
    (predicate : Option BoundExpression) : Result LogicalPlan :=
  if table.name ≠ [] then .ok (makeSeqScanPlan table)
  else do
    validateAllNoColumnReferences projections
    validatePredicate predicate
    .ok (.values [] [[]])

/-- The filter of `plan_select` over its source. -/
def planFilter (predicate : Option BoundExpression) (source : LogicalPlan) :
    Result LogicalPlan :=
  match predicate with
  | none => .ok source
  | some predicate => do
    let predicate ← cloneBoundExpression predicate
    makeFilterPlan predicate source

/-- `plan_select`. -/
def planSelect (projections : List BoundExpression) (projectionNames : List Bytes)
    (table : TableInfo) (predicate : Option BoundExpression) : Result LogicalPlan :=
  if projections = [] then
    errorResult .planError (ascii "SELECT requires at least one projection")
  else if projectionNames ≠ [] ∧ projectionNames.length ≠ projections.length then
    errorResult .planError (ascii "projection name count does not match expressions")
  else do
    let source ← planSource projections table predicate
    let source ← planFilter predicate source
    let projections ← cloneBoundExpressions projections
    .ok (.projection [source] projections projectionNames)

/-- `plan_insert`. -/
def planInsert (table : TableInfo) (values : List BoundExpression) : Result LogicalPlan :=
  if table.name = [] then errorResult .planError (ascii "INSERT requires a target table")
  else if values.length ≠ table.schema.columns.length then
    errorResult .planError (ascii "INSERT value count does not match table schema")
  else do
    validateAllNoColumnReferences values
    let row ← cloneBoundExpressions values
    .ok (.insert [.values [] [row]] table)

/-- `plan_create_table`. -/
def planCreateTable (request : CreateTableRequest) : Result LogicalPlan :=
  if request.name = [] then
    errorResult .planError (ascii "CREATE TABLE requires a table name")
  else if request.schema.columns = [] then
    errorResult .planError (ascii "CREATE TABLE requires at least one column")
  else .ok (.createTable [] request)

/-- `DefaultLogicalPlanner::Plan`. -/
def planLogical : BoundStatement → Result LogicalPlan
  | .select projections projectionNames table predicate =>
    planSelect projections projectionNames table predicate
  | .insert table values => planInsert table values
  | .createTable request => planCreateTable request

/-! ## The physical planner -/

/-- `make_table_storage_reference`. -/
def makeTableStorageReference (table : TableInfo) : TableStorageReference :=
  { method := .heap
    tableId := table.id
    tableName := table.name
    rootPageId := table.heapRootPageId
    schema := table.schema }

mutual

/-- `plan_node` with the planners of the six node kinds. -/
def planNode : LogicalPlan → Result PhysicalPlan
  | .createTable children request => do
    requireLeaf children (ascii "CREATE TABLE") .planError
    if request.name = [] then
      errorResult .planError (ascii "CREATE TABLE requires a table name")
    else if request.schema.columns = [] then
      errorResult .planError (ascii "CREATE TABLE requires at least one column")
    else .ok (.createTable [] request .heap)
  | .insert children table => do
    requireChildCount children 1 (ascii "Insert") .planError
    if table.name = [] then errorResult .planError (ascii "INSERT requires a target table")
    else
      let children ← planChildren children
      .ok (.insert children table (makeTableStorageReference table))
  | .projection children projections projectionNames => do
    requireChildCount children 1 (ascii "Projection") .planError
    if projections = [] then
      errorResult .planError (ascii "projection requires expressions")
    else if projectionNames ≠ [] ∧ projectionNames.length ≠ projections.length then
      errorResult .planError (ascii "projection name count does not match expressions")
    else
      let children ← planChildren children
      let projections ← cloneBoundExpressions projections
      .ok (.projection children projections projectionNames)
  | .filter children predicate => do
    requireChildCount children 1 (ascii "Filter") .planError
    if predicate.type ≠ .boolean then
      errorResult .typeMismatch (ascii "filter predicate must be BOOLEAN")
    else
      let children ← planChildren children
      let predicate ← cloneBoundExpression predicate
      .ok (.filter children predicate)
  | .values children rows => do
    requireLeaf children (ascii "VALUES") .planError
    let rows ← cloneBoundExpressionRows rows
    .ok (.values [] rows)
  | .seqScan children table => do
    requireLeaf children (ascii "SeqScan") .planError
    if table.name = [] then errorResult .planError (ascii "SeqScan requires a table")
    else .ok (.seqScan [] table (makeTableStorageReference table))

/-- `plan_children`. -/
def planChildren : List LogicalPlan → Result (List PhysicalPlan)
  | [] => .ok []
  | child :: children => do
    let planned ← planNode child
    let rest ← planChildren children
    .ok (planned :: rest)

end

/-- `DefaultPhysicalPlanner::Plan`. -/
def planPhysical (plan : LogicalPlan) : Result PhysicalPlan := planNode plan

/-! ## The plans of bound statements -/

/-- The source of a SELECT: a scan of the named table, or one empty row. -/
def logicalSource (table : TableInfo) : LogicalPlan :=
  if table.name ≠ [] then .seqScan [] table else .values [] [[]]

/-- The source under the predicate, if there is one. -/
def logicalInput (table : TableInfo) : Option BoundExpression → LogicalPlan
  | none => logicalSource table
  | some predicate => .filter [logicalSource table] predicate

def physicalSource (table : TableInfo) : PhysicalPlan :=
  if table.name ≠ [] then .seqScan [] table (makeTableStorageReference table)
  else .values [] [[]]

def physicalInput (table : TableInfo) : Option BoundExpression → PhysicalPlan
  | none => physicalSource table
  | some predicate => .filter [physicalSource table] predicate

section

variable {projections : List BoundExpression} {projectionNames : List Bytes}
  {table : TableInfo} {predicate : Option BoundExpression}

/-- A SELECT without a table has no columns in scope. -/
def NamedOrEmpty (table : TableInfo) : Prop :=
  table.name = [] → table.schema.columns = []

theorem planSource_ok (h : SelectBound projections projectionNames table predicate)
    (ht : NamedOrEmpty table) :
    planSource projections table predicate = .ok (logicalSource table) := by
  rw [planSource, logicalSource]
  by_cases hname : table.name = []
  · rw [if_neg (not_not.mpr hname), if_neg (not_not.mpr hname)]
    have hcols := ht hname
    have hps : ∀ e ∈ projections, e.ColumnFree := fun e he =>
      BoundExpression.WellTyped.columnFree (hcols ▸ h.projections_typed e he)
    have hpred : validatePredicate predicate = .ok () := by
      cases predicate with
      | none => rfl
      | some p =>
          exact validateNoColumnReferences_ok
            (BoundExpression.WellTyped.columnFree (hcols ▸ (h.predicate_typed p rfl).1))
    rw [validateAllNoColumnReferences_ok hps, ok_bind, hpred]
    rfl
  · rw [if_pos hname, if_pos hname]
    rfl

theorem planFilter_ok (h : SelectBound projections projectionNames table predicate) :
    planFilter predicate (logicalSource table) = .ok (logicalInput table predicate) := by
  cases predicate with
  | none => rfl
  | some p =>
      obtain ⟨hw, htype⟩ := h.predicate_typed p rfl
      unfold planFilter
      dsimp only
      rw [cloneBoundExpression_eq hw.starFree, ok_bind, makeFilterPlan,
        if_neg (not_not.mpr htype)]
      rfl

/-- A bound SELECT is planned. -/
theorem planSelect_ok (h : SelectBound projections projectionNames table predicate)
    (ht : NamedOrEmpty table) :
    planSelect projections projectionNames table predicate
      = .ok (.projection [logicalInput table predicate] projections projectionNames) := by
  rw [planSelect]
  rw [if_neg h.nonempty, if_neg (fun hne => hne.2 h.names_length), planSource_ok h ht, ok_bind,
    planFilter_ok h, ok_bind,
    cloneBoundExpressions_eq fun e he => (h.projections_typed e he).starFree]
  rfl

end

/-! Physical planning of the node kinds that occur. -/

theorem planNode_source (table : TableInfo) :
    planNode (logicalSource table) = .ok (physicalSource table) := by
  rw [logicalSource, physicalSource]
  by_cases hname : table.name = []
  · rw [if_neg (not_not.mpr hname), if_neg (not_not.mpr hname)]
    rfl
  · rw [if_pos hname, if_pos hname, planNode]
    show (if table.name = [] then _ else _) = _
    rw [if_neg hname]

theorem planNode_filter {child : LogicalPlan} {planned : PhysicalPlan}
    {predicate : BoundExpression} (hchild : planNode child = .ok planned)
    (hfree : predicate.StarFree) (htype : predicate.type = .boolean) :
    planNode (.filter [child] predicate) = .ok (.filter [planned] predicate) := by
  have hchildren : planChildren [child] = .ok [planned] := by
    rw [planChildren, hchild]
    rfl
  rw [planNode]
  show (if predicate.type ≠ .boolean then _ else _) = _
  rw [if_neg (not_not.mpr htype), hchildren, ok_bind, cloneBoundExpression_eq hfree]
  rfl

theorem planNode_projection {child : LogicalPlan} {planned : PhysicalPlan}
    {projections : List BoundExpression} {projectionNames : List Bytes}
    (hchild : planNode child = .ok planned) (hne : projections ≠ [])
    (hlen : projectionNames.length = projections.length)
    (hfree : ∀ e ∈ projections, e.StarFree) :
    planNode (.projection [child] projections projectionNames)
      = .ok (.projection [planned] projections projectionNames) := by
  have hchildren : planChildren [child] = .ok [planned] := by
    rw [planChildren, hchild]
    rfl
  rw [planNode]
  show (if projections = [] then _ else if _ then _ else _) = _
  rw [if_neg hne, if_neg (fun h => h.2 hlen), hchildren, ok_bind,
    cloneBoundExpressions_eq hfree]
  rfl

theorem planNode_input (table : TableInfo) {predicate : Option BoundExpression}
    (h : ∀ p, predicate = some p → p.StarFree ∧ p.type = .boolean) :
    planNode (logicalInput table predicate) = .ok (physicalInput table predicate) := by
  cases predicate with
  | none => exact planNode_source table
  | some p => exact planNode_filter (planNode_source table) (h p rfl).1 (h p rfl).2

/-- A bound INSERT is planned. -/
theorem planInsert_ok {table : TableInfo} {values : List BoundExpression}
    (hname : table.name ≠ []) (h : List.Forall₂ ValueBound table.schema.columns values) :
    planInsert table values = .ok (.insert [.values [] [values]] table) := by
  have htyped : ∀ e ∈ values, e.WellTyped [] := by
    intro e he
    obtain ⟨c, -, hc⟩ := forall₂_exists_left h e he
    exact hc.1
  rw [planInsert]
  rw [if_neg hname, if_neg (not_not.mpr h.length_eq.symm),
    validateAllNoColumnReferences_ok fun e he => (htyped e he).columnFree, ok_bind,
    cloneBoundExpressions_eq fun e he => (htyped e he).starFree]
  rfl

theorem planNode_insert {table : TableInfo} {values : List BoundExpression}
    (hname : table.name ≠ []) (hfree : ∀ e ∈ values, e.StarFree) :
    planNode (.insert [.values [] [values]] table)
      = .ok (.insert [.values [] [values]] table (makeTableStorageReference table)) := by
  have hrows : cloneBoundExpressionRows [values] = .ok [values] :=
    cloneBoundExpressionRows_eq fun row hrow => by
      rw [List.mem_singleton.mp hrow]
      exact hfree
  have hchildren : planChildren [.values [] [values]] = .ok [.values [] [values]] := by
    rw [planChildren, planNode]
    show ((cloneBoundExpressionRows [values] >>= _) >>= _) = _
    rw [hrows]
    rfl
  rw [planNode]
  show (if table.name = [] then _ else _) = _
  rw [if_neg hname, hchildren]
  rfl

end MattSql
