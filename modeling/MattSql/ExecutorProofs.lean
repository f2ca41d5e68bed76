import MattSql.CatalogProofs
import MattSql.OptimizerProofs
import MattSql.TupleCodecProofs

/-! # The executor

    `execution/default_executor.cpp` over the catalog and the table storage,
    passed through as an explicit state. -/

namespace MattSql

open Fallible

inductive TransactionMode where
  | readOnly
  | readWrite
  deriving DecidableEq

inductive TransactionState where
  | active
  | committed
  | rolledBack
  | aborted
  deriving DecidableEq

/-- What the executor asks a `Transaction` for. -/
structure Transaction where
  mode : TransactionMode := .readWrite
  state : TransactionState := .active
  deriving DecidableEq

/-- The state a default engine owns. -/
structure Database where
  catalog : InMemoryCatalog := {}
  storage : InMemoryTableStorageManager := {}

structure QueryResult where
  columns : List Bytes := []
  rows : List (List Value) := []
  deriving DecidableEq

structure ExecutionResult where
  columns : List Bytes := []
  schema : TableSchema := {}
  rows : List (List Value) := []
  deriving DecidableEq

/-- `to_query_result`. -/
def toQueryResult (result : ExecutionResult) : QueryResult := ⟨result.columns, result.rows⟩

/-- `require_active`. -/
def requireActive (transaction : Transaction) : Result Unit :=
  if transaction.state ≠ .active then
    errorResult .transactionConflict (ascii "transaction is not active")
  else .ok ()

/-- `require_writable`. -/
def requireWritable (transaction : Transaction) : Result Unit := do
  requireActive transaction
  if transaction.mode ≠ .readWrite then
    errorResult .transactionConflict (ascii "statement requires a read-write transaction")
  else .ok ()

/-- The failure of `RequireChildCount` in the executor. -/
def wrongInputs (operatorName : Bytes) : Result ExecutionResult :=
  errorResult .executionError (operatorName ++ ascii " has the wrong number of inputs")

/-- `execute_create_table` past the check for a leaf. -/
def executeCreateTable (transaction : Transaction) (request : CreateTableRequest)
    (storageMethod : TableStorageMethod) (db : Database) :
    Result ExecutionResult × Database :=
  match requireWritable transaction with
  | .error st => (.error st, db)
  | .ok () =>
    if storageMethod ≠ .heap then
      (errorResult .notSupported (ascii "only heap table storage is supported"), db)
    else
      match db.catalog.createTable request with
      | (.error st, catalog) => (.error st, { db with catalog := catalog })
      | (.ok table, catalog) =>
        match db.storage.createHeap table with
        | (.error st, storage) =>
          (.error st, ⟨(catalog.dropTable table.name).2, storage⟩)
        | (.ok heapRoot, storage) =>
          match catalog.setTableHeapRoot table.id heapRoot with
          | (.error st, catalog) =>
            (.error st, ⟨(catalog.dropTable table.name).2, storage⟩)
          | (.ok (), catalog) => (.ok {}, ⟨catalog, storage⟩)

/-- The loop of `execute_insert` over the rows, through one heap handle. -/
def insertRows (schema : TableSchema) : List (List Value) → PageHeapTable →
    Result Unit × PageHeapTable
  | [], heap => (.ok (), heap)
  | row :: rows, heap =>
    if row.length ≠ schema.columns.length then
      (errorResult .executionError (ascii "INSERT row width does not match table schema"),
        heap)
    else
      match encode schema row with
      | .error st => (.error st, heap)
      | .ok tuple =>
        match heap.insert tuple with
        | (.error st, heap) => (.error st, heap)
        | (.ok _, heap) => insertRows schema rows heap

/-- `execute_insert` past the check for one input, on the input's result. -/
def executeInsert (table : TableInfo) (storage : TableStorageReference)
    (input : Result ExecutionResult × Database) : Result ExecutionResult × Database :=
  match input with
  | (.error st, db) => (.error st, db)
  | (.ok input, db) =>
    match db.storage.openHeap storage with
    | .error st => (.error st, db)
    | .ok heap =>
      match insertRows table.schema input.rows heap with
      | (.error st, heap) =>
        (.error st, { db with storage := db.storage.storeHeap storage.tableId heap })
      | (.ok (), heap) =>
        (.ok {}, { db with storage := db.storage.storeHeap storage.tableId heap })

/-- The name and schema of output column `index` of a projection. -/
def projectionColumn (projectionNames : List Bytes) (index : Nat)
    (projection : BoundExpression) : ColumnSchema :=
  let name := projectionNames.getD index []
  { name := if name ≠ [] then name else projectionName projection index
    type := projection.type
    id := index % 2 ^ 32 }

/-- The loop of `execute_projection` over the input rows. -/
def projectRows (projections : List BoundExpression) (schema : TableSchema)
    (rows : List (List Value)) : Result (List (List Value)) :=
  rows.mapM fun row => evaluateExpressions projections ⟨some schema, some row⟩

/-- `execute_projection` past its checks, on the input's result. -/
def executeProjection (projections : List BoundExpression) (projectionNames : List Bytes)
    (input : ExecutionResult) : Result ExecutionResult := do
  let columns := projections.zipIdx.map fun (projection, index) =>
    projectionColumn projectionNames index projection
  let rows ← projectRows projections input.schema input.rows
  .ok ⟨columns.map (·.name), ⟨columns⟩, rows⟩

/-- The loop of `execute_filter` over the input rows. -/
def filterRows (predicate : BoundExpression) (schema : TableSchema) :
    List (List Value) → Result (List (List Value))
  | [] => .ok []
  | row :: rows => do
    let value ← evaluate ⟨some schema, some row⟩ predicate
    let included ← requireBoolean value (ascii "filter")
    let rest ← filterRows predicate schema rows
    .ok (if included then row :: rest else rest)

/-- `execute_filter` on the input's result. -/
def executeFilter (predicate : BoundExpression) (input : ExecutionResult) :
    Result ExecutionResult := do
  let rows ← filterRows predicate input.schema input.rows
  .ok ⟨input.columns, input.schema, rows⟩

/-- `execute_values` past the check for a leaf. -/
def executeValues (rows : List (List BoundExpression)) : Result ExecutionResult := do
  let rows ← rows.mapM fun row => evaluateExpressions row {}
  .ok { rows := rows }

/-- `execute_seq_scan` past the check for a leaf. -/
def executeSeqScan (table : TableInfo) (reference : TableStorageReference)
    (storage : InMemoryTableStorageManager) : Result ExecutionResult :=
  if reference.method ≠ .heap then
    errorResult .notSupported (ascii "only heap table storage is supported")
  else do
    let heap ← storage.openHeap reference
    let rows ← heap.scan fun record => decode table.schema record.bytes
    .ok ⟨table.schema.columns.map (·.name), table.schema, rows⟩

/-- A read-only step on the result of the input. -/
def onInput (step : ExecutionResult → Result ExecutionResult)
    (input : Result ExecutionResult × Database) : Result ExecutionResult × Database :=
  (input.1 >>= step, input.2)

/-- `ExecutionDriver::execute_plan`. -/
def executePlan (transaction : Transaction) : PhysicalPlan → Database →
    Result ExecutionResult × Database
  | .createTable [] request storageMethod, db =>
    executeCreateTable transaction request storageMethod db
  | .createTable (_ :: _) _ _, db => (wrongInputs (ascii "CREATE TABLE"), db)
  | .insert [child] table storage, db =>
    match requireWritable transaction with
    | .error st => (.error st, db)
    | .ok () =>
      if storage.method ≠ .heap then
        (errorResult .notSupported (ascii "only heap table storage is supported"), db)
      else executeInsert table storage (executePlan transaction child db)
  | .insert _ _ _, db => (wrongInputs (ascii "INSERT"), db)
  | .projection [child] projections projectionNames, db =>
    if projections = [] then
      (errorResult .executionError (ascii "projection requires expressions"), db)
    else if projectionNames ≠ [] ∧ projectionNames.length ≠ projections.length then
      (errorResult .executionError
        (ascii "projection name count does not match expressions"), db)
    else
      onInput (executeProjection projections projectionNames)
        (executePlan transaction child db)
  | .projection _ _ _, db => (wrongInputs (ascii "projection"), db)
  | .filter [child] predicate, db =>
    onInput (executeFilter predicate) (executePlan transaction child db)
  | .filter _ _, db => (wrongInputs (ascii "filter"), db)
  | .values [] rows, db => (executeValues rows, db)
  | .values (_ :: _) _, db => (wrongInputs (ascii "VALUES"), db)
  | .seqScan [] table storage, db => (executeSeqScan table storage db.storage, db)
  | .seqScan (_ :: _) _ _, db => (wrongInputs (ascii "SeqScan"), db)

/-- `DefaultExecutor::Execute`. -/
def executePhysical (plan : PhysicalPlan) (transaction : Transaction) (db : Database) :
    Result QueryResult × Database :=
  match requireActive transaction with
  | .error st => (.error st, db)
  | .ok () =>
    ((toQueryResult · ) <$> (executePlan transaction plan db).1,
      (executePlan transaction plan db).2)

/-! ## Running the plans of bound statements -/

/-- What a SELECT ranges over: the table's rows, or one empty row. -/
def sourceResult (table : TableInfo) (storage : InMemoryTableStorageManager) :
    Result ExecutionResult :=
  if table.name ≠ [] then executeSeqScan table (makeTableStorageReference table) storage
  else .ok { rows := [[]] }

/-- What is left of it under the predicate. -/
def inputResult (table : TableInfo) (storage : InMemoryTableStorageManager) :
    Option BoundExpression → Result ExecutionResult
  | none => sourceResult table storage
  | some predicate => sourceResult table storage >>= executeFilter predicate

section

variable (transaction : Transaction) (table : TableInfo) (db : Database)

theorem executePlan_source :
    executePlan transaction (physicalSource table) db = (sourceResult table db.storage, db) := by
  rw [physicalSource, sourceResult]
  by_cases hname : table.name = []
  · rw [if_neg (not_not.mpr hname), if_neg (not_not.mpr hname), executePlan]
    rfl
  · rw [if_pos hname, if_pos hname, executePlan]

theorem executePlan_input (predicate : Option BoundExpression) :
    executePlan transaction (physicalInput table predicate) db
      = (inputResult table db.storage predicate, db) := by
  cases predicate with
  | none => exact executePlan_source transaction table db
  | some p =>
      rw [physicalInput, executePlan, executePlan_source]
      rfl

theorem executePlan_projection {child : PhysicalPlan} {projections : List BoundExpression}
    {projectionNames : List Bytes} (hne : projections ≠ [])
    (hlen : projectionNames.length = projections.length) :
    executePlan transaction (.projection [child] projections projectionNames) db
      = onInput (executeProjection projections projectionNames)
          (executePlan transaction child db) := by
  rw [executePlan, if_neg hne, if_neg fun h => h.2 hlen]

end

/-! Folded expressions run as the expressions they come from. -/

theorem evaluateExpressions_folded {es es' : List BoundExpression}
    (h : List.Forall₂ FoldsTo es es') (context : EvaluationContext) :
    evaluateExpressions es' context = evaluateExpressions es context := by
  unfold evaluateExpressions
  induction h with
  | nil => rfl
  | cons hto _ ih => rw [List.mapM_cons, List.mapM_cons, hto.evaluate_eq, ih]

/-- The output columns depend on names and types alone. -/
private theorem projectionColumns_folded {es es' : List BoundExpression}
    {columns : List ColumnSchema} (h : List.Forall₂ FoldsTo es es')
    (hw : ∀ e ∈ es, e.WellTyped columns) (names : List Bytes) (start : Nat) :
    ((es'.zipIdx start).map fun entry => projectionColumn names entry.2 entry.1)
      = (es.zipIdx start).map fun entry => projectionColumn names entry.2 entry.1 := by
  induction h generalizing start with
  | nil => rfl
  | @cons e e' es es' hto _ ih =>
      rw [List.zipIdx_cons, List.zipIdx_cons, List.map_cons, List.map_cons,
        ih (fun a ha => hw a (List.mem_cons_of_mem e ha)) (start + 1)]
      unfold projectionColumn
      dsimp only
      rw [hto.name_eq, hto.type_eq columns (hw e List.mem_cons_self)]

theorem executeProjection_folded {es es' : List BoundExpression} {columns : List ColumnSchema}
    (h : List.Forall₂ FoldsTo es es') (hw : ∀ e ∈ es, e.WellTyped columns)
    (names : List Bytes) (input : ExecutionResult) :
    executeProjection es' names input = executeProjection es names input := by
  unfold executeProjection projectRows
  rw [projectionColumns_folded h hw names 0]
  simp only [evaluateExpressions_folded h]

theorem filterRows_folded {p p' : BoundExpression} (h : FoldsTo p p') (schema : TableSchema)
    (rows : List (List Value)) : filterRows p' schema rows = filterRows p schema rows := by
  induction rows with
  | nil => rfl
  | cons row rows ih => rw [filterRows, filterRows, h.evaluate_eq, ih]

/-- A predicate that is the same literal everywhere keeps all rows or none. -/
theorem filterRows_constant {p : BoundExpression} {type : SqlType} {b : Bool}
    (h : FoldsTo p (.literal type (.boolean b))) (schema : TableSchema)
    (rows : List (List Value)) :
    filterRows p schema rows = .ok (if b then rows else []) := by
  induction rows with
  | nil =>
      cases b <;> rfl
  | cons row rows ih =>
      rw [filterRows, ← h.evaluate_eq, ih]
      cases b <;> rfl

/-- The optimized input of a SELECT is planned, and under any projection it
    runs as the input it comes from, when the source can be read. -/
theorem OptimizedInput.run {table : TableInfo} {predicate : Option BoundExpression}
    {input : LogicalPlan} (h : OptimizedInput table predicate input)
    {columns : List ColumnSchema}
    (hw : ∀ p, predicate = some p → p.WellTyped columns ∧ p.type = .boolean)
    {db : Database} {source : ExecutionResult}
    (hsource : sourceResult table db.storage = .ok source) :
    ∃ planned, planNode input = .ok planned ∧ ∀ transaction projections projectionNames,
      onInput (executeProjection projections projectionNames)
          (executePlan transaction planned db)
        = onInput (executeProjection projections projectionNames)
            (inputResult table db.storage predicate, db) := by
  cases h with
  | source =>
      refine ⟨_, planNode_source table, fun transaction projections projectionNames => ?_⟩
      rw [executePlan_source]
      rfl
  | @filter p p' hto =>
      obtain ⟨hp, htype⟩ := hw p rfl
      refine ⟨_, planNode_filter (planNode_source table) hto.starFree
        ((hto.type_eq columns hp).trans htype), fun transaction projections projectionNames => ?_⟩
      rw [executePlan, executePlan_source]
      show onInput _ (sourceResult table db.storage >>= executeFilter p', db) = _
      rw [inputResult, hsource, ok_bind, ok_bind, executeFilter, filterRows_folded hto]
      rfl
  | @always p type hto =>
      refine ⟨_, planNode_source table, fun transaction projections projectionNames => ?_⟩
      -- the filter was removed: a predicate that is always TRUE keeps every row
      rw [executePlan_source, inputResult, hsource, ok_bind, executeFilter,
        filterRows_constant hto]
      rfl
  | @never p type hto =>
      refine ⟨.values [] [], rfl, fun transaction projections projectionNames => ?_⟩
      rw [inputResult, hsource, ok_bind, executeFilter, filterRows_constant hto]
      rfl

/-! ## What a filter and a projection yield -/

/-- The predicate holds of the row. -/
def Satisfies (predicate : BoundExpression) (schema : TableSchema) (row : List Value) : Prop :=
  evaluate ⟨some schema, some row⟩ predicate = .ok (.boolean true)

instance (predicate : BoundExpression) (schema : TableSchema) :
    DecidablePred (Satisfies predicate schema) := fun _ =>
  inferInstanceAs (Decidable (_ = _))

/-- The predicate is TRUE or FALSE at the row. -/
def Decides (predicate : BoundExpression) (schema : TableSchema) (row : List Value) : Prop :=
  ∃ b, evaluate ⟨some schema, some row⟩ predicate = .ok (.boolean b)

instance (predicate : BoundExpression) (schema : TableSchema) :
    DecidablePred (Decides predicate schema) := fun _ =>
  inferInstanceAs (Decidable (∃ _b : Bool, _ = _))

private theorem requireBoolean_ok_iff {v : Value} {context : Bytes} {b : Bool} :
    requireBoolean v context = .ok b ↔ v = .boolean b := by
  cases v with
  | boolean c => simp [requireBoolean]
  | _ => exact ⟨nofun, nofun⟩

/-- **FILTER**: the rows that satisfy the predicate are kept, in order, when
    every row decides it; otherwise the filter fails. -/
theorem filterRows_ok_iff {predicate : BoundExpression} {schema : TableSchema}
    {rows kept : List (List Value)} :
    filterRows predicate schema rows = .ok kept
      ↔ (∀ row ∈ rows, Decides predicate schema row)
        ∧ kept = rows.filter (Satisfies predicate schema ·) := by
  induction rows generalizing kept with
  | nil =>
      constructor
      · intro h
        cases h
        exact ⟨nofun, rfl⟩
      · rintro ⟨-, rfl⟩
        rfl
  | cons row rows ih =>
      -- the row is kept exactly when the predicate comes to TRUE
      have hkept : ∀ b, evaluate ⟨some schema, some row⟩ predicate = .ok (.boolean b) →
          ((row :: rows).filter (Satisfies predicate schema ·))
            = if b then row :: rows.filter (Satisfies predicate schema ·)
              else rows.filter (Satisfies predicate schema ·) := by
        intro b hb
        have hsat : Satisfies predicate schema row ↔ b = true := by
          rw [Satisfies]
          rw [hb]
          constructor
          · intro h
            cases h
            rfl
          · rintro rfl
            rfl
        rw [List.filter_cons]
        simp only [decide_eq_true_iff, hsat]
      rw [filterRows, bind_ok_iff]
      constructor
      · rintro ⟨v, hv, h⟩
        obtain ⟨b, hb, h⟩ := bind_ok_iff.mp h
        obtain ⟨rest, hrest, h⟩ := bind_ok_iff.mp h
        rw [requireBoolean_ok_iff.mp hb] at hv
        obtain ⟨hall, rfl⟩ := ih.mp hrest
        cases h
        refine ⟨?_, (hkept b hv).symm⟩
        intro row' hrow'
        rcases List.mem_cons.mp hrow' with rfl | hrow'
        · exact ⟨b, hv⟩
        · exact hall row' hrow'
      · rintro ⟨hall, rfl⟩
        obtain ⟨b, hb⟩ := hall row List.mem_cons_self
        refine ⟨_, hb, bind_ok_iff.mpr ⟨b, rfl, bind_ok_iff.mpr
          ⟨_, ih.mpr ⟨fun r hr => hall r (List.mem_cons_of_mem row hr), rfl⟩, ?_⟩⟩⟩
        rw [hkept b hb]

/-- A filter fails with what its predicate comes to at some row. -/
theorem filterRows_error {predicate : BoundExpression} {schema : TableSchema}
    {rows : List (List Value)} {st : Status}
    (h : filterRows predicate schema rows = .error st) :
    ∃ row ∈ rows, (evaluate ⟨some schema, some row⟩ predicate >>= fun value =>
      requireBoolean value (ascii "filter")) = .error st := by
  induction rows with
  | nil => exact nomatch h
  | cons row rows ih =>
      rw [filterRows] at h
      rcases bind_error_iff.mp h with hv | ⟨v, hv, h⟩
      · exact ⟨row, List.mem_cons_self, bind_error_iff.mpr (Or.inl hv)⟩
      · rcases bind_error_iff.mp h with hb | ⟨b, -, h⟩
        · exact ⟨row, List.mem_cons_self, bind_error_iff.mpr (Or.inr ⟨v, hv, hb⟩)⟩
        · rcases bind_error_iff.mp h with hrest | ⟨rest, -, h⟩
          · obtain ⟨row', hrow', h⟩ := ih hrest
            exact ⟨row', List.mem_cons_of_mem row hrow', h⟩
          · exact nomatch h

/-- A projection fails with a failure of one of its expressions at some row. -/
theorem projectRows_error {projections : List BoundExpression} {schema : TableSchema}
    {rows : List (List Value)} {st : Status}
    (h : projectRows projections schema rows = .error st) :
    ∃ row ∈ rows, ∃ e ∈ projections, evaluate ⟨some schema, some row⟩ e = .error st := by
  obtain ⟨row, hrow, h⟩ := mapM_error h
  obtain ⟨e, he, h⟩ := mapM_error h
  exact ⟨row, hrow, e, he, h⟩

end MattSql
