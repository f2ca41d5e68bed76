import MattSql.ExecutorProofs
import MattSql.Library.RunProofs

/-! # The engine

    `sql_engine.cpp`: one SQL text goes through the lexer, the parser, the
    binder, the two planners, the optimizer and the executor, over the catalog
    and the storage the engine owns.

    `Database.Consistent` is what ties the catalog to the storage in every
    reachable state: each table's heap is there under its id and its root, well
    formed, and its records decode under the table's schema.  `BoundIn` says
    what the binder leaves of a statement in such a state.  The three
    statements are then run once each (`runBound_select`, `runBound_insert`,
    `runBound_createTable`), and what holds of every run is read off these. -/

namespace MattSql

open Fallible

/-- The part of `Execute` past the binder. -/
def runBound (transaction : Transaction) (bound : BoundStatement) (db : Database) :
    Result QueryResult × Database :=
  match planLogical bound with
  | .error st => (.error st, db)
  | .ok logical =>
    match optimize logical with
    | .error st => (.error st, db)
    | .ok optimized =>
      match planPhysical optimized with
      | .error st => (.error st, db)
      | .ok physical => executePhysical physical transaction db

/-- `DefaultSqlEngine::Execute` in a transaction. -/
def executeIn (transaction : Transaction) (db : Database) (sql : Bytes) :
    Result QueryResult × Database :=
  match parseSql sql with
  | .error st => (.error st, db)
  | .ok statement =>
    match bind db.catalog.getTable statement with
    | .error st => (.error st, db)
    | .ok bound => runBound transaction bound db

/-- `DefaultSqlEngine::Execute`, in its own `DefaultStatementTransaction`. -/
def execute (db : Database) (sql : Bytes) : Result QueryResult × Database :=
  executeIn {} db sql

/-- A text that parses and binds runs as its bound statement. -/
theorem execute_eq_runBound {db : Database} {sql : Bytes} {statement : Statement}
    (hparse : parseSql sql = .ok statement) {bound : BoundStatement}
    (hbind : bind db.catalog.getTable statement = .ok bound) :
    execute db sql = runBound {} bound db := by
  rw [execute, executeIn]
  rw [hparse]
  dsimp only
  rw [hbind]

/-- The state of a fresh engine after the listed texts. -/
def engineAfter (texts : List Bytes) : Database := Run.final execute {} texts

/-! ## Consistent databases -/

/-- A table of the catalog with its heap: the table is found by its id, the
    heap by the table's id and root, and every record is a row of the table. -/
structure Database.Stores (db : Database) (key : Bytes) (table : TableInfo)
    (data : InMemoryTableData) : Prop where
  key_eq : key = foldIdentifierKey table.name
  named : table.name ≠ []
  valid : table.schema.Valid
  by_id : db.catalog.tableNamesById.lookup table.id = some key
  heap_found : db.storage.tables.lookup table.id = some data
  root_eq : table.heapRootPageId = data.rootPageId
  root_lt : data.heap.rootPageId < db.storage.nextRootPageId
  wellFormed : data.heap.WellFormed
  page_size : data.heap.pageSize = kDefaultPageSize
  decodes : ∀ record ∈ data.heap.records, ∃ row, decode table.schema record.bytes = .ok row

/-- An id belongs to one name. -/
theorem Database.Stores.key_inj {db : Database} {key key' : Bytes} {table table' : TableInfo}
    {data data' : InMemoryTableData} (h : db.Stores key table data)
    (h' : db.Stores key' table' data') (hid : table'.id = table.id) : key' = key := by
  have hby := h'.by_id
  rw [hid, h.by_id] at hby
  exact (Option.some.inj hby).symm

/-- Catalog and storage agree.  The two id counters go together until the root
    ids are used up. -/
structure Database.Consistent (db : Database) : Prop where
  tables : ∀ key table, db.catalog.tablesByName.lookup key = some table →
    ∃ data, db.Stores key table data
  names : ∀ id key, db.catalog.tableNamesById.lookup id = some key →
    ∃ table, db.catalog.tablesByName.lookup key = some table ∧ table.id = id
  heaps : ∀ id, id ∈ db.storage.tables → id ∈ db.catalog.tableNamesById
  roots : db.storage.nextRootPageId = db.storage.tables.keys.card + 1
  roots_le : db.storage.nextRootPageId ≤ kInvalidPageId
  ids : db.storage.nextRootPageId < kInvalidPageId →
    db.catalog.nextTableId = db.storage.nextRootPageId
    ∧ ∀ id, id ∈ db.catalog.tableNamesById → id < db.storage.nextRootPageId

theorem Database.consistent_empty : Database.Consistent {} := by
  refine ⟨?_, ?_, ?_, rfl, by decide, fun _ => ⟨rfl, ?_⟩⟩
  · intro key table h
    rw [show ({} : Database).catalog.tablesByName = ∅ from rfl, Finmap.lookup_empty] at h
    exact nomatch h
  · intro id key h
    rw [show ({} : Database).catalog.tableNamesById = ∅ from rfl, Finmap.lookup_empty] at h
    exact nomatch h
  · intro id h
    exact absurd h Finmap.notMem_empty
  · intro id h
    exact absurd h Finmap.notMem_empty

/-- The rows of a heap, in scan order. -/
def heapRows (schema : TableSchema) (heap : PageHeapTable) : List (List Value) :=
  heap.records.filterMap fun record => okValue (decode schema record.bytes)

/-- A traversal of decodable records yields the rows. -/
theorem mapM_decode {schema : TableSchema} {records : List RecordView}
    (h : ∀ record ∈ records, ∃ row, decode schema record.bytes = .ok row) :
    (records.mapM fun record => decode schema record.bytes)
      = .ok (records.filterMap fun record => okValue (decode schema record.bytes)) := by
  induction records with
  | nil => rfl
  | cons record records ih =>
      obtain ⟨row, hrow⟩ := h record List.mem_cons_self
      rw [List.mapM_cons, hrow, ih fun r hr => h r (List.mem_cons_of_mem record hr),
        List.filterMap_cons, hrow]
      rfl

section

variable {db : Database} {key : Bytes} {table : TableInfo} {data : InMemoryTableData}

theorem Database.Stores.openHeap (h : db.Stores key table data) :
    db.storage.openHeap (makeTableStorageReference table) = .ok data.heap :=
  InMemoryTableStorageManager.openHeap_ok h.heap_found h.root_eq

/-- A scan of a stored table reads all its rows. -/
theorem Database.Stores.sourceResult (h : db.Stores key table data) :
    sourceResult table db.storage
      = .ok ⟨table.schema.columns.map (·.name), table.schema,
          heapRows table.schema data.heap⟩ := by
  rw [MattSql.sourceResult, executeSeqScan]
  rw [if_pos h.named, if_neg (not_not.mpr rfl), h.openHeap, ok_bind,
    h.wellFormed.toSound.scan_eq, mapM_decode h.decodes]
  rfl

/-- Stored rows fit the schema. -/
theorem Database.Stores.rowFits (h : db.Stores key table data) {row : List Value}
    (hrow : row ∈ heapRows table.schema data.heap) : RowFits table.schema row := by
  obtain ⟨record, -, hdec⟩ := List.mem_filterMap.mp hrow
  obtain ⟨hfits, -⟩ := (decode_ok_iff h.valid.storable _ _).mp (okValue_eq_some_iff.mp hdec)
  refine hfits.imp ?_
  intro c v hcv
  cases v with
  | null => exact Or.inl rfl
  | integer i => exact Or.inr hcv.symm
  | boolean b => exact Or.inr hcv.symm
  | text s => exact Or.inr hcv.1.symm

end

/-! ## What the binder leaves of a statement -/

/-- The table of a bound SELECT: none, or one of the catalog. -/
def Database.From (db : Database) (table : TableInfo) : Prop :=
  table = {} ∨ ∃ key, db.catalog.tablesByName.lookup key = some table

/-- The bound statements of a consistent database. -/
inductive BoundIn (db : Database) : BoundStatement → Prop
  | select {projections : List BoundExpression} {projectionNames : List Bytes}
      {table : TableInfo} {predicate : Option BoundExpression}
      (bound : SelectBound projections projectionNames table predicate)
      (source : db.From table) :
      BoundIn db (.select projections projectionNames table predicate)
  | insert {key : Bytes} {table : TableInfo} {values : List BoundExpression}
      (found : db.catalog.tablesByName.lookup key = some table)
      (bound : List.Forall₂ ValueBound table.schema.columns values) :
      BoundIn db (.insert table values)
  | createTable {request : CreateTableRequest} (named : request.name ≠ [])
      (nonempty : request.schema.columns ≠ [])
      (new : foldIdentifierKey request.name ∉ db.catalog.tablesByName)
      (valid : validateColumns 0 [] request.schema.columns = .ok request.schema.columns) :
      BoundIn db (.createTable request)

/-- The columns the binder numbers pass the catalog's validation as they are. -/
theorem bindColumnDefinitions_valid {index : Nat} {names : List Bytes}
    {definitions : List ColumnDefinition} {columns : List ColumnSchema}
    (h : bindColumnDefinitions index names definitions = .ok columns) :
    validateColumns index names columns = .ok columns := by
  induction definitions generalizing index names columns with
  | nil =>
      cases h
      rfl
  | cons definition rest ih =>
      obtain ⟨hindex, h⟩ := guard_ok_iff.mp h
      obtain ⟨hname, h⟩ := guard_ok_iff.mp h
      obtain ⟨hnew, h⟩ := guard_ok_iff.mp h
      obtain ⟨cs, hrest, h⟩ := bind_ok_iff.mp h
      cases h
      have htype : toSqlType definition.type ≠ .null := by
        cases definition.type <;> exact nofun
      refine guard_ok_iff.mpr ⟨hindex, bind_ok_iff.mpr ⟨(), ?_, ?_⟩⟩
      · exact guard_ok_iff.mpr ⟨hname, guard_ok_iff.mpr ⟨htype, rfl⟩⟩
      · exact guard_ok_iff.mpr ⟨hnew, bind_ok_iff.mpr ⟨cs, ih hrest, rfl⟩⟩

theorem bindColumnDefinitions_ne_nil {index : Nat} {names : List Bytes}
    {definitions : List ColumnDefinition} {columns : List ColumnSchema}
    (h : bindColumnDefinitions index names definitions = .ok columns)
    (hne : definitions ≠ []) : columns ≠ [] := by
  cases definitions with
  | nil => exact absurd rfl hne
  | cons definition rest =>
      obtain ⟨-, h⟩ := guard_ok_iff.mp h
      obtain ⟨-, h⟩ := guard_ok_iff.mp h
      obtain ⟨-, h⟩ := guard_ok_iff.mp h
      obtain ⟨cs, -, h⟩ := bind_ok_iff.mp h
      cases h
      exact List.cons_ne_nil _ _

theorem bindCreateTable_ok {db : Database} {tableName : Bytes}
    {definitions : List ColumnDefinition} {b : BoundStatement}
    (h : bindCreateTable db.catalog.getTable tableName definitions = .ok b) : BoundIn db b := by
  obtain ⟨hname, hne, ⟨st, hget⟩, columns, hcolumns, rfl⟩ := bindCreateTable_bound h
  refine .createTable hname (bindColumnDefinitions_ne_nil hcolumns hne) ?_
    (bindColumnDefinitions_valid hcolumns)
  intro hmem
  obtain ⟨table, hfound⟩ := Finmap.mem_iff.mp hmem
  rw [InMemoryCatalog.getTable_eq_ok.mpr hfound] at hget
  cases hget

/-- **WHAT IS BOUND**: a text that parses and binds leaves a statement the later
    stages can rely on. -/
theorem Database.Consistent.boundIn {db : Database} (hdb : db.Consistent) {sql : Bytes}
    {statement : Statement} (hparse : parseSql sql = .ok statement) {bound : BoundStatement}
    (hbind : bind db.catalog.getTable statement = .ok bound) : BoundIn db bound := by
  cases statement with
  | select projections tableName predicate =>
      have hvalid : ∀ name t, db.catalog.getTable name = .ok t → t.schema.Valid := by
        intro name t ht
        obtain ⟨data, hstores⟩ := hdb.tables _ t (InMemoryCatalog.getTable_eq_ok.mp ht)
        exact hstores.valid
      obtain ⟨ps, names, table, p, rfl, hb, hfrom⟩ :=
        bindSelect_ok hvalid (parseSql_select_ne_nil hparse) hbind
      refine .select hb (hfrom.imp (·.2) fun h => ?_)
      exact ⟨_, InMemoryCatalog.getTable_eq_ok.mp h.2⟩
  | insert tableName values =>
      obtain ⟨table, values', rfl, htable, hvalues⟩ := bindInsert_ok hbind
      exact .insert (InMemoryCatalog.getTable_eq_ok.mp htable) hvalues
  | createTable tableName columns => exact bindCreateTable_ok hbind

/-! ## The plans of bound statements -/

/-- The physical plan of a bound statement as the logical planner leaves it. -/
def plainPlan : BoundStatement → PhysicalPlan
  | .select projections projectionNames table predicate =>
    .projection [physicalInput table predicate] projections projectionNames
  | .insert table values =>
    .insert [.values [] [values]] table (makeTableStorageReference table)
  | .createTable request => .createTable [] request .heap

/-- The rows a SELECT over the table ranges over. -/
def Database.sourceRows (db : Database) (table : TableInfo) : List (List Value) :=
  if table.name = [] then [[]]
  else
    match db.storage.tables.lookup table.id with
    | some data => heapRows table.schema data.heap
    | none => []

section

variable {db : Database} {table : TableInfo}

theorem Database.Stores.sourceRows {key : Bytes} {data : InMemoryTableData}
    (h : db.Stores key table data) :
    db.sourceRows table = heapRows table.schema data.heap := by
  rw [Database.sourceRows]
  rw [if_neg h.named, h.heap_found]

/-- The source of a SELECT can be read, and its rows fit. -/
theorem Database.Consistent.sourceResult (hdb : db.Consistent) (h : db.From table) :
    sourceResult table db.storage
      = .ok ⟨table.schema.columns.map (·.name), table.schema, db.sourceRows table⟩ := by
  rcases h with rfl | ⟨key, hfound⟩
  · rfl
  · obtain ⟨data, hstores⟩ := hdb.tables key table hfound
    rw [hstores.sourceResult, hstores.sourceRows]

theorem Database.Consistent.rowFits (hdb : db.Consistent) (h : db.From table)
    {row : List Value} (hrow : row ∈ db.sourceRows table) : RowFits table.schema row := by
  rcases h with rfl | ⟨key, hfound⟩
  · rw [List.mem_singleton.mp (show row ∈ [[]] from hrow)]
    exact .nil
  · obtain ⟨data, hstores⟩ := hdb.tables key table hfound
    rw [hstores.sourceRows] at hrow
    exact hstores.rowFits hrow

theorem Database.Consistent.namedOrEmpty (hdb : db.Consistent) (h : db.From table) :
    NamedOrEmpty table := by
  rcases h with rfl | ⟨key, hfound⟩
  · exact fun _ => rfl
  · obtain ⟨data, hstores⟩ := hdb.tables key table hfound
    exact fun hname => absurd hname hstores.named

end

/-- Two physical plans that run alike in every transaction. -/
def RunAlike (db : Database) (plan plan' : PhysicalPlan) : Prop :=
  ∀ transaction, executePlan transaction plan' db = executePlan transaction plan db

theorem RunAlike.executePhysical_eq {db : Database} {plan plan' : PhysicalPlan}
    (h : RunAlike db plan plan') (transaction : Transaction) :
    executePhysical plan' transaction db = executePhysical plan transaction db := by
  unfold executePhysical
  rw [h transaction]

/-- The stages after the binder on one statement: all of them succeed, and the
    optimized plan runs as the plain one does. -/
structure Staged (db : Database) (bound : BoundStatement) (logical optimized : LogicalPlan)
    (physical : PhysicalPlan) : Prop where
  planned : planLogical bound = .ok logical
  optimizes : optimize logical = .ok optimized
  plain : planPhysical logical = .ok (plainPlan bound)
  replanned : planPhysical optimized = .ok physical
  alike : RunAlike db (plainPlan bound) physical

/-- A SELECT through all stages. -/
theorem SelectBound.staged {db : Database} {projections : List BoundExpression}
    {projectionNames : List Bytes} {table : TableInfo} {predicate : Option BoundExpression}
    (h : SelectBound projections projectionNames table predicate)
    (hnamed : NamedOrEmpty table) {source : ExecutionResult}
    (hsource : sourceResult table db.storage = .ok source) :
    ∃ input planned projections',
      Staged db (.select projections projectionNames table predicate)
        (.projection [logicalInput table predicate] projections projectionNames)
        (.projection [input] projections' projectionNames)
        (.projection [planned] projections' projectionNames)
      ∧ OptimizedInput table predicate input ∧ planNode input = .ok planned := by
  obtain ⟨input, projections', hopt, hinput, hto⟩ := optimize_select h
  obtain ⟨planned, hplanned, hrun⟩ := hinput.run h.predicate_typed hsource
  -- the optimizer folds each projection on its own, so their number stays
  have hlen : projectionNames.length = projections'.length :=
    h.names_length.trans hto.length_eq
  have hne : projections' ≠ [] := by
    intro hnil
    rw [hnil, List.forall₂_nil_right_iff] at hto
    exact h.nonempty hto
  have hfree : ∀ e ∈ projections', e.StarFree := by
    intro e he
    obtain ⟨e₀, -, he₀⟩ := forall₂_exists_left hto e he
    exact he₀.starFree
  refine ⟨input, planned, projections', ⟨planSelect_ok h hnamed, hopt, ?_, ?_, ?_⟩, hinput,
    hplanned⟩
  · refine planNode_projection (planNode_input table ?_) h.nonempty h.names_length
      fun e he => (h.projections_typed e he).starFree
    exact fun p hp => (h.predicate_typed p hp).imp_left BoundExpression.WellTyped.starFree
  · exact planNode_projection hplanned hne hlen hfree
  · intro transaction
    rw [plainPlan, executePlan_projection transaction db hne hlen,
      executePlan_projection transaction db h.nonempty h.names_length, hrun, executePlan_input]
    unfold onInput
    cases hres : inputResult table db.storage predicate with
    | error st => rfl
    | ok rows =>
        rw [ok_bind, ok_bind, executeProjection_folded hto h.projections_typed]

/-- An INSERT through all stages. -/
theorem insert_staged (db : Database) {table : TableInfo} {values : List BoundExpression}
    (hname : table.name ≠ []) (h : List.Forall₂ ValueBound table.schema.columns values) :
    ∃ values', Staged db (.insert table values) (.insert [.values [] [values]] table)
      (.insert [.values [] [values']] table)
      (.insert [.values [] [values']] table (makeTableStorageReference table)) := by
  have hfree : ∀ e ∈ values, e.StarFree := by
    intro e he
    obtain ⟨c, -, hc⟩ := forall₂_exists_left h e he
    exact hc.1.starFree
  obtain ⟨values', hopt, hto⟩ := optimize_insert hfree
  refine ⟨values', planInsert_ok hname h, hopt, planNode_insert hname hfree, ?_, ?_⟩
  · refine planNode_insert hname fun e he => ?_
    obtain ⟨e₀, -, he₀⟩ := forall₂_exists_left hto e he
    exact he₀.starFree
  · intro transaction
    have hvalues : executeValues [values'] = executeValues [values] := by
      unfold executeValues
      rw [List.mapM_cons, List.mapM_cons, evaluateExpressions_folded hto]
    simp only [plainPlan, executePlan, hvalues]

/-- A CREATE TABLE through all stages. -/
theorem createTable_staged (db : Database) {request : CreateTableRequest}
    (hname : request.name ≠ []) (hne : request.schema.columns ≠ []) :
    Staged db (.createTable request) (.createTable [] request) (.createTable [] request)
      (.createTable [] request .heap) := by
  have hplan : planNode (.createTable [] request) = .ok (.createTable [] request .heap) := by
    rw [planNode]
    show (if request.name = [] then _ else if request.schema.columns = [] then _ else _) = _
    rw [if_neg hname, if_neg hne]
  refine ⟨?_, optimize_createTable request, hplan, hplan, fun _ => rfl⟩
  rw [planLogical, planCreateTable, if_neg hname, if_neg hne]

/-- **NO STAGE FAILS**: what binds in a consistent database is planned,
    optimized and planned again, and the optimizer does not change what it
    does. -/
theorem BoundIn.staged {db : Database} (hdb : db.Consistent) {bound : BoundStatement}
    (h : BoundIn db bound) : ∃ logical optimized physical,
      Staged db bound logical optimized physical := by
  cases h with
  | select hb hfrom =>
      obtain ⟨_, _, _, hstaged, -, -⟩ :=
        hb.staged (hdb.namedOrEmpty hfrom) (hdb.sourceResult hfrom)
      exact ⟨_, _, _, hstaged⟩
  | insert hfound hb =>
      obtain ⟨data, hstores⟩ := hdb.tables _ _ hfound
      obtain ⟨_, hstaged⟩ := insert_staged db hstores.named hb
      exact ⟨_, _, _, hstaged⟩
  | createTable hname hne hnew hvalid => exact ⟨_, _, _, createTable_staged db hname hne⟩

/-- Past the binder a statement runs as its plain plan does. -/
theorem BoundIn.runBound_eq {db : Database} (hdb : db.Consistent) {bound : BoundStatement}
    (h : BoundIn db bound) (transaction : Transaction) :
    runBound transaction bound db = executePhysical (plainPlan bound) transaction db := by
  obtain ⟨logical, optimized, physical, hs⟩ := h.staged hdb
  rw [runBound]
  rw [hs.planned]
  dsimp only
  rw [hs.optimizes]
  dsimp only
  rw [hs.replanned]
  exact hs.alike.executePhysical_eq transaction

/-! ## Running a SELECT -/

/-- The rows of a SELECT that its predicate keeps. -/
def keptRows (predicate : Option BoundExpression) (schema : TableSchema)
    (rows : List (List Value)) : Result (List (List Value)) :=
  match predicate with
  | none => .ok rows
  | some predicate => filterRows predicate schema rows

/-- The column names of a SELECT's result. -/
def outputNames (projections : List BoundExpression) (projectionNames : List Bytes) :
    List Bytes :=
  projections.zipIdx.map fun (projection, index) =>
    (projectionColumn projectionNames index projection).name

/-- The reply to a SELECT over the given rows. -/
def selectReply (projections : List BoundExpression) (projectionNames : List Bytes)
    (schema : TableSchema) (predicate : Option BoundExpression) (rows : List (List Value)) :
    Result QueryResult := do
  let kept ← keptRows predicate schema rows
  let output ← projectRows projections schema kept
  .ok ⟨outputNames projections projectionNames, output⟩

/-- **SELECT**: the reply depends on the stored rows alone, and the database
    stays as it is. -/
theorem SelectBound.run {db : Database} (hdb : db.Consistent)
    {projections : List BoundExpression} {projectionNames : List Bytes} {table : TableInfo}
    {predicate : Option BoundExpression}
    (h : SelectBound projections projectionNames table predicate) (hfrom : db.From table) :
    runBound {} (.select projections projectionNames table predicate) db
      = (selectReply projections projectionNames table.schema predicate (db.sourceRows table),
          db) := by
  rw [BoundIn.runBound_eq hdb (.select h hfrom)]
  have hplan : executePlan {} (plainPlan (.select projections projectionNames table predicate))
      db = (inputResult table db.storage predicate >>=
        executeProjection projections projectionNames, db) := by
    rw [plainPlan, executePlan_projection {} db h.nonempty h.names_length, executePlan_input]
    rfl
  show (toQueryResult <$> (executePlan {} _ db).1, (executePlan {} _ db).2) = _
  rw [hplan]
  congr 1
  -- the projection reads the rows that were kept, not the column names of its input
  have hproj : ∀ kept names, toQueryResult <$>
      executeProjection projections projectionNames ⟨names, table.schema, kept⟩
        = (do
            let output ← projectRows projections table.schema kept
            .ok ⟨outputNames projections projectionNames, output⟩) := by
    intro kept names
    rw [executeProjection, outputNames]
    dsimp only
    cases projectRows projections table.schema kept with
    | error st => rfl
    | ok output =>
        show Except.ok _ = Except.ok _
        rw [toQueryResult, List.map_map]
        rfl
  unfold selectReply keptRows
  cases predicate with
  | none =>
      rw [inputResult, hdb.sourceResult hfrom]
      exact hproj _ _
  | some p =>
      rw [inputResult, hdb.sourceResult hfrom, ok_bind]
      dsimp only [executeFilter]
      cases filterRows p table.schema (db.sourceRows table) with
      | error st => rfl
      | ok kept => exact hproj _ _

/-! ## Running an INSERT -/

/-- The values of an INSERT evaluate to a typed row, or fail in integer
    arithmetic. -/
theorem evaluateValues_outcome {columns : List ColumnSchema} {values : List BoundExpression}
    (h : List.Forall₂ ValueBound columns values) :
    (∃ st, evaluateExpressions values {} = .error st ∧ ArithmeticFailure st)
    ∨ ∃ row, evaluateExpressions values {} = .ok row ∧ List.Forall₂ FieldTyped columns row := by
  -- values refer to no column, so no NULL is read
  have hout : ∀ {column e}, ValueBound column e → Outcome e.type False (evaluate {} e) := by
    intro column e hb
    refine (evaluate_outcome (EvaluationContext.fits_nil {}) hb.1).imp ?_
    exact hb.1.columnFree.not_readsNull _
  cases heval : evaluateExpressions values {} with
  | error st =>
      obtain ⟨e, he, hst⟩ := mapM_error heval
      obtain ⟨column, -, hb⟩ := forall₂_exists_left h e he
      have := hout hb
      rw [hst] at this
      exact Or.inl ⟨st, rfl, this.resolve_right fun h => h.2⟩
  | ok row =>
      have hrow : List.Forall₂ (fun e v => evaluate {} e = .ok v) values row :=
        mapM_ok_iff.mp heval
      refine Or.inr ⟨row, rfl, ?_⟩
      clear heval
      induction h generalizing row with
      | nil =>
          cases hrow
          exact .nil
      | @cons column e columns values hb _ ih =>
          obtain ⟨v, rest, hv, hrest, rfl⟩ := List.forall₂_cons_left_iff.mp hrow
          refine .cons ?_ (ih rest hrest)
          have htype := hout hb
          rw [hv] at htype
          have htype := htype.resolve_right fun h => h.2
          rcases hb.2 with ⟨hnull, hn⟩ | hcol
          · exact Or.inl ⟨(valueTypeOf_null_iff v).mp (htype.trans hnull), hn⟩
          · exact Or.inr (htype.trans hcol)

/-- The loop of INSERT on the one row of a typed VALUES list. -/
theorem insertRows_spec {schema : TableSchema} (hc : Storable schema.columns)
    {heap : PageHeapTable} (hwf : heap.WellFormed) (hsize : heap.pageSize = kDefaultPageSize)
    {row : List Value} (ht : List.Forall₂ FieldTyped schema.columns row) :
    (∃ id heap', insertRows schema [row] heap = (.ok (), heap')
      ∧ heap.Inserts (rowBytes row) id heap' ∧ decode schema (rowBytes row) = .ok row
      ∧ (rowBytes row).length ≤ 4090)
    ∨ ∃ st, insertRows schema [row] heap = (.error st, heap)
      ∧ (st.code = .invalidArgument ∧ 4090 < (rowBytes row).length
        ∨ kInvalidPageId ≤ heap.rootPageId + heap.pages.length) := by
  rw [insertRows, if_neg (not_not.mpr ht.length_eq.symm)]
  cases henc : encode schema row with
  | error st =>
      obtain ⟨hcode, hlen⟩ := encode_error hc ht henc
      exact Or.inr ⟨st, rfl, Or.inl ⟨hcode, by omega⟩⟩
  | ok tuple =>
      obtain ⟨hfits, rfl⟩ := (encode_ok_iff hc row tuple).mp henc
      have hdec := (decode_ok_iff hc _ row).mpr ⟨hfits, rfl⟩
      dsimp only
      rcases hwf.insert_spec (rowBytes row) with
        ⟨id, heap', hins, hspec, hlen⟩ | ⟨st, hins, hfail⟩
      · rw [hins]
        rw [hsize] at hlen
        exact Or.inl ⟨id, heap', rfl, hspec, hdec, by unfold kDefaultPageSize at hlen; omega⟩
      · rw [hins]
        refine Or.inr ⟨st, rfl, ?_⟩
        rcases hfail with ⟨hcode, hlen⟩ | ⟨hfull, -⟩
        · refine Or.inl ⟨hcode, ?_⟩
          rw [hsize] at hlen
          rw [kDefaultPageSize] at hlen
          omega
        · exact Or.inr (Nat.not_lt.mp hfull)

/-- How an INSERT into a stored table ends. -/
inductive InsertRun (db : Database) (table : TableInfo) (data : InMemoryTableData)
    (values : List BoundExpression) : Result QueryResult × Database → Prop
  | failed {st : Status} (evaluated : evaluateExpressions values {} = .error st)
      (arithmetic : ArithmeticFailure st) : InsertRun db table data values (.error st, db)
  | refused {row : List Value} {st : Status}
      (evaluated : evaluateExpressions values {} = .ok row)
      (cause : st.code = .invalidArgument ∧ 4090 < (rowBytes row).length
        ∨ kInvalidPageId ≤ data.heap.rootPageId + data.heap.pages.length) :
      InsertRun db table data values (.error st, db)
  | inserted {row : List Value} {id : RecordId} {heap : PageHeapTable}
      (evaluated : evaluateExpressions values {} = .ok row)
      (length_le : (rowBytes row).length ≤ 4090)
      (inserts : data.heap.Inserts (rowBytes row) id heap)
      (decodes : decode table.schema (rowBytes row) = .ok row) :
      InsertRun db table data values
        (.ok {}, { db with storage := db.storage.storeHeap table.id heap })

/-- An INSERT into a stored table evaluates its values and puts the row into the
    table's heap. -/
theorem Database.Stores.runInsert_eq {db : Database} (hdb : db.Consistent) {key : Bytes}
    {table : TableInfo} {data : InMemoryTableData} (hs : db.Stores key table data)
    (hfound : db.catalog.tablesByName.lookup key = some table) {values : List BoundExpression}
    (h : List.Forall₂ ValueBound table.schema.columns values) :
    (∀ st, evaluateExpressions values {} = .error st →
      runBound {} (.insert table values) db = (.error st, db))
    ∧ ∀ row, evaluateExpressions values {} = .ok row →
      runBound {} (.insert table values) db
        = ((fun _ => {}) <$> (insertRows table.schema [row] data.heap).1,
          { db with storage :=
              db.storage.storeHeap table.id (insertRows table.schema [row] data.heap).2 }) := by
  -- the optimized plan runs like the plan the statement was bound to
  have hrun : runBound {} (.insert table values) db
      = (toQueryResult <$> (executeInsert table (makeTableStorageReference table)
          (executeValues [values], db)).1,
        (executeInsert table (makeTableStorageReference table)
          (executeValues [values], db)).2) := by
    rw [BoundIn.runBound_eq hdb (.insert hfound h)]
    have hplan : executePlan {} (plainPlan (.insert table values)) db
        = executeInsert table (makeTableStorageReference table) (executeValues [values], db) := by
      simp only [plainPlan, executePlan]
      rfl
    show (toQueryResult <$> (executePlan {} _ db).1, (executePlan {} _ db).2) = _
    rw [hplan]
  rw [hrun]
  constructor
  · intro st heval
    have hvalues : executeValues [values] = .error st := by
      rw [executeValues]
      rw [List.mapM_cons, heval]
      rfl
    rw [hvalues]
    rfl
  · intro row heval
    have hvalues : executeValues [values] = .ok { rows := [row] } := by
      rw [executeValues]
      rw [List.mapM_cons, heval]
      rfl
    rw [hvalues]
    rw [executeInsert]
    dsimp only
    rw [hs.openHeap]
    dsimp only
    cases insertRows table.schema [row] data.heap with
    | mk reply heap => cases reply <;> rfl

/-- **INSERT**: the one row is stored, or the database stays as it is. -/
theorem Database.Stores.runInsert {db : Database} (hdb : db.Consistent) {key : Bytes}
    {table : TableInfo} {data : InMemoryTableData} (hs : db.Stores key table data)
    (hfound : db.catalog.tablesByName.lookup key = some table) {values : List BoundExpression}
    (h : List.Forall₂ ValueBound table.schema.columns values) :
    InsertRun db table data values (runBound {} (.insert table values) db) := by
  obtain ⟨hfailed, hrow⟩ := hs.runInsert_eq hdb hfound h
  rcases evaluateValues_outcome h with ⟨st, heval, harith⟩ | ⟨row, heval, htyped⟩
  · rw [hfailed st heval]
    exact .failed heval harith
  · rw [hrow row heval]
    rcases insertRows_spec hs.valid.storable hs.wellFormed hs.page_size htyped with
      ⟨id, heap', hins, hspec, hdec, hlen⟩ | ⟨st, hins, hcause⟩
    · rw [hins]
      exact .inserted heval hlen hspec hdec
    · rw [hins]
      dsimp only
      rw [InMemoryTableStorageManager.storeHeap_self hs.heap_found]
      exact .refused heval hcause

/-! ## Running a CREATE TABLE -/

/-- The table a CREATE TABLE adds. -/
def Database.newTable (db : Database) (request : CreateTableRequest) : TableInfo :=
  { id := db.catalog.nextTableId
    name := request.name
    schema := request.schema
    heapRootPageId := db.storage.nextRootPageId }

/-- The storage with an empty heap for the new table. -/
def Database.storageWithHeap (db : Database) : InMemoryTableStorageManager :=
  { nextRootPageId := (db.storage.nextRootPageId + 1) % 2 ^ 64
    tables := db.storage.tables.insert db.catalog.nextTableId
      { tableId := db.catalog.nextTableId
        rootPageId := db.storage.nextRootPageId
        heap := { rootPageId := db.storage.nextRootPageId } } }

/-- How a CREATE TABLE that binds ends.  It can fail only once the ids are used
    up, and keeps the maps of the catalog then. -/
inductive CreateRun (db : Database) (request : CreateTableRequest) :
    Result QueryResult × Database → Prop
  | exhausted {st : Status} {catalog : InMemoryCatalog}
      (roots : db.storage.nextRootPageId = kInvalidPageId)
      (byName : catalog.tablesByName = db.catalog.tablesByName)
      (byId : catalog.tableNamesById = db.catalog.tableNamesById) :
      CreateRun db request (.error st, ⟨catalog, db.storage⟩)
  | created (new_id : db.catalog.nextTableId ∉ db.catalog.tableNamesById)
      (roots : db.storage.nextRootPageId ≠ kInvalidPageId) :
      CreateRun db request
        (.ok {}, ⟨db.catalog.allocateTableId.2.withTable (db.newTable request),
          db.storageWithHeap⟩)

/-- **CREATE TABLE**: an empty table is added, unless the ids are used up. -/
theorem Database.Consistent.runCreateTable {db : Database} (hdb : db.Consistent)
    {request : CreateTableRequest} (hname : request.name ≠ [])
    (hne : request.schema.columns ≠ [])
    (hnew : foldIdentifierKey request.name ∉ db.catalog.tablesByName)
    (hvalid : validateColumns 0 [] request.schema.columns = .ok request.schema.columns) :
    CreateRun db request (runBound {} (.createTable request) db) := by
  rw [BoundIn.runBound_eq hdb (.createTable hname hne hnew hvalid)]
  show CreateRun db request
    (toQueryResult <$> (executePlan {} _ db).1, (executePlan {} _ db).2)
  have hplan : executePlan {} (plainPlan (.createTable request)) db
      = executeCreateTable {} request .heap db := rfl
  rw [hplan]
  rw [executeCreateTable]
  rw [show requireWritable {} = .ok () from rfl]
  dsimp only
  rw [if_neg (not_not.mpr rfl), InMemoryCatalog.createTable_eq hname hne hnew hvalid]
  by_cases hid : db.catalog.nextTableId ∈ db.catalog.tableNamesById
  · -- table ids and root ids are handed out together, so both ran out
    have hroots : db.storage.nextRootPageId = kInvalidPageId := by
      by_contra hroots
      obtain ⟨hnext, hids⟩ := hdb.ids (lt_of_le_of_ne hdb.roots_le hroots)
      exact absurd (hids _ hid) (hnext ▸ lt_irrefl _)
    rw [if_pos hid]
    exact .exhausted hroots rfl rfl
  · have hheap : db.catalog.nextTableId ∉ db.storage.tables := fun h => hid (hdb.heaps _ h)
    rw [if_neg hid]
    dsimp only
    rw [InMemoryTableStorageManager.createHeap]
    rw [if_neg hheap]
    by_cases hroots : db.storage.nextRootPageId = kInvalidPageId
    · obtain ⟨hbyName, hbyId, -⟩ := @InMemoryCatalog.dropTable_withTable
        db.catalog.allocateTableId.2
        { id := db.catalog.nextTableId, name := request.name, schema := request.schema } hnew hid
      rw [if_pos hroots]
      exact .exhausted hroots hbyName hbyId
    · rw [if_neg hroots]
      dsimp only
      rw [InMemoryCatalog.setTableHeapRoot_withTable _ _ hroots]
      exact .created hid hroots

/-! ## Every statement keeps the database consistent -/

section

variable {db db' : Database} {key : Bytes} {table : TableInfo} {data : InMemoryTableData}

/-- A table whose entries are untouched stays stored. -/
theorem Database.Stores.frame (h : db.Stores key table data)
    (hid : db'.catalog.tableNamesById.lookup table.id
      = db.catalog.tableNamesById.lookup table.id)
    (hheap : db'.storage.tables.lookup table.id = db.storage.tables.lookup table.id)
    (hroot : db.storage.nextRootPageId ≤ db'.storage.nextRootPageId) :
    db'.Stores key table data :=
  { h with
    by_id := hid.trans h.by_id
    heap_found := hheap.trans h.heap_found
    root_lt := h.root_lt.trans_le hroot }

/-- With the ids used up, only the maps count. -/
theorem Database.Consistent.of_exhausted (hdb : db.Consistent) {catalog : InMemoryCatalog}
    (hroots : db.storage.nextRootPageId = kInvalidPageId)
    (hbyName : catalog.tablesByName = db.catalog.tablesByName)
    (hbyId : catalog.tableNamesById = db.catalog.tableNamesById) :
    Database.Consistent ⟨catalog, db.storage⟩ := by
  refine ⟨?_, ?_, ?_, hdb.roots, hdb.roots_le, fun h => absurd hroots h.ne⟩
  · intro key table hfound
    dsimp only at hfound
    rw [hbyName] at hfound
    obtain ⟨data, hs⟩ := hdb.tables key table hfound
    exact ⟨data, hs.frame (by rw [hbyId]) rfl le_rfl⟩
  · intro id key hkey
    dsimp only at hkey ⊢
    rw [hbyId] at hkey
    rw [hbyName]
    exact hdb.names id key hkey
  · intro id hmem
    dsimp only
    rw [hbyId]
    exact hdb.heaps id hmem

/-- The new table is stored. -/
theorem Database.stores_newTable (db : Database)
    {request : CreateTableRequest} (hname : request.name ≠ [])
    (hne : request.schema.columns ≠ [])
    (hvalid : validateColumns 0 [] request.schema.columns = .ok request.schema.columns)
    (hroots : db.storage.nextRootPageId < kInvalidPageId) :
    Database.Stores
      ⟨db.catalog.allocateTableId.2.withTable (db.newTable request), db.storageWithHeap⟩
      (foldIdentifierKey request.name) (db.newTable request)
      { tableId := db.catalog.nextTableId
        rootPageId := db.storage.nextRootPageId
        heap := { rootPageId := db.storage.nextRootPageId } } where
  key_eq := rfl
  named := hname
  valid := validateColumns_valid hne hvalid
  by_id := Finmap.lookup_insert _
  heap_found := Finmap.lookup_insert _
  root_eq := rfl
  root_lt := by
    rw [kInvalidPageId] at hroots
    show _ < (db.storage.nextRootPageId + 1) % 2 ^ 64
    rw [Nat.mod_eq_of_lt (by omega)]
    exact Nat.lt_succ_self _
  wellFormed := PageHeapTable.wellFormed_empty hroots kDefaultPageSize
  page_size := rfl
  decodes := nofun

theorem Database.Consistent.created (hdb : db.Consistent) {request : CreateTableRequest}
    (hname : request.name ≠ []) (hne : request.schema.columns ≠ [])
    (hnew : foldIdentifierKey request.name ∉ db.catalog.tablesByName)
    (hvalid : validateColumns 0 [] request.schema.columns = .ok request.schema.columns)
    (hid : db.catalog.nextTableId ∉ db.catalog.tableNamesById)
    (hroots : db.storage.nextRootPageId < kInvalidPageId) :
    Database.Consistent
      ⟨db.catalog.allocateTableId.2.withTable (db.newTable request), db.storageWithHeap⟩ := by
  have hnext : (db.storage.nextRootPageId + 1) % 2 ^ 64 = db.storage.nextRootPageId + 1 := by
    rw [kInvalidPageId] at hroots
    exact Nat.mod_eq_of_lt (by omega)
  have hheap : db.catalog.nextTableId ∉ db.storage.tables := fun h => hid (hdb.heaps _ h)
  obtain ⟨hids, hbelow⟩ := hdb.ids hroots
  refine ⟨?_, ?_, ?_, ?_, ?_, fun _ => ⟨?_, ?_⟩⟩
  · intro key table hfound
    by_cases hkey : key = foldIdentifierKey request.name
    · subst hkey
      cases Option.some.inj ((Finmap.lookup_insert _).symm.trans hfound)
      exact ⟨_, db.stores_newTable hname hne hvalid hroots⟩
    · obtain ⟨data, hs⟩ := hdb.tables key table
        ((Finmap.lookup_insert_of_ne _ hkey).symm.trans hfound)
      have hne_id : table.id ≠ db.catalog.nextTableId := by
        intro heq
        exact hid (heq ▸ Finmap.mem_of_lookup_eq_some hs.by_id)
      refine ⟨data, hs.frame (Finmap.lookup_insert_of_ne _ hne_id)
        (Finmap.lookup_insert_of_ne _ hne_id) ?_⟩
      show _ ≤ (db.storage.nextRootPageId + 1) % 2 ^ 64
      omega
  · intro id key hkey
    by_cases hid' : id = db.catalog.nextTableId
    · subst hid'
      cases Option.some.inj ((Finmap.lookup_insert _).symm.trans hkey)
      exact ⟨_, Finmap.lookup_insert _, rfl⟩
    · obtain ⟨table, hfound, htid⟩ := hdb.names id key
        ((Finmap.lookup_insert_of_ne _ hid').symm.trans hkey)
      have hne_key : key ≠ foldIdentifierKey request.name := by
        rintro rfl
        exact hnew (Finmap.mem_of_lookup_eq_some hfound)
      exact ⟨table, (Finmap.lookup_insert_of_ne _ hne_key).trans hfound, htid⟩
  · intro id hmem
    rcases Finmap.mem_insert.mp hmem with rfl | hmem
    · exact Finmap.mem_insert.mpr (Or.inl rfl)
    · exact Finmap.mem_insert.mpr (Or.inr (hdb.heaps id hmem))
  · have hkeys : db.storageWithHeap.tables.keys
        = insert db.catalog.nextTableId db.storage.tables.keys := by
      ext id
      rw [Finset.mem_insert, Finmap.mem_keys, Finmap.mem_keys]
      exact Finmap.mem_insert
    show (db.storage.nextRootPageId + 1) % 2 ^ 64 = db.storageWithHeap.tables.keys.card + 1
    rw [hnext, hkeys, Finset.card_insert_of_notMem (fun h => hheap (Finmap.mem_keys.mp h)),
      hdb.roots]
  · show (db.storage.nextRootPageId + 1) % 2 ^ 64 ≤ _
    omega
  · show (db.catalog.nextTableId + 1) % 2 ^ 64 = (db.storage.nextRootPageId + 1) % 2 ^ 64
    rw [hids]
  · intro id hmem
    show id < (db.storage.nextRootPageId + 1) % 2 ^ 64
    rcases Finmap.mem_insert.mp hmem with rfl | hmem
    · show db.catalog.nextTableId < _
      omega
    · have := hbelow id hmem
      omega

theorem Database.Consistent.inserted (hdb : db.Consistent)
    (hfound : db.catalog.tablesByName.lookup key = some table)
    (hs : db.Stores key table data) {row : List Value} {id : RecordId} {heap : PageHeapTable}
    (hins : data.heap.Inserts (rowBytes row) id heap)
    (hdec : decode table.schema (rowBytes row) = .ok row) :
    Database.Consistent { db with storage := db.storage.storeHeap table.id heap } := by
  have hlookup := InMemoryTableStorageManager.storeHeap_lookup hs.heap_found heap
  have hnext : (db.storage.storeHeap table.id heap).nextRootPageId
      = db.storage.nextRootPageId := by
    rw [InMemoryTableStorageManager.storeHeap]
    rw [hs.heap_found]
  -- storing a heap again changes no key
  have hmem : ∀ id, id ∈ (db.storage.storeHeap table.id heap).tables
      ↔ id ∈ db.storage.tables := by
    intro id
    rw [← Finmap.lookup_isSome, ← Finmap.lookup_isSome, hlookup]
    split
    · rename_i heq
      rw [heq, hs.heap_found]
      rfl
    · rfl
  have hkeys : (db.storage.storeHeap table.id heap).tables.keys = db.storage.tables.keys := by
    ext id
    rw [Finmap.mem_keys, Finmap.mem_keys, hmem]
  refine ⟨?_, hdb.names, fun id h => hdb.heaps id ((hmem id).mp h), ?_, ?_, ?_⟩
  · intro key' table' hfound'
    obtain ⟨data', hs'⟩ := hdb.tables key' table' hfound'
    by_cases hid : table'.id = table.id
    · -- ids and names are in one-to-one correspondence, so it is the same table
      obtain rfl := hs.key_inj hs' hid
      cases Option.some.inj (hfound.symm.trans hfound')
      refine ⟨{ data with heap := heap }, { hs with
        heap_found := by rw [hlookup, if_pos rfl]
        root_lt := ?_
        wellFormed := hins.wellFormed
        page_size := hins.pageSize.trans hs.page_size
        decodes := ?_ }⟩
      · show heap.rootPageId < (db.storage.storeHeap table.id heap).nextRootPageId
        rw [hins.root, hnext]
        exact hs.root_lt
      · intro record hrecord
        rcases List.mem_cons.mp (hins.perm.mem_iff.mp hrecord) with rfl | hrecord
        · exact ⟨row, hdec⟩
        · exact hs.decodes record hrecord
    · exact ⟨data', hs'.frame rfl (by rw [hlookup, if_neg hid]) hnext.ge⟩
  · rw [hkeys, hnext]
    exact hdb.roots
  · rw [hnext]
    exact hdb.roots_le
  · rw [hnext]
    exact hdb.ids

end

/-- What binds keeps the database consistent. -/
theorem BoundIn.consistent {db : Database} (hdb : db.Consistent) {bound : BoundStatement}
    (h : BoundIn db bound) : (runBound {} bound db).2.Consistent := by
  cases h with
  | select hb hfrom =>
      rw [hb.run hdb hfrom]
      exact hdb
  | @insert key table values hfound hb =>
      obtain ⟨data, hs⟩ := hdb.tables key table hfound
      have hrun := hs.runInsert hdb hfound hb
      generalize runBound {} (.insert table values) db = reply at hrun ⊢
      cases hrun with
      | failed => exact hdb
      | refused => exact hdb
      | inserted _ _ hins hdec => exact hdb.inserted hfound hs hins hdec
  | @createTable request hname hne hnew hvalid =>
      have hrun := hdb.runCreateTable hname hne hnew hvalid
      generalize runBound {} (.createTable request) db = reply at hrun ⊢
      cases hrun with
      | exhausted hroots hbyName hbyId => exact hdb.of_exhausted hroots hbyName hbyId
      | created hid hroots =>
          exact hdb.created hname hne hnew hvalid hid (lt_of_le_of_ne hdb.roots_le hroots)

/-- One SQL text keeps the database consistent. -/
theorem Database.Consistent.execute {db : Database} (hdb : db.Consistent) (sql : Bytes) :
    (execute db sql).2.Consistent := by
  rw [MattSql.execute, executeIn]
  cases hparse : parseSql sql with
  | error st => exact hdb
  | ok statement =>
      dsimp only
      cases hbind : bind db.catalog.getTable statement with
      | error st => exact hdb
      | ok bound => exact (hdb.boundIn hparse hbind).consistent hdb

/-- **EVERY REACHABLE STATE IS CONSISTENT.** -/
theorem engineAfter_consistent (texts : List Bytes) : (engineAfter texts).Consistent :=
  Run.final_invariant (I := Database.Consistent) (fun _ sql hdb => hdb.execute sql) texts {}
    Database.consistent_empty

end MattSql
