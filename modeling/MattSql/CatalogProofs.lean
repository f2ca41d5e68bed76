import Mathlib.Data.Finmap
import MattSql.SchemaProofs

/-! # The catalog

    `catalog/in_memory_catalog.cpp` over `catalog/hosted_catalog_api.cpp`: the
    tables by folded name, their names by id, and the index tables, with the
    two id counters.  Hash maps are finite maps; the counters are 64 bits
    wide. -/

namespace MattSql

open Fallible

/-- The maps of `InMemoryHostedCatalogApi::Impl`. -/
structure InMemoryCatalog where
  nextTableId : Nat := 1
  nextIndexId : Nat := 1
  tablesByName : Finmap fun _ : Bytes => TableInfo := ∅
  tableNamesById : Finmap fun _ : Nat => Bytes := ∅
  indexKeysById : Finmap fun _ : Nat => Bytes × Bytes := ∅
  indexesByTableName : Finmap fun _ : Bytes => Finmap fun _ : Bytes => IndexInfo := ∅

/-- `AllocateTableId`. -/
def InMemoryCatalog.allocateTableId (catalog : InMemoryCatalog) : Nat × InMemoryCatalog :=
  (catalog.nextTableId, { catalog with nextTableId := (catalog.nextTableId + 1) % 2 ^ 64 })

/-- `StoreTable`. -/
def InMemoryCatalog.storeTable (catalog : InMemoryCatalog) (key : Bytes) (table : TableInfo) :
    Result TableInfo × InMemoryCatalog :=
  if key ∈ catalog.tablesByName then
    (errorResult .alreadyExists (ascii "table already exists"), catalog)
  else if table.id ∈ catalog.tableNamesById then
    (errorResult .alreadyExists (ascii "table id already exists"), catalog)
  else
    (.ok table,
      { catalog with
        tableNamesById := catalog.tableNamesById.insert table.id key
        tablesByName := catalog.tablesByName.insert key table })

/-- `EraseTable`. -/
def InMemoryCatalog.eraseTable (catalog : InMemoryCatalog) (key : Bytes) :
    Result Unit × InMemoryCatalog :=
  match catalog.tablesByName.lookup key with
  | none => (errorResult .notFound (ascii "table not found"), catalog)
  | some table =>
    (.ok (),
      { catalog with
        tableNamesById := catalog.tableNamesById.erase table.id
        indexKeysById := table.indexes.foldl (fun keys index => keys.erase index.id)
          catalog.indexKeysById
        indexesByTableName := catalog.indexesByTableName.erase key
        tablesByName := catalog.tablesByName.erase key })

/-- `UpdateTable`; the stored name is kept. -/
def InMemoryCatalog.updateTable (catalog : InMemoryCatalog) (table : TableInfo) :
    Result Unit × InMemoryCatalog :=
  match catalog.tableNamesById.lookup table.id with
  | none => (errorResult .notFound (ascii "table not found"), catalog)
  | some key =>
    match catalog.tablesByName.lookup key with
    | none => (errorResult .corruption (ascii "table id index is corrupt"), catalog)
    | some stored =>
      (.ok (),
        { catalog with
          tablesByName := catalog.tablesByName.insert key { table with name := stored.name } })

/-- `LoadTable` by folded name. -/
def InMemoryCatalog.loadTable (catalog : InMemoryCatalog) (key : Bytes) : Result TableInfo :=
  match catalog.tablesByName.lookup key with
  | none => errorResult .notFound (ascii "table not found")
  | some table => .ok table

/-- `LoadTable` by id; `unordered_map::at` throws on a missing name. -/
def InMemoryCatalog.loadTableById (catalog : InMemoryCatalog) (tableId : Nat) :
    Result TableInfo :=
  match catalog.tableNamesById.lookup tableId with
  | none => errorResult .notFound (ascii "table not found")
  | some key =>
    match catalog.tablesByName.lookup key with
    | none => errorResult .undefined (ascii "unordered_map::at")
    | some table => .ok table

/-- `validate_column`. -/
def validateColumn (column : ColumnSchema) : Result Unit :=
  if column.name = [] then errorResult .invalidArgument (ascii "column name is required")
  else if column.type = .null then
    errorResult .invalidArgument (ascii "column type cannot be Null")
  else .ok ()

/-- The loop of `CreateTable` over the columns from `index` on; `names` are the
    folded names seen. -/
def validateColumns (index : Nat) (names : List Bytes) :
    List ColumnSchema → Result (List ColumnSchema)
  | [] => .ok []
  | column :: rest =>
    if index > kMaxColumnId then
      errorResult .invalidArgument (ascii "table has too many columns")
    else do
      validateColumn column
      if foldIdentifierKey column.name ∈ names then
        errorResult .alreadyExists (ascii "duplicate column name")
      else
        let columns ← validateColumns (index + 1) (foldIdentifierKey column.name :: names) rest
        .ok ({ column with id := index } :: columns)

theorem validateColumns_cons (index : Nat) (names : List Bytes) (column : ColumnSchema)
    (rest : List ColumnSchema) :
    validateColumns index names (column :: rest)
      = if index > kMaxColumnId then
          errorResult .invalidArgument (ascii "table has too many columns")
        else (do
          validateColumn column
          if foldIdentifierKey column.name ∈ names then
            errorResult .alreadyExists (ascii "duplicate column name")
          else
            let columns ← validateColumns (index + 1) (foldIdentifierKey column.name :: names) rest
            .ok ({ column with id := index } :: columns)) := rfl

/-- `InMemoryCatalog::CreateTable`. -/
def InMemoryCatalog.createTable (catalog : InMemoryCatalog) (request : CreateTableRequest) :
    Result TableInfo × InMemoryCatalog :=
  if request.name = [] then
    (errorResult .invalidArgument (ascii "table name is required"), catalog)
  else if request.schema.columns = [] then
    (errorResult .invalidArgument (ascii "table must have at least one column"), catalog)
  else
    let key := foldIdentifierKey request.name
    match catalog.loadTable key with
    | .ok _ => (errorResult .alreadyExists (ascii "table already exists"), catalog)
    | .error st =>
      if st.code ≠ .notFound then (.error st, catalog)
      else
        -- the whole schema is validated before an id is taken
        match validateColumns 0 [] request.schema.columns with
        | .error st => (.error st, catalog)
        | .ok columns =>
          let (tableId, catalog) := catalog.allocateTableId
          catalog.storeTable key { id := tableId, name := request.name, schema := ⟨columns⟩ }

/-- `InMemoryCatalog::DropTable`. -/
def InMemoryCatalog.dropTable (catalog : InMemoryCatalog) (tableName : Bytes) :
    Result Unit × InMemoryCatalog :=
  catalog.eraseTable (foldIdentifierKey tableName)

/-- `InMemoryCatalog::GetTable` by name. -/
def InMemoryCatalog.getTable (catalog : InMemoryCatalog) (tableName : Bytes) :
    Result TableInfo :=
  catalog.loadTable (foldIdentifierKey tableName)

/-- `InMemoryCatalog::GetTable` by id. -/
def InMemoryCatalog.getTableById (catalog : InMemoryCatalog) (tableId : Nat) :
    Result TableInfo :=
  catalog.loadTableById tableId

/-- `InMemoryCatalog::SetTableHeapRoot`. -/
def InMemoryCatalog.setTableHeapRoot (catalog : InMemoryCatalog) (tableId rootPageId : Nat) :
    Result Unit × InMemoryCatalog :=
  if rootPageId = kInvalidPageId then
    (errorResult .invalidArgument (ascii "heap root page id is required"), catalog)
  else
    match catalog.loadTableById tableId with
    | .error st => (.error st, catalog)
    | .ok table => catalog.updateTable { table with heapRootPageId := rootPageId }

/-- `AllocateIndexId`. -/
def InMemoryCatalog.allocateIndexId (catalog : InMemoryCatalog) : Nat × InMemoryCatalog :=
  (catalog.nextIndexId, { catalog with nextIndexId := (catalog.nextIndexId + 1) % 2 ^ 64 })

/-- `StoreIndex`; `operator[]` makes an entry for the table where there is
    none. -/
def InMemoryCatalog.storeIndex (catalog : InMemoryCatalog) (tableKey indexKey : Bytes)
    (index : IndexInfo) : Result IndexInfo × InMemoryCatalog :=
  match catalog.tablesByName.lookup tableKey with
  | none => (errorResult .notFound (ascii "table not found"), catalog)
  | some table =>
    if index.tableId ≠ table.id then
      (errorResult .invalidArgument (ascii "index table id does not match table"), catalog)
    else if index.id ∈ catalog.indexKeysById then
      (errorResult .alreadyExists (ascii "index id already exists"), catalog)
    else
      let indexes := (catalog.indexesByTableName.lookup tableKey).getD ∅
      if indexKey ∈ indexes then
        (errorResult .alreadyExists (ascii "index already exists"),
          { catalog with
            indexesByTableName := catalog.indexesByTableName.insert tableKey indexes })
      else
        (.ok index,
          { catalog with
            tablesByName := catalog.tablesByName.insert tableKey
              { table with indexes := table.indexes ++ [index] }
            indexesByTableName := catalog.indexesByTableName.insert tableKey
              (indexes.insert indexKey index)
            indexKeysById := catalog.indexKeysById.insert index.id (tableKey, indexKey) })

/-- `LoadIndex`. -/
def InMemoryCatalog.loadIndex (catalog : InMemoryCatalog) (tableKey indexKey : Bytes) :
    Result IndexInfo :=
  match catalog.tablesByName.lookup tableKey with
  | none => errorResult .notFound (ascii "table not found")
  | some _ =>
    match catalog.indexesByTableName.lookup tableKey with
    | none => errorResult .notFound (ascii "index not found")
    | some indexes =>
      match indexes.lookup indexKey with
      | none => errorResult .notFound (ascii "index not found")
      | some index => .ok index

/-- `LoadTables`, with the values of the hash map in the order in which they are
    iterated; they are sorted by id. -/
def loadTables (iterated : List TableInfo) : List TableInfo :=
  iterated.mergeSort fun left right => left.id ≤ right.id

/-- The loop of `CreateIndex` over the key columns; `seen` are the columns
    before. -/
def validateKeyColumns (columnCount : Nat) (seen : List Nat) : List Nat → Result Unit
  | [] => .ok ()
  | column :: rest =>
    if column ≥ columnCount then
      errorResult .invalidArgument (ascii "index column is out of range")
    else if column ∈ seen then
      errorResult .invalidArgument (ascii "duplicate index key column")
    else validateKeyColumns columnCount (column :: seen) rest

structure CreateIndexRequest where
  tableName : Bytes
  schema : IndexSchema
  deriving DecidableEq

/-- `InMemoryCatalog::CreateIndex`. -/
def InMemoryCatalog.createIndex (catalog : InMemoryCatalog) (request : CreateIndexRequest) :
    Result IndexInfo × InMemoryCatalog :=
  if request.tableName = [] then
    (errorResult .invalidArgument (ascii "table name is required"), catalog)
  else if request.schema.name = [] then
    (errorResult .invalidArgument (ascii "index name is required"), catalog)
  else if request.schema.keyColumns = [] then
    (errorResult .invalidArgument (ascii "index must have at least one key column"), catalog)
  else
    let tableKey := foldIdentifierKey request.tableName
    match catalog.loadTable tableKey with
    | .error st => (.error st, catalog)
    | .ok table =>
      let indexKey := foldIdentifierKey request.schema.name
      match catalog.loadIndex tableKey indexKey with
      | .ok _ => (errorResult .alreadyExists (ascii "index already exists"), catalog)
      | .error st =>
        if st.code ≠ .notFound then (.error st, catalog)
        else
          match validateKeyColumns table.schema.columns.length [] request.schema.keyColumns with
          | .error st => (.error st, catalog)
          | .ok _ =>
            let (indexId, catalog) := catalog.allocateIndexId
            catalog.storeIndex tableKey indexKey
              { id := indexId, name := request.schema.name, tableId := table.id
                schema := request.schema }

/-- `InMemoryCatalog::GetIndex`. -/
def InMemoryCatalog.getIndex (catalog : InMemoryCatalog) (tableName indexName : Bytes) :
    Result IndexInfo :=
  catalog.loadIndex (foldIdentifierKey tableName) (foldIdentifierKey indexName)

/-! ## Reading a table -/

theorem InMemoryCatalog.loadTable_eq_ok {catalog : InMemoryCatalog} {key : Bytes}
    {table : TableInfo} :
    catalog.loadTable key = .ok table ↔ catalog.tablesByName.lookup key = some table := by
  rw [InMemoryCatalog.loadTable]
  cases catalog.tablesByName.lookup key with
  | none => simp [errorResult]
  | some found => simp

theorem InMemoryCatalog.loadTable_notFound {catalog : InMemoryCatalog} {key : Bytes}
    (h : key ∉ catalog.tablesByName) :
    catalog.loadTable key = errorResult .notFound (ascii "table not found") := by
  rw [InMemoryCatalog.loadTable, Finmap.lookup_eq_none.mpr h]

theorem InMemoryCatalog.getTable_eq_ok {catalog : InMemoryCatalog} {name : Bytes}
    {table : TableInfo} :
    catalog.getTable name = .ok table
      ↔ catalog.tablesByName.lookup (foldIdentifierKey name) = some table := by
  rw [InMemoryCatalog.getTable, InMemoryCatalog.loadTable_eq_ok]

/-! ## Schemas that pass the validation -/

/-- The columns that come out of the loop: the given ones, numbered from
    `index` on. -/
theorem validateColumns_ok {index : Nat} {names : List Bytes}
    {columns validated : List ColumnSchema}
    (h : validateColumns index names columns = .ok validated) :
    (∀ (i : Nat) c, validated[i]? = some c → c.id = index + i)
    ∧ (∀ c ∈ validated, c.name ≠ [] ∧ c.type ≠ .null)
    ∧ (validated.map fun c => foldIdentifierKey c.name).Nodup
    ∧ (∀ c ∈ validated, foldIdentifierKey c.name ∉ names)
    ∧ validated.length = columns.length := by
  -- induction on the columns, with the index and the names seen so far
  induction columns generalizing index names validated with
  | nil =>
      cases h
      exact ⟨nofun, nofun, List.nodup_nil, nofun, rfl⟩
  | cons column rest ih =>
      obtain ⟨-, h⟩ := guard_ok_iff.mp h
      obtain ⟨_, hcol, h⟩ := bind_ok_iff.mp h
      obtain ⟨hname, hcol⟩ := guard_ok_iff.mp hcol
      obtain ⟨htype, -⟩ := guard_ok_iff.mp hcol
      obtain ⟨hnew, h⟩ := guard_ok_iff.mp h
      obtain ⟨columns, hrest, h⟩ := bind_ok_iff.mp h
      cases h
      obtain ⟨hids, hcols, hnodup, hnames, hlen⟩ := ih hrest
      refine ⟨?_, ?_, ?_, ?_, ?_⟩
      · intro i c hi
        cases i with
        | zero =>
            cases hi
            rfl
        | succ i =>
            rw [hids i c hi]
            omega
      · intro c hc
        rcases List.mem_cons.mp hc with rfl | hc
        · exact ⟨hname, htype⟩
        · exact hcols c hc
      · rw [List.map_cons, List.nodup_cons]
        refine ⟨?_, hnodup⟩
        intro hmem
        obtain ⟨c, hc, heq⟩ := List.mem_map.mp hmem
        exact hnames c hc (heq ▸ List.mem_cons_self)
      · intro c hc
        rcases List.mem_cons.mp hc with rfl | hc
        · exact hnew
        · exact fun hmem => hnames c hc (List.mem_cons_of_mem _ hmem)
      · rw [List.length_cons, List.length_cons, hlen]

/-- What passes the validation of a non-empty column list is a valid schema. -/
theorem validateColumns_valid {columns validated : List ColumnSchema} (hne : columns ≠ [])
    (h : validateColumns 0 [] columns = .ok validated) :
    TableSchema.Valid ⟨validated⟩ := by
  obtain ⟨hids, hcols, hnodup, -, hlen⟩ := validateColumns_ok h
  refine ⟨?_, fun c hc => (hcols c hc).1, fun c hc => (hcols c hc).2, ?_, hnodup⟩
  · intro hnil
    rw [show validated = [] from hnil] at hlen
    exact hne (List.length_eq_zero_iff.mp hlen.symm)
  · intro i c hi
    rw [hids i c hi, Nat.zero_add]

/-! ## A new table in the catalog -/

/-- The catalog with one more table, stored under its name and its id. -/
def InMemoryCatalog.withTable (catalog : InMemoryCatalog) (table : TableInfo) :
    InMemoryCatalog :=
  { catalog with
    tableNamesById := catalog.tableNamesById.insert table.id (foldIdentifierKey table.name)
    tablesByName := catalog.tablesByName.insert (foldIdentifierKey table.name) table }

/-- A request that a check refuses takes no id. -/
theorem InMemoryCatalog.createTable_refused (catalog : InMemoryCatalog)
    {request : CreateTableRequest}
    (h : request.name = [] ∨ request.schema.columns = []
      ∨ foldIdentifierKey request.name ∈ catalog.tablesByName
      ∨ ∃ st, validateColumns 0 [] request.schema.columns = .error st) :
    ∃ st, catalog.createTable request = (.error st, catalog) := by
  by_cases hname : request.name = []
  · rw [InMemoryCatalog.createTable, if_pos hname]
    exact ⟨_, rfl⟩
  by_cases hcolumns : request.schema.columns = []
  · rw [InMemoryCatalog.createTable, if_neg hname, if_pos hcolumns]
    exact ⟨_, rfl⟩
  rw [InMemoryCatalog.createTable, if_neg hname, if_neg hcolumns]
  dsimp only
  by_cases hnew : foldIdentifierKey request.name ∈ catalog.tablesByName
  · obtain ⟨table, hlookup⟩ := Finmap.mem_iff.mp hnew
    rw [InMemoryCatalog.loadTable_eq_ok.mpr hlookup]
    exact ⟨_, rfl⟩
  -- the columns are checked last, after the name was found free
  obtain ⟨st, hvalid⟩ :=
    ((h.resolve_left hname).resolve_left hcolumns).resolve_left hnew
  rw [InMemoryCatalog.loadTable_notFound hnew]
  dsimp only [errorResult]
  rw [if_neg (fun hkind => hkind rfl), hvalid]
  exact ⟨_, rfl⟩

/-- A request that passes the checks takes the next id, and fails after that
    only when the id is in use. -/
theorem InMemoryCatalog.createTable_eq {catalog : InMemoryCatalog}
    {request : CreateTableRequest} {columns : List ColumnSchema} (hname : request.name ≠ [])
    (hcols : request.schema.columns ≠ [])
    (hnew : foldIdentifierKey request.name ∉ catalog.tablesByName)
    (hvalid : validateColumns 0 [] request.schema.columns = .ok columns) :
    catalog.createTable request
      = if catalog.nextTableId ∈ catalog.tableNamesById then
          (errorResult .alreadyExists (ascii "table id already exists"),
            catalog.allocateTableId.2)
        else
          (.ok { id := catalog.nextTableId, name := request.name, schema := ⟨columns⟩ },
            catalog.allocateTableId.2.withTable
              { id := catalog.nextTableId, name := request.name, schema := ⟨columns⟩ }) := by
  rw [InMemoryCatalog.createTable, if_neg hname, if_neg hcols]
  dsimp only
  rw [InMemoryCatalog.loadTable_notFound hnew]
  dsimp only [errorResult]
  rw [if_neg (fun h => h rfl), hvalid]
  show InMemoryCatalog.storeTable _ _ _ = _
  rw [InMemoryCatalog.storeTable]
  rw [if_neg (show foldIdentifierKey request.name ∉ catalog.allocateTableId.2.tablesByName
    from hnew)]
  rfl

/-- The heap root of the table just stored can be set. -/
theorem InMemoryCatalog.setTableHeapRoot_withTable (catalog : InMemoryCatalog)
    (table : TableInfo) {root : Nat} (hroot : root ≠ kInvalidPageId) :
    (catalog.withTable table).setTableHeapRoot table.id root
      = (.ok (), catalog.withTable { table with heapRootPageId := root }) := by
  have hload : (catalog.withTable table).loadTableById table.id = .ok table := by
    rw [InMemoryCatalog.loadTableById, InMemoryCatalog.withTable]
    dsimp only
    rw [Finmap.lookup_insert]
    dsimp only
    rw [Finmap.lookup_insert]
  rw [InMemoryCatalog.setTableHeapRoot]
  rw [if_neg hroot, hload]
  dsimp only
  unfold InMemoryCatalog.updateTable InMemoryCatalog.withTable
  dsimp only
  rw [Finmap.lookup_insert]
  dsimp only
  rw [Finmap.lookup_insert]
  dsimp only
  rw [Finmap.insert_insert]

/-- Dropping a table that was new restores both maps. -/
theorem InMemoryCatalog.dropTable_withTable {catalog : InMemoryCatalog} {table : TableInfo}
    (hname : foldIdentifierKey table.name ∉ catalog.tablesByName)
    (hid : table.id ∉ catalog.tableNamesById) :
    ((catalog.withTable table).dropTable table.name).2.tablesByName = catalog.tablesByName
    ∧ ((catalog.withTable table).dropTable table.name).2.tableNamesById
        = catalog.tableNamesById
    ∧ ((catalog.withTable table).dropTable table.name).2.nextTableId
        = catalog.nextTableId := by
  have hfound : (catalog.withTable table).tablesByName.lookup (foldIdentifierKey table.name)
      = some table := Finmap.lookup_insert _
  rw [InMemoryCatalog.dropTable, InMemoryCatalog.eraseTable]
  rw [hfound]
  refine ⟨?_, ?_, rfl⟩
  · apply Finmap.ext_lookup
    intro key
    by_cases hkey : key = foldIdentifierKey table.name
    · subst hkey
      rw [Finmap.lookup_erase, Finmap.lookup_eq_none.mpr hname]
    · rw [Finmap.lookup_erase_ne hkey]
      exact Finmap.lookup_insert_of_ne _ hkey
  · apply Finmap.ext_lookup
    intro id
    by_cases hkey : id = table.id
    · subst hkey
      rw [Finmap.lookup_erase, Finmap.lookup_eq_none.mpr hid]
    · rw [Finmap.lookup_erase_ne hkey]
      exact Finmap.lookup_insert_of_ne _ hkey

end MattSql
