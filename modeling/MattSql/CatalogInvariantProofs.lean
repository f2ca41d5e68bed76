import MattSql.CatalogProofs
import MattSql.Library.FiniteMapProofs
import MattSql.Library.RunProofs

/-! # The catalog over whole runs

    Five views of the tables and their indexes are updated by different calls:
    tables by folded name, names by id, index keys by id, indexes by table, and
    the copy of the indexes inside each table.

    `Coherent` says that the views agree.  It is kept by every call together with
    the number of ids handed out so far, which is what makes a new id new. -/

namespace MattSql

open FiniteMap

/-! ## Calls -/

/-- The calls that change the catalog. -/
inductive CatalogCall where
  | createTable (request : CreateTableRequest)
  | dropTable (tableName : Bytes)
  | setTableHeapRoot (tableId rootPageId : Nat)
  | createIndex (request : CreateIndexRequest)

/-- What a call answers. -/
inductive CatalogReply where
  | table (result : Result TableInfo)
  | index (result : Result IndexInfo)
  | status (result : Result Unit)

def catalogStep (catalog : InMemoryCatalog) : CatalogCall → CatalogReply × InMemoryCatalog
  | .createTable request =>
    (.table (catalog.createTable request).1, (catalog.createTable request).2)
  | .dropTable tableName =>
    (.status (catalog.dropTable tableName).1, (catalog.dropTable tableName).2)
  | .setTableHeapRoot tableId rootPageId =>
    (.status (catalog.setTableHeapRoot tableId rootPageId).1,
      (catalog.setTableHeapRoot tableId rootPageId).2)
  | .createIndex request =>
    (.index (catalog.createIndex request).1, (catalog.createIndex request).2)

/-- The ids handed out in a run, in order. -/
structure HandedOut where
  tableIds : List Nat := []
  indexIds : List Nat := []

/-- One call adds the id it hands out, if it does. -/
def HandedOut.track (ids : HandedOut) : CatalogCall × CatalogReply → HandedOut
  | (_, .table (.ok table)) => { ids with tableIds := ids.tableIds ++ [table.id] }
  | (_, .index (.ok index)) => { ids with indexIds := ids.indexIds ++ [index.id] }
  | _ => ids

/-- The call failed. -/
def CatalogReply.IsError : CatalogReply → Prop
  | .table (.error _) => True
  | .index (.error _) => True
  | .status (.error _) => True
  | _ => False

/-! ## The invariant -/

/-- The indexes stored for a table. -/
def InMemoryCatalog.tableIndexes (catalog : InMemoryCatalog) (key : Bytes) :
    Finmap fun _ : Bytes => IndexInfo :=
  (catalog.indexesByTableName.lookup key).getD ∅

/-- What an index of a table promises. -/
structure IndexInfo.Valid (index : IndexInfo) (table : TableInfo) : Prop where
  owner : index.tableId = table.id
  named : index.name ≠ []
  keyed : index.schema.keyColumns ≠ []
  inRange : ∀ column ∈ index.schema.keyColumns, column < table.schema.columns.length
  distinct : index.schema.keyColumns.Nodup

/-- The five views agree. -/
structure InMemoryCatalog.Coherent (catalog : InMemoryCatalog) : Prop where
  /-- A table is stored under its folded name, and its id leads there. -/
  byName : ∀ key table, catalog.tablesByName.lookup key = some table →
    key = foldIdentifierKey table.name ∧ catalog.tableNamesById.lookup table.id = some key
  /-- An id leads to the table with this id. -/
  byId : ∀ id key, catalog.tableNamesById.lookup id = some key →
    ∃ table, catalog.tablesByName.lookup key = some table ∧ table.id = id
  /-- Names are not empty and schemas are valid. -/
  tables : ∀ key table, catalog.tablesByName.lookup key = some table →
    table.name ≠ [] ∧ table.schema.Valid
      ∧ (table.indexes.map fun index => foldIdentifierKey index.name).Nodup
      ∧ ∀ index ∈ table.indexes, index.Valid table
  /-- The indexes of a table are those stored for it, under their folded names. -/
  indexes : ∀ key table, catalog.tablesByName.lookup key = some table →
    ∀ indexKey index, (catalog.tableIndexes key).lookup indexKey = some index
      ↔ index ∈ table.indexes ∧ indexKey = foldIdentifierKey index.name
  /-- A name without a table has no indexes. -/
  noIndexes : ∀ key, key ∉ catalog.tablesByName → key ∉ catalog.indexesByTableName
  /-- An index id leads to the one index with this id. -/
  indexIds : ∀ id key indexKey, catalog.indexKeysById.lookup id = some (key, indexKey)
    ↔ ∃ table index, catalog.tablesByName.lookup key = some table ∧ index ∈ table.indexes
      ∧ index.id = id ∧ indexKey = foldIdentifierKey index.name

/-- The ids handed out are the numbers from 1 on, the counters stand behind
    them, and every id in use is one of them. -/
structure InMemoryCatalog.Counts (catalog : InMemoryCatalog) (ids : HandedOut) : Prop where
  tableIds : ids.tableIds = (List.range ids.tableIds.length).map fun i => (i + 1) % 2 ^ 64
  indexIds : ids.indexIds = (List.range ids.indexIds.length).map fun i => (i + 1) % 2 ^ 64
  nextTableId : catalog.nextTableId = (ids.tableIds.length + 1) % 2 ^ 64
  nextIndexId : catalog.nextIndexId = (ids.indexIds.length + 1) % 2 ^ 64
  usedTableIds : ∀ id ∈ catalog.tableNamesById, id ∈ ids.tableIds
  usedIndexIds : ∀ id ∈ catalog.indexKeysById, id ∈ ids.indexIds

/-! ## What each call can do -/

/-- Creating a table fails and changes nothing, or stores a valid table under a
    new name and the next id. -/
theorem InMemoryCatalog.createTable_cases {catalog : InMemoryCatalog}
    (hfresh : catalog.nextTableId ∉ catalog.tableNamesById) (request : CreateTableRequest) :
    (∃ st, catalog.createTable request = (.error st, catalog))
      ∨ ∃ table : TableInfo, table.id = catalog.nextTableId ∧ table.name ≠ []
        ∧ table.schema.Valid ∧ table.indexes = []
        ∧ foldIdentifierKey table.name ∉ catalog.tablesByName
        ∧ catalog.createTable request
          = (.ok table, catalog.allocateTableId.2.withTable table) := by
  by_cases hname : request.name = []
  · exact .inl (catalog.createTable_refused (.inl hname))
  by_cases hcolumns : request.schema.columns = []
  · exact .inl (catalog.createTable_refused (.inr (.inl hcolumns)))
  by_cases hnew : foldIdentifierKey request.name ∈ catalog.tablesByName
  · exact .inl (catalog.createTable_refused (.inr (.inr (.inl hnew))))
  cases hvalid : validateColumns 0 [] request.schema.columns with
  | error st =>
      exact .inl (catalog.createTable_refused (.inr (.inr (.inr ⟨st, hvalid⟩))))
  | ok columns =>
      refine .inr ⟨{ id := catalog.nextTableId, name := request.name, schema := ⟨columns⟩ }, rfl,
        hname, validateColumns_valid hcolumns hvalid, rfl, hnew, ?_⟩
      rw [InMemoryCatalog.createTable_eq hname hcolumns hnew hvalid, if_neg hfresh]

/-- The catalog without a table. -/
def InMemoryCatalog.withoutTable (catalog : InMemoryCatalog) (key : Bytes) (table : TableInfo) :
    InMemoryCatalog :=
  { catalog with
    tableNamesById := catalog.tableNamesById.erase table.id
    indexKeysById := table.indexes.foldl (fun keys index => keys.erase index.id)
      catalog.indexKeysById
    indexesByTableName := catalog.indexesByTableName.erase key
    tablesByName := catalog.tablesByName.erase key }

theorem InMemoryCatalog.dropTable_cases (catalog : InMemoryCatalog) (tableName : Bytes) :
    (∃ st, catalog.dropTable tableName = (.error st, catalog))
      ∨ ∃ key table, catalog.tablesByName.lookup key = some table
        ∧ catalog.dropTable tableName = (.ok (), catalog.withoutTable key table) := by
  rw [InMemoryCatalog.dropTable, InMemoryCatalog.eraseTable]
  cases hlookup : catalog.tablesByName.lookup (foldIdentifierKey tableName) with
  | none => exact .inl ⟨_, rfl⟩
  | some table => exact .inr ⟨_, table, hlookup, rfl⟩

/-- The catalog with a stored table replaced. -/
def InMemoryCatalog.replaceTable (catalog : InMemoryCatalog) (key : Bytes) (table : TableInfo) :
    InMemoryCatalog :=
  { catalog with tablesByName := catalog.tablesByName.insert key table }

theorem InMemoryCatalog.setTableHeapRoot_cases {catalog : InMemoryCatalog}
    (hcatalog : catalog.Coherent) (tableId rootPageId : Nat) :
    (∃ st, catalog.setTableHeapRoot tableId rootPageId = (.error st, catalog))
      ∨ ∃ key table, catalog.tablesByName.lookup key = some table
        ∧ catalog.setTableHeapRoot tableId rootPageId
          = (.ok (), catalog.replaceTable key { table with heapRootPageId := rootPageId }) := by
  by_cases hroot : rootPageId = kInvalidPageId
  · exact .inl ⟨_, by rw [InMemoryCatalog.setTableHeapRoot, if_pos hroot]; rfl⟩
  rw [InMemoryCatalog.setTableHeapRoot, if_neg hroot]
  cases hid : catalog.tableNamesById.lookup tableId with
  | none =>
      have hload : catalog.loadTableById tableId
          = errorResult .notFound (ascii "table not found") := by
        rw [InMemoryCatalog.loadTableById, hid]
      rw [hload]
      exact .inl ⟨_, rfl⟩
  | some key =>
      obtain ⟨table, hlookup, rfl⟩ := hcatalog.byId tableId key hid
      have hload : catalog.loadTableById table.id = .ok table := by
        rw [InMemoryCatalog.loadTableById, hid]
        dsimp only
        rw [hlookup]
      refine .inr ⟨key, table, hlookup, ?_⟩
      rw [hload]
      dsimp only
      rw [InMemoryCatalog.updateTable]
      dsimp only
      rw [hid]
      dsimp only
      rw [hlookup]
      rfl

/-- The catalog with one more index of a table. -/
def InMemoryCatalog.withIndex (catalog : InMemoryCatalog) (key : Bytes) (table : TableInfo)
    (index : IndexInfo) : InMemoryCatalog :=
  { catalog with
    tablesByName := catalog.tablesByName.insert key { table with indexes := table.indexes ++ [index] }
    indexesByTableName := catalog.indexesByTableName.insert key
      ((catalog.tableIndexes key).insert (foldIdentifierKey index.name) index)
    indexKeysById := catalog.indexKeysById.insert index.id (key, foldIdentifierKey index.name) }

/-- Key columns that pass the check are in range and distinct. -/
theorem validateKeyColumns_ok {columnCount : Nat} {seen columns : List Nat}
    (h : validateKeyColumns columnCount seen columns = .ok ()) :
    (∀ column ∈ columns, column < columnCount ∧ column ∉ seen) ∧ columns.Nodup := by
  induction columns generalizing seen with
  | nil => exact ⟨by simp, List.nodup_nil⟩
  | cons column rest ih =>
      obtain ⟨hrange, h⟩ := guard_ok_iff.mp h
      obtain ⟨hseen, h⟩ := guard_ok_iff.mp h
      obtain ⟨hrest, hnodup⟩ := ih h
      refine ⟨?_, List.nodup_cons.mpr ⟨fun hmem => ?_, hnodup⟩⟩
      · intro other hother
        rcases List.mem_cons.mp hother with rfl | hother
        · exact ⟨Nat.lt_of_not_le hrange, hseen⟩
        · obtain ⟨hlt, hnew⟩ := hrest other hother
          exact ⟨hlt, fun hmem => hnew (List.mem_cons_of_mem _ hmem)⟩
      · exact (hrest column hmem).2 List.mem_cons_self

/-- What `LoadIndex` finds. -/
theorem InMemoryCatalog.loadIndex_eq {catalog : InMemoryCatalog} {key : Bytes} {table : TableInfo}
    (htable : catalog.tablesByName.lookup key = some table) (indexKey : Bytes) :
    catalog.loadIndex key indexKey
      = match (catalog.tableIndexes key).lookup indexKey with
        | none => errorResult .notFound (ascii "index not found")
        | some index => .ok index := by
  rw [InMemoryCatalog.loadIndex, htable, InMemoryCatalog.tableIndexes]
  dsimp only
  cases catalog.indexesByTableName.lookup key with
  | none => rfl
  | some indexes => rfl

/-- Creating an index fails and changes nothing, or adds a valid index under a
    new name and the next id. -/
theorem InMemoryCatalog.createIndex_cases {catalog : InMemoryCatalog}
    (hfresh : catalog.nextIndexId ∉ catalog.indexKeysById) (request : CreateIndexRequest) :
    (∃ st, catalog.createIndex request = (.error st, catalog))
      ∨ ∃ key table, ∃ index : IndexInfo, catalog.tablesByName.lookup key = some table
        ∧ index.id = catalog.nextIndexId ∧ index.Valid table
        ∧ foldIdentifierKey index.name ∉ catalog.tableIndexes key
        ∧ catalog.createIndex request
          = (.ok index, catalog.allocateIndexId.2.withIndex key table index) := by
  by_cases htableName : request.tableName = []
  · rw [InMemoryCatalog.createIndex, if_pos htableName]
    exact .inl ⟨_, rfl⟩
  by_cases hname : request.schema.name = []
  · rw [InMemoryCatalog.createIndex, if_neg htableName, if_pos hname]
    exact .inl ⟨_, rfl⟩
  by_cases hkeys : request.schema.keyColumns = []
  · rw [InMemoryCatalog.createIndex, if_neg htableName, if_neg hname, if_pos hkeys]
    exact .inl ⟨_, rfl⟩
  rw [InMemoryCatalog.createIndex, if_neg htableName, if_neg hname, if_neg hkeys]
  dsimp only
  cases htable : catalog.tablesByName.lookup (foldIdentifierKey request.tableName) with
  | none =>
      rw [InMemoryCatalog.loadTable, htable]
      exact .inl ⟨_, rfl⟩
  | some table =>
      rw [InMemoryCatalog.loadTable, htable]
      dsimp only
      rw [InMemoryCatalog.loadIndex_eq htable]
      cases hindex : (catalog.tableIndexes (foldIdentifierKey request.tableName)).lookup
          (foldIdentifierKey request.schema.name) with
      | some index => exact .inl ⟨_, rfl⟩
      | none =>
          dsimp only [errorResult]
          rw [if_neg (fun h => h rfl)]
          -- the table is there and the name is free: only the key columns can still be wrong
          cases hcolumns : validateKeyColumns table.schema.columns.length []
              request.schema.keyColumns with
          | error st => exact .inl ⟨st, rfl⟩
          | ok done =>
              have hnew := Finmap.lookup_eq_none.mp hindex
              obtain ⟨hrange, hnodup⟩ := validateKeyColumns_ok hcolumns
              have hvalid : IndexInfo.Valid ⟨catalog.nextIndexId, request.schema.name, table.id,
                  request.schema, kInvalidPageId⟩ table :=
                ⟨rfl, hname, hkeys, fun column hmem => (hrange column hmem).1, hnodup⟩
              refine .inr ⟨_, table, _, htable, rfl, hvalid, hnew, ?_⟩
              show InMemoryCatalog.storeIndex _ _ _ _ = _
              rw [InMemoryCatalog.storeIndex]
              have htable' : catalog.allocateIndexId.2.tablesByName.lookup
                  (foldIdentifierKey request.tableName) = some table := htable
              rw [htable']
              dsimp only
              have hfresh' : catalog.allocateIndexId.1 ∉ catalog.allocateIndexId.2.indexKeysById :=
                hfresh
              have hnew' : foldIdentifierKey request.schema.name
                  ∉ (catalog.allocateIndexId.2.indexesByTableName.lookup
                    (foldIdentifierKey request.tableName)).getD ∅ := hnew
              rw [if_neg (fun h => h rfl), if_neg hfresh', if_neg hnew']
              rfl

/-! ## Every call keeps the views together -/

variable {catalog : InMemoryCatalog}

/-- A new table. -/
theorem InMemoryCatalog.Coherent.withTable (h : catalog.Coherent) {table : TableInfo}
    (hname : table.name ≠ []) (hschema : table.schema.Valid) (hindexes : table.indexes = [])
    (hkey : foldIdentifierKey table.name ∉ catalog.tablesByName)
    (hid : table.id ∉ catalog.tableNamesById) : (catalog.withTable table).Coherent where
  byName := by
    intro key other hother
    rcases lookup_insert_cases hother with ⟨rfl, rfl⟩ | ⟨-, hother⟩
    · exact ⟨rfl, Finmap.lookup_insert _⟩
    · obtain ⟨hfold, hids⟩ := h.byName key other hother
      exact ⟨hfold, (Finmap.lookup_insert_of_ne _ (ne_of_lookup_of_notMem hids hid)).trans hids⟩
  byId := by
    intro id key hlookup
    rcases lookup_insert_cases hlookup with ⟨rfl, rfl⟩ | ⟨-, hlookup⟩
    · exact ⟨table, Finmap.lookup_insert _, rfl⟩
    · obtain ⟨other, hother, hother'⟩ := h.byId id key hlookup
      exact ⟨other, (Finmap.lookup_insert_of_ne _ (ne_of_lookup_of_notMem hother hkey)).trans hother,
        hother'⟩
  tables := by
    intro key other hother
    rcases lookup_insert_cases hother with ⟨rfl, rfl⟩ | ⟨-, hother⟩
    · refine ⟨hname, hschema, ?_, ?_⟩
      · rw [hindexes]
        exact List.nodup_nil
      · rw [hindexes]
        intro index hindex
        cases hindex
    · exact h.tables key other hother
  indexes := by
    intro key other hother indexKey index
    rcases lookup_insert_cases hother with ⟨rfl, rfl⟩ | ⟨-, hother⟩
    · have hnone : (catalog.withTable table).tableIndexes (foldIdentifierKey table.name) = ∅ := by
        show (catalog.indexesByTableName.lookup _).getD ∅ = ∅
        rw [Finmap.lookup_eq_none.mpr (h.noIndexes _ hkey)]
        rfl
      rw [hnone, hindexes, Finmap.lookup_empty]
      simp
    · exact h.indexes key other hother indexKey index
  noIndexes := by
    intro key hmem
    refine h.noIndexes key fun hold => hmem ?_
    exact Finmap.mem_insert.mpr (.inr hold)
  indexIds := by
    intro id key indexKey
    refine (h.indexIds id key indexKey).trans ⟨?_, ?_⟩
    · rintro ⟨other, index, hother, hrest⟩
      exact ⟨other, index,
        (Finmap.lookup_insert_of_ne _ (ne_of_lookup_of_notMem hother hkey)).trans hother, hrest⟩
    · rintro ⟨other, index, hother, hmem, hrest⟩
      rcases lookup_insert_cases hother with ⟨rfl, rfl⟩ | ⟨-, hother⟩
      · rw [hindexes] at hmem
        cases hmem
      · exact ⟨other, index, hother, hmem, hrest⟩

/-- Ids lead to one name only. -/
theorem InMemoryCatalog.Coherent.key_inj (h : catalog.Coherent) {key key' : Bytes}
    {table table' : TableInfo} (htable : catalog.tablesByName.lookup key = some table)
    (htable' : catalog.tablesByName.lookup key' = some table') (hid : table.id = table'.id) :
    key = key' := by
  have hkey := (h.byName key table htable).2
  rw [hid, (h.byName key' table' htable').2] at hkey
  exact (Option.some.inj hkey).symm

/-- A dropped table. -/
theorem InMemoryCatalog.Coherent.withoutTable (h : catalog.Coherent) {key : Bytes}
    {table : TableInfo} (htable : catalog.tablesByName.lookup key = some table) :
    (catalog.withoutTable key table).Coherent where
  byName := by
    intro other table' hother
    obtain ⟨hne, hother⟩ := lookup_erase_cases hother
    obtain ⟨hfold, hids⟩ := h.byName other table' hother
    refine ⟨hfold, (Finmap.lookup_erase_ne fun hid => hne ?_).trans hids⟩
    exact h.key_inj hother htable hid
  byId := by
    intro id other hlookup
    obtain ⟨hne, hlookup⟩ := lookup_erase_cases hlookup
    obtain ⟨table', hother, rfl⟩ := h.byId id other hlookup
    refine ⟨table', (Finmap.lookup_erase_ne ?_).trans hother, rfl⟩
    rintro rfl
    exact hne (congrArg TableInfo.id (Option.some.inj (hother.symm.trans htable)))
  tables := by
    intro other table' hother
    exact h.tables other table' (lookup_erase_cases hother).2
  indexes := by
    intro other table' hother indexKey index
    obtain ⟨hne, hother⟩ := lookup_erase_cases hother
    have hsame : (catalog.withoutTable key table).tableIndexes other = catalog.tableIndexes other := by
      show ((catalog.indexesByTableName.erase key).lookup other).getD ∅ = _
      rw [Finmap.lookup_erase_ne hne]
      rfl
    rw [hsame]
    exact h.indexes other table' hother indexKey index
  noIndexes := by
    intro other hmem hindexes
    obtain ⟨hne, hindexes⟩ := Finmap.mem_erase.mp hindexes
    exact h.noIndexes other (fun hold => hmem (Finmap.mem_erase.mpr ⟨hne, hold⟩)) hindexes
  indexIds := by
    intro id other indexKey
    show (table.indexes.foldl (fun keys index => keys.erase index.id)
      catalog.indexKeysById).lookup id = some (other, indexKey) ↔ _
    rw [lookup_foldl_erase IndexInfo.id]
    constructor
    · intro hlookup
      split at hlookup
      · cases hlookup
      · rename_i hgone
        obtain ⟨table', index, hother, hmem, hid, hkey⟩ := (h.indexIds id other indexKey).mp hlookup
        refine ⟨table', index, (Finmap.lookup_erase_ne ?_).trans hother, hmem, hid, hkey⟩
        rintro rfl
        obtain rfl := Option.some.inj (hother.symm.trans htable)
        exact hgone (List.mem_map.mpr ⟨index, hmem, hid⟩)
    · rintro ⟨table', index, hother, hmem, hid, hkey⟩
      obtain ⟨hne, hother⟩ := lookup_erase_cases hother
      have hlookup := (h.indexIds id other indexKey).mpr ⟨table', index, hother, hmem, hid, hkey⟩
      rw [if_neg, hlookup]
      intro hgone
      obtain ⟨index', hmem', hid'⟩ := List.mem_map.mp hgone
      have hlookup' := (h.indexIds id key (foldIdentifierKey index'.name)).mpr
        ⟨table, index', htable, hmem', hid', rfl⟩
      rw [hlookup] at hlookup'
      exact hne (congrArg Prod.fst (Option.some.inj hlookup'))

section Replaced

variable {key : Bytes} {table new : TableInfo}

/-- A table stored again under its name and id is where both lead. -/
theorem InMemoryCatalog.Coherent.byName_replaced (h : catalog.Coherent)
    (htable : catalog.tablesByName.lookup key = some table) (hname : new.name = table.name)
    (hid : new.id = table.id) (other : Bytes) (found : TableInfo)
    (hfound : (catalog.tablesByName.insert key new).lookup other = some found) :
    other = foldIdentifierKey found.name ∧ catalog.tableNamesById.lookup found.id = some other := by
  rcases lookup_insert_cases hfound with ⟨rfl, rfl⟩ | ⟨-, hold⟩
  · rw [hname, hid]
    exact h.byName other table htable
  · exact h.byName other found hold

theorem InMemoryCatalog.Coherent.byId_replaced (h : catalog.Coherent)
    (htable : catalog.tablesByName.lookup key = some table) (hid : new.id = table.id) (id : Nat)
    (other : Bytes) (hlookup : catalog.tableNamesById.lookup id = some other) :
    ∃ found, (catalog.tablesByName.insert key new).lookup other = some found ∧ found.id = id := by
  obtain ⟨found, hfound, rfl⟩ := h.byId id other hlookup
  rcases lookup_insert_over htable hfound new with ⟨rfl, rfl, hnew⟩ | hold
  · exact ⟨new, hnew, hid⟩
  · exact ⟨found, hold, rfl⟩

end Replaced

/-- A table stored again with another heap root. -/
theorem InMemoryCatalog.Coherent.replaceTable (h : catalog.Coherent) {key : Bytes}
    {table : TableInfo} (htable : catalog.tablesByName.lookup key = some table) (root : Nat) :
    (catalog.replaceTable key { table with heapRootPageId := root }).Coherent where
  byName := h.byName_replaced htable rfl rfl
  byId := h.byId_replaced htable rfl
  tables := by
    intro other table' hother
    rcases lookup_insert_cases hother with ⟨rfl, rfl⟩ | ⟨-, hother⟩
    · obtain ⟨hname, hschema, hnodup, hvalid⟩ := h.tables other table htable
      refine ⟨hname, hschema, hnodup, fun index hindex => ?_⟩
      obtain ⟨howner, hnamed, hkeyed, hrange, hdistinct⟩ := hvalid index hindex
      exact ⟨howner, hnamed, hkeyed, hrange, hdistinct⟩
    · exact h.tables other table' hother
  indexes := by
    intro other table' hother
    rcases lookup_insert_cases hother with ⟨rfl, rfl⟩ | ⟨-, hother⟩
    · exact h.indexes other table htable
    · exact h.indexes other table' hother
  noIndexes := by
    intro other hmem
    exact h.noIndexes other fun hold => hmem (Finmap.mem_insert.mpr (.inr hold))
  indexIds := by
    intro id other indexKey
    refine (h.indexIds id other indexKey).trans ⟨?_, ?_⟩
    · rintro ⟨table', index, hother, hrest⟩
      rcases lookup_insert_over htable hother { table with heapRootPageId := root } with
        ⟨rfl, rfl, hnew⟩ | hold
      · exact ⟨_, index, hnew, hrest⟩
      · exact ⟨table', index, hold, hrest⟩
    · rintro ⟨table', index, hother, hrest⟩
      rcases lookup_insert_cases hother with ⟨rfl, rfl⟩ | ⟨-, hother⟩
      · exact ⟨table, index, htable, hrest⟩
      · exact ⟨table', index, hother, hrest⟩

/-- An index under a folded name that no index of the table has. -/
theorem InMemoryCatalog.Coherent.index_new (h : catalog.Coherent) {key : Bytes} {table : TableInfo}
    (htable : catalog.tablesByName.lookup key = some table) {index other : IndexInfo}
    (hnew : foldIdentifierKey index.name ∉ catalog.tableIndexes key) (hother : other ∈ table.indexes) :
    foldIdentifierKey other.name ≠ foldIdentifierKey index.name := by
  intro heq
  have hfound := (h.indexes key table htable _ other).mpr ⟨hother, rfl⟩
  exact hnew (Finmap.mem_iff.mpr ⟨other, heq ▸ hfound⟩)

/-- A new index. -/
theorem InMemoryCatalog.Coherent.withIndex (h : catalog.Coherent) {key : Bytes}
    {table : TableInfo} (htable : catalog.tablesByName.lookup key = some table) {index : IndexInfo}
    (hvalid : index.Valid table)
    (hnew : foldIdentifierKey index.name ∉ catalog.tableIndexes key)
    (hid : index.id ∉ catalog.indexKeysById) : (catalog.withIndex key table index).Coherent where
  byName := h.byName_replaced htable rfl rfl
  byId := h.byId_replaced htable rfl
  tables := by
    intro other table' hother
    rcases lookup_insert_cases hother with ⟨rfl, rfl⟩ | ⟨-, hother⟩
    · obtain ⟨hname, hschema, hnodup, hindexes⟩ := h.tables other table htable
      refine ⟨hname, hschema, ?_, fun index' hindex' => ?_⟩
      · rw [List.map_append, List.nodup_append]
        refine ⟨hnodup, List.nodup_singleton _, ?_⟩
        intro name hname name' hname'
        obtain ⟨index', hmem, rfl⟩ := List.mem_map.mp hname
        rw [List.mem_singleton.mp hname']
        exact h.index_new htable hnew hmem
      · have hvalid' : index'.Valid table := by
          rcases List.mem_append.mp hindex' with hmem | hmem
          · exact hindexes index' hmem
          · rw [List.mem_singleton.mp hmem]
            exact hvalid
        exact ⟨hvalid'.owner, hvalid'.named, hvalid'.keyed, hvalid'.inRange, hvalid'.distinct⟩
    · exact h.tables other table' hother
  indexes := by
    intro other table' hother indexKey index'
    rcases lookup_insert_cases hother with ⟨rfl, rfl⟩ | ⟨hne, hother⟩
    · have hstored : (catalog.withIndex other table index).tableIndexes other
          = (catalog.tableIndexes other).insert (foldIdentifierKey index.name) index := by
        show ((catalog.indexesByTableName.insert other _).lookup other).getD ∅ = _
        rw [Finmap.lookup_insert]
        rfl
      rw [hstored, List.mem_append, List.mem_singleton]
      constructor
      · intro hlookup
        rcases lookup_insert_cases hlookup with ⟨rfl, rfl⟩ | ⟨-, hlookup⟩
        · exact ⟨.inr rfl, rfl⟩
        · obtain ⟨hmem, hkey⟩ := (h.indexes other table htable indexKey index').mp hlookup
          exact ⟨.inl hmem, hkey⟩
      · rintro ⟨hmem | rfl, rfl⟩
        · rw [Finmap.lookup_insert_of_ne _ (h.index_new htable hnew hmem)]
          exact (h.indexes other table htable _ index').mpr ⟨hmem, rfl⟩
        · exact Finmap.lookup_insert _
    · have hsame : (catalog.withIndex key table index).tableIndexes other
          = catalog.tableIndexes other := by
        show ((catalog.indexesByTableName.insert key _).lookup other).getD ∅ = _
        rw [Finmap.lookup_insert_of_ne _ hne]
        rfl
      rw [hsame]
      exact h.indexes other table' hother indexKey index'
  noIndexes := by
    intro other hmem hindexes
    rcases Finmap.mem_insert.mp hindexes with rfl | hindexes
    · exact hmem (Finmap.mem_insert.mpr (.inl rfl))
    · exact h.noIndexes other (fun hold => hmem (Finmap.mem_insert.mpr (.inr hold))) hindexes
  indexIds := by
    intro id other indexKey
    constructor
    · intro hlookup
      rcases lookup_insert_cases hlookup with ⟨rfl, heq⟩ | ⟨-, hlookup⟩
      · cases heq
        exact ⟨_, index, Finmap.lookup_insert _, List.mem_append_right _ List.mem_cons_self, rfl, rfl⟩
      · obtain ⟨table', index', hother, hmem, hrest⟩ := (h.indexIds id other indexKey).mp hlookup
        rcases lookup_insert_over htable hother { table with indexes := table.indexes ++ [index] }
          with ⟨rfl, rfl, hnew⟩ | hold
        · exact ⟨_, index', hnew, List.mem_append_left _ hmem, hrest⟩
        · exact ⟨table', index', hold, hmem, hrest⟩
    · rintro ⟨table', index', hother, hmem, hid', rfl⟩
      -- an index that was there before has another id than the new one
      have hold : ∀ old, catalog.tablesByName.lookup other = some old → index' ∈ old.indexes →
          (catalog.withIndex key table index).indexKeysById.lookup id
            = some (other, foldIdentifierKey index'.name) := by
        intro old hold hmem
        have hlookup := (h.indexIds id other _).mpr ⟨old, index', hold, hmem, hid', rfl⟩
        exact (Finmap.lookup_insert_of_ne _ (ne_of_lookup_of_notMem hlookup hid)).trans hlookup
      rcases lookup_insert_cases hother with ⟨rfl, rfl⟩ | ⟨-, hother⟩
      · rcases List.mem_append.mp hmem with hmem | hmem
        · exact hold table htable hmem
        · obtain rfl := List.mem_singleton.mp hmem
          subst hid'
          exact Finmap.lookup_insert _
      · exact hold table' hother hmem

/-! ## Ids -/

/-- The numbers from 1 on do not come back before the counter wraps. -/
theorem counter_notMem {n : Nat} (hn : n < 2 ^ 64) :
    (n + 1) % 2 ^ 64 ∉ (List.range n).map fun i => (i + 1) % 2 ^ 64 := by
  intro hmem
  obtain ⟨i, hi, heq⟩ := List.mem_map.mp hmem
  have hi := List.mem_range.mp hi
  omega

/-- One more number handed out. -/
theorem counter_append {ids : List Nat}
    (h : ids = (List.range ids.length).map fun i => (i + 1) % 2 ^ 64) :
    ids ++ [(ids.length + 1) % 2 ^ 64]
      = (List.range (ids ++ [(ids.length + 1) % 2 ^ 64]).length).map
        fun i => (i + 1) % 2 ^ 64 := by
  rw [List.length_append, List.length_singleton, List.range_succ, List.map_append, ← h]
  rfl

theorem InMemoryCatalog.Counts.tableId_fresh {ids : HandedOut} (h : catalog.Counts ids)
    (hids : ids.tableIds.length < 2 ^ 64) : catalog.nextTableId ∉ catalog.tableNamesById := by
  intro hmem
  have hused := h.usedTableIds _ hmem
  rw [h.tableIds, h.nextTableId] at hused
  exact counter_notMem hids hused

theorem InMemoryCatalog.Counts.indexId_fresh {ids : HandedOut} (h : catalog.Counts ids)
    (hids : ids.indexIds.length < 2 ^ 64) : catalog.nextIndexId ∉ catalog.indexKeysById := by
  intro hmem
  have hused := h.usedIndexIds _ hmem
  rw [h.indexIds, h.nextIndexId] at hused
  exact counter_notMem hids hused

/-- A new table takes the next table id. -/
theorem InMemoryCatalog.Counts.withTable {ids : HandedOut} (h : catalog.Counts ids)
    {table : TableInfo} (hid : table.id = catalog.nextTableId) :
    (catalog.allocateTableId.2.withTable table).Counts
      { ids with tableIds := ids.tableIds ++ [table.id] } where
  tableIds := by
    rw [hid, h.nextTableId]
    exact counter_append h.tableIds
  indexIds := h.indexIds
  nextTableId := by
    show (catalog.nextTableId + 1) % 2 ^ 64 = ((ids.tableIds ++ [table.id]).length + 1) % 2 ^ 64
    rw [h.nextTableId, List.length_append, List.length_singleton]
    omega
  nextIndexId := h.nextIndexId
  usedTableIds := by
    intro id hmem
    rcases Finmap.mem_insert.mp hmem with rfl | hmem
    · exact List.mem_append_right _ List.mem_cons_self
    · exact List.mem_append_left _ (h.usedTableIds id hmem)
  usedIndexIds := h.usedIndexIds

/-- A new index takes the next index id. -/
theorem InMemoryCatalog.Counts.withIndex {ids : HandedOut} (h : catalog.Counts ids) (key : Bytes)
    (table : TableInfo) {index : IndexInfo} (hid : index.id = catalog.nextIndexId) :
    (catalog.allocateIndexId.2.withIndex key table index).Counts
      { ids with indexIds := ids.indexIds ++ [index.id] } where
  tableIds := h.tableIds
  indexIds := by
    rw [hid, h.nextIndexId]
    exact counter_append h.indexIds
  nextTableId := h.nextTableId
  nextIndexId := by
    show (catalog.nextIndexId + 1) % 2 ^ 64 = ((ids.indexIds ++ [index.id]).length + 1) % 2 ^ 64
    rw [h.nextIndexId, List.length_append, List.length_singleton]
    omega
  usedTableIds := h.usedTableIds
  usedIndexIds := by
    intro id hmem
    rcases Finmap.mem_insert.mp hmem with rfl | hmem
    · exact List.mem_append_right _ List.mem_cons_self
    · exact List.mem_append_left _ (h.usedIndexIds id hmem)

/-- A dropped table gives its ids back to nobody. -/
theorem InMemoryCatalog.Counts.withoutTable {ids : HandedOut} (h : catalog.Counts ids) (key : Bytes)
    (table : TableInfo) : (catalog.withoutTable key table).Counts ids where
  tableIds := h.tableIds
  indexIds := h.indexIds
  nextTableId := h.nextTableId
  nextIndexId := h.nextIndexId
  usedTableIds := by
    intro id hmem
    exact h.usedTableIds id (Finmap.mem_erase.mp hmem).2
  usedIndexIds := by
    intro id hmem
    obtain ⟨keys, hlookup⟩ := Finmap.mem_iff.mp hmem
    refine h.usedIndexIds id (Finmap.mem_iff.mpr ⟨keys, ?_⟩)
    have hold := lookup_foldl_erase (m := catalog.indexKeysById) (b := id) IndexInfo.id table.indexes
    rw [show (catalog.withoutTable key table).indexKeysById
      = table.indexes.foldl (fun keys index => keys.erase index.id) catalog.indexKeysById from rfl,
      hold] at hlookup
    split at hlookup
    · cases hlookup
    · exact hlookup

/-! ## Whole runs -/

/-- One call keeps the views together and the counters behind the ids in use,
    and changes nothing when it fails. -/
theorem catalogStep_kept {ids : HandedOut} (h : catalog.Coherent) (hcounts : catalog.Counts ids)
    (htables : ids.tableIds.length < 2 ^ 64) (hindexes : ids.indexIds.length < 2 ^ 64)
    (call : CatalogCall) :
    (catalogStep catalog call).2.Coherent
      ∧ (catalogStep catalog call).2.Counts (ids.track (call, (catalogStep catalog call).1))
      ∧ ((catalogStep catalog call).1.IsError → (catalogStep catalog call).2 = catalog) := by
  -- the next id is new as long as the counter has not wrapped
  have hfreshTable := hcounts.tableId_fresh htables
  have hfreshIndex := hcounts.indexId_fresh hindexes
  cases call with
  | createTable request =>
      rcases InMemoryCatalog.createTable_cases hfreshTable request with
        ⟨st, heq⟩ | ⟨table, hid, hname, hschema, hnone, hkey, heq⟩
      · rw [catalogStep, heq]
        exact ⟨h, hcounts, fun _ => rfl⟩
      · rw [catalogStep, heq]
        -- taking an id changes no view
        have hallocated : catalog.allocateTableId.2.Coherent :=
          ⟨h.byName, h.byId, h.tables, h.indexes, h.noIndexes, h.indexIds⟩
        refine ⟨hallocated.withTable hname hschema hnone hkey ?_, hcounts.withTable hid, ?_⟩
        · rw [hid]
          exact hfreshTable
        · exact fun herror => herror.elim
  | dropTable tableName =>
      rcases catalog.dropTable_cases tableName with ⟨st, heq⟩ | ⟨key, table, htable, heq⟩
      · rw [catalogStep, heq]
        exact ⟨h, hcounts, fun _ => rfl⟩
      · rw [catalogStep, heq]
        exact ⟨h.withoutTable htable, hcounts.withoutTable key table, fun herror => herror.elim⟩
  | setTableHeapRoot tableId rootPageId =>
      rcases InMemoryCatalog.setTableHeapRoot_cases h tableId rootPageId with
        ⟨st, heq⟩ | ⟨key, table, htable, heq⟩
      · rw [catalogStep, heq]
        exact ⟨h, hcounts, fun _ => rfl⟩
      · rw [catalogStep, heq]
        refine ⟨h.replaceTable htable rootPageId, ?_, fun herror => herror.elim⟩
        exact ⟨hcounts.tableIds, hcounts.indexIds, hcounts.nextTableId, hcounts.nextIndexId,
          hcounts.usedTableIds, hcounts.usedIndexIds⟩
  | createIndex request =>
      rcases InMemoryCatalog.createIndex_cases hfreshIndex request with
        ⟨st, heq⟩ | ⟨key, table, index, htable, hid, hvalid, hnew, heq⟩
      · rw [catalogStep, heq]
        exact ⟨h, hcounts, fun _ => rfl⟩
      · rw [catalogStep, heq]
        have hallocated : catalog.allocateIndexId.2.Coherent :=
          ⟨h.byName, h.byId, h.tables, h.indexes, h.noIndexes, h.indexIds⟩
        refine ⟨hallocated.withIndex htable hvalid hnew ?_, hcounts.withIndex key table hid, ?_⟩
        · rw [hid]
          exact hfreshIndex
        · exact fun herror => herror.elim

/-- Following a call never takes ids back. -/
theorem HandedOut.length_track (ids : HandedOut) (entry : CatalogCall × CatalogReply) :
    ids.tableIds.length ≤ (ids.track entry).tableIds.length
      ∧ ids.indexIds.length ≤ (ids.track entry).indexIds.length := by
  unfold HandedOut.track
  split <;> simp

/-- The ids a list of calls hands out. -/
def handedOut (calls : List CatalogCall) : HandedOut :=
  (Run.trace catalogStep {} calls).foldl HandedOut.track {}

/-- The views agree after every run. -/
theorem catalog_coherent (calls : List CatalogCall)
    (htables : (handedOut calls).tableIds.length < 2 ^ 64)
    (hindexes : (handedOut calls).indexIds.length < 2 ^ 64) :
    (Run.final catalogStep {} calls).Coherent
      ∧ (Run.final catalogStep {} calls).Counts (handedOut calls) := by
  -- the bound on the ids of a whole run bounds them at every call before
  suffices hrun : (handedOut calls).tableIds.length < 2 ^ 64 →
      (handedOut calls).indexIds.length < 2 ^ 64 →
      (Run.final catalogStep {} calls).Coherent
        ∧ (Run.final catalogStep {} calls).Counts (handedOut calls) from hrun htables hindexes
  refine Run.final_refines (R := fun (catalog : InMemoryCatalog) (ids : HandedOut) =>
    ids.tableIds.length < 2 ^ 64 → ids.indexIds.length < 2 ^ 64 →
      catalog.Coherent ∧ catalog.Counts ids) ?_ calls {} {} ?_
  · intro catalog ids call h htables hindexes
    obtain ⟨hlt, hlt'⟩ := ids.length_track (call, (catalogStep catalog call).1)
    have htables' := Nat.lt_of_le_of_lt hlt htables
    have hindexes' := Nat.lt_of_le_of_lt hlt' hindexes
    obtain ⟨hcoherent, hcounts⟩ := h htables' hindexes'
    obtain ⟨hnext, hcounts', -⟩ := catalogStep_kept hcoherent hcounts htables' hindexes' call
    exact ⟨hnext, hcounts'⟩
  · intro _ _
    refine ⟨⟨?_, ?_, ?_, ?_, ?_, ?_⟩, ⟨rfl, rfl, rfl, rfl, ?_, ?_⟩⟩
    · intro key table hlookup
      cases hlookup
    · intro id key hlookup
      cases hlookup
    · intro key table hlookup
      cases hlookup
    · intro key table hlookup
      cases hlookup
    · intro key _ hmem
      exact Finmap.notMem_empty hmem
    · intro id key indexKey
      constructor
      · intro hlookup
        cases hlookup
      · rintro ⟨table, index, hlookup, -⟩
        cases hlookup
    · intro id hmem
      exact (Finmap.notMem_empty hmem).elim
    · intro id hmem
      exact (Finmap.notMem_empty hmem).elim

/-! ## What the callers see -/

/-- The catalog holds this table. -/
def InMemoryCatalog.Holds (catalog : InMemoryCatalog) (table : TableInfo) : Prop :=
  ∃ key, catalog.tablesByName.lookup key = some table

/-- An order in which the tables of the hash map may be iterated. -/
def InMemoryCatalog.IteratesAs (catalog : InMemoryCatalog) (iterated : List TableInfo) : Prop :=
  (iterated : Multiset TableInfo) = catalog.tablesByName.entries.map Sigma.snd

/-- What the catalog promises to its callers. -/
structure InMemoryCatalog.Promises (catalog : InMemoryCatalog) (ids : HandedOut) : Prop where
  uniqueName : ∀ table table', catalog.Holds table → catalog.Holds table' →
    foldIdentifierKey table.name = foldIdentifierKey table'.name → table = table'
  uniqueId : ∀ table table', catalog.Holds table → catalog.Holds table' →
    table.id = table'.id → table = table'
  /-- The two lookups find the same tables. -/
  getByName : ∀ name table, catalog.getTable name = .ok table
    ↔ catalog.Holds table ∧ foldIdentifierKey table.name = foldIdentifierKey name
  getById : ∀ id table, catalog.getTableById id = .ok table
    ↔ catalog.Holds table ∧ table.id = id
  /-- No id is handed out twice. -/
  tableIdsOnce : ids.tableIds.Nodup
  indexIdsOnce : ids.indexIds.Nodup
  schemas : ∀ table, catalog.Holds table → table.name ≠ [] ∧ table.schema.Valid
  /-- The indexes of a table are those `GetIndex` finds for it. -/
  getIndex : ∀ table, catalog.Holds table →
    ∀ tableName, foldIdentifierKey tableName = foldIdentifierKey table.name →
    ∀ indexName index, catalog.getIndex tableName indexName = .ok index
      ↔ index ∈ table.indexes ∧ foldIdentifierKey index.name = foldIdentifierKey indexName
  indexNames : ∀ table, catalog.Holds table →
    (table.indexes.map fun index => foldIdentifierKey index.name).Nodup
  indexesValid : ∀ table, catalog.Holds table → ∀ index ∈ table.indexes, index.Valid table
  /-- `ListTables` lists every table once and in the order of creation, however
      the hash map is iterated. -/
  listed : ∀ iterated, catalog.IteratesAs iterated →
    (loadTables iterated).Nodup
      ∧ (∀ table, table ∈ loadTables iterated ↔ catalog.Holds table)
      ∧ (loadTables iterated).map TableInfo.id
        = ids.tableIds.filter (· ∈ catalog.tableNamesById)
  /-- A call that fails changes nothing. -/
  failed : ∀ call, (catalogStep catalog call).1.IsError → (catalogStep catalog call).2 = catalog

theorem InMemoryCatalog.Coherent.holds_iff (h : catalog.Coherent) {table : TableInfo} :
    catalog.Holds table
      ↔ catalog.tablesByName.lookup (foldIdentifierKey table.name) = some table := by
  constructor
  · rintro ⟨key, hlookup⟩
    rw [← (h.byName key table hlookup).1]
    exact hlookup
  · intro hlookup
    exact ⟨_, hlookup⟩

/-- The ids in use are those of the tables held. -/
theorem InMemoryCatalog.Coherent.mem_names_iff (h : catalog.Coherent) {id : Nat} :
    id ∈ catalog.tableNamesById ↔ ∃ table, catalog.Holds table ∧ table.id = id := by
  rw [Finmap.mem_iff]
  constructor
  · rintro ⟨key, hlookup⟩
    obtain ⟨table, htable, hid⟩ := h.byId id key hlookup
    exact ⟨table, ⟨key, htable⟩, hid⟩
  · rintro ⟨table, ⟨key, htable⟩, rfl⟩
    exact ⟨key, (h.byName key table htable).2⟩

theorem InMemoryCatalog.Coherent.getTableById_iff (h : catalog.Coherent) {id : Nat}
    {table : TableInfo} :
    catalog.getTableById id = .ok table ↔ catalog.Holds table ∧ table.id = id := by
  rw [InMemoryCatalog.getTableById, InMemoryCatalog.loadTableById]
  cases hid : catalog.tableNamesById.lookup id with
  | none =>
      have hunused : ¬ ∃ table, catalog.Holds table ∧ table.id = id := by
        rw [← h.mem_names_iff]
        exact Finmap.lookup_eq_none.mp hid
      refine ⟨fun hload => ?_, fun hheld => (hunused ⟨table, hheld⟩).elim⟩
      cases hload
  | some key =>
      obtain ⟨found, hfound, rfl⟩ := h.byId id key hid
      dsimp only
      rw [hfound]
      dsimp only
      constructor
      · intro hload
        cases hload
        exact ⟨⟨key, hfound⟩, rfl⟩
      · rintro ⟨⟨key', hheld⟩, heq⟩
        obtain rfl := h.key_inj hheld hfound heq
        rw [hfound] at hheld
        rw [Option.some.inj hheld]

/-- The tables iterated are those held, each once. -/
theorem InMemoryCatalog.IteratesAs.mem_iff {iterated : List TableInfo}
    (hiterated : catalog.IteratesAs iterated) {table : TableInfo} :
    table ∈ iterated ↔ catalog.Holds table := by
  rw [← Multiset.mem_coe, hiterated, Multiset.mem_map]
  constructor
  · rintro ⟨⟨key, held⟩, hmem, rfl⟩
    exact ⟨key, Finmap.lookup_eq_some_iff.mpr hmem⟩
  · rintro ⟨key, hlookup⟩
    exact ⟨⟨key, table⟩, Finmap.lookup_eq_some_iff.mp hlookup, rfl⟩

theorem InMemoryCatalog.IteratesAs.nodup (h : catalog.Coherent) {iterated : List TableInfo}
    (hiterated : catalog.IteratesAs iterated) : iterated.Nodup := by
  rw [← Multiset.coe_nodup, hiterated]
  refine Multiset.Nodup.map_on ?_ catalog.tablesByName.nodupKeys.nodup
  rintro ⟨key, table⟩ hmem ⟨key', table'⟩ hmem' rfl
  have hkey := (h.byName key table (Finmap.lookup_eq_some_iff.mpr hmem)).1
  have hkey' := (h.byName key' table (Finmap.lookup_eq_some_iff.mpr hmem')).1
  rw [hkey, hkey']

/-- Ids handed out before the counter wraps ascend. -/
theorem counter_pairwise {n : Nat} (hn : n < 2 ^ 64) :
    ((List.range n).map fun i => (i + 1) % 2 ^ 64).Pairwise (· < ·) := by
  rw [List.pairwise_map]
  refine List.Pairwise.imp_of_mem ?_ List.pairwise_lt_range
  intro i j hi hj hij
  have hj := List.mem_range.mp hj
  omega

/-- The listing is sorted by id, which is the order of creation. -/
theorem loadTables_ids {ids : HandedOut} (h : catalog.Coherent) (hcounts : catalog.Counts ids)
    (hids : ids.tableIds.length < 2 ^ 64) {iterated : List TableInfo}
    (hiterated : catalog.IteratesAs iterated) :
    (loadTables iterated).map TableInfo.id
      = ids.tableIds.filter (· ∈ catalog.tableNamesById) := by
  have hascend : ids.tableIds.Pairwise (· < ·) := by
    rw [hcounts.tableIds]
    exact counter_pairwise hids
  have hperm : (loadTables iterated).Perm iterated := List.mergeSort_perm _ _
  have hnodup : ((loadTables iterated).map TableInfo.id).Nodup := by
    refine List.Nodup.map_on ?_ (hperm.nodup_iff.mpr (hiterated.nodup h))
    intro table hmem table' hmem' hid
    obtain ⟨key, hlookup⟩ := hiterated.mem_iff.mp (hperm.mem_iff.mp hmem)
    obtain ⟨key', hlookup'⟩ := hiterated.mem_iff.mp (hperm.mem_iff.mp hmem')
    obtain rfl := h.key_inj hlookup hlookup' hid
    exact Option.some.inj (hlookup.symm.trans hlookup')
  have hsorted : ((loadTables iterated).map TableInfo.id).Pairwise (· ≤ ·) := by
    rw [List.pairwise_map]
    refine List.Pairwise.imp ?_ (List.pairwise_mergeSort ?_ ?_ iterated)
    · intro left right hle
      exact of_decide_eq_true hle
    · intro a b c hab hbc
      simp only [decide_eq_true_eq] at hab hbc ⊢
      exact Nat.le_trans hab hbc
    · intro a b
      simp only [Bool.or_eq_true, decide_eq_true_eq]
      exact Nat.le_total _ _
  -- both sides ascend and have the ids in use as members
  have hsame : ((loadTables iterated).map TableInfo.id).Perm
      (ids.tableIds.filter (· ∈ catalog.tableNamesById)) := by
    refine (List.perm_ext_iff_of_nodup hnodup ((hascend.imp Nat.ne_of_lt).filter _)).mpr ?_
    intro id
    rw [List.mem_filter, List.mem_map, decide_eq_true_eq, h.mem_names_iff]
    constructor
    · rintro ⟨table, hmem, rfl⟩
      have hheld := hiterated.mem_iff.mp (hperm.mem_iff.mp hmem)
      exact ⟨hcounts.usedTableIds _ (h.mem_names_iff.mpr ⟨table, hheld, rfl⟩), table, hheld, rfl⟩
    · rintro ⟨-, table, hheld, rfl⟩
      exact ⟨table, hperm.mem_iff.mpr (hiterated.mem_iff.mpr hheld), rfl⟩
  exact hsame.eq_of_pairwise (fun a b _ _ hab hba => Nat.le_antisymm hab hba) hsorted
    ((hascend.imp Nat.le_of_lt).filter _)

/-- **EVERY CATALOG RUN**: after any calls that hand out fewer than 2^64 table
    ids and fewer than 2^64 index ids the catalog keeps its promises. -/
theorem catalog_run_promises (calls : List CatalogCall)
    (htables : (handedOut calls).tableIds.length < 2 ^ 64)
    (hindexes : (handedOut calls).indexIds.length < 2 ^ 64) :
    (Run.final catalogStep {} calls).Promises (handedOut calls) := by
  obtain ⟨h, hcounts⟩ := catalog_coherent calls htables hindexes
  refine ⟨?_, ?_, ?_, ?_, ?_, ?_, ?_, ?_, ?_, ?_, ?_, ?_⟩
  · intro table table' hheld hheld' hname
    have hlookup := h.holds_iff.mp hheld
    rw [hname, h.holds_iff.mp hheld'] at hlookup
    exact (Option.some.inj hlookup).symm
  · rintro table table' ⟨key, hlookup⟩ ⟨key', hlookup'⟩ hid
    obtain rfl := h.key_inj hlookup hlookup' hid
    exact Option.some.inj (hlookup.symm.trans hlookup')
  · intro name table
    rw [InMemoryCatalog.getTable_eq_ok]
    constructor
    · intro hlookup
      exact ⟨⟨_, hlookup⟩, (h.byName _ table hlookup).1.symm⟩
    · rintro ⟨hheld, hname⟩
      rw [← hname]
      exact h.holds_iff.mp hheld
  · intro id table
    exact h.getTableById_iff
  · rw [hcounts.tableIds]
    exact (counter_pairwise htables).imp Nat.ne_of_lt
  · rw [hcounts.indexIds]
    exact (counter_pairwise hindexes).imp Nat.ne_of_lt
  · rintro table ⟨key, hlookup⟩
    obtain ⟨hname, hschema, -, -⟩ := h.tables key table hlookup
    exact ⟨hname, hschema⟩
  · intro table hheld tableName hname indexName index
    have hlookup := h.holds_iff.mp hheld
    rw [InMemoryCatalog.getIndex, hname, InMemoryCatalog.loadIndex_eq hlookup,
      eq_comm (a := foldIdentifierKey index.name), ← h.indexes _ table hlookup]
    cases ((Run.final catalogStep {} calls).tableIndexes (foldIdentifierKey table.name)).lookup
        (foldIdentifierKey indexName) with
    | none => simp [errorResult]
    | some found => simp
  · rintro table ⟨key, hlookup⟩
    exact (h.tables key table hlookup).2.2.1
  · rintro table ⟨key, hlookup⟩
    exact (h.tables key table hlookup).2.2.2
  · intro iterated hiterated
    -- the order of the hash map does not matter: the listing is sorted
    have hperm : (loadTables iterated).Perm iterated := List.mergeSort_perm _ _
    refine ⟨hperm.nodup_iff.mpr (hiterated.nodup h), fun table => ?_, ?_⟩
    · rw [hperm.mem_iff, hiterated.mem_iff]
    · exact loadTables_ids h hcounts htables hiterated
  · intro call
    exact (catalogStep_kept h hcounts htables hindexes call).2.2

/-- A run with a name that comes back in another spelling. -/
def spellingRun : List CatalogCall :=
  let schema : TableSchema := ⟨[{ name := ascii "a", type := .integer }]⟩
  [.createTable ⟨ascii "t", schema⟩,
    .createIndex ⟨ascii "T", { name := ascii "i", keyColumns := [0] }⟩,
    .setTableHeapRoot 1 7,
    .dropTable (ascii "T"),
    .createTable ⟨ascii "T", schema⟩,
    .createIndex ⟨ascii "t", { name := ascii "I", keyColumns := [0, 0] }⟩]

theorem spellingRun_promises :
    (handedOut spellingRun).tableIds = [1, 2] ∧ (handedOut spellingRun).indexIds = [1]
      ∧ (Run.final catalogStep {} spellingRun).Promises (handedOut spellingRun) :=
  ⟨by decide, by decide, catalog_run_promises spellingRun (by decide) (by decide)⟩

end MattSql
