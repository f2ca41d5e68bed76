import MattSql.BinderProofs
import MattSql.CatalogInvariantProofs

/-! # CREATE TABLE in the binder and in the catalog

    `bind_create_table` and `InMemoryCatalog::CreateTable` check a new table by
    the same rules, each in its own code and with its own errors.

    The two loops over the columns stop at the same column or number all of them
    alike (`columnLoops_agree`), so the catalog takes what the binder accepts.
    The one thing the binder cannot see is the next table id: when the 64-bit
    counter comes back to an id in use, the catalog refuses. -/

namespace MattSql

open Fallible

/-- What is said about a column: its name and its type. -/
def ColumnSchema.declared (column : ColumnSchema) : Bytes × SqlType := (column.name, column.type)

def ColumnDefinition.declared (definition : ColumnDefinition) : Bytes × SqlType :=
  (definition.name, toSqlType definition.type)

/-- A request with the names and types of a CREATE TABLE. -/
structure CreateTableRequest.Declares (request : CreateTableRequest) (tableName : Bytes)
    (definitions : List ColumnDefinition) : Prop where
  name : request.name = tableName
  columns : request.schema.columns.map ColumnSchema.declared
    = definitions.map ColumnDefinition.declared

instance (request : CreateTableRequest) (tableName : Bytes)
    (definitions : List ColumnDefinition) : Decidable (request.Declares tableName definitions) :=
  decidable_of_iff (_ ∧ _) ⟨fun h => ⟨h.1, h.2⟩, fun h => ⟨h.1, h.2⟩⟩

/-- The columns numbered from `index` on. -/
def numberColumns : Nat → List ColumnSchema → List ColumnSchema
  | _, [] => []
  | index, column :: rest => { column with id := index } :: numberColumns (index + 1) rest

theorem numberColumns_declared (index : Nat) (columns : List ColumnSchema) :
    (numberColumns index columns).map ColumnSchema.declared
      = columns.map ColumnSchema.declared := by
  induction columns generalizing index with
  | nil => rfl
  | cons column rest ih =>
      rw [numberColumns, List.map_cons, ih, List.map_cons]
      rfl

theorem numberColumns_ids (index : Nat) (columns : List ColumnSchema) :
    (numberColumns index columns).map (·.id) = List.range' index columns.length := by
  induction columns generalizing index with
  | nil => rfl
  | cons column rest ih =>
      rw [numberColumns, List.map_cons, ih]
      rfl

theorem numberColumns_idem (index : Nat) (columns : List ColumnSchema) :
    numberColumns index (numberColumns index columns) = numberColumns index columns := by
  induction columns generalizing index with
  | nil => rfl
  | cons column rest ih => rw [numberColumns, numberColumns, ih]

/-- The column a definition stands for. -/
def ColumnDefinition.schema (definition : ColumnDefinition) : ColumnSchema :=
  { name := definition.name, type := toSqlType definition.type }

theorem toSqlType_ne_null (type : TypeName) : toSqlType type ≠ .null := by
  cases type <;> exact nofun

/-- **THE TWO LOOPS** stop at the same column, or both number all columns.  The
    induction is on the definitions; both loops have seen the same names. -/
theorem columnLoops_agree {columns : List ColumnSchema} {definitions : List ColumnDefinition}
    (h : columns.map ColumnSchema.declared = definitions.map ColumnDefinition.declared)
    (index : Nat) (names : List Bytes) :
    (∃ st st', validateColumns index names columns = .error st
        ∧ bindColumnDefinitions index names definitions = .error st')
      ∨ validateColumns index names columns = .ok (numberColumns index columns)
        ∧ bindColumnDefinitions index names definitions
          = .ok (numberColumns index (definitions.map ColumnDefinition.schema)) := by
  induction definitions generalizing columns index names with
  | nil =>
      obtain rfl := List.map_eq_nil_iff.mp h
      exact .inr ⟨rfl, rfl⟩
  | cons definition rest ih =>
      obtain ⟨column, columns, rfl, hcolumn, hrest⟩ := List.map_eq_cons_iff.mp h
      obtain ⟨hname, htype⟩ := Prod.mk.inj hcolumn
      rw [validateColumns_cons, bindColumnDefinitions, hname]
      by_cases hindex : index > kMaxColumnId
      · rw [if_pos hindex, if_pos hindex]
        exact .inl ⟨_, _, rfl, rfl⟩
      rw [if_neg hindex, if_neg hindex]
      by_cases hempty : definition.name = []
      · have hcheck : validateColumn column
            = errorResult .invalidArgument (ascii "column name is required") := by
          rw [validateColumn, hname, if_pos hempty]
        rw [hcheck, if_pos hempty]
        exact .inl ⟨_, _, rfl, rfl⟩
      have hcheck : validateColumn column = .ok () := by
        rw [validateColumn, hname, if_neg hempty, htype, if_neg (toSqlType_ne_null _)]
      rw [hcheck, if_neg hempty, ok_bind]
      by_cases hseen : foldIdentifierKey definition.name ∈ names
      · rw [if_pos hseen, if_pos hseen]
        exact .inl ⟨_, _, rfl, rfl⟩
      rw [if_neg hseen, if_neg hseen]
      rcases ih hrest (index + 1) (foldIdentifierKey definition.name :: names) with
        ⟨st, st', hvalidate, hbind⟩ | ⟨hvalidate, hbind⟩
      · rw [hvalidate, hbind]
        exact .inl ⟨_, _, rfl, rfl⟩
      · rw [hvalidate, hbind]
        refine .inr ⟨?_, rfl⟩
        rw [ok_bind, ← hname]
        rfl

/-! ## One statement -/

/-- The request the binder makes of a CREATE TABLE. -/
def boundRequest (tableName : Bytes) (definitions : List ColumnDefinition) : CreateTableRequest :=
  ⟨tableName, ⟨numberColumns 0 (definitions.map ColumnDefinition.schema)⟩⟩

/-- The table the catalog makes of a request. -/
def CreateTableRequest.table (request : CreateTableRequest) (tableId : Nat) : TableInfo :=
  { id := tableId, name := request.name, schema := ⟨numberColumns 0 request.schema.columns⟩ }

/-- **ONE CREATE TABLE** is refused by both, or the binder accepts it and the
    catalog stores its table unless the next id is in use. -/
theorem InMemoryCatalog.createTable_bind_cases (catalog : InMemoryCatalog) {tableName : Bytes}
    {definitions : List ColumnDefinition} {request : CreateTableRequest}
    (h : request.Declares tableName definitions) :
    (∃ st st', (catalog.createTable request).1 = .error st
        ∧ bind catalog.getTable (.createTable tableName definitions) = .error st')
      ∨ bind catalog.getTable (.createTable tableName definitions)
          = .ok (.createTable (boundRequest tableName definitions))
        ∧ catalog.createTable request
          = if catalog.nextTableId ∈ catalog.tableNamesById then
              (errorResult .alreadyExists (ascii "table id already exists"),
                catalog.allocateTableId.2)
            else
              (.ok (request.table catalog.nextTableId),
                catalog.allocateTableId.2.withTable (request.table catalog.nextTableId)) := by
  obtain ⟨rfl, hcolumns⟩ := h
  rw [bind, bindCreateTable]
  by_cases hname : request.name = []
  · obtain ⟨st, hrefused⟩ := catalog.createTable_refused (.inl hname)
    rw [hrefused, if_pos hname]
    exact .inl ⟨_, _, rfl, rfl⟩
  rw [if_neg hname]
  by_cases hempty : definitions = []
  · have hnone : request.schema.columns = [] := by
      rw [hempty, List.map_nil] at hcolumns
      exact List.map_eq_nil_iff.mp hcolumns
    obtain ⟨st, hrefused⟩ := catalog.createTable_refused (.inr (.inl hnone))
    rw [hrefused, if_pos hempty]
    exact .inl ⟨_, _, rfl, rfl⟩
  have hsome : request.schema.columns ≠ [] := by
    intro hnone
    rw [hnone, List.map_nil] at hcolumns
    exact hempty (List.map_eq_nil_iff.mp hcolumns.symm)
  rw [if_neg hempty, InMemoryCatalog.getTable]
  by_cases hnew : foldIdentifierKey request.name ∈ catalog.tablesByName
  · obtain ⟨table, hlookup⟩ := Finmap.mem_iff.mp hnew
    obtain ⟨st, hrefused⟩ := catalog.createTable_refused (.inr (.inr (.inl hnew)))
    rw [hrefused, InMemoryCatalog.loadTable_eq_ok.mpr hlookup]
    exact .inl ⟨_, _, rfl, rfl⟩
  rw [InMemoryCatalog.loadTable_notFound hnew]
  dsimp only [errorResult]
  rw [if_neg (fun h => h rfl)]
  rcases columnLoops_agree hcolumns 0 [] with
    ⟨st, st', hvalidate, hbind⟩ | ⟨hvalidate, hbind⟩
  · obtain ⟨st'', hrefused⟩ := catalog.createTable_refused (.inr (.inr (.inr ⟨st, hvalidate⟩)))
    rw [hrefused, hbind]
    exact .inl ⟨_, _, rfl, rfl⟩
  · rw [hbind]
    exact .inr ⟨rfl, InMemoryCatalog.createTable_eq hname hsome hnew hvalidate⟩

/-- A table is stored as the bound request asks: its name, and its columns with
    the ids from 0 on. -/
structure TableInfo.Stores (table : TableInfo) (bound : CreateTableRequest) : Prop where
  name : table.name = bound.name
  columns : table.schema.columns.map ColumnSchema.declared
    = bound.schema.columns.map ColumnSchema.declared
  ids : table.schema.columns.map (·.id) = List.range bound.schema.columns.length

theorem boundRequest_declares (tableName : Bytes) (definitions : List ColumnDefinition) :
    (boundRequest tableName definitions).Declares tableName definitions where
  name := rfl
  columns := by
    show (numberColumns 0 _).map ColumnSchema.declared = _
    rw [numberColumns_declared, List.map_map]
    rfl

theorem CreateTableRequest.Declares.stores {request : CreateTableRequest} {tableName : Bytes}
    {definitions : List ColumnDefinition} (h : request.Declares tableName definitions)
    (tableId : Nat) : (request.table tableId).Stores (boundRequest tableName definitions) where
  name := h.name
  columns := by
    show (numberColumns 0 _).map ColumnSchema.declared = _
    rw [numberColumns_declared, h.columns, (boundRequest_declares tableName definitions).columns]
  ids := by
    have hlength := congrArg List.length
      (h.columns.trans (boundRequest_declares tableName definitions).columns.symm)
    rw [List.length_map, List.length_map] at hlength
    show (numberColumns 0 _).map (·.id) = _
    rw [numberColumns_ids, hlength, List.range_eq_range']

/-- **THE BINDER AND THE CATALOG AGREE** in every state a run of catalog calls
    reaches: the catalog takes a request exactly when the binder accepts the
    statement and the next table id is free, and it stores what was bound.  The
    next id is free as long as the counters have not wrapped. -/
theorem binder_catalog_agree (calls : List CatalogCall) (tableName : Bytes)
    (definitions : List ColumnDefinition) (request : CreateTableRequest)
    (h : request.Declares tableName definitions) :
    let catalog := Run.final catalogStep {} calls
    ((∃ table, (catalog.createTable request).1 = .ok table)
        ↔ (∃ bound, bind catalog.getTable (.createTable tableName definitions) = .ok bound)
          ∧ catalog.nextTableId ∉ catalog.tableNamesById)
      ∧ (∀ table, (catalog.createTable request).1 = .ok table →
        (catalog.createTable request).2.getTable tableName = .ok table
          ∧ ∃ bound, bind catalog.getTable (.createTable tableName definitions)
              = .ok (.createTable bound)
            ∧ bound.Declares tableName definitions ∧ table.Stores bound
            ∧ (request = bound → table.schema = bound.schema))
      ∧ ((handedOut calls).tableIds.length < 2 ^ 64 → (handedOut calls).indexIds.length < 2 ^ 64 →
        catalog.nextTableId ∉ catalog.tableNamesById) := by
  intro catalog
  refine ⟨?_, ?_, fun htables hindexes =>
    (catalog_coherent calls htables hindexes).2.tableId_fresh htables⟩
  · rcases catalog.createTable_bind_cases h with ⟨st, st', hcreate, hbind⟩ | ⟨hbind, hcreate⟩
    · rw [hcreate, hbind]
      exact iff_of_false (fun hok => nomatch hok.choose_spec) fun hok => nomatch hok.1.choose_spec
    · rw [hcreate, hbind]
      by_cases hused : catalog.nextTableId ∈ catalog.tableNamesById
      · rw [if_pos hused]
        exact iff_of_false (fun hok => nomatch hok.choose_spec) fun hok => hok.2 hused
      · rw [if_neg hused]
        exact iff_of_true ⟨_, rfl⟩ ⟨⟨_, rfl⟩, hused⟩
  · intro table htable
    rcases catalog.createTable_bind_cases h with ⟨st, st', hcreate, -⟩ | ⟨hbind, hcreate⟩
    · cases hcreate.symm.trans htable
    rw [hcreate] at htable ⊢
    by_cases hused : catalog.nextTableId ∈ catalog.tableNamesById
    · rw [if_pos hused] at htable
      cases htable
    rw [if_neg hused] at htable ⊢
    cases htable
    refine ⟨?_, _, hbind, boundRequest_declares tableName definitions, h.stores _, ?_⟩
    · rw [InMemoryCatalog.getTable_eq_ok, ← h.name]
      exact Finmap.lookup_insert _
    · rintro rfl
      show TableSchema.mk (numberColumns 0 (numberColumns 0 _)) = _
      rw [numberColumns_idem]
      rfl

/-- Names in another spelling, behind a table that is there. -/
theorem binder_catalog_agree_notes :
    let catalog := Run.final catalogStep {}
      [.createTable ⟨ascii "t", ⟨[{ name := ascii "a", type := .integer }]⟩⟩]
    (∃ bound, bind catalog.getTable
        (.createTable (ascii "u") [⟨ascii "a", .int⟩, ⟨ascii "B", .text⟩]) = .ok bound)
      ∧ ¬∃ bound, bind catalog.getTable (.createTable (ascii "T") [⟨ascii "a", .int⟩])
        = .ok bound := by
  have hagree := binder_catalog_agree
    [.createTable ⟨ascii "t", ⟨[{ name := ascii "a", type := .integer }]⟩⟩]
  have hcreated := (hagree (ascii "u") [⟨ascii "a", .int⟩, ⟨ascii "B", .text⟩]
    ⟨ascii "u", ⟨[{ name := ascii "a", type := .integer }, { name := ascii "B", type := .text }]⟩⟩
    (by decide)).1.mp ⟨_, rfl⟩
  have hrefused := (hagree (ascii "T") [⟨ascii "a", .int⟩]
    ⟨ascii "T", ⟨[{ name := ascii "a", type := .integer }]⟩⟩ (by decide)).1
  refine ⟨hcreated.1, fun hbound => ?_⟩
  obtain ⟨table, htable⟩ := hrefused.mpr ⟨hbound, by decide⟩
  cases htable

/-! ## The counter wraps -/

def wrapRequest (name : Bytes) : CreateTableRequest :=
  ⟨name, ⟨[{ name := ascii "a", type := .integer }]⟩⟩

/-- One table that stays, and so many that come and go. -/
def wrapCalls (rounds : Nat) : List CatalogCall :=
  .createTable (wrapRequest (ascii "t"))
    :: (List.replicate rounds
      [.createTable (wrapRequest (ascii "u")), .dropTable (ascii "u")]).flatten

/-- Each round takes an id, and leaves the maps as they were.  The induction is
    on the rounds. -/
theorem wrapCalls_final {rounds : Nat} (h : rounds < 2 ^ 64) :
    let catalog := Run.final catalogStep {} (wrapCalls rounds)
    catalog.nextTableId = (rounds + 2) % 2 ^ 64
      ∧ catalog.tablesByName
        = Finmap.insert (ascii "t") ((wrapRequest (ascii "t")).table 1) ∅
      ∧ catalog.tableNamesById = Finmap.insert 1 (ascii "t") ∅ := by
  induction rounds with
  | zero => exact ⟨rfl, rfl, rfl⟩
  | succ rounds ih =>
      obtain ⟨hnext, htables, hnames⟩ := ih (by omega)
      intro catalog
      have hcalls : wrapCalls (rounds + 1) = wrapCalls rounds
          ++ [.createTable (wrapRequest (ascii "u")), .dropTable (ascii "u")] := by
        rw [wrapCalls, List.replicate_succ', List.flatten_append, List.flatten_singleton]
        rfl
      have hcatalog : catalog = Run.final catalogStep (Run.final catalogStep {} (wrapCalls rounds))
          [.createTable (wrapRequest (ascii "u")), .dropTable (ascii "u")] := by
        rw [← Run.final_append, ← hcalls]
      clear_value catalog
      generalize Run.final catalogStep {} (wrapCalls rounds) = before
        at hnext htables hnames hcatalog
      have hnew : foldIdentifierKey (ascii "u") ∉ before.tablesByName := by
        rw [htables]
        decide
      have hfree : before.nextTableId ∉ before.tableNamesById := by
        rw [hnames, hnext]
        intro hmem
        rcases Finmap.mem_insert.mp hmem with hone | hmem
        · omega
        · exact Finmap.notMem_empty hmem
      have hcreate : (before.createTable (wrapRequest (ascii "u"))).2
          = before.allocateTableId.2.withTable
            ((wrapRequest (ascii "u")).table before.nextTableId) := by
        rw [InMemoryCatalog.createTable_eq (by decide) (by decide) hnew rfl, if_neg hfree]
        rfl
      have hround : catalog = (((before.createTable (wrapRequest (ascii "u"))).2).dropTable
          (ascii "u")).2 := hcatalog
      rw [hcreate] at hround
      obtain ⟨htables', hnames', hnext'⟩ := @InMemoryCatalog.dropTable_withTable
        before.allocateTableId.2 ((wrapRequest (ascii "u")).table before.nextTableId) hnew hfree
      rw [hround]
      refine ⟨hnext'.trans ?_, htables'.trans htables, hnames'.trans hnames⟩
      show (before.nextTableId + 1) % 2 ^ 64 = _
      rw [hnext]
      omega

/-- **THE NEXT ID IS IN USE** after all others were: the binder accepts, the
    catalog does not. -/
theorem wrapped_id_refused :
    ∃ calls tableName definitions, ∃ request : CreateTableRequest,
      request.Declares tableName definitions
        ∧ (∃ bound, bind (Run.final catalogStep {} calls).getTable
            (.createTable tableName definitions) = .ok bound)
        ∧ ¬∃ table, ((Run.final catalogStep {} calls).createTable request).1 = .ok table := by
  -- the number of rounds is kept out of sight: nothing may unfold the run
  obtain ⟨rounds, hrounds⟩ : ∃ rounds, rounds + 1 = 2 ^ 64 := ⟨2 ^ 64 - 1, rfl⟩
  obtain ⟨hnext, htables, hnames⟩ := @wrapCalls_final rounds (by omega)
  have hdeclares : (wrapRequest (ascii "u")).Declares (ascii "u") [⟨ascii "a", .int⟩] := by decide
  refine ⟨wrapCalls rounds, ascii "u", [⟨ascii "a", .int⟩], wrapRequest (ascii "u"), hdeclares, ?_⟩
  generalize Run.final catalogStep {} (wrapCalls rounds) = catalog at hnext htables hnames
  have hused : catalog.nextTableId ∈ catalog.tableNamesById := by
    rw [hnames, hnext]
    exact Finmap.mem_insert.mpr (.inl (by omega))
  rcases catalog.createTable_bind_cases hdeclares with ⟨st, st', -, hbind⟩ | ⟨hbind, hcreate⟩
  · have hnew : catalog.getTable (ascii "u")
        = errorResult .notFound (ascii "table not found") := by
      rw [InMemoryCatalog.getTable, InMemoryCatalog.loadTable, htables]
      rfl
    rw [bind, bindCreateTable, if_neg (by decide), if_neg (by decide), hnew] at hbind
    cases hbind
  · refine ⟨⟨_, hbind⟩, ?_⟩
    rw [hcreate, if_pos hused]
    rintro ⟨table, htable⟩
    cases htable

end MattSql
