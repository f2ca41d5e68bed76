import MattSql.Library.SignedWordProofs
import MattSql.ColumnNamesProofs
import MattSql.EngineSafetyProofs
import MattSql.SelectLawsProofs
import MattSql.StatementPrintProofs
import Mathlib.Data.List.Sort

/-! # Growth

    No SQL statement deletes, changes or moves a row, so databases only grow:
    a table keeps its definition, and a scan finds the old rows in their old
    order, with the new ones between them.

    Heaps fill the first page with room, so a new row need not come last.  What
    holds for every SELECT is that its rows at one time are a sublist of its rows
    at any later time (`select_grows`), and an INSERT and a SELECT printed as
    texts round-trip a row (`insert_select_text`). -/

namespace MattSql

open Fallible

/-! ## Where a record goes -/

theorem RecordView.Before.asymm {a b : RecordView} (h : a.Before b) : ¬b.Before a := by
  rw [RecordView.Before] at h ⊢
  omega

/-- A stored record gets a place in the scan order, and the others keep
    theirs. -/
theorem PageHeapTable.Inserts.records_split {heap heap' : PageHeapTable} {record : Bytes}
    {id : RecordId} (h : heap.Sound) (hins : heap.Inserts record id heap') :
    ∃ front back, heap.records = front ++ back ∧ heap'.records = front ++ ⟨id, record⟩ :: back := by
  obtain ⟨front, back, hsplit⟩ := List.append_of_mem (hins.perm.mem_iff.mpr List.mem_cons_self)
  refine ⟨front, back, ?_, hsplit⟩
  -- both lists are sorted and have the same elements
  have hperm : (front ++ back).Perm heap.records := by
    have hcons := List.perm_middle.symm.trans (hsplit ▸ hins.perm)
    exact List.Perm.cons_inv hcons
  have hsorted : (front ++ back).Pairwise RecordView.Before := by
    have hall := hins.wellFormed.toSound.records_sorted
    rw [hsplit] at hall
    exact hall.sublist ((List.sublist_cons_self _ _).append_left front)
  exact (hperm.eq_of_pairwise (fun a b _ _ hab hba => absurd hba hab.asymm) hsorted
    h.records_sorted).symm

/-! ## Databases grow -/

/-- Tables keep their definitions, and their rows the order. -/
structure Database.Grows (db db' : Database) : Prop where
  tables : ∀ key table, db.catalog.tablesByName.lookup key = some table →
    db'.catalog.tablesByName.lookup key = some table
  rows : ∀ key table, db.catalog.tablesByName.lookup key = some table →
    (db.sourceRows table).Sublist (db'.sourceRows table)

theorem Database.Grows.refl (db : Database) : db.Grows db :=
  ⟨fun _ _ h => h, fun _ _ _ => .refl _⟩

theorem Database.Grows.trans {db db' db'' : Database} (h : db.Grows db') (h' : db'.Grows db'') :
    db.Grows db'' :=
  ⟨fun key table hfound => h'.tables key table (h.tables key table hfound),
    fun key table hfound =>
      (h.rows key table hfound).trans (h'.rows key table (h.tables key table hfound))⟩

variable {db : Database} {key : Bytes} {table : TableInfo} {data : InMemoryTableData}

/-- The rows behind an INSERT: the new one stands between the old ones, and
    other tables have theirs. -/
theorem Database.Consistent.inserted_rows (hdb : db.Consistent)
    (hs : db.Stores key table data) {row : List Value} {id : RecordId} {heap : PageHeapTable}
    (hins : data.heap.Inserts (rowBytes row) id heap)
    (hdec : decode table.schema (rowBytes row) = .ok row) :
    (∃ front back, db.sourceRows table = front ++ back
        ∧ Database.sourceRows { db with storage := db.storage.storeHeap table.id heap } table
          = front ++ row :: back)
      ∧ ∀ key' table', db.catalog.tablesByName.lookup key' = some table' → key' ≠ key →
        Database.sourceRows { db with storage := db.storage.storeHeap table.id heap } table'
          = db.sourceRows table' := by
  have hlookup := InMemoryTableStorageManager.storeHeap_lookup hs.heap_found heap
  constructor
  · obtain ⟨front, back, hold, hnew⟩ := hins.records_split hs.wellFormed.toSound
    refine ⟨front.filterMap fun record => okValue (decode table.schema record.bytes),
      back.filterMap fun record => okValue (decode table.schema record.bytes), ?_, ?_⟩
    · rw [hs.sourceRows, heapRows, hold, List.filterMap_append]
    · rw [Database.sourceRows, if_neg hs.named]
      dsimp only
      rw [hlookup, if_pos rfl]
      dsimp only
      rw [heapRows, hnew, List.filterMap_append,
        List.filterMap_cons_some (b := row) (by rw [hdec]; rfl)]
  · intro key' table' hfound' hkey
    obtain ⟨data', hs'⟩ := hdb.tables key' table' hfound'
    have hid : table'.id ≠ table.id := fun hid => hkey (hs.key_inj hs' hid)
    refine Database.sourceRows_congr ?_
    rw [hlookup, if_neg hid]

theorem Database.Grows.inserted (hdb : db.Consistent)
    (hfound : db.catalog.tablesByName.lookup key = some table) (hs : db.Stores key table data)
    {row : List Value} {id : RecordId} {heap : PageHeapTable}
    (hins : data.heap.Inserts (rowBytes row) id heap)
    (hdec : decode table.schema (rowBytes row) = .ok row) :
    db.Grows { db with storage := db.storage.storeHeap table.id heap } := by
  obtain ⟨⟨front, back, hold, hnew⟩, hothers⟩ := hdb.inserted_rows hs hins hdec
  refine ⟨fun _ _ h => h, fun key' table' hfound' => ?_⟩
  by_cases hkey : key' = key
  · subst hkey
    cases hfound.symm.trans hfound'
    rw [hold, hnew]
    exact (List.sublist_cons_self _ _).append_left front
  · rw [hothers key' table' hfound' hkey]

/-- A new table leaves the rows of the others alone. -/
theorem Database.Consistent.created_rows (hdb : db.Consistent) {request : CreateTableRequest}
    (hid : db.catalog.nextTableId ∉ db.catalog.tableNamesById)
    (hfound : db.catalog.tablesByName.lookup key = some table) :
    Database.sourceRows
        ⟨db.catalog.allocateTableId.2.withTable (db.newTable request), db.storageWithHeap⟩ table
      = db.sourceRows table := by
  obtain ⟨data, hs⟩ := hdb.tables key table hfound
  have hne : table.id ≠ db.catalog.nextTableId := by
    intro heq
    exact hid (heq ▸ Finmap.mem_of_lookup_eq_some hs.by_id)
  exact Database.sourceRows_congr (Finmap.lookup_insert_of_ne _ hne)

theorem Database.Grows.created (hdb : db.Consistent) {request : CreateTableRequest}
    (hnew : foldIdentifierKey request.name ∉ db.catalog.tablesByName)
    (hid : db.catalog.nextTableId ∉ db.catalog.tableNamesById) :
    db.Grows
      ⟨db.catalog.allocateTableId.2.withTable (db.newTable request), db.storageWithHeap⟩ := by
  refine ⟨fun key table hfound => ?_, fun key table hfound => ?_⟩
  · have hkey : key ≠ foldIdentifierKey request.name := by
      rintro rfl
      exact hnew (Finmap.mem_of_lookup_eq_some hfound)
    exact (Finmap.lookup_insert_of_ne _ hkey).trans hfound
  · rw [hdb.created_rows hid hfound]

theorem BoundIn.grows (hdb : db.Consistent) {bound : BoundStatement} (h : BoundIn db bound) :
    db.Grows (runBound {} bound db).2 := by
  cases h with
  | select hb hfrom =>
      rw [hb.run hdb hfrom]
      exact .refl db
  | @insert key table values hfound hb =>
      obtain ⟨data, hs⟩ := hdb.tables key table hfound
      have hrun := hs.runInsert hdb hfound hb
      generalize runBound {} (.insert table values) db = reply at hrun ⊢
      cases hrun with
      | failed => exact .refl db
      | refused => exact .refl db
      | inserted _ _ hins hdec => exact .inserted hdb hfound hs hins hdec
  | @createTable request hname hne hnew hvalid =>
      have hrun := hdb.runCreateTable hname hne hnew hvalid
      generalize runBound {} (.createTable request) db = reply at hrun ⊢
      cases hrun with
      | exhausted hroots hbyName hbyId =>
          -- the counters moved, the tables did not
          refine ⟨fun key table hfound => ?_, fun key table _ => .refl _⟩
          exact (congrArg (Finmap.lookup key) hbyName).trans hfound
      | created hid hroots => exact .created hdb hnew hid

/-- One SQL text lets the database grow. -/
theorem Database.Consistent.execute_grows (hdb : db.Consistent) (sql : Bytes) :
    db.Grows (MattSql.execute db sql).2 := by
  rw [MattSql.execute, executeIn]
  cases hparse : parseSql sql with
  | error st => exact .refl db
  | ok statement =>
      dsimp only
      cases hbind : bind db.catalog.getTable statement with
      | error st => exact .refl db
      | ok bound => exact (hdb.boundIn hparse hbind).grows hdb

/-- So does a run of them. -/
theorem Database.Consistent.run_grows (texts : List Bytes) :
    ∀ {db : Database}, db.Consistent → db.Grows (Run.final MattSql.execute db texts) := by
  induction texts with
  | nil => exact fun _ => .refl _
  | cons sql rest ih => exact fun hdb => (hdb.execute_grows sql).trans (ih (hdb.execute sql))

/-! ## SELECTs over a growing database -/

/-- A FROM part that binds goes on to bind to the same table. -/
theorem Database.Grows.bindFrom {db' : Database} (h : db.Grows db') {tableName : Bytes}
    {table : Option TableInfo} (hfrom : bindFrom db.catalog.getTable tableName = .ok table) :
    MattSql.bindFrom db'.catalog.getTable tableName = .ok table := by
  rw [MattSql.bindFrom] at hfrom ⊢
  split at hfrom
  · rename_i hnone
    rw [if_pos hnone]
    exact hfrom
  · rename_i hnamed
    obtain ⟨t, ht, hfrom⟩ := bind_ok_iff.mp hfrom
    rw [if_neg hnamed, InMemoryCatalog.getTable_eq_ok.mpr
      (h.tables _ t (InMemoryCatalog.getTable_eq_ok.mp ht))]
    exact hfrom

theorem Database.Grows.sourceRows {db' : Database} (h : db.Grows db') {table : TableInfo}
    (hfrom : db.From table) : (db.sourceRows table).Sublist (db'.sourceRows table) := by
  rcases hfrom with rfl | ⟨key, hfound⟩
  · exact .refl _
  · exact h.rows key table hfound

/-- **SELECTS ONLY GROW**: when a SELECT of which the table was there at an
    earlier time answers at a later one, it answered then as well, with the same
    columns and a sublist of the rows. -/
theorem select_grows (texts more : List Bytes) {sql : Bytes}
    {projections : List SelectProjection} {tableName : Bytes} {predicate : Option Expression}
    (hparse : parseSql sql = .ok (.select projections tableName predicate))
    {table : Option TableInfo}
    (hfrom : bindFrom (engineAfter texts).catalog.getTable tableName = .ok table)
    {later : QueryResult} (hlater : (execute (engineAfter (texts ++ more)) sql).1 = .ok later) :
    ∃ rows, (execute (engineAfter texts) sql).1 = .ok ⟨later.columns, rows⟩
      ∧ rows.Sublist later.rows := by
  have hdb := engineAfter_consistent texts
  have hgrows : (engineAfter texts).Grows (engineAfter (texts ++ more)) := by
    rw [engineAfter, engineAfter, Run.final_append]
    exact hdb.run_grows more
  obtain ⟨table', bounds, d, hfrom', hbounds, hd, hyields⟩ :=
    (execute_select_iff (engineAfter_consistent _) hparse).mp hlater
  cases (hgrows.bindFrom hfrom).symm.trans hfrom'
  have hrows := hgrows.sourceRows (bindFrom_ok hdb hfrom).1
  obtain ⟨hdecided, hevaluates, rfl⟩ := hyields
  refine ⟨_, (execute_select_iff hdb hparse).mpr ⟨table, bounds, d, hfrom, hbounds, hd,
    fun row hrow => hdecided row (hrows.subset hrow),
    fun row hrow => hevaluates row (hrows.subset hrow), rfl⟩, ?_⟩
  exact (hrows.filter _).map _

/-- An answer of one row, and of two rows later on. -/
theorem select_grows_second_row :
    let texts := [ascii "CREATE TABLE t (a INT)", ascii "INSERT INTO t VALUES (1)"]
    let more := [ascii "INSERT INTO t VALUES (2)"]
    (execute (engineAfter (texts ++ more)) (ascii "SELECT a FROM t")).1
        = .ok ⟨[ascii "a"], [[.integer 1], [.integer 2]]⟩
      ∧ ∃ rows, (execute (engineAfter texts) (ascii "SELECT a FROM t")).1
          = .ok ⟨[ascii "a"], rows⟩
        ∧ rows.Sublist [[.integer 1], [.integer 2]] := by
  intro texts more
  have hparse : parseSql (ascii "SELECT a FROM t")
      = .ok (.select [⟨.columnRef (ascii "a"), []⟩] (ascii "t") none) := by decide
  obtain ⟨hlater, hfrom⟩ : (execute (engineAfter (texts ++ more)) (ascii "SELECT a FROM t")).1
        = .ok ⟨[ascii "a"], [[.integer 1], [.integer 2]]⟩
      ∧ (okValue (bindFrom (engineAfter texts).catalog.getTable (ascii "t"))).isSome = true := by
    decide +kernel
  obtain ⟨table, htable⟩ := Option.isSome_iff_exists.mp hfrom
  exact ⟨hlater, select_grows texts more hparse (okValue_eq_some_iff.mp htable) hlater⟩

/-! ## A row there and back -/

/-- The literal of a value.  A negative integer is a minus and its digits. -/
def Value.literal : Value → Expression
  | .null => .nullLiteral
  | .integer value =>
    if 0 ≤ value ∨ value = Int64.minValue then .integerLiteral value
    else .unary .minus (.integerLiteral (-value))
  | .text value => .stringLiteral value
  | .boolean value => .booleanLiteral value

/-- The negation of a negative integer that is not the smallest one. -/
private theorem negate_negative {value : Int64} (h : ¬(0 ≤ value ∨ value = Int64.minValue))
    (context : Bytes) : 0 ≤ -value ∧ checkedIntegerNegate (-value) context = .ok value := by
  obtain ⟨hneg, hmin⟩ := not_or.mp h
  obtain ⟨hlow, -⟩ := SignedWord.fits_toInt value
  have hlt : value.toInt < 0 := Int.not_le.mp fun hle => hneg (Int64.le_iff_toInt_le.mpr hle)
  have hne : value.toInt ≠ Int64.minValue.toInt := fun heq => hmin (Int64.toInt_inj.mp heq)
  rw [Int64.toInt_minValue] at hne
  have hto : (-value).toInt = -value.toInt := SignedWord.toInt_neg (by
    rw [SignedWord.Fits]
    omega)
  refine ⟨Int64.le_iff_toInt_le.mpr ?_, ?_⟩
  · rw [hto]
    show 0 ≤ -value.toInt
    omega
  · rw [checkedIntegerNegate, if_neg, Int64.neg_neg]
    intro heq
    have hmin' := congrArg Int64.toInt heq
    rw [hto, Int64.toInt_minValue] at hmin'
    omega

theorem Value.literal_inImage (value : Value) : value.literal.InImage := by
  cases value with
  | null => trivial
  | integer value =>
      rw [Value.literal]
      split
      · rename_i h
        exact h
      · rename_i h
        exact .inl (negate_negative h []).1
  | text value => trivial
  | boolean value => trivial

/-- A literal that a column takes binds, and evaluates to its value. -/
theorem Value.literal_binds {column : ColumnSchema} (hc : column.type ≠ .null) {value : Value}
    (h : FieldTyped column value) :
    ∃ b, (bindExpression none value.literal >>= fun e => coerceToColumn e column) = .ok b
      ∧ evaluate {} b = .ok value := by
  -- the type of the literal is the type of the value
  have hcoerce : ∀ e : BoundExpression, e.type = valueTypeOf value →
      coerceToColumn e column = .ok e := by
    intro e htype
    rw [coerceToColumn, htype]
    rcases h with ⟨rfl, hnullable⟩ | hcolumn
    · rw [if_pos (show valueTypeOf .null = .null from rfl), if_pos hnullable]
    · rw [if_neg (fun hnull => hc (hcolumn.symm.trans hnull)), if_pos hcolumn]
  cases value with
  | null => exact ⟨_, hcoerce (.literal .null .null) rfl, rfl⟩
  | integer value =>
      rw [Value.literal]
      split
      · exact ⟨_, hcoerce (.literal .integer (.integer value)) rfl, rfl⟩
      · rename_i hneg
        refine ⟨_, hcoerce (.unary .integer .minus (.literal .integer (.integer (-value)))) rfl, ?_⟩
        rw [evaluate, evaluate, ok_bind, evaluateUnary, requireInteger, ok_bind,
          (negate_negative hneg _).2]
        rfl
  | text value => exact ⟨_, hcoerce (.literal .text (.text value)) rfl, rfl⟩
  | boolean value => exact ⟨_, hcoerce (.literal .boolean (.boolean value)) rfl, rfl⟩

theorem bindInsertValues_literals {columns : List ColumnSchema} (hc : Storable columns)
    {row : List Value} (h : List.Forall₂ FieldTyped columns row) :
    ∃ values, bindInsertValues (row.map Value.literal) columns = .ok values
      ∧ evaluateExpressions values {} = .ok row := by
  induction h with
  | nil => exact ⟨[], rfl, rfl⟩
  | @cons column value columns row hvalue _ ih =>
      obtain ⟨b, hbind, hb⟩ := Value.literal_binds (hc column List.mem_cons_self) hvalue
      obtain ⟨values, hvalues, hrow⟩ := ih fun c hmem => hc c (List.mem_cons_of_mem column hmem)
      obtain ⟨e, he, hcoerce⟩ := bind_ok_iff.mp hbind
      refine ⟨b :: values, ?_, ?_⟩
      · rw [List.map_cons, bindInsertValues, he, ok_bind, hcoerce, ok_bind, hvalues]
        rfl
      · rw [evaluateExpressions, List.mapM_cons, hb]
        rw [evaluateExpressions] at hrow
        rw [ok_bind, hrow]
        rfl

/-- A printed statement is read back. -/
theorem parseSql_text {statement : Statement} (h : statement.InImage) (semicolon : Bool) :
    parseSql (statement.text semicolon) = .ok statement := by
  rw [parseSql, parse_statementText h]

/-- A column of a table has its value in every row of the table's length. -/
theorem evaluate_boundColumn (hvalid : table.schema.Valid) {row : List Value}
    (hlength : row.length = table.schema.columns.length) {i : Nat} {column : ColumnSchema}
    (hcolumn : table.schema.columns[i]? = some column) :
    ∃ value, row[i]? = some value
      ∧ evaluate ⟨some table.schema, some row⟩ (makeBoundColumn table column) = .ok value := by
  obtain ⟨hi, -⟩ := List.getElem?_eq_some_iff.mp hcolumn
  have hid := hvalid.ordinal i column hcolumn
  have hvalue := List.getElem?_eq_getElem (show i < row.length by omega)
  refine ⟨_, hvalue, ?_⟩
  rw [makeBoundColumn, evaluate, evaluateColumn]
  dsimp only
  rw [hid, if_neg (by omega), hvalue]

/-- The columns of a table, evaluated at a row, are the row. -/
theorem columns_valueAt (hvalid : table.schema.Valid) {row : List Value}
    (hlength : row.length = table.schema.columns.length) :
    (table.schema.columns.map (makeBoundColumn table)).map (valueAt table.schema row) = row := by
  apply List.ext_getElem?
  intro i
  rw [List.getElem?_map, List.getElem?_map]
  cases hcolumn : table.schema.columns[i]? with
  | none =>
      rw [List.getElem?_eq_none_iff] at hcolumn
      rw [Option.map_none, Option.map_none, List.getElem?_eq_none (by omega)]
  | some column =>
      obtain ⟨value, hvalue, hevaluate⟩ := evaluate_boundColumn hvalid hlength hcolumn
      rw [Option.map_some, Option.map_some, valueAt, hevaluate, hvalue]
      rfl

/-- The text `SELECT * FROM` a table. -/
def selectAllText (tableName : Bytes) : Bytes :=
  (Statement.select [⟨.star, []⟩] tableName none).text false

/-- The text that inserts a row. -/
def insertText (tableName : Bytes) (row : List Value) : Bytes :=
  (Statement.insert tableName (row.map Value.literal)).text false

/-- A SELECT changes nothing. -/
theorem Database.Consistent.select_unchanged (hdb : db.Consistent) {sql : Bytes}
    {projections : List SelectProjection} {tableName : Bytes} {predicate : Option Expression}
    (hparse : parseSql sql = .ok (.select projections tableName predicate)) :
    (MattSql.execute db sql).2 = db := by
  cases hbind : bind db.catalog.getTable (.select projections tableName predicate) with
  | error st =>
      rw [MattSql.execute.eq_1, executeIn, hparse]
      dsimp only
      rw [hbind]
  | ok bound =>
      have hboundIn := hdb.boundIn hparse hbind
      obtain ⟨table, -, h⟩ := bind_ok_iff.mp hbind
      obtain ⟨bounds, -, h⟩ := bind_ok_iff.mp h
      obtain ⟨p, -, h⟩ := bind_ok_iff.mp h
      cases h
      cases hboundIn with
      | select hselect hfrom => rw [execute_eq_runBound hparse hbind, hselect.run hdb hfrom]

/-- `SELECT *` shows the rows as they are stored. -/
theorem execute_star (hdb : db.Consistent) {sql tableName : Bytes}
    (hparse : parseSql sql = .ok (.select [⟨.star, []⟩] tableName none))
    (hfrom : bindFrom db.catalog.getTable tableName = .ok (some table)) :
    execute db sql = (.ok ⟨table.schema.columns.map (·.name), db.sourceRows table⟩, db) := by
  obtain ⟨hsource, hvalid⟩ := bindFrom_ok hdb hfrom
  have hvalid := hvalid table rfl
  have hstar : bindProjections (some table) [⟨.star, []⟩]
      = .ok (table.schema.columns.map fun column => (makeBoundColumn table column, column.name)) := by
    rw [bindProjections]
    exact congrArg Except.ok (List.append_nil _)
  have hlength : ∀ row ∈ db.sourceRows table, row.length = table.schema.columns.length := by
    intro row hrow
    exact (hdb.rowFits hsource hrow).length_eq.symm
  refine Prod.ext ?_ (hdb.select_unchanged hparse)
  refine (execute_select_iff hdb hparse).mpr ⟨some table,
    table.schema.columns.map fun column => (makeBoundColumn table column, column.name), _,
    hfrom, hstar, rfl, fun row _ => ⟨true, rfl⟩, ?_, ?_⟩
  · intro row hrow _ e he
    rw [List.map_map] at he
    obtain ⟨column, hmem, rfl⟩ := List.mem_map.mp he
    obtain ⟨i, hcolumn⟩ := List.getElem?_of_mem hmem
    obtain ⟨value, -, hvalue⟩ := evaluate_boundColumn hvalid (hlength row hrow) hcolumn
    exact ⟨value, hvalue⟩
  · have hcolumns : (table.schema.columns.map fun column =>
        (makeBoundColumn table column, column.name)).map (·.1)
          = table.schema.columns.map (makeBoundColumn table) := by
      rw [List.map_map]
      rfl
    rw [outputNames_eq, namesFrom_star, hcolumns]
    congr 1
    -- every row is kept, and shown as it is
    have hkept : (db.sourceRows table).filter (fun _ => decide (some true = some true))
        = db.sourceRows table := List.filter_eq_self.mpr fun _ _ => rfl
    show db.sourceRows table
      = ((db.sourceRows table).filter fun _ => decide (some true = some true)).map _
    rw [hkept]
    refine (List.map_id _).symm.trans (List.map_congr_left fun row hrow => ?_)
    exact (columns_valueAt hvalid (hlength row hrow)).symm

theorem execute_selectAll (hdb : db.Consistent) {tableName : Bytes} (hname : IsIdentifier tableName)
    (hfound : db.catalog.tablesByName.lookup (foldIdentifierKey tableName) = some table) :
    execute db (selectAllText tableName)
      = (.ok ⟨table.schema.columns.map (·.name), db.sourceRows table⟩, db) := by
  have himage : (Statement.select [⟨.star, []⟩] tableName none).InImage := by
    refine ⟨List.cons_ne_nil _ _, ?_, .inr hname, nofun⟩
    intro projection hprojection
    rw [List.mem_singleton.mp hprojection]
    exact ⟨trivial, .inl rfl⟩
  refine execute_star hdb (parseSql_text himage false) ?_
  rw [bindFrom, if_neg hname.1, InMemoryCatalog.getTable_eq_ok.mpr hfound]
  rfl

/-- **A ROW THERE AND BACK**: the INSERT of a row that fits a page, printed as a
    text, succeeds, and `SELECT *` shows then what it showed before and the row
    in one place. -/
theorem insert_select_text (texts : List Bytes) (hroom : (engineAfter texts).HasRoom)
    {tableName : Bytes} (hname : IsIdentifier tableName) {table : TableInfo}
    (hfound : (engineAfter texts).catalog.getTable tableName = .ok table) {row : List Value}
    (htyped : List.Forall₂ FieldTyped table.schema.columns row)
    (hfits : (rowBytes row).length ≤ 4090) :
    let db := engineAfter texts
    let db' := engineAfter (texts ++ [insertText tableName row])
    let names := table.schema.columns.map (·.name)
    (execute db (insertText tableName row)).1 = .ok {}
      ∧ ∃ front back,
        execute db (selectAllText tableName) = (.ok ⟨names, front ++ back⟩, db)
        ∧ execute db' (selectAllText tableName) = (.ok ⟨names, front ++ row :: back⟩, db') := by
  intro db db' names
  have hdb : db.Consistent := engineAfter_consistent texts
  have hdb' : db'.Consistent := engineAfter_consistent _
  have hafter : db' = (execute db (insertText tableName row)).2 := by
    rw [show db' = engineAfter (texts ++ [insertText tableName row]) from rfl, engineAfter,
      Run.final_append]
    rfl
  have hkey := InMemoryCatalog.getTable_eq_ok.mp hfound
  obtain ⟨data, hs⟩ := hdb.tables _ table hkey
  have hne : row ≠ [] := by
    rintro rfl
    exact hs.valid.nonempty (List.forall₂_nil_right_iff.mp htyped)
  have himage : (Statement.insert tableName (row.map Value.literal)).InImage := by
    refine ⟨hname, fun hnil => hne (List.map_eq_nil_iff.mp hnil), fun value hvalue => ?_⟩
    obtain ⟨v, -, rfl⟩ := List.mem_map.mp hvalue
    exact v.literal_inImage
  have hparse : parseSql (insertText tableName row)
      = .ok (.insert tableName (row.map Value.literal)) := parseSql_text himage false
  obtain ⟨values, hvalues, hevaluate⟩ := bindInsertValues_literals hs.valid.storable htyped
  have hbind : bind db.catalog.getTable (.insert tableName (row.map Value.literal))
      = .ok (.insert table values) := by
    rw [bind, bindInsert, hfound, ok_bind, if_neg, hvalues]
    · rfl
    · rw [List.length_map, htyped.length_eq]
      exact not_not_intro rfl
  have hbound : List.Forall₂ ValueBound table.schema.columns values := by
    cases hdb.boundIn hparse hbind with
    | insert _ hb => exact hb
  have hrun := hs.runInsert hdb hkey hbound
  rw [← execute_eq_runBound hparse hbind] at hrun
  generalize execute db (insertText tableName row) = answer at hrun hafter ⊢
  cases hrun with
  | failed heval =>
      rw [hevaluate] at heval
      cases heval
  | refused heval hcause =>
      rw [hevaluate] at heval
      cases heval
      rcases hcause with ⟨-, hlong⟩ | hfull
      · omega
      · exact absurd hfull (hroom.pages hdb hs)
  | inserted heval hlength hins hdec =>
      rw [hevaluate] at heval
      cases heval
      obtain ⟨⟨front, back, hold, hnew⟩, -⟩ := hdb.inserted_rows hs hins hdec
      refine ⟨rfl, front, back, ?_, ?_⟩
      · rw [execute_selectAll hdb hname hkey, hold]
      · have hkey' : db'.catalog.tablesByName.lookup (foldIdentifierKey tableName) = some table := by
          rw [hafter]
          exact hkey
        rw [execute_selectAll hdb' hname hkey', hafter, hnew]

/-- A negative number, a quote and a NULL. -/
theorem insert_select_text_quote :
    let texts := [ascii "CREATE TABLE t (a INT, b TEXT, c BOOL)"]
    let row : List Value := [.integer (-5), .text (ascii "it's"), .null]
    let insert := ascii "INSERT INTO t VALUES ( ( - 5 ) , 'it''s' , NULL )"
    ∃ front back, (execute (engineAfter (texts ++ [insert])) (ascii "SELECT * FROM t")).1
      = .ok ⟨[ascii "a", ascii "b", ascii "c"], front ++ row :: back⟩ := by
  intro texts row insert
  obtain ⟨hroom, hname, hinsert, hselect, htable⟩ : (engineAfter texts).HasRoom
      ∧ IsIdentifier (ascii "t") ∧ insertText (ascii "t") row = insert
      ∧ selectAllText (ascii "t") = ascii "SELECT * FROM t"
      ∧ (okValue ((engineAfter texts).catalog.getTable (ascii "t"))).map TableInfo.schema
        = some ⟨[⟨ascii "a", .integer, true, 0⟩, ⟨ascii "b", .text, true, 1⟩,
          ⟨ascii "c", .boolean, true, 2⟩]⟩ := by
    rw [Database.HasRoom]
    decide +kernel
  obtain ⟨table, hok, hschema⟩ := Option.map_eq_some_iff.mp htable
  have htyped : List.Forall₂ FieldTyped table.schema.columns row := by
    rw [hschema]
    exact .cons (.inr rfl) (.cons (.inr rfl) (.cons (.inl ⟨rfl, rfl⟩) .nil))
  obtain ⟨-, front, back, -, hshown⟩ := insert_select_text texts hroom hname
    (okValue_eq_some_iff.mp hok) htyped (by decide)
  rw [hinsert, hselect, hschema] at hshown
  exact ⟨front, back, congrArg Prod.fst hshown⟩

end MattSql
