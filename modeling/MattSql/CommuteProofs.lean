import MattSql.Library.LocalityProofs
import MattSql.PageNumberProofs
import MattSql.ReferenceProofs
import MattSql.StatementPrintProofs

/-! # Statements on different tables

    A statement names at most one table, and all it can see and change is what
    is stored under the table's folded name: the schema and the pages of the
    heap.  Table ids, root page ids and the order of creation are not seen.

    `contents` is what is stored under a name, with the page ids taken out.
    `contents_frame` and `execute_alike` say that the engine is local in the
    sense of `Run.Local`, and the library's rules then give that statements on
    different tables commute, as long as there are ids left. -/

namespace MattSql

open Fallible

/-- The folded name of the table that the text's statement names. -/
def namedTable (sql : Bytes) : Option Bytes :=
  match parseSql sql with
  | .error _ => none
  | .ok statement =>
    if statement.tableName = [] then none
    else some (foldIdentifierKey statement.tableName)

/-- What is stored under a folded name: the schema and the heap without its
    numbers. -/
def Database.contents (db : Database) (key : Bytes) : Option (TableSchema × PageHeapTable) :=
  (db.catalog.tablesByName.lookup key).bind fun table =>
    (db.storage.tables.lookup table.id).map fun data => (table.schema, data.heap.unnumbered)

section

variable {db db' : Database} {key : Bytes} {table : TableInfo} {data : InMemoryTableData}

theorem Database.Stores.contents (hs : db.Stores key table data)
    (hfound : db.catalog.tablesByName.lookup key = some table) :
    db.contents key = some (table.schema, data.heap.unnumbered) := by
  rw [Database.contents]
  rw [hfound, Option.bind_some, hs.heap_found]
  rfl

theorem Database.contents_of_none (h : db.catalog.tablesByName.lookup key = none) :
    db.contents key = none := by
  rw [Database.contents]
  rw [h]
  rfl

/-- Contents depend on the name's entry and on its table's heap. -/
theorem Database.contents_congr
    (hname : db'.catalog.tablesByName.lookup key = db.catalog.tablesByName.lookup key)
    (hheap : ∀ table, db.catalog.tablesByName.lookup key = some table →
      db'.storage.tables.lookup table.id = db.storage.tables.lookup table.id) :
    db'.contents key = db.contents key := by
  unfold Database.contents
  rw [hname]
  cases hfound : db.catalog.tablesByName.lookup key with
  | none => rfl
  | some table => rw [Option.bind_some, Option.bind_some, hheap table hfound]

/-- No table has the empty name. -/
theorem Database.Consistent.lookup_nil (hdb : db.Consistent) :
    db.catalog.tablesByName.lookup [] = none := by
  cases hfound : db.catalog.tablesByName.lookup [] with
  | none => rfl
  | some table =>
      obtain ⟨data, hs⟩ := hdb.tables [] table hfound
      exact absurd ((foldIdentifierKey_eq_nil_iff table.name).mp hs.key_eq.symm) hs.named

/-- Names with equal contents have tables with equal schemas, and heaps that
    differ in their numbers alone. -/
theorem Database.Consistent.table_of_contents (hdb : db.Consistent) (hdb' : db'.Consistent)
    (h : db.contents key = db'.contents key)
    (hfound : db.catalog.tablesByName.lookup key = some table) :
    ∃ data table' data', db.Stores key table data
      ∧ db'.catalog.tablesByName.lookup key = some table' ∧ db'.Stores key table' data'
      ∧ table.schema = table'.schema ∧ data.heap.unnumbered = data'.heap.unnumbered := by
  obtain ⟨data, hs⟩ := hdb.tables key table hfound
  rw [hs.contents hfound] at h
  cases hfound' : db'.catalog.tablesByName.lookup key with
  | none =>
      rw [Database.contents_of_none hfound'] at h
      cases h
  | some table' =>
      obtain ⟨data', hs'⟩ := hdb'.tables key table' hfound'
      rw [hs'.contents hfound'] at h
      obtain ⟨hschema, hheap⟩ := Prod.mk.inj (Option.some.inj h)
      exact ⟨data, table', data', hs, rfl, hs', hschema, hheap⟩

/-- Equal contents look the same to the binder. -/
theorem Database.Consistent.getTable_of_contents (hdb : db.Consistent) (hdb' : db'.Consistent)
    {name : Bytes} (h : db.contents (foldIdentifierKey name)
      = db'.contents (foldIdentifierKey name)) :
    TableInfo.anonymous <$> db.catalog.getTable name
      = TableInfo.anonymous <$> db'.catalog.getTable name := by
  unfold InMemoryCatalog.getTable InMemoryCatalog.loadTable
  cases hfound : db.catalog.tablesByName.lookup (foldIdentifierKey name) with
  | none =>
      cases hfound' : db'.catalog.tablesByName.lookup (foldIdentifierKey name) with
      | none => rfl
      | some table' =>
          obtain ⟨_, _, _, -, hfound'', -⟩ := hdb'.table_of_contents hdb h.symm hfound'
          rw [hfound] at hfound''
          cases hfound''
  | some table =>
      obtain ⟨data, table', data', hs, hfound', hs', hschema, -⟩ :=
        hdb.table_of_contents hdb' h hfound
      rw [hfound']
      show Except.ok table.anonymous = Except.ok table'.anonymous
      unfold TableInfo.anonymous
      rw [← hs.key_eq, ← hs'.key_eq, hschema]

end

/-! ## What a statement leaves alone -/

section

variable {db : Database} {sql : Bytes} {statement : Statement}

theorem namedTable_eq (hparse : parseSql sql = .ok statement) (hne : statement.tableName ≠ []) :
    namedTable sql = some (foldIdentifierKey statement.tableName) := by
  rw [namedTable]
  rw [hparse]
  exact if_neg hne

/-- What a statement binds to, in terms of the table it names. -/
theorem Database.Consistent.bound_cases (hdb : db.Consistent)
    (hparse : parseSql sql = .ok statement) {bound : BoundStatement}
    (hbind : bind db.catalog.getTable statement = .ok bound) :
    (∃ projections projectionNames table predicate,
      bound = .select projections projectionNames table predicate
      ∧ SelectBound projections projectionNames table predicate
      ∧ (statement.tableName = [] ∧ table = {}
        ∨ db.catalog.tablesByName.lookup (foldIdentifierKey statement.tableName) = some table))
    ∨ (∃ table values, bound = .insert table values
      ∧ db.catalog.tablesByName.lookup (foldIdentifierKey statement.tableName) = some table
      ∧ List.Forall₂ ValueBound table.schema.columns values)
    ∨ ∃ request, bound = .createTable request ∧ request.name = statement.tableName
      ∧ request.name ≠ [] ∧ request.schema.columns ≠ []
      ∧ foldIdentifierKey request.name ∉ db.catalog.tablesByName
      ∧ validateColumns 0 [] request.schema.columns = .ok request.schema.columns := by
  cases statement with
  | select projections tableName predicate =>
      -- the binder numbers columns by position, which needs the stored schemas valid
      have hvalid : ∀ name t, db.catalog.getTable name = .ok t → t.schema.Valid := by
        intro name t ht
        obtain ⟨data, hs⟩ := hdb.tables _ t (InMemoryCatalog.getTable_eq_ok.mp ht)
        exact hs.valid
      obtain ⟨ps, names, table, p, rfl, hb, hfrom⟩ :=
        bindSelect_ok hvalid (parseSql_select_ne_nil hparse) hbind
      refine Or.inl ⟨ps, names, table, p, rfl, hb, hfrom.imp id fun h => ?_⟩
      exact InMemoryCatalog.getTable_eq_ok.mp h.2
  | insert tableName values =>
      obtain ⟨table, values', rfl, htable, hvalues⟩ := bindInsert_ok hbind
      exact Or.inr (Or.inl ⟨table, values', rfl, InMemoryCatalog.getTable_eq_ok.mp htable,
        hvalues⟩)
  | createTable tableName columns =>
      obtain ⟨-, -, -, columns', -, rfl⟩ := bindCreateTable_bound hbind
      cases bindCreateTable_ok hbind with
      | createTable hne hcolumns hnew hvalid =>
          exact Or.inr (Or.inr ⟨_, rfl, rfl, hne, hcolumns, hnew, hvalid⟩)

/-- **FRAME**: a text leaves alone what is stored under every name but its
    own. -/
theorem Database.Consistent.contents_frame (hdb : db.Consistent) (sql : Bytes) {key : Bytes}
    (hkey : namedTable sql ≠ some key) :
    (MattSql.execute db sql).2.contents key = db.contents key := by
  cases hparse : parseSql sql with
  | error st =>
      rw [MattSql.execute, executeIn]
      rw [hparse]
  | ok statement =>
      cases hbind : bind db.catalog.getTable statement with
      | error st =>
          rw [MattSql.execute, executeIn]
          rw [hparse]
          dsimp only
          rw [hbind]
      | ok bound =>
          -- the key is not the one the statement names
          have hother : statement.tableName ≠ [] →
              key ≠ foldIdentifierKey statement.tableName := by
            rintro hne rfl
            exact hkey (namedTable_eq hparse hne)
          rw [execute_eq_runBound hparse hbind]
          rcases hdb.bound_cases hparse hbind with
            ⟨ps, names, table, p, rfl, hb, hfrom⟩ | ⟨table, values, rfl, hfound, hvalues⟩
              | ⟨request, rfl, hname, hne, hcolumns, hnew, hvalid⟩
          · rw [hb.run hdb (hfrom.imp And.right fun h => ⟨_, h⟩)]
          · obtain ⟨data, hs⟩ := hdb.tables _ table hfound
            have hnamed : statement.tableName ≠ [] := by
              intro hnil
              rw [hnil, show foldIdentifierKey [] = [] from rfl, hdb.lookup_nil] at hfound
              cases hfound
            have hrun := hs.runInsert hdb hfound hvalues
            generalize runBound {} (.insert table values) db = reply at hrun ⊢
            cases hrun with
            | failed => rfl
            | refused => rfl
            | @inserted row id heap _ _ _ _ =>
                refine Database.contents_congr rfl fun table' hfound' => ?_
                obtain ⟨data', hs'⟩ := hdb.tables key table' hfound'
                -- heaps are stored by id, and another name has another id
                have hid : table'.id ≠ table.id := fun hid => hother hnamed (hs.key_inj hs' hid)
                dsimp only
                rw [InMemoryTableStorageManager.storeHeap_lookup hs.heap_found, if_neg hid]
          · have hrun := hdb.runCreateTable hne hcolumns hnew hvalid
            have hkey' : key ≠ foldIdentifierKey request.name := by
              rw [hname]
              exact hother (hname ▸ hne)
            generalize runBound {} (.createTable request) db = reply at hrun ⊢
            cases hrun with
            | exhausted _ hbyName _ =>
                exact Database.contents_congr (by rw [hbyName]) fun _ _ => rfl
            | created hid _ =>
                refine Database.contents_congr (Finmap.lookup_insert_of_ne _ hkey')
                  fun table' hfound' => ?_
                obtain ⟨data', hs'⟩ := hdb.tables key table' hfound'
                refine Finmap.lookup_insert_of_ne _ ?_
                intro heq
                exact hid (heq ▸ Finmap.mem_of_lookup_eq_some hs'.by_id)

end

/-! ## What a statement depends on -/

theorem evaluateExpressions_anonymous (expressions : List BoundExpression)
    (context : EvaluationContext) :
    evaluateExpressions (expressions.map BoundExpression.anonymous) context
      = evaluateExpressions expressions context := by
  unfold evaluateExpressions
  induction expressions with
  | nil => rfl
  | cons e expressions ih =>
      rw [List.map_cons, List.mapM_cons, List.mapM_cons, ih, evaluate_anonymous]

theorem keptRows_anonymous (predicate : Option BoundExpression) (schema : TableSchema)
    (rows : List (List Value)) :
    keptRows (predicate.map BoundExpression.anonymous) schema rows
      = keptRows predicate schema rows := by
  cases predicate with
  | none => rfl
  | some p =>
      show filterRows p.anonymous schema rows = filterRows p schema rows
      induction rows with
      | nil => rfl
      | cons row rows ih => rw [filterRows, filterRows, evaluate_anonymous, ih]

/-- The reply to a SELECT does not depend on where its columns came from. -/
theorem selectReply_anonymous (projections : List BoundExpression) (projectionNames : List Bytes)
    (schema : TableSchema) (predicate : Option BoundExpression) (rows : List (List Value)) :
    selectReply (projections.map BoundExpression.anonymous) projectionNames schema
        (predicate.map BoundExpression.anonymous) rows
      = selectReply projections projectionNames schema predicate rows := by
  unfold selectReply projectRows
  rw [keptRows_anonymous, outputNames_anonymous]
  simp only [evaluateExpressions_anonymous]

section

variable {db db' : Database}

/-- Two SELECTs that bind alike over equal contents. -/
theorem SelectBound.run_alike (hdb : db.Consistent) (hdb' : db'.Consistent)
    {ps ps' : List BoundExpression} {names names' : List Bytes} {table table' : TableInfo}
    {p p' : Option BoundExpression} (hb : SelectBound ps names table p)
    (hb' : SelectBound ps' names' table' p') {tableName : Bytes}
    (hfrom : tableName = [] ∧ table = {}
      ∨ db.catalog.tablesByName.lookup (foldIdentifierKey tableName) = some table)
    (hfrom' : tableName = [] ∧ table' = {}
      ∨ db'.catalog.tablesByName.lookup (foldIdentifierKey tableName) = some table')
    (heq : (BoundStatement.select ps names table p).anonymous
      = (BoundStatement.select ps' names' table' p').anonymous)
    (hkey : db.contents (foldIdentifierKey tableName)
      = db'.contents (foldIdentifierKey tableName)) :
    (runBound {} (.select ps names table p) db).1
      = (runBound {} (.select ps' names' table' p') db').1 := by
  obtain ⟨hps, hnames, htable, hp⟩ := BoundStatement.select.inj heq
  -- equal rows and equal expressions give equal replies
  have hrows : db.sourceRows table = db'.sourceRows table' := by
    rcases hfrom with ⟨-, rfl⟩ | hfound
    · -- without FROM both range over one empty row
      have hname : table'.name = [] := by
        rw [← foldIdentifierKey_eq_nil_iff, ← TableInfo.name_of_anonymous htable]
        rfl
      unfold Database.sourceRows
      rw [if_pos rfl, if_pos hname]
    · obtain ⟨data, other, data', hs, hother, hs', hschema, hheap⟩ :=
        hdb.table_of_contents hdb' hkey hfound
      have hfound' : db'.catalog.tablesByName.lookup (foldIdentifierKey tableName)
          = some table' := by
        refine hfrom'.resolve_left fun hnil => ?_
        rw [hnil.1, show foldIdentifierKey [] = [] from rfl, hdb.lookup_nil] at hfound
        cases hfound
      cases Option.some.inj (hother.symm.trans hfound')
      rw [hs.sourceRows, hs'.sourceRows, ← heapRows_unnumbered, hheap, heapRows_unnumbered,
        hschema]
  rw [hb.run hdb (hfrom.imp And.right fun h => ⟨_, h⟩),
    hb'.run hdb' (hfrom'.imp And.right fun h => ⟨_, h⟩)]
  dsimp only
  rw [← selectReply_anonymous ps, ← selectReply_anonymous ps', hps, hnames, hp, hrows,
    TableInfo.schema_of_anonymous htable]

/-- Two INSERTs of the same values over equal contents, with pages left. -/
theorem Database.Stores.runInsert_alike (hdb : db.Consistent) (hdb' : db'.Consistent)
    (hroom : db.HasRoom) (hroom' : db'.HasRoom) {key : Bytes} {table table' : TableInfo}
    {data data' : InMemoryTableData} (hs : db.Stores key table data)
    (hs' : db'.Stores key table' data')
    (hfound : db.catalog.tablesByName.lookup key = some table)
    (hfound' : db'.catalog.tablesByName.lookup key = some table')
    (hschema : table.schema = table'.schema)
    (hheap : data.heap.unnumbered = data'.heap.unnumbered) {values : List BoundExpression}
    (hvalues : List.Forall₂ ValueBound table.schema.columns values) :
    (runBound {} (.insert table values) db).1 = (runBound {} (.insert table' values) db').1
      ∧ (runBound {} (.insert table values) db).2.contents key
        = (runBound {} (.insert table' values) db').2.contents key := by
  obtain ⟨hfailed, hrow⟩ := hs.runInsert_eq hdb hfound hvalues
  obtain ⟨hfailed', hrow'⟩ := hs'.runInsert_eq hdb' hfound' (hschema ▸ hvalues)
  cases heval : evaluateExpressions values {} with
  | error st =>
      rw [hfailed st heval, hfailed' st heval]
      refine ⟨rfl, ?_⟩
      rw [hs.contents hfound, hs'.contents hfound', hschema, hheap]
  | ok row =>
      obtain ⟨hreply, hafter⟩ := insertRows_alike hheap
        (Nat.not_le.mp (hroom.pages hdb hs)) (Nat.not_le.mp (hroom'.pages hdb' hs'))
        table'.schema row
      rw [hrow row heval, hrow' row heval, hschema, hreply]
      refine ⟨rfl, ?_⟩
      -- what is found after the row was stored, in either database
      have hstored : ∀ {db : Database} {table : TableInfo} {data : InMemoryTableData}
          (heap : PageHeapTable), db.Stores key table data →
          db.catalog.tablesByName.lookup key = some table →
          Database.contents { db with storage := db.storage.storeHeap table.id heap } key
            = some (table.schema, heap.unnumbered) := by
        intro db table data heap hs hfound
        rw [Database.contents]
        dsimp only
        rw [hfound, Option.bind_some,
          InMemoryTableStorageManager.storeHeap_lookup hs.heap_found, if_pos rfl]
        rfl
      rw [hstored _ hs hfound, hstored _ hs' hfound', hschema, hafter]

/-- Two CREATE TABLEs of the same table, with ids left. -/
theorem Database.Consistent.runCreateTable_alike (hdb : db.Consistent) (hdb' : db'.Consistent)
    (hroom : db.HasRoom) (hroom' : db'.HasRoom) {request : CreateTableRequest}
    (hne : request.name ≠ []) (hcolumns : request.schema.columns ≠ [])
    (hnew : foldIdentifierKey request.name ∉ db.catalog.tablesByName)
    (hnew' : foldIdentifierKey request.name ∉ db'.catalog.tablesByName)
    (hvalid : validateColumns 0 [] request.schema.columns = .ok request.schema.columns) :
    (runBound {} (.createTable request) db).1 = (runBound {} (.createTable request) db').1
      ∧ (runBound {} (.createTable request) db).2.contents (foldIdentifierKey request.name)
        = (runBound {} (.createTable request) db').2.contents (foldIdentifierKey request.name) := by
  -- the new heap is the same up to its root id
  have hcreated : ∀ {db : Database}, db.Consistent → db.HasRoom →
      foldIdentifierKey request.name ∉ db.catalog.tablesByName →
      (runBound {} (.createTable request) db).1 = .ok {}
        ∧ (runBound {} (.createTable request) db).2.contents (foldIdentifierKey request.name)
          = some (request.schema, { rootPageId := 0 }) := by
    intro db hdb hroom hnew
    have hrun := hdb.runCreateTable hne hcolumns hnew hvalid
    generalize runBound {} (.createTable request) db = reply at hrun ⊢
    cases hrun with
    | exhausted hroots _ _ => exact absurd hroots (hroom.roots hdb)
    | created _ hroots =>
        refine ⟨rfl, ?_⟩
        rw [(db.stores_newTable hne hcolumns hvalid
          (lt_of_le_of_ne hdb.roots_le hroots)).contents (Finmap.lookup_insert _)]
        rfl
  obtain ⟨hreply, hafter⟩ := hcreated hdb hroom hnew
  obtain ⟨hreply', hafter'⟩ := hcreated hdb' hroom' hnew'
  rw [hreply, hreply', hafter, hafter']
  exact ⟨rfl, rfl⟩

/-- **LOCALITY**: the reply to a text, and what it leaves under the name it
    names, depend on what was stored under that name alone. -/
theorem Database.Consistent.execute_alike (hdb : db.Consistent) (hdb' : db'.Consistent)
    (hroom : db.HasRoom) (hroom' : db'.HasRoom) (sql : Bytes)
    (h : ∀ key, namedTable sql = some key → db.contents key = db'.contents key) :
    (MattSql.execute db sql).1 = (MattSql.execute db' sql).1
      ∧ ∀ key, namedTable sql = some key →
        (MattSql.execute db sql).2.contents key = (MattSql.execute db' sql).2.contents key := by
  cases hparse : parseSql sql with
  | error st =>
      unfold MattSql.execute executeIn
      rw [hparse]
      exact ⟨rfl, h⟩
  | ok statement =>
      -- both databases agree on the one table the binder can look up
      have hkey : db.contents (foldIdentifierKey statement.tableName)
          = db'.contents (foldIdentifierKey statement.tableName) := by
        by_cases hnil : statement.tableName = []
        · rw [hnil, show foldIdentifierKey [] = [] from rfl,
            Database.contents_of_none hdb.lookup_nil, Database.contents_of_none hdb'.lookup_nil]
        · exact h _ (namedTable_eq hparse hnil)
      rcases map_eq_map_iff.mp (bind_anonymous_at (hdb.getTable_of_contents hdb' hkey)) with
        ⟨st, hbind, hbind'⟩ | ⟨bound, bound', hbind, hbind', heq⟩
      · unfold MattSql.execute executeIn
        rw [hparse]
        dsimp only
        rw [hbind, hbind']
        exact ⟨rfl, h⟩
      · have hnamed : ∀ key, namedTable sql = some key →
            key = foldIdentifierKey statement.tableName := by
          intro key hname
          rw [namedTable] at hname
          rw [hparse] at hname
          dsimp only at hname
          split at hname
          · cases hname
          · exact (Option.some.inj hname).symm
        rw [execute_eq_runBound hparse hbind, execute_eq_runBound hparse hbind']
        rcases hdb.bound_cases hparse hbind with
          ⟨ps, names, table, p, rfl, hb, hfrom⟩ | ⟨table, values, rfl, hfound, hvalues⟩
            | ⟨request, rfl, hname, hne, hcolumns, hnew, hvalid⟩
        · rcases hdb'.bound_cases hparse hbind' with
            ⟨ps', names', table', p', rfl, hb', hfrom'⟩ | ⟨_, _, rfl, -⟩ | ⟨_, rfl, -⟩
          · refine ⟨hb.run_alike hdb hdb' hb' hfrom hfrom' heq hkey, ?_⟩
            rw [hb.run hdb (hfrom.imp And.right fun h => ⟨_, h⟩),
              hb'.run hdb' (hfrom'.imp And.right fun h => ⟨_, h⟩)]
            exact h
          · cases heq
          · cases heq
        · rcases hdb'.bound_cases hparse hbind' with
            ⟨_, _, _, _, rfl, -⟩ | ⟨table', values', rfl, hfound', -⟩ | ⟨_, rfl, -⟩
          · cases heq
          · obtain ⟨-, rfl⟩ := BoundStatement.insert.inj heq
            obtain ⟨data, other, data', hs, hother, hs', hschema, hheap⟩ :=
              hdb.table_of_contents hdb' hkey hfound
            cases Option.some.inj (hother.symm.trans hfound')
            obtain ⟨hreply, hafter⟩ := hs.runInsert_alike hdb hdb' hroom hroom' hs' hfound
              hfound' hschema hheap hvalues
            refine ⟨hreply, fun key hname => ?_⟩
            rw [hnamed key hname]
            exact hafter
          · cases heq
        · rcases hdb'.bound_cases hparse hbind' with
            ⟨_, _, _, _, rfl, -⟩ | ⟨_, _, rfl, -⟩ | ⟨request', rfl, -, -, -, hnew', -⟩
          · cases heq
          · cases heq
          · cases BoundStatement.createTable.inj heq
            obtain ⟨hreply, hafter⟩ := hdb.runCreateTable_alike hdb' hroom hroom' hne hcolumns
              hnew hnew' hvalid
            refine ⟨hreply, fun key hkey => ?_⟩
            rw [hnamed key hkey, ← hname]
            exact hafter

end

/-! ## Runs -/

/-- The engine is local: a text touches what is stored under one name. -/
theorem execute_local :
    Run.Local execute namedTable Database.contents Database.Consistent Database.HasRoom where
  kept := fun _ sql hdb => hdb.execute sql
  frame := fun _ sql _ hdb hkey => hdb.contents_frame sql hkey
  alike := fun _ _ sql hdb hdb' hroom hroom' h => hdb.execute_alike hdb' hroom hroom' sql h

/-- **STATEMENTS ON DIFFERENT TABLES COMMUTE**: in every reachable state, two
    texts that name different tables, or none, get the same replies in either
    order, and after either order every further list of texts gets the same
    replies, as long as there is room for pages and tables. -/
theorem statements_commute (texts : List Bytes) (a b : Bytes)
    (hnames : ∀ key, namedTable a = some key → namedTable b ≠ some key) (more : List Bytes)
    (hroom : ∀ n, (engineAfter (texts ++ (a :: b :: more).take n)).HasRoom)
    (hroom' : ∀ n, (engineAfter (texts ++ (b :: a :: more).take n)).HasRoom) :
    (execute (engineAfter texts) a).1 = (execute (engineAfter (texts ++ [b])) a).1
    ∧ (execute (engineAfter (texts ++ [a])) b).1 = (execute (engineAfter texts) b).1
    ∧ Run.trace execute (engineAfter (texts ++ [a, b])) more
        = Run.trace execute (engineAfter (texts ++ [b, a])) more := by
  have hafter : ∀ tail, engineAfter (texts ++ tail) = Run.final execute (engineAfter texts) tail :=
    fun tail => Run.final_append execute {} texts tail
  simp only [hafter] at hroom hroom' ⊢
  have hdb := engineAfter_consistent texts
  obtain ⟨hreply, hreply', hcontents⟩ :=
    execute_local.commute hdb (hroom 0) (hroom 1) (hroom' 1) hnames
  refine ⟨hreply, hreply', ?_⟩
  refine (execute_local.trace_eq more _ _ ((hdb.execute a).execute b) ((hdb.execute b).execute a)
    (fun n => hroom (n + 2)) (fun n => hroom' (n + 2)) hcontents).1

/-- Two tables created in either order, filled and read. -/
theorem statements_commute_two_tables :
    let texts := [ascii "CREATE TABLE s (a INT)"]
    let a := ascii "CREATE TABLE t (b BOOL)"
    let b := ascii "CREATE TABLE u (c TEXT)"
    let more := [ascii "INSERT INTO U VALUES ('x')", ascii "SELECT * FROM u"]
    (∀ key, namedTable a = some key → namedTable b ≠ some key)
      ∧ Run.trace execute (engineAfter (texts ++ [a, b])) more
        = Run.trace execute (engineAfter (texts ++ [b, a])) more := by
  intro texts a b more
  have hnames : ∀ key, namedTable a = some key → namedTable b ≠ some key := by
    intro key ha hb
    have hdiffer : namedTable a ≠ namedTable b := by decide +kernel
    exact hdiffer (ha.trans hb.symm)
  -- the text before the pair runs once for both orders
  obtain ⟨hroom, hroom'⟩ :
      (∀ n ≤ (a :: b :: more).length,
        (engineAfter (texts ++ (a :: b :: more).take n)).HasRoom)
      ∧ ∀ n ≤ (b :: a :: more).length,
        (engineAfter (texts ++ (b :: a :: more).take n)).HasRoom := by
    unfold Database.HasRoom
    decide +kernel
  replace hroom := Run.forall_take (P := fun run => (engineAfter (texts ++ run)).HasRoom) hroom
  replace hroom' := Run.forall_take (P := fun run => (engineAfter (texts ++ run)).HasRoom) hroom'
  exact ⟨hnames, (statements_commute texts a b hnames more hroom hroom').2.2⟩

/-! ## With the ids used up

    The last root id goes to whichever table is created first. -/

/-- A table name of `n + 1` letters. -/
def crowdName (n : Nat) : Bytes := List.replicate (n + 1) 120

/-- `CREATE TABLE xx...x ( a INT )`. -/
def createCrowd (n : Nat) : Bytes :=
  Statement.text (.createTable (crowdName n) [⟨ascii "a", .int⟩]) false

/-- Tables with names of one letter, of two letters and so on. -/
def crowd (n : Nat) : List Bytes := (List.range n).map createCrowd

theorem foldIdentifierKey_crowdName (n : Nat) : foldIdentifierKey (crowdName n) = crowdName n := by
  rw [foldIdentifierKey, crowdName]
  rw [List.map_replicate]
  rfl

theorem crowdName_injective {n m : Nat} (h : crowdName n = crowdName m) : n = m := by
  have hlen := congrArg List.length h
  unfold crowdName at hlen
  rw [List.length_replicate, List.length_replicate] at hlen
  omega

theorem crowdName_ne_nil (n : Nat) : crowdName n ≠ [] := List.cons_ne_nil _ _

theorem isIdentifier_crowdName (n : Nat) : IsIdentifier (crowdName n) := by
  refine ⟨crowdName_ne_nil n, rfl, ?_, ?_⟩
  · rw [List.all_eq_true]
    intro c hc
    rw [List.eq_of_mem_replicate hc]
    rfl
  · -- no keyword starts with the letter
    have hnone : (kKeywords.find? fun entry => entry.1 = foldIdentifierKey (crowdName n))
        = none := by
      rw [List.find?_eq_none]
      intro entry hentry heq
      have hhead : entry.1.head? = some 120 := by
        rw [of_decide_eq_true heq, foldIdentifierKey_crowdName]
        rfl
      have hkeywords : ∀ entry ∈ kKeywords, entry.1.head? ≠ some 120 := by decide
      exact hkeywords entry hentry hhead
    rw [lookupKeyword]
    rw [hnone]

theorem parseSql_createCrowd (n : Nat) :
    parseSql (createCrowd n) = .ok (.createTable (crowdName n) [⟨ascii "a", .int⟩]) := by
  have hcolumns : ∀ column ∈ [(⟨ascii "a", .int⟩ : ColumnDefinition)],
      IsIdentifier column.name := by decide
  have himage : Statement.InImage (.createTable (crowdName n) [⟨ascii "a", .int⟩]) :=
    ⟨isIdentifier_crowdName n, List.cons_ne_nil _ _, hcolumns⟩
  rw [parseSql, createCrowd]
  rw [parse_statementText himage false]

theorem namedTable_createCrowd (n : Nat) : namedTable (createCrowd n) = some (crowdName n) := by
  rw [namedTable_eq (parseSql_createCrowd n) (crowdName_ne_nil n)]
  exact congrArg some (foldIdentifierKey_crowdName n)

/-- One of the texts where its table is not there yet. -/
theorem execute_createCrowd {db : Database} (hdb : db.Consistent) {n : Nat}
    (hnew : crowdName n ∉ db.catalog.tablesByName) :
    CreateRun db ⟨crowdName n, ⟨[{ name := ascii "a", type := .integer, id := 0 }]⟩⟩
      (execute db (createCrowd n)) := by
  have hget : db.catalog.getTable (crowdName n)
      = errorResult .notFound (ascii "table not found") := by
    rw [InMemoryCatalog.getTable, foldIdentifierKey_crowdName,
      InMemoryCatalog.loadTable_notFound hnew]
  have hbind : bind db.catalog.getTable (.createTable (crowdName n) [⟨ascii "a", .int⟩])
      = .ok (.createTable
        ⟨crowdName n, ⟨[{ name := ascii "a", type := .integer, id := 0 }]⟩⟩) := by
    rw [bind, bindCreateTable, if_neg (crowdName_ne_nil n), if_neg (List.cons_ne_nil _ _), hget]
    rfl
  rw [execute_eq_runBound (parseSql_createCrowd n) hbind]
  refine hdb.runCreateTable (crowdName_ne_nil n) (List.cons_ne_nil _ _) ?_ rfl
  rw [foldIdentifierKey_crowdName]
  exact hnew

/-- Each text takes a root id. -/
theorem engineAfter_crowd (n : Nat) (hn : n < kInvalidPageId) :
    (engineAfter (crowd n)).storage.nextRootPageId = n + 1
    ∧ ∀ key ∈ (engineAfter (crowd n)).catalog.tablesByName, ∃ i < n, key = crowdName i := by
  -- each text is one more statement, and its name is new
  induction n with
  | zero => exact ⟨rfl, fun key hkey => absurd hkey Finmap.notMem_empty⟩
  | succ n ih =>
      obtain ⟨hnext, hkeys⟩ := ih (by omega)
      have hafter : engineAfter (crowd (n + 1))
          = (execute (engineAfter (crowd n)) (createCrowd n)).2 := by
        rw [engineAfter, crowd]
        rw [List.range_succ, List.map_append, Run.final_append]
        rfl
      have hnew : crowdName n ∉ (engineAfter (crowd n)).catalog.tablesByName := by
        intro hmem
        obtain ⟨i, hi, heq⟩ := hkeys _ hmem
        exact hi.ne' (crowdName_injective heq)
      have hrun := execute_createCrowd (engineAfter_consistent (crowd n)) hnew
      rw [hafter]
      generalize execute (engineAfter (crowd n)) (createCrowd n) = reply at hrun ⊢
      cases hrun with
      | exhausted hroots _ _ =>
          rw [hnext] at hroots
          omega
      | created _ _ =>
          constructor
          · show ((engineAfter (crowd n)).storage.nextRootPageId + 1) % 2 ^ 64 = n + 1 + 1
            rw [hnext]
            rw [kInvalidPageId] at hn
            exact Nat.mod_eq_of_lt (by omega)
          · intro key hkey
            rcases Finmap.mem_insert.mp hkey with rfl | hkey
            · exact ⟨n, by omega, foldIdentifierKey_crowdName n⟩
            · obtain ⟨i, hi, rfl⟩ := hkeys key hkey
              exact ⟨i, by omega, rfl⟩

/-- With one root id left, a CREATE TABLE succeeds before another one and fails
    after it. -/
theorem createCrowd_last {n : Nat} (hn : n + 2 = kInvalidPageId) :
    (execute (engineAfter (crowd n)) (createCrowd n)).1 = .ok {}
    ∧ ∃ st, (execute (engineAfter (crowd n ++ [createCrowd (n + 1)])) (createCrowd n)).1
      = .error st := by
  obtain ⟨hnext, hkeys⟩ := engineAfter_crowd n (by omega)
  have hnew : ∀ m, n ≤ m → crowdName m ∉ (engineAfter (crowd n)).catalog.tablesByName := by
    intro m hm hmem
    obtain ⟨i, hi, heq⟩ := hkeys _ hmem
    have := crowdName_injective heq
    omega
  have hdb := engineAfter_consistent (crowd n)
  constructor
  · have hrun := execute_createCrowd hdb (hnew n le_rfl)
    generalize execute (engineAfter (crowd n)) (createCrowd n) = reply at hrun ⊢
    cases hrun with
    | exhausted hroots _ _ =>
        rw [hnext] at hroots
        omega
    | created _ _ => rfl
  · have hafter : engineAfter (crowd n ++ [createCrowd (n + 1)])
        = (execute (engineAfter (crowd n)) (createCrowd (n + 1))).2 := by
      rw [engineAfter]
      rw [Run.final_append]
      rfl
    have hdb' := hdb.execute (createCrowd (n + 1))
    have hrun := execute_createCrowd hdb (hnew (n + 1) (by omega))
    rw [hafter]
    generalize execute (engineAfter (crowd n)) (createCrowd (n + 1)) = reply at hrun hdb' ⊢
    cases hrun with
    | exhausted hroots _ _ =>
        rw [hnext] at hroots
        omega
    | created _ _ =>
        -- the other text took the last root id
        have hused : ((engineAfter (crowd n)).storage.nextRootPageId + 1) % 2 ^ 64
            = kInvalidPageId := by
          rw [hnext]
          unfold kInvalidPageId at hn ⊢
          exact (Nat.mod_eq_of_lt (by omega)).trans (by omega)
        have hmem : crowdName n ∉ ((engineAfter (crowd n)).catalog.allocateTableId.2.withTable
            ((engineAfter (crowd n)).newTable
              ⟨crowdName (n + 1), ⟨[{ name := ascii "a", type := .integer, id := 0 }]⟩⟩)
            ).tablesByName := by
          intro hmem
          rcases Finmap.mem_insert.mp hmem with heq | hmem
          · have := crowdName_injective (heq.trans (foldIdentifierKey_crowdName (n + 1)))
            omega
          · exact hnew n le_rfl hmem
        have hrun' := execute_createCrowd hdb' hmem
        dsimp only at hrun' ⊢
        generalize execute _ (createCrowd n) = reply at hrun' ⊢
        cases hrun' with
        | exhausted _ _ _ => exact ⟨_, rfl⟩
        | created _ hroots => exact absurd hused hroots

/-- The reply to a CREATE TABLE depends on whether another one came before it,
    when they compete for the last root id. -/
theorem crowded_creates_do_not_commute :
    (∀ key, namedTable (createCrowd (kInvalidPageId - 2)) = some key →
      namedTable (createCrowd (kInvalidPageId - 2 + 1)) ≠ some key)
    ∧ (execute (engineAfter (crowd (kInvalidPageId - 2))) (createCrowd (kInvalidPageId - 2))).1
      = .ok {}
    ∧ ∃ st, (execute (engineAfter (crowd (kInvalidPageId - 2)
        ++ [createCrowd (kInvalidPageId - 2 + 1)])) (createCrowd (kInvalidPageId - 2))).1
      = .error st := by
  have hn : kInvalidPageId - 2 + 2 = kInvalidPageId := by decide
  generalize kInvalidPageId - 2 = n at hn ⊢
  refine ⟨?_, createCrowd_last hn⟩
  intro key ha hb
  rw [namedTable_createCrowd] at ha hb
  have := crowdName_injective (Option.some.inj (ha.trans hb.symm))
  omega

end MattSql
