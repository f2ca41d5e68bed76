import Mathlib.Algebra.Order.BigOperators.Group.Multiset
import Mathlib.Algebra.Order.Group.Nat
import MattSql.EngineProofs

/-! # What the engine guarantees in every reachable state

    Three results over all runs of a fresh engine, each read off
    `engineAfter_consistent` and the three statement lemmas:

    * `optimizer_preserves_execution`: the optimizer changes neither the reply
      nor the resulting database;
    * `execute_error_unchanged`: a failing text leaves the database as it was;
    * `execute_outcome`: after binding, no stage fails except in the ways that
      depend on the stored and computed values. -/

namespace MattSql

open Fallible

/-! ## Room for pages and tables -/

/-- The number of tables. -/
def Database.tableCount (db : Database) : Nat := db.storage.tables.keys.card

/-- The number of pages of all heaps. -/
def Database.pageCount (db : Database) : Nat :=
  (db.storage.tables.entries.map fun entry => entry.2.heap.pages.length).sum

/-- With one more table and one more page there are still fewer than `2 ^ 64`
    of them. -/
def Database.HasRoom (db : Database) : Prop :=
  db.tableCount + 1 + (db.pageCount + 1) < 2 ^ 64

section

variable {db : Database}

theorem Database.HasRoom.roots (h : db.HasRoom) (hdb : db.Consistent) :
    db.storage.nextRootPageId ≠ kInvalidPageId := by
  have hroots := hdb.roots
  rw [Database.HasRoom, Database.tableCount] at h
  rw [kInvalidPageId]
  omega

theorem Database.HasRoom.pages (h : db.HasRoom) (hdb : db.Consistent) {key : Bytes}
    {table : TableInfo} {data : InMemoryTableData} (hs : db.Stores key table data) :
    ¬ kInvalidPageId ≤ data.heap.rootPageId + data.heap.pages.length := by
  have hpages : data.heap.pages.length ≤ db.pageCount := by
    apply Multiset.le_sum_of_mem
    exact Multiset.mem_map.mpr ⟨⟨table.id, data⟩, Finmap.lookup_eq_some_iff.mp hs.heap_found, rfl⟩
  have hroot := hs.root_lt
  rw [hdb.roots] at hroot
  rw [Database.HasRoom, Database.tableCount] at h
  rw [kInvalidPageId]
  omega

end

/-! ## The optimizer -/

/-- **THE OPTIMIZER CHANGES NOTHING**: in every reachable state, for every text
    that binds, planning succeeds with and without the optimizer, and both
    plans give the same reply and leave the same database. -/
theorem optimizer_preserves_execution (texts : List Bytes) (sql : Bytes)
    (statement : Statement) (hparse : parseSql sql = .ok statement) (bound : BoundStatement)
    (hbind : bind (engineAfter texts).catalog.getTable statement = .ok bound)
    (transaction : Transaction) :
    ∃ logical optimized plain physical,
      planLogical bound = .ok logical
      ∧ optimize logical = .ok optimized
      ∧ planPhysical logical = .ok plain
      ∧ planPhysical optimized = .ok physical
      ∧ executePhysical physical transaction (engineAfter texts)
          = executePhysical plain transaction (engineAfter texts) := by
  have hdb := engineAfter_consistent texts
  obtain ⟨logical, optimized, physical, hs⟩ := (hdb.boundIn hparse hbind).staged hdb
  exact ⟨logical, optimized, plainPlan bound, physical, hs.planned, hs.optimizes, hs.plain,
    hs.replanned, hs.alike.executePhysical_eq transaction⟩

/-- A filter that folds to TRUE and a projection that folds to a number, over a
    table with one row. -/
theorem optimizer_preserves_execution_constant_filter :
    let texts := [ascii "CREATE TABLE t (a INT)", ascii "INSERT INTO t VALUES (1)"]
    let sql := ascii "SELECT a, 1 + 2 FROM t WHERE 1 = 1"
    ∃ statement bound, parseSql sql = .ok statement
      ∧ bind (engineAfter texts).catalog.getTable statement = .ok bound
      ∧ ∃ logical optimized plain physical,
        planLogical bound = .ok logical
        ∧ optimize logical = .ok optimized
        ∧ planPhysical logical = .ok plain
        ∧ planPhysical optimized = .ok physical
        ∧ executePhysical physical {} (engineAfter texts)
            = executePhysical plain {} (engineAfter texts) := by
  intro texts sql
  have hok : (okValue (parseSql sql >>= bind (engineAfter texts).catalog.getTable)).isSome
      = true := by decide +kernel
  obtain ⟨bound, h⟩ := Option.isSome_iff_exists.mp hok
  obtain ⟨statement, hparse, hbind⟩ := bind_ok_iff.mp (okValue_eq_some_iff.mp h)
  exact ⟨statement, bound, hparse, hbind,
    optimizer_preserves_execution texts sql statement hparse bound hbind {}⟩

/-! ## Failing texts -/

/-- With room left, a bound statement that fails leaves the database as it
    was. -/
theorem BoundIn.error_unchanged {db : Database} (hdb : db.Consistent) (hroom : db.HasRoom)
    {bound : BoundStatement} (h : BoundIn db bound) {st : Status}
    (herr : (runBound {} bound db).1 = .error st) : (runBound {} bound db).2 = db := by
  cases h with
  | select hb hfrom => rw [hb.run hdb hfrom]
  | @insert key table values hfound hb =>
      obtain ⟨data, hs⟩ := hdb.tables key table hfound
      have hrun := hs.runInsert hdb hfound hb
      generalize runBound {} (.insert table values) db = reply at hrun herr ⊢
      cases hrun with
      | failed => rfl
      | refused => rfl
      | inserted => exact nomatch herr
  | @createTable request hname hne hnew hvalid =>
      have hrun := hdb.runCreateTable hname hne hnew hvalid
      generalize runBound {} (.createTable request) db = reply at hrun herr ⊢
      cases hrun with
      | exhausted hroots _ _ => exact absurd hroots (hroom.roots hdb)
      | created => exact nomatch herr

/-- **A FAILING TEXT CHANGES NOTHING**: in every reachable state with room left,
    when the engine replies with an error of any kind, the catalog with its
    counters, the heaps and their pages are what they were. -/
theorem execute_error_unchanged (texts : List Bytes) (hroom : (engineAfter texts).HasRoom)
    (sql : Bytes) (st : Status) (herr : (execute (engineAfter texts) sql).1 = .error st) :
    (execute (engineAfter texts) sql).2 = engineAfter texts := by
  have hdb := engineAfter_consistent texts
  unfold execute executeIn at herr ⊢
  cases hparse : parseSql sql with
  | error e => rfl
  | ok statement =>
      rw [hparse] at herr
      dsimp only at herr ⊢
      cases hbind : bind (engineAfter texts).catalog.getTable statement with
      | error e => rfl
      | ok bound =>
          rw [hbind] at herr
          exact (hdb.boundIn hparse hbind).error_unchanged hdb hroom herr

/-- An INSERT whose value overflows. -/
theorem execute_error_unchanged_overflow :
    let texts := [ascii "CREATE TABLE t (a INT)", ascii "INSERT INTO t VALUES (1)"]
    let sql := ascii "INSERT INTO t VALUES (9223372036854775807 + 1)"
    (execute (engineAfter texts) sql).1
        = errorResult .executionError (ascii "integer addition overflow")
      ∧ (execute (engineAfter texts) sql).2 = engineAfter texts := by
  intro texts sql
  obtain ⟨hroom, herr⟩ : (engineAfter texts).HasRoom
      ∧ (execute (engineAfter texts) sql).1
        = errorResult .executionError (ascii "integer addition overflow") := by
    rw [Database.HasRoom]
    decide +kernel
  exact ⟨herr, execute_error_unchanged texts hroom sql _ herr⟩

/-! ## Failures after binding -/

mutual

/-- The tables a physical plan names, with the storage it opens for each. -/
def PhysicalPlan.references : PhysicalPlan → List (TableInfo × TableStorageReference)
  | .seqScan children table storage => (table, storage) :: referencesOf children
  | .filter children _ => referencesOf children
  | .projection children _ _ => referencesOf children
  | .values children _ => referencesOf children
  | .insert children table storage => (table, storage) :: referencesOf children
  | .createTable children _ _ => referencesOf children

def referencesOf : List PhysicalPlan → List (TableInfo × TableStorageReference)
  | [] => []
  | child :: children => child.references ++ referencesOf children

end

/-- The storage opens and every record in it decodes under the table's
    schema. -/
def Database.Opens (db : Database) (table : TableInfo) (reference : TableStorageReference) :
    Prop :=
  ∃ heap, db.storage.openHeap reference = .ok heap
    ∧ ∀ record ∈ heap.records, ∃ row, decode table.schema record.bytes = .ok row

/-- The failures that depend on values: integer arithmetic, a NULL read by the
    predicate or a projection of a SELECT, and a row too long for a page. -/
inductive ValueFailure (db : Database) : BoundStatement → Status → Prop
  | arithmetic {bound : BoundStatement} {st : Status} (failure : ArithmeticFailure st) :
      ValueFailure db bound st
  | nullRead {projections : List BoundExpression} {projectionNames : List Bytes}
      {table : TableInfo} {predicate : Option BoundExpression} {row : List Value}
      {e : BoundExpression} {st : Status} (stored : row ∈ db.sourceRows table)
      (used : e ∈ projections ∨ predicate = some e) (reads : e.ReadsNull row)
      (failure : NullFailure st) :
      ValueFailure db (.select projections projectionNames table predicate) st
  | tooLong {table : TableInfo} {values : List BoundExpression} {row : List Value}
      {st : Status} (evaluated : evaluateExpressions values {} = .ok row)
      (long : 4090 < (rowBytes row).length) (code : st.code = .invalidArgument) :
      ValueFailure db (.insert table values) st

theorem ValueFailure.code {db : Database} {bound : BoundStatement} {st : Status}
    (h : ValueFailure db bound st) :
    st.code = .executionError ∨ st.code = .typeMismatch ∨ st.code = .invalidArgument := by
  cases h with
  | arithmetic hf => exact Or.inl hf.1
  | nullRead _ _ _ hf =>
      rcases hf with rfl | hf
      · exact Or.inl rfl
      · exact Or.inr (Or.inl hf)
  | tooLong _ _ hcode => exact Or.inr (Or.inr hcode)

/-- What the predicate and the projections of a SELECT can fail with. -/
theorem SelectBound.reply_error {db : Database} (hdb : db.Consistent)
    {projections : List BoundExpression} {projectionNames : List Bytes} {table : TableInfo}
    {predicate : Option BoundExpression}
    (h : SelectBound projections projectionNames table predicate) (hfrom : db.From table)
    {st : Status}
    (herr : selectReply projections projectionNames table.schema predicate
      (db.sourceRows table) = .error st) :
    ValueFailure db (.select projections projectionNames table predicate) st := by
  -- every expression of the statement is well typed over every stored row
  have hout : ∀ row ∈ db.sourceRows table, ∀ e, e.WellTyped table.schema.columns →
      Outcome e.type (e.ReadsNull row) (evaluate ⟨some table.schema, some row⟩ e) :=
    fun row hrow e hw => evaluate_outcome (hdb.rowFits hfrom hrow).context hw
  have hfail : ∀ row ∈ db.sourceRows table, ∀ e, (e ∈ projections ∨ predicate = some e) →
      ArithmeticFailure st ∨ NullFailure st ∧ e.ReadsNull row →
      ValueFailure db (.select projections projectionNames table predicate) st := by
    rintro row hrow e hused (harith | ⟨hnull, hread⟩)
    · exact .arithmetic harith
    · exact .nullRead hrow hused hread hnull
  rcases bind_error_iff.mp herr with hkept | ⟨kept, hkept, herr⟩
  · -- the predicate failed, or came to NULL, at some row
    cases predicate with
    | none => exact nomatch hkept
    | some p =>
        obtain ⟨hw, htype⟩ := h.predicate_typed p rfl
        obtain ⟨row, hrow, hst⟩ := filterRows_error hkept
        have houtcome := hout row hrow p hw
        refine hfail row hrow p (Or.inr rfl) ?_
        rcases bind_error_iff.mp hst with hst | ⟨v, hv, hst⟩
        · rw [hst] at houtcome
          exact houtcome
        · rw [hv] at houtcome
          rcases houtcome with ht | ⟨rfl, hread⟩
          · rw [htype] at ht
            cases v with
            | boolean b => exact nomatch hst
            | _ => exact nomatch ht
          · cases hst
            exact Or.inr ⟨Or.inr rfl, hread⟩
  · rcases bind_error_iff.mp herr with hout' | ⟨output, -, herr⟩
    · obtain ⟨row, hrow, e, he, hst⟩ := projectRows_error hout'
      -- a row that was kept is a stored row
      have hsource : row ∈ db.sourceRows table := by
        cases predicate with
        | none =>
            cases hkept
            exact hrow
        | some p =>
            obtain ⟨-, rfl⟩ := filterRows_ok_iff.mp hkept
            exact (List.mem_filter.mp hrow).1
      have houtcome := hout row hsource e (h.projections_typed e he)
      rw [hst] at houtcome
      exact hfail row hsource e (Or.inl he) houtcome
    · exact nomatch herr

/-- With room left, a bound statement fails only because of values. -/
theorem BoundIn.valueFailure {db : Database} (hdb : db.Consistent) (hroom : db.HasRoom)
    {bound : BoundStatement} (h : BoundIn db bound) {st : Status}
    (herr : (runBound {} bound db).1 = .error st) : ValueFailure db bound st := by
  cases h with
  | select hb hfrom =>
      rw [hb.run hdb hfrom] at herr
      exact hb.reply_error hdb hfrom herr
  | @insert key table values hfound hb =>
      obtain ⟨data, hs⟩ := hdb.tables key table hfound
      have hrun := hs.runInsert hdb hfound hb
      generalize runBound {} (.insert table values) db = reply at hrun herr
      cases hrun with
      | failed _ harith =>
          cases herr
          exact .arithmetic harith
      | refused heval hcause =>
          cases herr
          obtain ⟨hcode, hlong⟩ := hcause.resolve_right (hroom.pages hdb hs)
          exact .tooLong heval hlong hcode
      | inserted => exact nomatch herr
  | @createTable request hname hne hnew hvalid =>
      have hrun := hdb.runCreateTable hname hne hnew hvalid
      generalize runBound {} (.createTable request) db = reply at hrun herr
      cases hrun with
      | exhausted hroots _ _ => exact absurd hroots (hroom.roots hdb)
      | created => exact nomatch herr

theorem Database.Consistent.opens {db : Database} (hdb : db.Consistent) {key : Bytes}
    {table : TableInfo} (hfound : db.catalog.tablesByName.lookup key = some table) :
    db.Opens table (makeTableStorageReference table) := by
  obtain ⟨data, hs⟩ := hdb.tables key table hfound
  exact ⟨data.heap, hs.openHeap, hs.decodes⟩

private theorem references_source {db : Database} (hdb : db.Consistent) {table : TableInfo}
    (hfrom : db.From table) :
    ∀ r ∈ (physicalSource table).references, db.Opens r.1 r.2 := by
  unfold physicalSource
  rcases hfrom with rfl | ⟨key, hfound⟩
  · exact nofun
  · obtain ⟨data, hs⟩ := hdb.tables key table hfound
    rw [if_pos hs.named]
    intro r hr
    rw [List.mem_singleton.mp (show r ∈ [_] from hr)]
    exact hdb.opens hfound

/-- An optimized input names no table that its source does not name. -/
private theorem references_optimized {db : Database} (hdb : db.Consistent)
    {table : TableInfo} (hfrom : db.From table) {predicate : Option BoundExpression}
    {columns : List ColumnSchema}
    (hw : ∀ p, predicate = some p → p.WellTyped columns ∧ p.type = .boolean)
    {input : LogicalPlan} (hinput : OptimizedInput table predicate input)
    {planned : PhysicalPlan} (hplanned : planNode input = .ok planned) :
    ∀ r ∈ planned.references, db.Opens r.1 r.2 := by
  have hsource := references_source hdb hfrom
  cases hinput with
  | source =>
      cases (planNode_source table).symm.trans hplanned
      exact hsource
  | @filter p p' hto =>
      obtain ⟨hp, htype⟩ := hw p rfl
      have hfilter := planNode_filter (planNode_source table) hto.starFree
        ((hto.type_eq columns hp).trans htype)
      cases hfilter.symm.trans hplanned
      rw [PhysicalPlan.references, referencesOf, referencesOf, List.append_nil]
      exact hsource
  | always hto =>
      cases (planNode_source table).symm.trans hplanned
      exact hsource
  | never hto =>
      cases hplanned
      exact nofun

/-- Every storage the final plan names opens. -/
theorem BoundIn.opens {db : Database} (hdb : db.Consistent) {bound : BoundStatement}
    (h : BoundIn db bound) : ∃ logical optimized physical,
      Staged db bound logical optimized physical
      ∧ ∀ r ∈ physical.references, db.Opens r.1 r.2 := by
  cases h with
  | @select projections projectionNames table predicate hb hfrom =>
      obtain ⟨input, planned, projections', hstaged, hinput, hplanned⟩ :=
        hb.staged (hdb.namedOrEmpty hfrom) (hdb.sourceResult hfrom)
      refine ⟨_, _, _, hstaged, ?_⟩
      rw [PhysicalPlan.references, referencesOf, referencesOf, List.append_nil]
      exact references_optimized hdb hfrom hb.predicate_typed hinput hplanned
  | insert hfound hb =>
      obtain ⟨data, hs⟩ := hdb.tables _ _ hfound
      obtain ⟨values', hstaged⟩ := insert_staged db hs.named hb
      refine ⟨_, _, _, hstaged, ?_⟩
      intro r hr
      rw [List.mem_singleton.mp (show r ∈ [_] from hr)]
      exact hdb.opens hfound
  | createTable hname hne hnew hvalid =>
      exact ⟨_, _, _, createTable_staged db hname hne, nofun⟩

/-- **NO INTERNAL FAILURE AFTER BINDING**: in every reachable state with room
    left, for every text that parses and binds, both planners and the optimizer
    succeed, every storage the plan names opens and holds decodable records
    only, and the reply is a success or a failure that depends on values. -/
theorem execute_outcome (texts : List Bytes) (hroom : (engineAfter texts).HasRoom)
    (sql : Bytes) (statement : Statement) (hparse : parseSql sql = .ok statement)
    (bound : BoundStatement)
    (hbind : bind (engineAfter texts).catalog.getTable statement = .ok bound) :
    ∃ logical optimized physical,
      planLogical bound = .ok logical
      ∧ optimize logical = .ok optimized
      ∧ planPhysical optimized = .ok physical
      ∧ execute (engineAfter texts) sql = executePhysical physical {} (engineAfter texts)
      ∧ (∀ r ∈ physical.references, (engineAfter texts).Opens r.1 r.2)
      ∧ ∀ st, (execute (engineAfter texts) sql).1 = .error st →
          ValueFailure (engineAfter texts) bound st
          ∧ (st.code = .executionError ∨ st.code = .typeMismatch
            ∨ st.code = .invalidArgument) := by
  have hdb := engineAfter_consistent texts
  have hbound := hdb.boundIn hparse hbind
  obtain ⟨logical, optimized, physical, hs, hopens⟩ := hbound.opens hdb
  have hrun := execute_eq_runBound hparse hbind
  refine ⟨logical, optimized, physical, hs.planned, hs.optimizes, hs.replanned, ?_, hopens, ?_⟩
  · rw [hrun, hbound.runBound_eq hdb]
    exact (hs.alike.executePhysical_eq {}).symm
  · intro st herr
    rw [hrun] at herr
    have hfail := hbound.valueFailure hdb hroom herr
    exact ⟨hfail, hfail.code⟩

/-- A condition that is NULL at a stored row. -/
theorem execute_outcome_null_condition :
    let texts := [ascii "CREATE TABLE t (b BOOL)", ascii "INSERT INTO t VALUES (NULL)"]
    let sql := ascii "SELECT b FROM t WHERE b"
    ∃ bound, (execute (engineAfter texts) sql).1
        = errorResult .typeMismatch (ascii "filter requires BOOLEAN operands")
      ∧ ValueFailure (engineAfter texts) bound
          ⟨.typeMismatch, ascii "filter requires BOOLEAN operands"⟩ := by
  intro texts sql
  obtain ⟨hroom, hok, herr⟩ : (engineAfter texts).HasRoom
      ∧ (okValue (parseSql sql >>= bind (engineAfter texts).catalog.getTable)).isSome = true
      ∧ (execute (engineAfter texts) sql).1
        = errorResult .typeMismatch (ascii "filter requires BOOLEAN operands") := by
    rw [Database.HasRoom]
    decide +kernel
  obtain ⟨bound, h⟩ := Option.isSome_iff_exists.mp hok
  obtain ⟨statement, hparse, hbind⟩ := bind_ok_iff.mp (okValue_eq_some_iff.mp h)
  obtain ⟨_, _, _, -, -, -, -, -, hfail⟩ :=
    execute_outcome texts hroom sql statement hparse bound hbind
  exact ⟨bound, herr, (hfail _ herr).1⟩

end MattSql
