import Mathlib.Data.Multiset.MapFold
import Mathlib.Data.Multiset.Filter
import MattSql.EngineSafetyProofs

/-! # The reference database

    What the engine is for: a map from case-folded table names to a schema and
    a multiset of rows.  `referenceStep` answers one SQL text over such a map
    by plain evaluation: no plans, no pages, no bytes.

    `engine_refines_reference` says that every run of the engine gives the
    reference database's replies, rows up to their order, and ends in the
    reference database's state. -/

namespace MattSql

open Fallible

structure ReferenceTable where
  schema : TableSchema
  rows : Multiset (List Value)

abbrev ReferenceDatabase := Finmap fun _ : Bytes => ReferenceTable

/-- A reply: column names and rows, or nothing for an error of any kind. -/
abbrev ReferenceReply := Option (List Bytes × Multiset (List Value))

/-- The table as the binder is shown it. -/
def ReferenceDatabase.getTable (reference : ReferenceDatabase) (name : Bytes) :
    Result TableInfo :=
  match reference.lookup (foldIdentifierKey name) with
  | none => errorResult .notFound (ascii "table not found")
  | some table => .ok { name := foldIdentifierKey name, schema := table.schema }

/-- The rows a SELECT ranges over: one empty row without FROM. -/
def ReferenceDatabase.rows (reference : ReferenceDatabase) (table : TableInfo) :
    Multiset (List Value) :=
  if table.name = [] then {[]}
  else
    match reference.lookup (foldIdentifierKey table.name) with
    | none => 0
    | some table => table.rows

/-- The WHERE clause is TRUE or FALSE at the row; without one it is TRUE. -/
def WhereDecides (predicate : Option BoundExpression) (schema : TableSchema)
    (row : List Value) : Prop :=
  ∀ p ∈ predicate, Decides p schema row

/-- The WHERE clause is TRUE at the row. -/
def WhereHolds (predicate : Option BoundExpression) (schema : TableSchema)
    (row : List Value) : Prop :=
  ∀ p ∈ predicate, Satisfies p schema row

/-- Every projection has a value at the row. -/
def ProjectionsEvaluate (projections : List BoundExpression) (schema : TableSchema)
    (row : List Value) : Prop :=
  ∀ e ∈ projections, ∃ value, evaluate ⟨some schema, some row⟩ e = .ok value

instance {α : Type} (r : Result α) : Decidable (∃ a, r = .ok a) :=
  match r with
  | .ok a => .isTrue ⟨a, rfl⟩
  | .error _ => .isFalse fun ⟨_, h⟩ => nomatch h

instance (predicate : Option BoundExpression) (schema : TableSchema) :
    DecidablePred (WhereDecides predicate schema) := fun _ =>
  inferInstanceAs (Decidable (∀ p ∈ predicate, _))

instance (predicate : Option BoundExpression) (schema : TableSchema) :
    DecidablePred (WhereHolds predicate schema) := fun _ =>
  inferInstanceAs (Decidable (∀ p ∈ predicate, _))

instance (projections : List BoundExpression) (schema : TableSchema) :
    DecidablePred (ProjectionsEvaluate projections schema) := fun _ =>
  inferInstanceAs (Decidable (∀ e ∈ projections, _))

/-- The value of an expression at a row where it has one. -/
def valueAt (schema : TableSchema) (row : List Value) (e : BoundExpression) : Value :=
  (okValue (evaluate ⟨some schema, some row⟩ e)).getD .null

/-- SELECT: it fails when the WHERE clause is neither TRUE nor FALSE at some
    row, or a projection has no value at a row that satisfies it; otherwise
    there is one output row for each satisfying row. -/
def referenceSelect (projections : List BoundExpression)
    (projectionNames : List Bytes) (schema : TableSchema) (predicate : Option BoundExpression)
    (rows : Multiset (List Value)) : ReferenceReply :=
  if (∀ row ∈ rows, WhereDecides predicate schema row)
      ∧ ∀ row ∈ rows, WhereHolds predicate schema row →
          ProjectionsEvaluate projections schema row then
    some (outputNames projections projectionNames,
      (rows.filter (WhereHolds predicate schema)).map fun row =>
        projections.map (valueAt schema row))
  else none

/-- What a VALUES expression puts into a column: the literals 0 and 1 are
    booleans in a BOOLEAN column. -/
def referenceValue (column : ColumnSchema) (value : Expression) : Result Value :=
  if column.type = .boolean ∧ value = .integerLiteral 0 then .ok (.boolean false)
  else if column.type = .boolean ∧ value = .integerLiteral 1 then .ok (.boolean true)
  else do
    let bound ← bindExpression none value
    evaluate {} bound

/-- The row of a VALUES list. -/
def referenceRow : List ColumnSchema → List Expression → Result (List Value)
  | column :: columns, value :: values => do
    let value ← referenceValue column value
    let row ← referenceRow columns values
    .ok (value :: row)
  | _, _ => .ok []

/-- The encoded row has at most 4090 bytes. -/
def fitsPage (schema : TableSchema) (row : List Value) : Bool :=
  match encode schema row with
  | .ok tuple => tuple.length ≤ 4090
  | .error _ => false

/-- One more row in a table. -/
def ReferenceDatabase.addRow (reference : ReferenceDatabase) (key : Bytes)
    (row : List Value) : ReferenceDatabase :=
  match reference.lookup key with
  | none => reference
  | some table => reference.insert key { table with rows := row ::ₘ table.rows }

/-- INSERT: the row is added when its values evaluate and it fits a page. -/
def referenceInsert (reference : ReferenceDatabase) (table : TableInfo)
    (values : List Expression) : ReferenceReply × ReferenceDatabase :=
  match referenceRow table.schema.columns values with
  | .error _ => (none, reference)
  | .ok row =>
    if fitsPage table.schema row then
      (some ([], 0), reference.addRow (foldIdentifierKey table.name) row)
    else (none, reference)

/-- A statement that binds. -/
def referenceRun (reference : ReferenceDatabase) :
    Statement → BoundStatement → ReferenceReply × ReferenceDatabase
  | .select .., .select projections projectionNames table predicate =>
    (referenceSelect projections projectionNames table.schema predicate
      (reference.rows table), reference)
  | .insert _ values, .insert table _ => referenceInsert reference table values
  | .createTable .., .createTable request =>
    (some ([], 0), reference.insert (foldIdentifierKey request.name) ⟨request.schema, 0⟩)
  | _, _ => (none, reference)

/-- One SQL text. -/
def referenceStep (reference : ReferenceDatabase) (sql : Bytes) :
    ReferenceReply × ReferenceDatabase :=
  match parseSql sql with
  | .error _ => (none, reference)
  | .ok statement =>
    match bind reference.getTable statement with
    | .error _ => (none, reference)
    | .ok bound => referenceRun reference statement bound

/-- The engine's reply as the reference database sees it. -/
def replyView : Result QueryResult → ReferenceReply
  | .ok result => some (result.columns, result.rows)
  | .error _ => none

/-- The engine's state and the reference database hold the same tables. -/
def Represents (db : Database) (reference : ReferenceDatabase) : Prop :=
  ∀ key, reference.lookup key = (db.catalog.tablesByName.lookup key).map fun table =>
    ⟨table.schema, db.sourceRows table⟩

/-! ## The binder sees names and schemas only -/

/-- The expression without the table its columns came from. -/
def BoundExpression.anonymous : BoundExpression → BoundExpression
  | .column type _ columnId _ columnName => .column type 0 columnId [] columnName
  | .literal type value => .literal type value
  | .unary type op operand => .unary type op operand.anonymous
  | .binary type left op right => .binary type left.anonymous op right.anonymous
  | .star type => .star type

@[simp] theorem BoundExpression.anonymous_type (e : BoundExpression) :
    e.anonymous.type = e.type := by
  cases e <;> rfl

theorem evaluate_anonymous (context : EvaluationContext) (e : BoundExpression) :
    evaluate context e.anonymous = evaluate context e := by
  induction e with
  | unary type op operand ih => rw [BoundExpression.anonymous, evaluate, evaluate, ih]
  | binary type left op right ihl ihr =>
      rw [BoundExpression.anonymous, evaluate, evaluate, ihl, ihr]
  | _ => rfl

theorem projectionName_anonymous (e : BoundExpression) (index : Nat) :
    projectionName e.anonymous index = projectionName e index := by
  cases e <;> rfl

theorem isBooleanIntegerLiteral_anonymous (e : BoundExpression) :
    isBooleanIntegerLiteral e.anonymous = isBooleanIntegerLiteral e := by
  cases e <;> rfl

/-- Two scopes the binder cannot tell apart. -/
inductive SameScope : Option TableInfo → Option TableInfo → Prop
  | none : SameScope none none
  | some {t t' : TableInfo} (name : foldIdentifierKey t.name = foldIdentifierKey t'.name)
      (schema : t.schema = t'.schema) : SameScope (some t) (some t')

theorem bindUnary_anonymous (op : UnaryOperator) (operand : BoundExpression) :
    bindUnary op operand.anonymous = BoundExpression.anonymous <$> bindUnary op operand := by
  cases op <;> (simp only [bindUnary, BoundExpression.anonymous_type]; split <;> rfl)

theorem bindBinary_anonymous (left : BoundExpression) (op : BinaryOperator)
    (right : BoundExpression) :
    bindBinary left.anonymous op right.anonymous
      = BoundExpression.anonymous <$> bindBinary left op right := by
  have heq : equalityComparable left.anonymous right.anonymous
      = equalityComparable left right := by
    simp only [equalityComparable, BoundExpression.anonymous_type,
      isBooleanIntegerLiteral_anonymous]
  simp only [bindBinary, BoundExpression.anonymous_type, heq]
  split_ifs <;> rfl

/-- The binder's step commutes with forgetting the table. -/
private theorem anonymous_bind {x : Result BoundExpression}
    {f : BoundExpression → Result BoundExpression}
    (hf : ∀ e, f e.anonymous = BoundExpression.anonymous <$> f e) :
    BoundExpression.anonymous <$> (x >>= f) = (BoundExpression.anonymous <$> x) >>= f := by
  cases x with
  | error st => rfl
  | ok e => exact (hf e).symm

theorem resolveColumn_scope {t t' : TableInfo}
    (hname : foldIdentifierKey t.name = foldIdentifierKey t'.name)
    (hschema : t.schema = t'.schema) (name : Bytes) :
    resolveColumn t name = resolveColumn t' name := by
  unfold resolveColumn
  rw [hname, hschema]

/-- **SCOPE**: binding in two scopes with the same folded name and schema gives
    the same expression, up to where its columns came from. -/
theorem bindExpression_scope {scope scope' : Option TableInfo} (h : SameScope scope scope')
    (e : Expression) :
    BoundExpression.anonymous <$> bindExpression scope e
      = BoundExpression.anonymous <$> bindExpression scope' e := by
  induction e with
  | columnRef name =>
      cases h with
      | none => rfl
      | @some t t' hname hschema =>
          rw [bindExpression, bindExpression, bindColumn, bindColumn,
            resolveColumn_scope hname hschema]
          cases resolveColumn t' name <;> rfl
  | unary op operand ih =>
      rw [bindExpression, bindExpression, anonymous_bind (bindUnary_anonymous op), ih,
        anonymous_bind (bindUnary_anonymous op)]
  | binary left op right ihl ihr =>
      have hbinary : ∀ s, BoundExpression.anonymous <$> bindExpression s (.binary left op right)
          = (BoundExpression.anonymous <$> bindExpression s left) >>= fun l =>
            (BoundExpression.anonymous <$> bindExpression s right) >>= fun r =>
              bindBinary l op r := by
        intro s
        rw [bindExpression]
        cases bindExpression s left with
        | error st => rfl
        | ok l =>
            cases bindExpression s right with
            | error st => rfl
            | ok r => exact (bindBinary_anonymous l op r).symm
      rw [hbinary, hbinary, ihl, ihr]
  | _ => rfl

/-- Projections with their names, without tables. -/
private def anonymousPairs (pairs : List (BoundExpression × Bytes)) :
    List (BoundExpression × Bytes) :=
  pairs.map fun pair => (pair.1.anonymous, pair.2)

theorem bindProjection_scope {scope scope' : Option TableInfo} (h : SameScope scope scope')
    (projection : SelectProjection) :
    anonymousPairs <$> bindProjection scope projection
      = anonymousPairs <$> bindProjection scope' projection := by
  unfold bindProjection
  split
  · cases h with
    | none => rfl
    | @some t t' hname hschema =>
        show Except.ok (anonymousPairs _) = Except.ok (anonymousPairs _)
        unfold anonymousPairs
        rw [hschema, List.map_map, List.map_map]
        rfl
  · have hexpr := bindExpression_scope h projection.expression
    rcases map_eq_map_iff.mp hexpr with ⟨st, hb, hb'⟩ | ⟨e, e', hb, hb', heq⟩
    · rw [hb, hb']
    · rw [hb, hb']
      show Except.ok [(e.anonymous, _)] = Except.ok [(e'.anonymous, _)]
      rw [heq]

theorem bindProjections_scope {scope scope' : Option TableInfo} (h : SameScope scope scope')
    (projections : List SelectProjection) :
    anonymousPairs <$> bindProjections scope projections
      = anonymousPairs <$> bindProjections scope' projections := by
  induction projections with
  | nil => rfl
  | cons projection rest ih =>
      rw [bindProjections, bindProjections]
      rcases map_eq_map_iff.mp (bindProjection_scope h projection) with
        ⟨st, hb, hb'⟩ | ⟨b, b', hb, hb', heq⟩
      · rw [hb, hb']
        rfl
      · rw [hb, hb', ok_bind, ok_bind]
        rcases map_eq_map_iff.mp ih with ⟨st, hbs, hbs'⟩ | ⟨bs, bs', hbs, hbs', heqs⟩
        · rw [hbs, hbs']
          rfl
        · rw [hbs, hbs']
          show Except.ok (anonymousPairs (b ++ bs)) = Except.ok (anonymousPairs (b' ++ bs'))
          unfold anonymousPairs at heq heqs ⊢
          rw [List.map_append, List.map_append, heq, heqs]

theorem bindPredicate_scope {scope scope' : Option TableInfo} (h : SameScope scope scope')
    (predicate : Option Expression) :
    Option.map BoundExpression.anonymous <$> bindPredicate scope predicate
      = Option.map BoundExpression.anonymous <$> bindPredicate scope' predicate := by
  cases predicate with
  | none => rfl
  | some e =>
      rw [bindPredicate, bindPredicate]
      rcases map_eq_map_iff.mp (bindExpression_scope h e) with
        ⟨st, hb, hb'⟩ | ⟨p, p', hb, hb', heq⟩
      · rw [hb, hb']
      · have htype : p.type = p'.type := by
          rw [← p.anonymous_type, heq, p'.anonymous_type]
        rw [hb, hb', ok_bind, ok_bind, htype]
        split
        · rfl
        · show Except.ok (some p.anonymous) = Except.ok (some p'.anonymous)
          rw [heq]

/-- The table as the reference database shows it. -/
def TableInfo.anonymous (table : TableInfo) : TableInfo :=
  { name := foldIdentifierKey table.name, schema := table.schema }

theorem TableInfo.name_of_anonymous {t t' : TableInfo} (h : t.anonymous = t'.anonymous) :
    foldIdentifierKey t.name = foldIdentifierKey t'.name :=
  show t.anonymous.name = t'.anonymous.name by rw [h]

theorem TableInfo.schema_of_anonymous {t t' : TableInfo} (h : t.anonymous = t'.anonymous) :
    t.schema = t'.schema :=
  show t.anonymous.schema = t'.anonymous.schema by rw [h]

/-- The statement without what only the engine's catalog knows. -/
def BoundStatement.anonymous : BoundStatement → BoundStatement
  | .select projections projectionNames table predicate =>
    .select (projections.map BoundExpression.anonymous) projectionNames table.anonymous
      (predicate.map BoundExpression.anonymous)
  | .insert table values => .insert table.anonymous values
  | .createTable request => .createTable request

/-- Two catalogs the binder cannot tell apart. -/
def SameTables (getTable getTable' : Bytes → Result TableInfo) : Prop :=
  ∀ name, TableInfo.anonymous <$> getTable name = TableInfo.anonymous <$> getTable' name

/-- The table name of a statement; a SELECT without FROM has none. -/
def Statement.tableName : Statement → Bytes
  | .select _ tableName _ | .insert tableName _ | .createTable tableName _ => tableName

section

variable {getTable getTable' : Bytes → Result TableInfo}

theorem bindSelect_anonymous (projections : List SelectProjection) {tableName : Bytes}
    (h : TableInfo.anonymous <$> getTable tableName = TableInfo.anonymous <$> getTable' tableName)
    (predicate : Option Expression) :
    BoundStatement.anonymous <$> bindSelect getTable projections tableName predicate
      = BoundStatement.anonymous <$> bindSelect getTable' projections tableName predicate := by
  have hfrom : (∃ st, bindFrom getTable tableName = .error st
        ∧ bindFrom getTable' tableName = .error st)
      ∨ ∃ scope scope', bindFrom getTable tableName = .ok scope
        ∧ bindFrom getTable' tableName = .ok scope' ∧ SameScope scope scope'
        ∧ (scope.getD {}).anonymous = (scope'.getD {}).anonymous := by
    unfold bindFrom
    split
    · exact Or.inr ⟨none, none, rfl, rfl, .none, rfl⟩
    · rcases map_eq_map_iff.mp h with ⟨st, ht, ht'⟩ | ⟨t, t', ht, ht', heq⟩
      · rw [ht, ht']
        exact Or.inl ⟨st, rfl, rfl⟩
      · rw [ht, ht']
        exact Or.inr ⟨some t, some t', rfl, rfl,
          .some (TableInfo.name_of_anonymous heq) (TableInfo.schema_of_anonymous heq), heq⟩
  unfold bindSelect
  rcases hfrom with ⟨st, hf, hf'⟩ | ⟨scope, scope', hf, hf', hscope, htable⟩
  · rw [hf, hf']
  · rw [hf, hf', ok_bind, ok_bind]
    rcases map_eq_map_iff.mp (bindProjections_scope hscope projections) with
      ⟨st, hb, hb'⟩ | ⟨bs, bs', hb, hb', heq⟩
    · rw [hb, hb']
      rfl
    · rw [hb, hb', ok_bind, ok_bind]
      rcases map_eq_map_iff.mp (bindPredicate_scope hscope predicate) with
        ⟨st, hp, hp'⟩ | ⟨p, p', hp, hp', heqp⟩
      · rw [hp, hp']
        rfl
      · rw [hp, hp']
        have hexprs := congrArg (List.map Prod.fst) heq
        have hnames := congrArg (List.map Prod.snd) heq
        unfold anonymousPairs at hexprs hnames
        rw [List.map_map, List.map_map] at hexprs hnames
        show Except.ok (BoundStatement.select ((bs.map Prod.fst).map _) (bs.map Prod.snd) _ _)
          = Except.ok (BoundStatement.select ((bs'.map Prod.fst).map _) (bs'.map Prod.snd) _ _)
        rw [List.map_map, List.map_map, htable, heqp]
        exact congrArg₂ (fun es names => Except.ok (BoundStatement.select es names _ _))
          hexprs hnames

/-- **THE BINDER SEES NAMES AND SCHEMAS ONLY**, and those of the statement's own
    table. -/
theorem bind_anonymous_at {statement : Statement}
    (h : TableInfo.anonymous <$> getTable statement.tableName
      = TableInfo.anonymous <$> getTable' statement.tableName) :
    BoundStatement.anonymous <$> bind getTable statement
      = BoundStatement.anonymous <$> bind getTable' statement := by
  cases statement with
  | select projections tableName predicate =>
      exact bindSelect_anonymous projections h predicate
  | insert tableName values =>
      rw [bind, bind, bindInsert, bindInsert]
      rw [Statement.tableName] at h
      rcases map_eq_map_iff.mp h with ⟨st, ht, ht'⟩ | ⟨t, t', ht, ht', heq⟩
      · rw [ht, ht']
      · rw [ht, ht', ok_bind, ok_bind, TableInfo.schema_of_anonymous heq]
        split
        · rfl
        · cases bindInsertValues values t'.schema.columns with
          | error st => rfl
          | ok bound => exact congrArg (fun t => Except.ok (BoundStatement.insert t bound)) heq
  | createTable tableName columns =>
      rw [bind, bind, bindCreateTable, bindCreateTable]
      rw [Statement.tableName] at h
      rcases map_eq_map_iff.mp h with ⟨st, ht, ht'⟩ | ⟨t, t', ht, ht', heq⟩
      · rw [ht, ht']
      · rw [ht, ht']

theorem bind_anonymous (h : SameTables getTable getTable') (statement : Statement) :
    BoundStatement.anonymous <$> bind getTable statement
      = BoundStatement.anonymous <$> bind getTable' statement :=
  bind_anonymous_at (h statement.tableName)

end

/-! ## The reference database sees no more -/

theorem foldIdentifierKey_eq_nil_iff (name : Bytes) : foldIdentifierKey name = [] ↔ name = [] :=
  List.map_eq_nil_iff

theorem outputNames_anonymous (projections : List BoundExpression)
    (projectionNames : List Bytes) :
    outputNames (projections.map BoundExpression.anonymous) projectionNames
      = outputNames projections projectionNames := by
  rw [outputNames]
  rw [List.zipIdx_map, List.map_map]
  apply List.map_congr_left
  intro entry _
  show (projectionColumn projectionNames entry.2 entry.1.anonymous).name = _
  unfold projectionColumn
  dsimp only
  rw [projectionName_anonymous]

section

variable (predicate : Option BoundExpression) (projections : List BoundExpression)
  (schema : TableSchema) (row : List Value)

theorem whereDecides_anonymous :
    WhereDecides (predicate.map BoundExpression.anonymous) schema row
      ↔ WhereDecides predicate schema row := by
  cases predicate with
  | none => simp [WhereDecides]
  | some p => simp [WhereDecides, Decides, evaluate_anonymous]

theorem whereHolds_anonymous :
    WhereHolds (predicate.map BoundExpression.anonymous) schema row
      ↔ WhereHolds predicate schema row := by
  cases predicate with
  | none => simp [WhereHolds]
  | some p => simp [WhereHolds, Satisfies, evaluate_anonymous]

theorem projectionsEvaluate_anonymous :
    ProjectionsEvaluate (projections.map BoundExpression.anonymous) schema row
      ↔ ProjectionsEvaluate projections schema row := by
  simp [ProjectionsEvaluate, evaluate_anonymous]

theorem values_anonymous :
    (projections.map BoundExpression.anonymous).map (valueAt schema row)
      = projections.map (valueAt schema row) := by
  rw [List.map_map]
  apply List.map_congr_left
  intro e _
  simp [valueAt, evaluate_anonymous]

end

theorem referenceSelect_anonymous (projections : List BoundExpression)
    (projectionNames : List Bytes) (schema : TableSchema) (predicate : Option BoundExpression)
    (rows : Multiset (List Value)) :
    referenceSelect (projections.map BoundExpression.anonymous) projectionNames schema
        (predicate.map BoundExpression.anonymous) rows
      = referenceSelect projections projectionNames schema predicate rows := by
  rw [referenceSelect]
  refine if_congr ?_ ?_ rfl
  · simp only [whereDecides_anonymous, whereHolds_anonymous, projectionsEvaluate_anonymous]
  · rw [outputNames_anonymous,
      Multiset.filter_congr fun row _ => whereHolds_anonymous predicate schema row]
    simp only [values_anonymous]

theorem ReferenceDatabase.rows_anonymous (reference : ReferenceDatabase) (table : TableInfo) :
    reference.rows table.anonymous = reference.rows table := by
  rw [ReferenceDatabase.rows, TableInfo.anonymous]
  refine if_congr (foldIdentifierKey_eq_nil_iff table.name) rfl ?_
  rw [foldIdentifierKey_idem]

/-- What the reference database does depends on the anonymous statement. -/
theorem referenceRun_anonymous (reference : ReferenceDatabase) (statement : Statement)
    (bound : BoundStatement) :
    referenceRun reference statement bound.anonymous
      = referenceRun reference statement bound := by
  cases statement <;> cases bound <;> try rfl
  · simp only [BoundStatement.anonymous, referenceRun, ReferenceDatabase.rows_anonymous]
    rw [show ∀ t : TableInfo, t.anonymous.schema = t.schema from fun _ => rfl,
      referenceSelect_anonymous]
  · simp only [BoundStatement.anonymous, referenceRun, referenceInsert, TableInfo.anonymous,
      foldIdentifierKey_idem]

/-! ## SELECT over rows is SELECT over the multiset -/

section

variable {predicate : Option BoundExpression} {projections : List BoundExpression}
  {schema : TableSchema} {rows : List (List Value)}

theorem keptRows_ok_iff {kept : List (List Value)} :
    keptRows predicate schema rows = .ok kept
      ↔ (∀ row ∈ rows, WhereDecides predicate schema row)
        ∧ kept = rows.filter (WhereHolds predicate schema ·) := by
  cases predicate with
  | none =>
      have hall : rows.filter (WhereHolds none schema ·) = rows :=
        List.filter_eq_self.mpr fun row _ => decide_eq_true (nofun : WhereHolds none schema row)
      rw [hall]
      constructor
      · intro h
        cases h
        exact ⟨fun row _ => nofun, rfl⟩
      · rintro ⟨-, rfl⟩
        rfl
  | some p =>
      have hholds : ∀ row, WhereHolds (some p) schema row ↔ Satisfies p schema row := by
        intro row
        simp [WhereHolds]
      have hdecides : ∀ row, WhereDecides (some p) schema row ↔ Decides p schema row := by
        intro row
        simp [WhereDecides]
      rw [keptRows, filterRows_ok_iff]
      simp only [hholds, hdecides]

theorem projectRows_ok_iff {output : List (List Value)} :
    projectRows projections schema rows = .ok output
      ↔ (∀ row ∈ rows, ProjectionsEvaluate projections schema row)
        ∧ output = rows.map fun row => projections.map (valueAt schema row) := by
  have hvalues : ∀ row, ProjectionsEvaluate projections schema row →
      evaluateExpressions projections ⟨some schema, some row⟩
        = .ok (projections.map (valueAt schema row)) := by
    intro row hrow
    refine mapM_eq_map fun e he => ?_
    obtain ⟨v, hv⟩ := hrow e he
    rw [valueAt, hv]
    rfl
  constructor
  · intro h
    have hall : ∀ row ∈ rows, ProjectionsEvaluate projections schema row := by
      intro row hrow
      obtain ⟨values, hv⟩ := mapM_ok_mem h row hrow
      exact mapM_ok_mem hv
    refine ⟨hall, ?_⟩
    have heq := mapM_eq_map fun row hrow => hvalues row (hall row hrow)
    exact Except.ok.inj (h.symm.trans heq)
  · rintro ⟨hall, rfl⟩
    exact mapM_eq_map fun row hrow => hvalues row (hall row hrow)

end

/-- A SELECT replies with the multiset the reference database computes. -/
theorem selectReply_view (projections : List BoundExpression) (projectionNames : List Bytes)
    (schema : TableSchema) (predicate : Option BoundExpression) (rows : List (List Value)) :
    replyView (selectReply projections projectionNames schema predicate rows)
      = referenceSelect projections projectionNames schema predicate rows := by
  rw [referenceSelect]
  by_cases hcond : (∀ row ∈ (rows : Multiset (List Value)), WhereDecides predicate schema row)
      ∧ ∀ row ∈ (rows : Multiset (List Value)), WhereHolds predicate schema row →
          ProjectionsEvaluate projections schema row
  · have hkept := keptRows_ok_iff.mpr ⟨hcond.1, rfl⟩
    have hevaluate : ∀ row ∈ rows.filter (WhereHolds predicate schema ·),
        ProjectionsEvaluate projections schema row := by
      intro row hrow
      obtain ⟨hmem, hholds⟩ := List.mem_filter.mp hrow
      exact hcond.2 row hmem (of_decide_eq_true hholds)
    have houtput := projectRows_ok_iff.mpr ⟨hevaluate, rfl⟩
    rw [if_pos hcond, selectReply, hkept, ok_bind, houtput, Multiset.filter_coe,
      Multiset.map_coe]
    rfl
  · rw [if_neg hcond]
    cases hreply : selectReply projections projectionNames schema predicate rows with
    | error st => rfl
    | ok result =>
        exfalso
        obtain ⟨kept, hkept, h⟩ := bind_ok_iff.mp hreply
        obtain ⟨output, houtput, -⟩ := bind_ok_iff.mp h
        obtain ⟨hdecides, rfl⟩ := keptRows_ok_iff.mp hkept
        obtain ⟨hevaluate, -⟩ := projectRows_ok_iff.mp houtput
        exact hcond ⟨hdecides, fun row hrow hholds =>
          hevaluate row (List.mem_filter.mpr ⟨hrow, decide_eq_true hholds⟩)⟩

/-! ## VALUES lists -/

/-- A bound literal comes from a literal. -/
private theorem bindExpression_integer_literal {e : Expression} {type : SqlType} {i : Int64}
    (h : bindExpression none e = .ok (.literal type (.integer i))) : e = .integerLiteral i := by
  cases e with
  | integerLiteral value =>
      cases h
      rfl
  | unary op operand =>
      obtain ⟨o, -, h⟩ := bind_ok_iff.mp h
      cases op <;> (obtain ⟨-, h⟩ := guard_ok_iff.mp h; exact nomatch h)
  | binary left op right =>
      obtain ⟨l, -, h⟩ := bind_ok_iff.mp h
      obtain ⟨r, -, h⟩ := bind_ok_iff.mp h
      cases op <;> (obtain ⟨-, h⟩ := guard_ok_iff.mp h; exact nomatch h)
  | _ => exact nomatch h

theorem referenceValue_eq {column : ColumnSchema} {e : Expression} {b b' : BoundExpression}
    (hb : bindExpression none e = .ok b) (hcoerce : coerceToColumn b column = .ok b') :
    referenceValue column e = evaluate {} b' := by
  -- only 0 and 1 for a BOOLEAN column are not what the expression evaluates to
  have hother : (∀ i, column.type = .boolean → e ≠ .integerLiteral i) →
      referenceValue column e = evaluate {} b := by
    intro hne
    rw [referenceValue]
    rw [if_neg fun h => hne 0 h.1 h.2, if_neg fun h => hne 1 h.1 h.2, hb]
    rfl
  unfold coerceToColumn at hcoerce
  dsimp only at hcoerce
  split at hcoerce
  · rename_i hnull
    split at hcoerce
    · cases hcoerce
      refine hother fun i _ he => ?_
      subst he
      cases hb
      exact nomatch hnull
    · exact nomatch hcoerce
  · split at hcoerce
    · rename_i htype
      cases hcoerce
      refine hother fun i hbool he => ?_
      subst he
      cases hb
      exact nomatch htype.trans hbool
    · split at hcoerce
      · rename_i hbool
        split at hcoerce
        · rename_i literal hlit
          cases hcoerce
          unfold coerceBooleanIntegerLiteral at hlit
          split at hlit
          · rename_i i
            have he := bindExpression_integer_literal hb
            split at hlit
            · rename_i hi
              cases hlit
              subst he
              rw [referenceValue]
              rcases hi with rfl | rfl
              · rw [if_pos ⟨hbool, rfl⟩]
                rfl
              · rw [if_neg (by simp), if_pos ⟨hbool, rfl⟩]
                rfl
            · exact nomatch hlit
          · exact nomatch hlit
        · exact nomatch hcoerce
      · exact nomatch hcoerce

/-- The bound values evaluate to the reference row. -/
theorem bindInsertValues_row {values : List Expression} {columns : List ColumnSchema}
    {bound : List BoundExpression} (h : bindInsertValues values columns = .ok bound) :
    evaluateExpressions bound {} = referenceRow columns values := by
  induction values generalizing columns bound with
  | nil =>
      cases h
      cases columns <;> rfl
  | cons value values ih =>
      cases columns with
      | nil => exact nomatch h
      | cons column columns =>
          obtain ⟨e, he, h⟩ := bind_ok_iff.mp h
          obtain ⟨e', he', h⟩ := bind_ok_iff.mp h
          obtain ⟨es, hes, h⟩ := bind_ok_iff.mp h
          cases h
          rw [evaluateExpressions, List.mapM_cons, referenceRow, referenceValue_eq he he',
            ← ih hes]
          rfl

theorem fitsPage_eq {schema : TableSchema} (hc : Storable schema.columns) {row : List Value}
    (h : List.Forall₂ FieldFits schema.columns row) :
    fitsPage schema row = decide ((rowBytes row).length ≤ 4090) := by
  rw [fitsPage]
  rw [(encode_ok_iff hc row _).mpr ⟨h, rfl⟩]

theorem fitsPage_false {schema : TableSchema} (hc : Storable schema.columns) {row : List Value}
    (h : 4090 < (rowBytes row).length) : fitsPage schema row = false := by
  rw [fitsPage]
  cases henc : encode schema row with
  | error st => rfl
  | ok tuple =>
      obtain ⟨-, rfl⟩ := (encode_ok_iff hc row tuple).mp henc
      exact decide_eq_false (Nat.not_le.mpr h)

/-! ## One text -/

section

variable {db : Database} {reference : ReferenceDatabase}

theorem Represents.sameTables (hdb : db.Consistent) (hrep : Represents db reference) :
    SameTables db.catalog.getTable reference.getTable := by
  intro name
  have hkey := hrep (foldIdentifierKey name)
  rw [InMemoryCatalog.getTable, InMemoryCatalog.loadTable, ReferenceDatabase.getTable]
  cases hfound : db.catalog.tablesByName.lookup (foldIdentifierKey name) with
  | none =>
      rw [hfound] at hkey
      rw [hkey]
      rfl
  | some table =>
      rw [hfound] at hkey
      rw [hkey]
      obtain ⟨data, hs⟩ := hdb.tables _ table hfound
      show Except.ok table.anonymous = Except.ok (TableInfo.anonymous _)
      unfold TableInfo.anonymous
      dsimp only
      rw [foldIdentifierKey_idem, hs.key_eq]

theorem Represents.rows (hdb : db.Consistent) (hrep : Represents db reference)
    {table : TableInfo} (hfrom : db.From table) :
    reference.rows table = db.sourceRows table := by
  rcases hfrom with rfl | ⟨key, hfound⟩
  · rfl
  · obtain ⟨data, hs⟩ := hdb.tables key table hfound
    rw [ReferenceDatabase.rows]
    rw [if_neg hs.named, ← hs.key_eq, hrep key, hfound]
    rfl

/-- Rows are read from the table's own heap. -/
theorem Database.sourceRows_congr {db' : Database} {table : TableInfo}
    (h : db'.storage.tables.lookup table.id = db.storage.tables.lookup table.id) :
    db'.sourceRows table = db.sourceRows table := by
  unfold Database.sourceRows
  rw [h]

/-- A stored row is added to the table's multiset. -/
theorem Represents.inserted (hdb : db.Consistent) (hrep : Represents db reference)
    {key : Bytes} {table : TableInfo} {data : InMemoryTableData}
    (hfound : db.catalog.tablesByName.lookup key = some table) (hs : db.Stores key table data)
    {row : List Value} {id : RecordId} {heap : PageHeapTable}
    (hins : data.heap.Inserts (rowBytes row) id heap)
    (hdec : decode table.schema (rowBytes row) = .ok row) :
    Represents { db with storage := db.storage.storeHeap table.id heap }
      (reference.addRow key row) := by
  have hlookup := InMemoryTableStorageManager.storeHeap_lookup hs.heap_found heap
  have hkey := hrep key
  rw [hfound] at hkey
  intro key'
  rw [ReferenceDatabase.addRow]
  rw [hkey]
  dsimp only [Option.map_some]
  by_cases heq : key' = key
  · subst heq
    have hrows : Database.sourceRows { db with storage := db.storage.storeHeap table.id heap }
        table = heapRows table.schema heap := by
      rw [Database.sourceRows]
      rw [if_neg hs.named]
      dsimp only
      rw [hlookup, if_pos rfl]
    -- the heap puts the record anywhere; as a multiset it is one more row
    have hperm : (heapRows table.schema heap).Perm
        (row :: heapRows table.schema data.heap) := by
      unfold heapRows
      refine (hins.perm.filterMap _).trans ?_
      rw [List.filterMap_cons_some (b := row) (by rw [hdec]; rfl)]
    rw [Finmap.lookup_insert, hfound, Option.map_some, hrows, hs.sourceRows,
      Multiset.coe_eq_coe.mpr hperm]
    rfl
  · rw [Finmap.lookup_insert_of_ne _ heq, hrep key']
    cases hfound' : db.catalog.tablesByName.lookup key' with
    | none => rfl
    | some table' =>
        obtain ⟨data', hs'⟩ := hdb.tables key' table' hfound'
        have hid : table'.id ≠ table.id := fun hid => heq (hs.key_inj hs' hid)
        rw [Option.map_some, Option.map_some, Database.sourceRows_congr]
        rw [hlookup, if_neg hid]

/-- A new table is an empty multiset. -/
theorem Represents.created (hdb : db.Consistent) (hrep : Represents db reference)
    {request : CreateTableRequest} (hname : request.name ≠ [])
    (hid : db.catalog.nextTableId ∉ db.catalog.tableNamesById) :
    Represents
      ⟨db.catalog.allocateTableId.2.withTable (db.newTable request), db.storageWithHeap⟩
      (reference.insert (foldIdentifierKey request.name) ⟨request.schema, 0⟩) := by
  intro key
  by_cases heq : key = foldIdentifierKey request.name
  · subst heq
    have hrows : Database.sourceRows
        ⟨db.catalog.allocateTableId.2.withTable (db.newTable request), db.storageWithHeap⟩
        (db.newTable request) = [] := by
      rw [Database.sourceRows]
      rw [if_neg (show (db.newTable request).name ≠ [] from hname),
        show db.storageWithHeap.tables.lookup (db.newTable request).id = some _
          from Finmap.lookup_insert _]
      rfl
    rw [Finmap.lookup_insert,
      show (db.catalog.allocateTableId.2.withTable (db.newTable request)).tablesByName.lookup
        (foldIdentifierKey request.name) = some (db.newTable request)
        from Finmap.lookup_insert _, Option.map_some, hrows]
    rfl
  · rw [Finmap.lookup_insert_of_ne _ heq, hrep key,
      show (db.catalog.allocateTableId.2.withTable (db.newTable request)).tablesByName.lookup
        key = db.catalog.tablesByName.lookup key from Finmap.lookup_insert_of_ne _ heq]
    cases hfound : db.catalog.tablesByName.lookup key with
    | none => rfl
    | some table =>
        obtain ⟨data, hs⟩ := hdb.tables key table hfound
        have hne : table.id ≠ db.catalog.nextTableId := by
          intro heq
          exact hid (heq ▸ Finmap.mem_of_lookup_eq_some hs.by_id)
        rw [Option.map_some, Option.map_some, Database.sourceRows_congr]
        exact (Finmap.lookup_insert_of_ne _ hne).symm

/-- Engine and reference database on a statement that binds. -/
theorem Represents.runBound (hdb : db.Consistent) (hroom : db.HasRoom)
    (hrep : Represents db reference) {sql : Bytes} {statement : Statement}
    (hparse : parseSql sql = .ok statement) {bound : BoundStatement}
    (hbind : bind db.catalog.getTable statement = .ok bound) :
    replyView (runBound {} bound db).1 = (referenceRun reference statement bound).1
    ∧ Represents (runBound {} bound db).2 (referenceRun reference statement bound).2 := by
  have hbound := hdb.boundIn hparse hbind
  cases statement with
  | select projections tableName predicate =>
      obtain ⟨scope, -, h⟩ := bind_ok_iff.mp hbind
      obtain ⟨bounds, -, h⟩ := bind_ok_iff.mp h
      obtain ⟨p, -, h⟩ := bind_ok_iff.mp h
      cases h
      cases hbound with
      | select hb hfrom =>
          rw [hb.run hdb hfrom, referenceRun, hrep.rows hdb hfrom]
          exact ⟨selectReply_view _ _ _ _ _, hrep⟩
  | insert tableName values =>
      obtain ⟨table, -, h⟩ := bind_ok_iff.mp hbind
      obtain ⟨-, h⟩ := guard_ok_iff.mp h
      obtain ⟨bs, hbs, h⟩ := bind_ok_iff.mp h
      cases h
      cases hbound with
      | @insert key _ _ hfound hb =>
          obtain ⟨data, hs⟩ := hdb.tables key table hfound
          have hrow := bindInsertValues_row hbs
          have hrun := hs.runInsert hdb hfound hb
          rw [referenceRun, referenceInsert, ← hs.key_eq]
          generalize MattSql.runBound {} (.insert table bs) db = reply at hrun ⊢
          cases hrun with
          | failed heval _ =>
              rw [← hrow, heval]
              exact ⟨rfl, hrep⟩
          | @refused row st heval hcause =>
              -- with room left, only the length of the row can be the cause
              obtain ⟨-, hlong⟩ := hcause.resolve_right (hroom.pages hdb hs)
              rw [← hrow, heval]
              dsimp only
              rw [fitsPage_false hs.valid.storable hlong]
              exact ⟨rfl, hrep⟩
          | @inserted row id heap heval hlen hins hdec =>
              have hfits := ((decode_ok_iff hs.valid.storable _ row).mp hdec).1
              rw [← hrow, heval]
              dsimp only
              rw [fitsPage_eq hs.valid.storable hfits, if_pos (decide_eq_true hlen)]
              exact ⟨rfl, hrep.inserted hdb hfound hs hins hdec⟩
  | createTable tableName columns =>
      obtain ⟨-, -, -, columns', -, rfl⟩ := bindCreateTable_bound hbind
      cases hbound with
      | createTable hname hne hnew hvalid =>
          have hrun := hdb.runCreateTable hname hne hnew hvalid
          rw [referenceRun]
          generalize MattSql.runBound {} (.createTable _) db = reply at hrun ⊢
          cases hrun with
          | exhausted hroots _ _ => exact absurd hroots (hroom.roots hdb)
          | created hid _ => exact ⟨rfl, hrep.created hdb hname hid⟩

/-- **ONE TEXT**: the engine replies as the reference database does and keeps to
    it. -/
theorem Represents.execute (hdb : db.Consistent) (hroom : db.HasRoom)
    (hrep : Represents db reference) (sql : Bytes) :
    replyView (execute db sql).1 = (referenceStep reference sql).1
    ∧ Represents (execute db sql).2 (referenceStep reference sql).2 := by
  rw [MattSql.execute, executeIn, referenceStep]
  cases hparse : parseSql sql with
  | error st => exact ⟨rfl, hrep⟩
  | ok statement =>
      dsimp only
      rcases map_eq_map_iff.mp (bind_anonymous (hrep.sameTables hdb) statement) with
        ⟨st, hbind, hbind'⟩ | ⟨bound, bound', hbind, hbind', heq⟩
      · rw [hbind, hbind']
        exact ⟨rfl, hrep⟩
      · rw [hbind, hbind']
        dsimp only
        rw [← referenceRun_anonymous reference statement bound', ← heq,
          referenceRun_anonymous]
        exact hrep.runBound hdb hroom hparse hbind

end

/-- **THE ENGINE REFINES THE REFERENCE DATABASE**: over every list of texts, as
    long as there is room for pages and tables, the replies are those of the
    reference database, rows up to their order, and the two end with the same
    tables and the same rows in them. -/
theorem engine_refines_reference (texts : List Bytes)
    (hroom : ∀ n, (engineAfter (texts.take n)).HasRoom) :
    (Run.trace execute {} texts).map (fun entry => (entry.1, replyView entry.2))
      = Run.trace referenceStep ∅ texts
    ∧ Represents (engineAfter texts) (Run.final referenceStep ∅ texts) := by
  have hstart : Represents {} ∅ := fun _ => rfl
  obtain ⟨htrace, -, hrep⟩ := Run.trace_simulates
    (R := fun db reference => db.Consistent ∧ Represents db reference)
    (fun db reference sql hroom h =>
      have hstep := h.2.execute h.1 hroom sql
      ⟨hstep.1, h.1.execute sql, hstep.2⟩)
    texts {} ∅ hroom ⟨Database.consistent_empty, hstart⟩
  exact ⟨htrace, hrep⟩

/-- A run that stores the literal 1 as TRUE and selects by it. -/
theorem engine_refines_reference_boolean_literal :
    let texts := [ascii "CREATE TABLE t (b BOOL)", ascii "INSERT INTO T VALUES (1)",
      ascii "SELECT b FROM t WHERE b"]
    (∀ n, (engineAfter (texts.take n)).HasRoom)
      ∧ (Run.trace execute {} texts).map (fun entry => (entry.1, replyView entry.2))
          = Run.trace referenceStep ∅ texts
      ∧ (Run.trace referenceStep ∅ texts).map (·.2)
          = [some ([], 0), some ([], 0), some ([ascii "b"], {[.boolean true]})] := by
  intro texts
  have hroom : ∀ n, (engineAfter (texts.take n)).HasRoom := by
    refine Run.forall_take (P := fun run => (engineAfter run).HasRoom) ?_
    unfold Database.HasRoom
    decide +kernel
  exact ⟨hroom, (engine_refines_reference texts hroom).1, by decide +kernel⟩

/-- A SELECT that fails although its predicate and its projection have a value
    at every stored row: the predicate's value is NULL. -/
theorem select_fails_on_null_condition :
    let db := engineAfter [ascii "CREATE TABLE t (b BOOL)", ascii "INSERT INTO t VALUES (NULL)"]
    let sql := ascii "SELECT b FROM t WHERE b"
    let p : BoundExpression := .column .boolean 1 0 (ascii "t") (ascii "b")
    let table : TableInfo :=
      { id := 1, name := ascii "t", schema := ⟨[⟨ascii "b", .boolean, true, 0⟩]⟩
        heapRootPageId := 1 }
    (parseSql sql >>= bind db.catalog.getTable) = .ok (.select [p] [[]] table (some p))
      ∧ (execute db sql).1
          = errorResult .typeMismatch (ascii "filter requires BOOLEAN operands")
      ∧ ¬ ((∃ row ∈ db.sourceRows table, ∃ st,
            evaluate ⟨some table.schema, some row⟩ p = .error st)
          ∨ ∃ row ∈ db.sourceRows table, Satisfies p table.schema row
            ∧ ∃ e ∈ [p], ∃ st, evaluate ⟨some table.schema, some row⟩ e = .error st) := by
  intro db sql p table
  obtain ⟨hrows, hbind, hrun⟩ :
      db.sourceRows table = [[.null]]
      ∧ (parseSql sql >>= bind db.catalog.getTable) = .ok (.select [p] [[]] table (some p))
      ∧ (execute db sql).1
          = errorResult .typeMismatch (ascii "filter requires BOOLEAN operands") := by
    decide +kernel
  refine ⟨hbind, hrun, ?_⟩
  rw [hrows]
  rintro (⟨row, hrow, st, h⟩ | ⟨row, hrow, hsat, -⟩)
  · rw [List.mem_singleton.mp hrow] at h
    exact nomatch h
  · rw [List.mem_singleton.mp hrow] at hsat
    exact nomatch hsat

end MattSql
