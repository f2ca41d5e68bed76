import MattSql.BoundExpressionProofs

/-! # The binder

    `binder/default_binder.cpp`: names are resolved against the catalog and
    every expression gets a type.

    The binder uses the catalog only through `GetTable`, so that lookup is its
    parameter.  What the typing rules accept is stated apart from the binder as
    `BoundExpression.WellTyped`, and `bindExpression_wellTyped` says that the
    binder keeps to them. -/

namespace MattSql

open Fallible

/-- `to_sql_type`. -/
def toSqlType : TypeName → SqlType
  | .int => .integer
  | .text => .text
  | .bool => .boolean

/-- `split_column_name`: qualifier and column. -/
def splitColumnName (name : Bytes) : Result (Bytes × Bytes) :=
  if name = [] then errorResult .bindError (ascii "column name is required")
  else
    match name.findIdx? (· = 46) with
    | none => .ok ([], name)
    | some dot =>
      if dot = 0 ∨ dot + 1 = name.length ∨ 46 ∈ name.drop (dot + 1) then
        errorResult .bindError
          (ascii "column references must be either column or table.column")
      else .ok (name.take dot, name.drop (dot + 1))

/-- `resolve_column`. -/
def resolveColumn (table : TableInfo) (name : Bytes) : Result ColumnSchema := do
  let (qualifier, column) ← splitColumnName name
  if qualifier ≠ [] ∧ foldIdentifierKey qualifier ≠ foldIdentifierKey table.name then
    errorResult .bindError (ascii "column reference uses unknown table: " ++ qualifier)
  else
    match table.schema.columns.find? fun c =>
        foldIdentifierKey c.name = foldIdentifierKey column with
    | some column => .ok column
    | none => errorResult .bindError (ascii "unknown column: " ++ name)

/-- `is_boolean_integer_literal`. -/
def isBooleanIntegerLiteral : BoundExpression → Bool
  | .literal .integer (.integer i) => i = 0 ∨ i = 1
  | _ => false

/-- `equality_comparable`. -/
def equalityComparable (left right : BoundExpression) : Bool :=
  left.type = .null ∨ right.type = .null ∨ left.type = right.type
    ∨ (left.type = .boolean ∧ isBooleanIntegerLiteral right)
    ∨ (right.type = .boolean ∧ isBooleanIntegerLiteral left)

/-- `ordering_comparable`. -/
def orderingComparable (left right : SqlType) : Bool :=
  left = right ∧ (left = .integer ∨ left = .text)

/-- `coerce_boolean_integer_literal`: `none` when the expression is no such
    literal. -/
def coerceBooleanIntegerLiteral : BoundExpression → Option BoundExpression
  | .literal .integer (.integer i) =>
    if i = 0 ∨ i = 1 then some (.literal .boolean (.boolean (i = 1))) else none
  | _ => none

/-- `coerce_to_column`. -/
def coerceToColumn (expression : BoundExpression) (column : ColumnSchema) :
    Result BoundExpression :=
  let mismatch : Result BoundExpression :=
    errorResult .typeMismatch (ascii "value type does not match column: " ++ column.name)
  if expression.type = .null then
    if column.nullable then .ok expression else mismatch
  else if expression.type = column.type then .ok expression
  else if column.type = .boolean then
    match coerceBooleanIntegerLiteral expression with
    | some literal => .ok literal
    | none => mismatch
  else mismatch

/-- `is_arithmetic`. -/
def isArithmetic : BinaryOperator → Bool
  | .add | .subtract | .multiply | .divide => true
  | _ => false

/-- `is_equality_comparison`. -/
def isEqualityComparison : BinaryOperator → Bool
  | .equal | .notEqual => true
  | _ => false

/-- `is_ordering_comparison`. -/
def isOrderingComparison : BinaryOperator → Bool
  | .less | .lessEqual | .greater | .greaterEqual => true
  | _ => false

/-- `is_boolean_operator`. -/
def isBooleanOperator : BinaryOperator → Bool
  | .and | .or => true
  | _ => false

/-- `bind_column`. -/
def bindColumn (name : Bytes) (table : Option TableInfo) : Result BoundExpression :=
  match table with
  | none => errorResult .bindError (ascii "column reference requires a FROM table")
  | some table => do
    let column ← resolveColumn table name
    .ok (makeBoundColumn table column)

/-- `bind_unary` on a bound operand. -/
def bindUnary (op : UnaryOperator) (operand : BoundExpression) : Result BoundExpression :=
  match op with
  | .plus | .minus =>
    if operand.type ≠ .integer then
      errorResult .typeMismatch (ascii "unary numeric operators require INTEGER")
    else .ok (.unary .integer op operand)
  | .not =>
    if operand.type ≠ .boolean then
      errorResult .typeMismatch (ascii "NOT requires BOOLEAN")
    else .ok (.unary .boolean op operand)

/-- `bind_binary` on bound operands. -/
def bindBinary (left : BoundExpression) (op : BinaryOperator) (right : BoundExpression) :
    Result BoundExpression :=
  if isArithmetic op then
    if left.type ≠ .integer ∨ right.type ≠ .integer then
      errorResult .typeMismatch (ascii "arithmetic operators require INTEGER")
    else .ok (.binary .integer left op right)
  else if isBooleanOperator op then
    if left.type ≠ .boolean ∨ right.type ≠ .boolean then
      errorResult .typeMismatch (ascii "boolean operators require BOOLEAN")
    else .ok (.binary .boolean left op right)
  else if isEqualityComparison op then
    if ¬ equalityComparable left right then
      errorResult .typeMismatch
        (ascii "equality comparison operands have incompatible types")
    else .ok (.binary .boolean left op right)
  else if isOrderingComparison op then
    if ¬ orderingComparable left.type right.type then
      errorResult .typeMismatch
        (ascii "ordering comparison operands have incompatible types")
    else .ok (.binary .boolean left op right)
  else .ok (.binary .null left op right)

/-- `bind_expression`. -/
def bindExpression (table : Option TableInfo) : Expression → Result BoundExpression
  | .integerLiteral value => .ok (makeTypedLiteral (.integer value) .integer)
  | .stringLiteral value => .ok (makeTypedLiteral (.text value) .text)
  | .booleanLiteral value => .ok (makeTypedLiteral (.boolean value) .boolean)
  | .nullLiteral => .ok (makeTypedLiteral .null .null)
  | .columnRef name => bindColumn name table
  | .unary op operand => do
    let operand ← bindExpression table operand
    bindUnary op operand
  | .binary left op right => do
    let left ← bindExpression table left
    let right ← bindExpression table right
    bindBinary left op right
  | .star =>
    errorResult .bindError (ascii "star can only appear in a SELECT projection")

/-- The bound statements; a SELECT without FROM has a table without a name. -/
inductive BoundStatement where
  | select (projections : List BoundExpression) (projectionNames : List Bytes)
      (table : TableInfo) (predicate : Option BoundExpression)
  | insert (table : TableInfo) (values : List BoundExpression)
  | createTable (request : CreateTableRequest)
  deriving DecidableEq

/-- The loop of `bind_create_table` over the columns from `index` on; `names`
    are the folded names seen. -/
def bindColumnDefinitions (index : Nat) (names : List Bytes) :
    List ColumnDefinition → Result (List ColumnSchema)
  | [] => .ok []
  | column :: rest =>
    if index > kMaxColumnId then errorResult .bindError (ascii "table has too many columns")
    else if column.name = [] then errorResult .bindError (ascii "column name is required")
    else if foldIdentifierKey column.name ∈ names then
      errorResult .bindError (ascii "duplicate column name")
    else do
      let columns ← bindColumnDefinitions (index + 1) (foldIdentifierKey column.name :: names)
        rest
      .ok ({ name := column.name, type := toSqlType column.type, id := index } :: columns)

section

variable (getTable : Bytes → Result TableInfo)

/-- `bind_create_table`. -/
def bindCreateTable (tableName : Bytes) (columns : List ColumnDefinition) :
    Result BoundStatement :=
  if tableName = [] then errorResult .bindError (ascii "table name is required")
  else if columns = [] then
    errorResult .bindError (ascii "CREATE TABLE requires at least one column")
  else
    match getTable tableName with
    | .ok _ => errorResult .alreadyExists (ascii "table already exists")
    | .error st =>
      if st.code ≠ .notFound then .error st
      else do
        let columns ← bindColumnDefinitions 0 [] columns
        .ok (.createTable ⟨tableName, ⟨columns⟩⟩)

/-- The loop of `bind_insert` over values and columns. -/
def bindInsertValues : List Expression → List ColumnSchema → Result (List BoundExpression)
  | [], _ => .ok []
  | _ :: _, [] => errorResult .undefined (ascii "columns[index]")
  | value :: values, column :: columns => do
    let expression ← bindExpression none value
    let expression ← coerceToColumn expression column
    let expressions ← bindInsertValues values columns
    .ok (expression :: expressions)

/-- `bind_insert`. -/
def bindInsert (tableName : Bytes) (values : List Expression) : Result BoundStatement := do
  let table ← getTable tableName
  if values.length ≠ table.schema.columns.length then
    errorResult .bindError (ascii "INSERT value count does not match table schema")
  else
    let values ← bindInsertValues values table.schema.columns
    .ok (.insert table values)

/-- One projection of `bind_select`: a star stands for all columns. -/
def bindProjection (table : Option TableInfo) (projection : SelectProjection) :
    Result (List (BoundExpression × Bytes)) :=
  if projection.expression = .star then
    match table with
    | none => errorResult .bindError (ascii "SELECT * requires a FROM table")
    | some table =>
      .ok (table.schema.columns.map fun column =>
        (makeBoundColumn table column, column.name))
  else do
    let expression ← bindExpression table projection.expression
    .ok [(expression, projection.aliasName)]

/-- The loop of `bind_select` over the projections: expressions with their
    names. -/
def bindProjections (table : Option TableInfo) :
    List SelectProjection → Result (List (BoundExpression × Bytes))
  | [] => .ok []
  | projection :: rest => do
    let bound ← bindProjection table projection
    let bounds ← bindProjections table rest
    .ok (bound ++ bounds)

/-- The WHERE part of `bind_select`. -/
def bindPredicate (table : Option TableInfo) :
    Option Expression → Result (Option BoundExpression)
  | none => .ok none
  | some predicate => do
    let predicate ← bindExpression table predicate
    if predicate.type ≠ .boolean then
      errorResult .typeMismatch (ascii "WHERE predicate must be BOOLEAN")
    else .ok (some predicate)

/-- The FROM part of `bind_select`. -/
def bindFrom (tableName : Bytes) : Result (Option TableInfo) :=
  if tableName = [] then .ok none
  else do
    let table ← getTable tableName
    .ok (some table)

/-- `bind_select`. -/
def bindSelect (projections : List SelectProjection) (tableName : Bytes)
    (predicate : Option Expression) : Result BoundStatement := do
  let table ← bindFrom getTable tableName
  let bounds ← bindProjections table projections
  let predicate ← bindPredicate table predicate
  .ok (.select (bounds.map (·.1)) (bounds.map (·.2)) (table.getD {}) predicate)

/-- `DefaultBinder::Bind`. -/
def bind : Statement → Result BoundStatement
  | .select projections tableName predicate =>
    bindSelect getTable projections tableName predicate
  | .insert tableName values => bindInsert getTable tableName values
  | .createTable tableName columns => bindCreateTable getTable tableName columns

end

/-! ## Typing -/

/-- The typing rule of a unary operator. -/
def UnaryTyped (op : UnaryOperator) (operand type : SqlType) : Prop :=
  match op with
  | .plus | .minus => operand = .integer ∧ type = .integer
  | .not => operand = .boolean ∧ type = .boolean

/-- The typing rule of a binary operator. -/
def BinaryTyped (left : BoundExpression) (op : BinaryOperator) (right : BoundExpression)
    (type : SqlType) : Prop :=
  match op with
  | .add | .subtract | .multiply | .divide =>
    left.type = .integer ∧ right.type = .integer ∧ type = .integer
  | .and | .or => left.type = .boolean ∧ right.type = .boolean ∧ type = .boolean
  | .equal | .notEqual => equalityComparable left right ∧ type = .boolean
  | .less | .lessEqual | .greater | .greaterEqual =>
    orderingComparable left.type right.type ∧ type = .boolean

/-- Every node of the tree keeps to the typing rules over the given columns. -/
def BoundExpression.WellTyped (columns : List ColumnSchema) : BoundExpression → Prop
  | .literal type value => valueTypeOf value = type
  | .column type _ columnId _ _ => ∃ c, columns[columnId]? = some c ∧ c.type = type
  | .unary type op operand => operand.WellTyped columns ∧ UnaryTyped op operand.type type
  | .binary type left op right =>
    left.WellTyped columns ∧ right.WellTyped columns ∧ BinaryTyped left op right type
  | .star _ => False

variable {columns : List ColumnSchema}

theorem BoundExpression.WellTyped.starFree {e : BoundExpression} (h : e.WellTyped columns) :
    e.StarFree := by
  induction e with
  | literal type value => exact trivial
  | column type tableId columnId tableName columnName => exact trivial
  | unary type op operand ih => exact ih h.1
  | binary type left op right ihl ihr => exact ⟨ihl h.1, ihr h.2.1⟩
  | star type => exact h

/-- Without columns in scope no column occurs. -/
theorem BoundExpression.WellTyped.columnFree {e : BoundExpression} (h : e.WellTyped []) :
    e.ColumnFree := by
  induction e with
  | literal type value => exact trivial
  | column type tableId columnId tableName columnName =>
      obtain ⟨c, hc, -⟩ := h
      exact nomatch hc
  | unary type op operand ih => exact ih h.1
  | binary type left op right ihl ihr => exact ⟨ihl h.1, ihr h.2.1⟩
  | star type => exact h

/-- The columns an optional FROM table puts in scope. -/
def scopeColumns : Option TableInfo → List ColumnSchema
  | none => []
  | some table => table.schema.columns

theorem resolveColumn_mem {table : TableInfo} {name : Bytes} {c : ColumnSchema}
    (h : resolveColumn table name = .ok c) : c ∈ table.schema.columns := by
  obtain ⟨⟨qualifier, column⟩, -, h⟩ := bind_ok_iff.mp h
  dsimp only at h
  split at h
  · exact nomatch h
  · split at h
    · rename_i found hf
      cases h
      exact List.mem_of_find?_eq_some hf
    · exact nomatch h

/-- A column of a valid schema is well typed. -/
theorem makeBoundColumn_wellTyped {table : TableInfo} (hv : table.schema.Valid)
    {c : ColumnSchema} (hc : c ∈ table.schema.columns) :
    (makeBoundColumn table c).WellTyped table.schema.columns := by
  obtain ⟨i, hi⟩ := List.getElem?_of_mem hc
  refine ⟨c, ?_, rfl⟩
  rw [hv.ordinal i c hi]
  exact hi

theorem bindUnary_wellTyped {op : UnaryOperator} {operand b : BoundExpression}
    (ho : operand.WellTyped columns) (h : bindUnary op operand = .ok b) :
    b.WellTyped columns := by
  cases op <;>
    (obtain ⟨ht, h⟩ := guard_ok_iff.mp h
     cases h
     exact ⟨ho, not_not.mp ht, rfl⟩)

theorem bindBinary_wellTyped {left right b : BoundExpression} {op : BinaryOperator}
    (hl : left.WellTyped columns) (hr : right.WellTyped columns)
    (h : bindBinary left op right = .ok b) : b.WellTyped columns := by
  obtain ⟨type, rfl, ht⟩ : ∃ type, b = .binary type left op right
      ∧ BinaryTyped left op right type := by
    cases op <;> obtain ⟨ht, h⟩ := guard_ok_iff.mp h <;> cases h
    case equal | notEqual | less | lessEqual | greater | greaterEqual =>
      exact ⟨_, rfl, not_not.mp ht, rfl⟩
    all_goals
      rw [not_or, not_not, not_not] at ht
      exact ⟨_, rfl, ht.1, ht.2, rfl⟩
  exact ⟨hl, hr, ht⟩

/-- **THE BINDER KEEPS TO THE TYPING RULES**, over every table with a valid
    schema and without a table. -/
theorem bindExpression_wellTyped {table : Option TableInfo}
    (hv : ∀ t, table = some t → t.schema.Valid) {e : Expression} {b : BoundExpression}
    (h : bindExpression table e = .ok b) : b.WellTyped (scopeColumns table) := by
  induction e generalizing b with
  | integerLiteral value =>
      cases h
      rfl
  | stringLiteral value =>
      cases h
      rfl
  | booleanLiteral value =>
      cases h
      rfl
  | nullLiteral =>
      cases h
      rfl
  | columnRef name =>
      cases table with
      | none => exact nomatch h
      | some t =>
          obtain ⟨c, hc, h⟩ := bind_ok_iff.mp h
          cases h
          exact makeBoundColumn_wellTyped (hv t rfl) (resolveColumn_mem hc)
  | unary op operand ih =>
      obtain ⟨o, ho, h⟩ := bind_ok_iff.mp h
      exact bindUnary_wellTyped (ih ho) h
  | binary left op right ihl ihr =>
      obtain ⟨l, hl, h⟩ := bind_ok_iff.mp h
      obtain ⟨r, hr, h⟩ := bind_ok_iff.mp h
      exact bindBinary_wellTyped (ihl hl) (ihr hr) h
  | star => exact nomatch h

/-! ## What a bound statement is like -/

/-- A bound SELECT: as many names as expressions, at least one, all well typed
    over the table's columns, and a BOOLEAN predicate. -/
structure SelectBound (projections : List BoundExpression) (projectionNames : List Bytes)
    (table : TableInfo) (predicate : Option BoundExpression) : Prop where
  nonempty : projections ≠ []
  names_length : projectionNames.length = projections.length
  projections_typed : ∀ e ∈ projections, e.WellTyped table.schema.columns
  predicate_typed : ∀ p, predicate = some p →
    p.WellTyped table.schema.columns ∧ p.type = .boolean

/-- A value that may go into a column: a well-typed expression without columns,
    NULL where the column is nullable, or of the column's type. -/
def ValueBound (column : ColumnSchema) (e : BoundExpression) : Prop :=
  e.WellTyped [] ∧ (e.type = .null ∧ column.nullable = true ∨ e.type = column.type)

theorem bindProjections_ok {table : Option TableInfo}
    (hv : ∀ t, table = some t → t.schema.Valid) {projections : List SelectProjection}
    {bounds : List (BoundExpression × Bytes)}
    (h : bindProjections table projections = .ok bounds) :
    (∀ b ∈ bounds, b.1.WellTyped (scopeColumns table))
    ∧ (projections ≠ [] → bounds ≠ []) := by
  induction projections generalizing bounds with
  | nil =>
      cases h
      exact ⟨nofun, fun hne => absurd rfl hne⟩
  | cons projection rest ih =>
      obtain ⟨bound, hb, h⟩ := bind_ok_iff.mp h
      obtain ⟨bounds', hrest, h⟩ := bind_ok_iff.mp h
      cases h
      obtain ⟨htyped, -⟩ := ih hrest
      -- one projection stands for one expression, or for all columns when it is a star
      suffices hbound : (∀ b ∈ bound, b.1.WellTyped (scopeColumns table)) ∧ bound ≠ [] by
        refine ⟨?_, fun _ hnil => hbound.2 (List.append_eq_nil_iff.mp hnil).1⟩
        intro b hmem
        rcases List.mem_append.mp hmem with hmem | hmem
        · exact hbound.1 b hmem
        · exact htyped b hmem
      unfold bindProjection at hb
      split at hb
      · cases table with
        | none => exact nomatch hb
        | some t =>
            cases hb
            have hvalid := hv t rfl
            refine ⟨?_, fun hnil => hvalid.nonempty (List.map_eq_nil_iff.mp hnil)⟩
            intro b hmem
            obtain ⟨c, hc, rfl⟩ := List.mem_map.mp hmem
            exact makeBoundColumn_wellTyped hvalid hc
      · obtain ⟨e, he, hb⟩ := bind_ok_iff.mp hb
        cases hb
        refine ⟨?_, nofun⟩
        intro b hmem
        cases List.mem_singleton.mp hmem
        exact bindExpression_wellTyped hv he

theorem bindPredicate_ok {table : Option TableInfo}
    (hv : ∀ t, table = some t → t.schema.Valid) {predicate : Option Expression}
    {bound : Option BoundExpression} (h : bindPredicate table predicate = .ok bound) :
    ∀ p, bound = some p → p.WellTyped (scopeColumns table) ∧ p.type = .boolean := by
  cases predicate with
  | none =>
      cases h
      exact nofun
  | some e =>
      obtain ⟨p, hp, h⟩ := bind_ok_iff.mp h
      obtain ⟨htype, h⟩ := guard_ok_iff.mp h
      cases h
      rintro p' ⟨⟩
      exact ⟨bindExpression_wellTyped hv hp, not_not.mp htype⟩

/-- **A BOUND SELECT** comes from the catalog's table or from no table. -/
theorem bindSelect_ok {getTable : Bytes → Result TableInfo}
    (hv : ∀ name t, getTable name = .ok t → t.schema.Valid)
    {projections : List SelectProjection} (hne : projections ≠ []) {tableName : Bytes}
    {predicate : Option Expression} {b : BoundStatement}
    (h : bindSelect getTable projections tableName predicate = .ok b) :
    ∃ ps names table p, b = .select ps names table p ∧ SelectBound ps names table p
      ∧ (tableName = [] ∧ table = {} ∨ tableName ≠ [] ∧ getTable tableName = .ok table) := by
  obtain ⟨table, htable, h⟩ := bind_ok_iff.mp h
  obtain ⟨bounds, hbounds, h⟩ := bind_ok_iff.mp h
  obtain ⟨p, hp, h⟩ := bind_ok_iff.mp h
  cases h
  -- the scope is the catalog's table, or empty without FROM
  obtain ⟨hvalid, hfrom⟩ : (∀ t, table = some t → t.schema.Valid)
      ∧ (tableName = [] ∧ table = none
        ∨ tableName ≠ [] ∧ ∃ t, table = some t ∧ getTable tableName = .ok t) := by
    rw [bindFrom] at htable
    split at htable
    · rename_i hname
      cases htable
      exact ⟨nofun, Or.inl ⟨hname, rfl⟩⟩
    · rename_i hname
      obtain ⟨t, ht, htable⟩ := bind_ok_iff.mp htable
      cases htable
      refine ⟨?_, Or.inr ⟨hname, t, rfl, ht⟩⟩
      rintro t' ⟨⟩
      exact hv tableName t ht
  have hscope : scopeColumns table = (table.getD {}).schema.columns := by
    cases table <;> rfl
  obtain ⟨htyped, hnonempty⟩ := bindProjections_ok hvalid hbounds
  have hpred := bindPredicate_ok hvalid hp
  rw [hscope] at htyped hpred
  refine ⟨_, _, _, _, rfl, ⟨?_, ?_, ?_, hpred⟩, ?_⟩
  · exact fun hnil => hnonempty hne (List.map_eq_nil_iff.mp hnil)
  · rw [List.length_map, List.length_map]
  · intro e he
    obtain ⟨b, hb, rfl⟩ := List.mem_map.mp he
    exact htyped b hb
  · rcases hfrom with ⟨hname, rfl⟩ | ⟨hname, t, rfl, ht⟩
    · exact Or.inl ⟨hname, rfl⟩
    · exact Or.inr ⟨hname, ht⟩

/-- A coerced value may go into its column. -/
theorem coerceToColumn_ok {e e' : BoundExpression} {column : ColumnSchema}
    (hw : e.WellTyped []) (h : coerceToColumn e column = .ok e') : ValueBound column e' := by
  -- NULL, the column's own type, and 0 or 1 for a BOOLEAN column are taken as they come
  unfold coerceToColumn at h
  dsimp only at h
  split at h
  · rename_i hnull
    split at h
    · rename_i hn
      cases h
      exact ⟨hw, Or.inl ⟨hnull, hn⟩⟩
    · exact nomatch h
  · split at h
    · rename_i htype
      cases h
      exact ⟨hw, Or.inr htype⟩
    · split at h
      · rename_i hbool
        split at h
        · rename_i literal hlit
          cases h
          unfold coerceBooleanIntegerLiteral at hlit
          split at hlit
          · split at hlit
            · cases hlit
              exact ⟨rfl, Or.inr hbool.symm⟩
            · exact nomatch hlit
          · exact nomatch hlit
        · exact nomatch h
      · exact nomatch h

theorem bindInsertValues_ok {values : List Expression} {columns : List ColumnSchema}
    (hlen : values.length = columns.length) {bound : List BoundExpression}
    (h : bindInsertValues values columns = .ok bound) :
    List.Forall₂ ValueBound columns bound := by
  induction values generalizing columns bound with
  | nil =>
      cases List.length_eq_zero_iff.mp hlen.symm
      cases h
      exact .nil
  | cons value values ih =>
      cases columns with
      | nil => exact nomatch hlen
      | cons column columns =>
          obtain ⟨e, he, h⟩ := bind_ok_iff.mp h
          obtain ⟨e', he', h⟩ := bind_ok_iff.mp h
          obtain ⟨es, hes, h⟩ := bind_ok_iff.mp h
          cases h
          have hw : e.WellTyped [] := bindExpression_wellTyped (by exact nofun) he
          exact .cons (coerceToColumn_ok hw he') (ih (Nat.succ_injective hlen) hes)

/-- **A BOUND INSERT** names a catalog table and has one fitting value for each
    column. -/
theorem bindInsert_ok {getTable : Bytes → Result TableInfo} {tableName : Bytes}
    {values : List Expression} {b : BoundStatement}
    (h : bindInsert getTable tableName values = .ok b) :
    ∃ table bound, b = .insert table bound ∧ getTable tableName = .ok table
      ∧ List.Forall₂ ValueBound table.schema.columns bound := by
  obtain ⟨table, htable, h⟩ := bind_ok_iff.mp h
  obtain ⟨hlen, h⟩ := guard_ok_iff.mp h
  obtain ⟨bound, hbound, h⟩ := bind_ok_iff.mp h
  cases h
  exact ⟨table, bound, rfl, htable, bindInsertValues_ok (not_not.mp hlen) hbound⟩

/-- A bound CREATE TABLE has the name and the checked columns of its statement,
    and no table of that name was found. -/
theorem bindCreateTable_bound {getTable : Bytes → Result TableInfo} {tableName : Bytes}
    {definitions : List ColumnDefinition} {b : BoundStatement}
    (h : bindCreateTable getTable tableName definitions = .ok b) :
    tableName ≠ [] ∧ definitions ≠ [] ∧ (∃ st, getTable tableName = .error st)
      ∧ ∃ columns, bindColumnDefinitions 0 [] definitions = .ok columns
        ∧ b = .createTable ⟨tableName, ⟨columns⟩⟩ := by
  obtain ⟨hname, h⟩ := guard_ok_iff.mp h
  obtain ⟨hne, h⟩ := guard_ok_iff.mp h
  cases hget : getTable tableName with
  | ok table =>
      rw [hget] at h
      cases h
  | error st =>
      rw [hget] at h
      dsimp only at h
      split at h
      · cases h
      · obtain ⟨columns, hcolumns, h⟩ := bind_ok_iff.mp h
        cases h
        exact ⟨hname, hne, ⟨st, rfl⟩, columns, hcolumns, rfl⟩

end MattSql
