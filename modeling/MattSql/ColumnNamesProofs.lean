import MattSql.EngineProofs
import MattSql.ParserImageProofs

/-! # The column names of a SELECT

    Names go from the parser through the binder, the planners and the optimizer
    to the executor, which makes up the ones that are missing.

    `selectHeader` says what the names should be: it walks the projections as
    they were written, over the columns of the table.  `select_header_iff`
    compares the executed names with it.  The binder puts a star's columns in
    the place of the star and loses its alias; nothing else is lost. -/

namespace MattSql

open Fallible

/-! ## The names that were asked for -/

/-- The column that `column` or `table.column` speaks of. -/
def referencedColumn (name : Bytes) : Bytes :=
  match name.findIdx? (· = 46) with
  | none => name
  | some dot => name.drop (dot + 1)

/-- A reference as the catalog spells the column. -/
def catalogSpelling (columns : List ColumnSchema) (name : Bytes) : Option Bytes :=
  (columns.find? fun c =>
    foldIdentifierKey c.name = foldIdentifierKey (referencedColumn name)).map (·.name)

/-- The names one projection stands for, behind so many columns.  An alias is
    empty where no AS was written (`parseOptionalName_eq_nil_iff`). -/
def projectionHeader (columns : List ColumnSchema) (position : Nat)
    (projection : SelectProjection) : List Bytes :=
  if projection.aliasName ≠ [] then [projection.aliasName]
  else
    match projection.expression with
    | .star => columns.map (·.name)
    | .columnRef name => (catalogSpelling columns name).toList
    | _ => [ascii "expr" ++ ascii (toString (position + 1))]

/-- The names of a projection list, behind so many columns. -/
def selectHeader (columns : List ColumnSchema) : Nat → List SelectProjection → List Bytes
  | _, [] => []
  | position, projection :: rest =>
    let names := projectionHeader columns position projection
    names ++ selectHeader columns (position + names.length) rest

example : selectHeader [{ name := ascii "Id" }, { name := ascii "Body", id := 1 }] 0
    [⟨.integerLiteral 7, []⟩, ⟨.star, []⟩, ⟨.columnRef (ascii "notes.ID"), []⟩, ⟨.nullLiteral, []⟩]
    = [ascii "expr1", ascii "Id", ascii "Body", ascii "Id", ascii "expr5"] := by decide

/-- A name is missing exactly where the keyword in front of it is. -/
theorem parseOptionalName_eq_nil_iff {keyword : TokenType} {message name : Bytes}
    {s s' : ParserState} {token : Token} {rest : List Token} (hrest : s.rest = token :: rest)
    (hs : s.IsLexed) (hne : keyword ≠ .endOfFile)
    (h : parseOptionalName keyword message s = .ok (name, s')) :
    name = [] ↔ token.type ≠ keyword := by
  obtain ⟨consumed, tokens⟩ := s
  obtain rfl : tokens = token :: rest := hrest
  obtain ⟨hit, s₁, hmatch, h⟩ := parser_bind_ok_iff.mp h
  by_cases htype : token.type = keyword
  · have hs₁ := matchToken_isLexed hs hne hmatch
    rw [matchToken_hit htype hne] at hmatch
    cases hmatch
    obtain ⟨identifier, s₂, hconsume, h⟩ := parser_bind_ok_iff.mp h
    obtain ⟨hidentifier, hlexed, -⟩ := consume_isLexed hs₁ (by decide) hconsume
    cases h
    exact iff_of_false (hlexed.identifier hidentifier).1 (not_not_intro htype)
  · rw [matchToken_miss htype] at hmatch
    cases hmatch
    cases h
    exact iff_of_true rfl htype

/-! ## The names that are executed -/

/-- The name of output column `index`. -/
def outputName (bound : BoundExpression × Bytes) (index : Nat) : Bytes :=
  if bound.2 ≠ [] then bound.2 else projectionName bound.1 index

/-- The names of consecutive output columns. -/
def namesFrom (index : Nat) (bounds : List (BoundExpression × Bytes)) : List Bytes :=
  (bounds.zipIdx index).map fun (bound, index) => outputName bound index

@[simp] theorem namesFrom_length (index : Nat) (bounds : List (BoundExpression × Bytes)) :
    (namesFrom index bounds).length = bounds.length := by
  rw [namesFrom, List.length_map, List.length_zipIdx]

theorem namesFrom_append (index : Nat) (bounds more : List (BoundExpression × Bytes)) :
    namesFrom index (bounds ++ more)
      = namesFrom index bounds ++ namesFrom (index + bounds.length) more := by
  rw [namesFrom, List.zipIdx_append, List.map_append]
  rfl

theorem namesFrom_cons (index : Nat) (bound : BoundExpression × Bytes)
    (bounds : List (BoundExpression × Bytes)) :
    namesFrom index (bound :: bounds) = outputName bound index :: namesFrom (index + 1) bounds :=
  rfl

/-- The executor's names are those of the bound projections. -/
theorem outputNames_eq (bounds : List (BoundExpression × Bytes)) :
    outputNames (bounds.map (·.1)) (bounds.map (·.2)) = namesFrom 0 bounds := by
  rw [outputNames, namesFrom, List.zipIdx_map, List.map_map]
  refine List.map_congr_left fun pair hpair => ?_
  obtain ⟨bound, index⟩ := pair
  have hget : bounds[index]? = some bound := List.mem_zipIdx_iff_getElem?.mp hpair
  have hname : (bounds.map (·.2)).getD index [] = bound.2 := by
    rw [List.getD_eq_getElem?_getD, List.getElem?_map, hget]
    rfl
  show (projectionColumn (bounds.map (·.2)) index bound.1).name = _
  rw [projectionColumn, hname]
  rfl

/-- A column found under a name is spelled by the catalog. -/
theorem resolveColumn_spelling {table : TableInfo} {name : Bytes} {column : ColumnSchema}
    (h : resolveColumn table name = .ok column) :
    catalogSpelling table.schema.columns name = some column.name := by
  obtain ⟨⟨qualifier, part⟩, hsplit, h⟩ := bind_ok_iff.mp h
  -- both look for the part behind the dot
  have hpart : part = referencedColumn name := by
    rw [splitColumnName] at hsplit
    rw [referencedColumn]
    split at hsplit
    · cases hsplit
    · cases hdot : name.findIdx? (· = 46) with
      | none =>
          rw [hdot] at hsplit
          cases hsplit
          rfl
      | some dot =>
          rw [hdot] at hsplit
          dsimp only at hsplit
          split at hsplit
          · cases hsplit
          · cases hsplit
            rfl
  subst hpart
  dsimp only at h
  split at h
  · cases h
  · split at h
    · rename_i found hfound
      cases h
      rw [catalogSpelling, hfound]
      rfl
    · cases h

/-- An expression's own name, as the projection list determines it. -/
theorem bindExpression_name {table : Option TableInfo} {projection : SelectProjection}
    {bound : BoundExpression} (hstar : projection.expression ≠ .star)
    (hnone : projection.aliasName = [])
    (h : bindExpression table projection.expression = .ok bound) (index : Nat) :
    projectionHeader (scopeColumns table) index projection = [projectionName bound index] := by
  obtain ⟨expression, aliasName⟩ := projection
  obtain rfl : aliasName = [] := hnone
  rw [projectionHeader, if_neg (not_not_intro rfl)]
  dsimp only at hstar h ⊢
  cases expression with
  | star => exact absurd rfl hstar
  | columnRef name =>
      cases table with
      | none => cases h
      | some table =>
          obtain ⟨column, hcolumn, h⟩ := bind_ok_iff.mp h
          cases h
          show (catalogSpelling table.schema.columns name).toList = _
          rw [resolveColumn_spelling hcolumn]
          rfl
  | unary op operand =>
      obtain ⟨operand, -, h⟩ := bind_ok_iff.mp h
      cases op <;> obtain ⟨-, h⟩ := guard_ok_iff.mp h <;> cases h <;> rfl
  | binary left op right =>
      obtain ⟨left, -, h⟩ := bind_ok_iff.mp h
      obtain ⟨right, -, h⟩ := bind_ok_iff.mp h
      cases op <;> obtain ⟨-, h⟩ := guard_ok_iff.mp h <;> cases h <;> rfl
  | _ =>
      cases h
      rfl

/-- A star's columns are named as in the schema, whatever its alias. -/
theorem namesFrom_star (table : TableInfo) (columns : List ColumnSchema) (index : Nat) :
    namesFrom index (columns.map fun column => (makeBoundColumn table column, column.name))
      = columns.map (·.name) := by
  induction columns generalizing index with
  | nil => rfl
  | cons column columns ih =>
      rw [List.map_cons, namesFrom_cons, ih, List.map_cons, outputName]
      congr 1
      exact ite_self column.name

/-- A projection whose alias is lost: a star with an alias other than the name of
    its only column. -/
def LosesAlias (columns : List ColumnSchema) (projection : SelectProjection) : Prop :=
  projection.expression = .star ∧ projection.aliasName ≠ []
    ∧ columns.map (·.name) ≠ [projection.aliasName]

instance (columns : List ColumnSchema) (projection : SelectProjection) :
    Decidable (LosesAlias columns projection) := inferInstanceAs (Decidable (_ ∧ _))

/-- **ONE PROJECTION** is named as it was asked for, unless its alias is lost;
    then the table's columns are named. -/
theorem bindProjection_names {table : Option TableInfo} {projection : SelectProjection}
    {bounds : List (BoundExpression × Bytes)} (h : bindProjection table projection = .ok bounds)
    (index : Nat) :
    (¬LosesAlias (scopeColumns table) projection
        ∧ namesFrom index bounds = projectionHeader (scopeColumns table) index projection)
      ∨ LosesAlias (scopeColumns table) projection ∧ table ≠ none
        ∧ namesFrom index bounds = (scopeColumns table).map (·.name)
        ∧ projectionHeader (scopeColumns table) index projection = [projection.aliasName] := by
  unfold bindProjection at h
  by_cases hstar : projection.expression = .star
  · rw [if_pos hstar] at h
    cases table with
    | none => cases h
    | some table =>
        cases h
        rw [namesFrom_star]
        by_cases hnone : projection.aliasName = []
        · refine .inl ⟨fun hlost => hlost.2.1 hnone, ?_⟩
          rw [projectionHeader, if_neg (not_not_intro hnone), hstar]
          rfl
        · have hheader : projectionHeader (scopeColumns (some table)) index projection
              = [projection.aliasName] := by
            rw [projectionHeader, if_pos hnone]
          by_cases honly : table.schema.columns.map (·.name) = [projection.aliasName]
          · exact .inl ⟨fun hlost => hlost.2.2 honly, honly.trans hheader.symm⟩
          · exact .inr ⟨⟨hstar, hnone, honly⟩, nofun, rfl, hheader⟩
  · rw [if_neg hstar] at h
    obtain ⟨bound, hbound, h⟩ := bind_ok_iff.mp h
    cases h
    refine .inl ⟨fun hlost => hstar hlost.1, ?_⟩
    rw [namesFrom_cons, outputName]
    by_cases hnone : projection.aliasName = []
    · rw [if_neg (not_not_intro hnone), bindExpression_name hstar hnone hbound]
      rfl
    · rw [if_pos hnone, projectionHeader, if_pos hnone]
      rfl

/-- **A PROJECTION LIST** is named as it was asked for exactly when no alias is
    lost.  The induction is on the list.  Where an alias is lost there are at
    least as many names as were asked for, so names further on do not make up
    for it. -/
theorem bindProjections_names {table : Option TableInfo}
    (hcolumns : table ≠ none → scopeColumns table ≠ []) {projections : List SelectProjection}
    {bounds : List (BoundExpression × Bytes)}
    (h : bindProjections table projections = .ok bounds) (index : Nat) :
    (selectHeader (scopeColumns table) index projections).length ≤ bounds.length
      ∧ (namesFrom index bounds = selectHeader (scopeColumns table) index projections
        ↔ ∀ projection ∈ projections, ¬LosesAlias (scopeColumns table) projection) := by
  induction projections generalizing bounds index with
  | nil =>
      cases h
      exact ⟨Nat.le_refl _, iff_of_true rfl nofun⟩
  | cons projection rest ih =>
      obtain ⟨front, hfront, h⟩ := bind_ok_iff.mp h
      obtain ⟨back, hback, h⟩ := bind_ok_iff.mp h
      cases h
      rw [namesFrom_append, List.forall_mem_cons]
      show (projectionHeader _ index projection ++ selectHeader _ _ rest).length ≤ _
        ∧ (_ = projectionHeader _ index projection ++ selectHeader _ _ rest ↔ _)
      rw [List.length_append, List.length_append]
      rcases bindProjection_names hfront index with
        ⟨hkeeps, hnames⟩ | ⟨hlost, htable, hnames, hheader⟩
      · obtain ⟨hlength, hiff⟩ := ih hback (index + front.length)
        rw [← hnames, namesFrom_length]
        refine ⟨Nat.add_le_add_left hlength _, ?_⟩
        rw [List.append_right_inj, hiff]
        exact (and_iff_right hkeeps).symm
      · obtain ⟨hlength, -⟩ := ih hback (index + 1)
        have hfrontLength : front.length = (scopeColumns table).length := by
          rw [← namesFrom_length index front, hnames, List.length_map]
        have hpos := List.length_pos_of_ne_nil (hcolumns htable)
        rw [hheader, List.length_singleton, hfrontLength]
        refine ⟨by omega, iff_of_false (fun heq => ?_) fun hkeeps => hkeeps.1 hlost⟩
        have hlengths := congrArg List.length heq
        rw [List.length_append, List.length_append, List.length_singleton, namesFrom_length,
          namesFrom_length, hfrontLength] at hlengths
        rw [hnames] at heq
        refine hlost.2.2 (List.append_inj heq ?_).1
        rw [List.length_map, List.length_singleton]
        omega

/-! ## Whole texts -/

/-- The columns of the table a SELECT names; none without FROM. -/
def Database.columnsOf (db : Database) (tableName : Bytes) : List ColumnSchema :=
  if tableName = [] then [] else scopeColumns (okValue (db.catalog.getTable tableName))

theorem Database.scopeColumns_bindFrom {db : Database} {tableName : Bytes}
    {table : Option TableInfo} (h : bindFrom db.catalog.getTable tableName = .ok table) :
    scopeColumns table = db.columnsOf tableName := by
  rw [bindFrom] at h
  rw [Database.columnsOf]
  by_cases hname : tableName = []
  · rw [if_pos hname] at h ⊢
    cases h
    rfl
  · rw [if_neg hname] at h ⊢
    obtain ⟨found, hfound, h⟩ := bind_ok_iff.mp h
    cases h
    rw [hfound]
    rfl

/-- A table that is found has columns. -/
theorem Database.Consistent.scopeColumns_ne_nil {db : Database} (hdb : db.Consistent)
    {tableName : Bytes} {table : Option TableInfo}
    (h : bindFrom db.catalog.getTable tableName = .ok table) (hsome : table ≠ none) :
    scopeColumns table ≠ [] := by
  rw [bindFrom] at h
  by_cases hname : tableName = []
  · rw [if_pos hname] at h
    cases h
    exact absurd rfl hsome
  · rw [if_neg hname] at h
    obtain ⟨found, hfound, h⟩ := bind_ok_iff.mp h
    cases h
    obtain ⟨data, hstores⟩ := hdb.tables _ found (InMemoryCatalog.getTable_eq_ok.mp hfound)
    exact hstores.valid.nonempty

/-- **A SELECT THAT SUCCEEDS** has one name for each value of a row; the names are
    those that were asked for exactly when no alias is lost. -/
theorem Database.Consistent.select_names {db : Database} (hdb : db.Consistent) {sql : Bytes}
    {projections : List SelectProjection} {tableName : Bytes} {predicate : Option Expression}
    (hparse : parseSql sql = .ok (.select projections tableName predicate)) {result : QueryResult}
    (hrun : (MattSql.execute db sql).1 = .ok result) :
    (∀ row ∈ result.rows, row.length = result.columns.length)
      ∧ (result.columns = selectHeader (db.columnsOf tableName) 0 projections
        ↔ ∀ projection ∈ projections, ¬LosesAlias (db.columnsOf tableName) projection) := by
  cases hbind : bind db.catalog.getTable (.select projections tableName predicate) with
  | error st =>
      rw [MattSql.execute, executeIn] at hrun
      rw [hparse] at hrun
      dsimp only at hrun
      rw [hbind] at hrun
      cases hrun
  | ok bound =>
      have hboundIn := hdb.boundIn hparse hbind
      obtain ⟨table, htable, h⟩ := bind_ok_iff.mp hbind
      obtain ⟨bounds, hbounds, h⟩ := bind_ok_iff.mp h
      obtain ⟨bound, -, h⟩ := bind_ok_iff.mp h
      cases h
      cases hboundIn with
      | select hselect hfrom =>
          rw [execute_eq_runBound hparse hbind, hselect.run hdb hfrom] at hrun
          obtain ⟨kept, -, hrun⟩ := bind_ok_iff.mp hrun
          obtain ⟨output, houtput, hrun⟩ := bind_ok_iff.mp hrun
          cases hrun
          dsimp only
          obtain ⟨-, hnames⟩ :=
            bindProjections_names (hdb.scopeColumns_ne_nil htable) hbounds 0
          rw [outputNames_eq, namesFrom_length, ← Database.scopeColumns_bindFrom htable]
          refine ⟨fun row hrow => ?_, hnames⟩
          obtain ⟨input, -, hinput⟩ := forall₂_exists_left (mapM_ok_iff.mp houtput) row hrow
          rw [← (mapM_ok_iff.mp hinput).length_eq, List.length_map]

/-- **THE COLUMN NAMES OF A SELECT.**  Whatever texts were executed before, a
    SELECT that succeeds has one name for each value of a row, and its names are
    those its projection list asks for exactly when no alias is lost. -/
theorem select_header_iff (texts : List Bytes) (sql : Bytes)
    (projections : List SelectProjection) (tableName : Bytes) (predicate : Option Expression)
    (result : QueryResult)
    (hparse : parseSql sql = .ok (.select projections tableName predicate))
    (hrun : (execute (engineAfter texts) sql).1 = .ok result) :
    (∀ row ∈ result.rows, row.length = result.columns.length)
      ∧ (result.columns = selectHeader ((engineAfter texts).columnsOf tableName) 0 projections
        ↔ ∀ projection ∈ projections,
          ¬LosesAlias ((engineAfter texts).columnsOf tableName) projection) :=
  (engineAfter_consistent texts).select_names hparse hrun

/-- A star, a reference in another spelling, a folded sum and an alias. -/
theorem select_header_notes :
    let db := engineAfter [ascii "CREATE TABLE Notes (Id INT, Nr INT)",
      ascii "INSERT INTO notes VALUES (7, 8)"]
    ∃ result, (execute db (ascii "SELECT *, notes.ID, 1 + 2, 3 AS x FROM notes")).1 = .ok result
      ∧ result.columns = selectHeader (db.columnsOf (ascii "notes")) 0
        [⟨.star, []⟩, ⟨.columnRef (ascii "notes.ID"), []⟩,
          ⟨.binary (.integerLiteral 1) .add (.integerLiteral 2), []⟩,
          ⟨.integerLiteral 3, ascii "x"⟩] := by
  intro db
  have hinput : parseSql (ascii "SELECT *, notes.ID, 1 + 2, 3 AS x FROM notes")
        = .ok (.select [⟨.star, []⟩, ⟨.columnRef (ascii "notes.ID"), []⟩,
          ⟨.binary (.integerLiteral 1) .add (.integerLiteral 2), []⟩,
          ⟨.integerLiteral 3, ascii "x"⟩] (ascii "notes") none)
      ∧ (execute db (ascii "SELECT *, notes.ID, 1 + 2, 3 AS x FROM notes")).1
        = .ok ⟨[ascii "Id", ascii "Nr", ascii "Id", ascii "expr4", ascii "x"],
          [[.integer 7, .integer 8, .integer 7, .integer 3, .integer 3]]⟩ := by
    decide +kernel
  refine ⟨_, hinput.2, ((select_header_iff _ _ _ _ _ _ hinput.1 hinput.2).2).mpr ?_⟩
  intro projection hprojection hlost
  rcases List.mem_cons.mp hprojection with rfl | hprojection
  · exact hlost.2.1 rfl
  · have hstars : ∀ projection ∈ [(⟨.columnRef (ascii "notes.ID"), []⟩ : SelectProjection),
        ⟨.binary (.integerLiteral 1) .add (.integerLiteral 2), []⟩,
        ⟨.integerLiteral 3, ascii "x"⟩], projection.expression ≠ .star := by decide
    exact hstars projection hprojection hlost.1

/-- **THE ALIAS OF A STAR IS LOST.** -/
theorem select_star_alias :
    let db := engineAfter [ascii "CREATE TABLE t (a INT, b INT)"]
    parseSql (ascii "SELECT * AS x FROM t")
        = .ok (.select [⟨.star, ascii "x"⟩] (ascii "t") none)
      ∧ (execute db (ascii "SELECT * AS x FROM t")).1 = .ok ⟨[ascii "a", ascii "b"], []⟩
      ∧ selectHeader (db.columnsOf (ascii "t")) 0 [⟨.star, ascii "x"⟩] = [ascii "x"] := by
  decide +kernel

end MattSql
