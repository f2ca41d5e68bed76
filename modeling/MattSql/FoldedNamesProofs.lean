import MattSql.BinderProofs
import MattSql.CatalogProofs

/-! # Names in the binder

    The binder compares names by `FoldIdentifierKey` alone.  A statement may be
    replaced by the one in which every name that is looked up is folded: the
    binder returns the same bound statement, or fails with the same code
    (`bind_folded`).  Names that a statement introduces, aliases and the names
    of a new table and its columns, are kept as they are written. -/

namespace MattSql

/-! ## Folding -/

/-- The lower case of one character. -/
def foldByte (c : UInt8) : UInt8 := if 65 ≤ c ∧ c ≤ 90 then c + 32 else c

theorem foldIdentifierKey_eq_map (name : Bytes) : foldIdentifierKey name = name.map foldByte := rfl

/-- A dot is no letter, and no letter folds to one. -/
theorem foldByte_eq_dot (c : UInt8) : foldByte c = 46 ↔ c = 46 := by
  rw [foldByte]
  split
  · rename_i h
    simp only [UInt8.le_iff_toNat_le, ← UInt8.toNat_inj, UInt8.toNat_add, UInt8.reduceToNat] at h ⊢
    omega
  · exact Iff.rfl

theorem foldIdentifierKey_append (front back : Bytes) :
    foldIdentifierKey (front ++ back) = foldIdentifierKey front ++ foldIdentifierKey back :=
  List.map_append

@[simp]
theorem foldIdentifierKey_eq_nil {name : Bytes} : foldIdentifierKey name = [] ↔ name = [] :=
  List.map_eq_nil_iff

/-! ## Results without their messages -/

/-- A result with the code of its failure only. -/
def coded {α : Type} : Result α → Except ErrorCode α
  | .ok a => .ok a
  | .error st => .error st.code

theorem coded_bind {α β : Type} (x : Result α) (f : α → Result β) :
    coded (x >>= f) = (coded x >>= fun a => coded (f a)) := by
  cases x with
  | ok a => rfl
  | error st => rfl

/-- Results that are equal up to their messages. -/
theorem coded_cases {α : Type} {r r' : Result α} (h : coded r = coded r') :
    (∃ a, r = .ok a ∧ r' = .ok a)
      ∨ ∃ st st', r = .error st ∧ r' = .error st' ∧ st.code = st'.code := by
  cases r with
  | ok a =>
      cases r' with
      | ok b =>
          cases h
          exact Or.inl ⟨a, rfl, rfl⟩
      | error st => cases h
  | error st =>
      cases r' with
      | ok b => cases h
      | error st' => exact Or.inr ⟨st, st', rfl, rfl, Except.error.inj h⟩

/-! ## The binder -/

/-- The expression with every column name folded. -/
def Expression.folded : Expression → Expression
  | .columnRef name => .columnRef (foldIdentifierKey name)
  | .unary op operand => .unary op operand.folded
  | .binary left op right => .binary left.folded op right.folded
  | e => e

def SelectProjection.folded (projection : SelectProjection) : SelectProjection :=
  { projection with expression := projection.expression.folded }

/-- The statement with every name folded that it looks up. -/
def Statement.folded : Statement → Statement
  | .select projections tableName predicate =>
    .select (projections.map SelectProjection.folded) (foldIdentifierKey tableName)
      (predicate.map Expression.folded)
  | .insert tableName values =>
    .insert (foldIdentifierKey tableName) (values.map Expression.folded)
  | .createTable tableName columns => .createTable tableName columns

theorem Expression.folded_eq_star {e : Expression} : e.folded = .star ↔ e = .star := by
  cases e <;> simp [Expression.folded]

theorem splitColumnName_fold (name : Bytes) :
    splitColumnName (foldIdentifierKey name)
      = (fun parts => (foldIdentifierKey parts.1, foldIdentifierKey parts.2))
        <$> splitColumnName name := by
  -- folding moves no dot, so both names are split at the same place
  have hfind : (foldIdentifierKey name).findIdx? (· = 46) = name.findIdx? (· = 46) := by
    rw [foldIdentifierKey_eq_map, List.findIdx?_map]
    refine congrArg (List.findIdx? · name) (funext fun c => ?_)
    exact decide_eq_decide.mpr (foldByte_eq_dot c)
  have hdots : ∀ n, 46 ∈ (foldIdentifierKey name).drop n ↔ 46 ∈ name.drop n := by
    intro n
    rw [foldIdentifierKey_eq_map, ← List.map_drop, List.mem_map]
    constructor
    · rintro ⟨c, hmem, hc⟩
      rw [foldByte_eq_dot] at hc
      exact hc ▸ hmem
    · intro hmem
      exact ⟨46, hmem, (foldByte_eq_dot 46).mpr rfl⟩
  have hlength : (foldIdentifierKey name).length = name.length := List.length_map _
  unfold splitColumnName
  rw [hfind, hlength]
  simp only [foldIdentifierKey_eq_nil, hdots]
  split
  · rfl
  · cases name.findIdx? (· = 46) with
    | none => rfl
    | some dot =>
        dsimp only
        split
        · rfl
        · show Except.ok _ = Except.ok _
          rw [foldIdentifierKey_eq_map, ← List.map_take, ← List.map_drop]
          rfl

theorem resolveColumn_fold (table : TableInfo) (name : Bytes) :
    coded (resolveColumn table (foldIdentifierKey name)) = coded (resolveColumn table name) := by
  unfold resolveColumn
  rw [splitColumnName_fold]
  cases splitColumnName name with
  | error st => rfl
  | ok parts =>
      obtain ⟨qualifier, column⟩ := parts
      show coded (if foldIdentifierKey qualifier ≠ [] ∧ _ then _ else _) = coded (if _ then _ else _)
      simp only [foldIdentifierKey_idem, ne_eq, foldIdentifierKey_eq_nil]
      split
      · rfl
      · cases table.schema.columns.find? fun c =>
            foldIdentifierKey c.name = foldIdentifierKey column with
        | none => rfl
        | some found => rfl

theorem bindColumn_fold (name : Bytes) (table : Option TableInfo) :
    coded (bindColumn (foldIdentifierKey name) table) = coded (bindColumn name table) := by
  cases table with
  | none => rfl
  | some table =>
      unfold bindColumn
      dsimp only
      rw [coded_bind, coded_bind, resolveColumn_fold]

/-- One case per node; only a column name changes. -/
theorem bindExpression_folded (table : Option TableInfo) (e : Expression) :
    coded (bindExpression table e.folded) = coded (bindExpression table e) := by
  induction e with
  | integerLiteral value => rfl
  | stringLiteral value => rfl
  | booleanLiteral value => rfl
  | nullLiteral => rfl
  | star => rfl
  | columnRef name => exact bindColumn_fold name table
  | unary op operand ih =>
      rw [Expression.folded, bindExpression, bindExpression, coded_bind, coded_bind, ih]
  | binary left op right ihl ihr =>
      rw [Expression.folded, bindExpression, bindExpression, coded_bind, coded_bind, ihl]
      refine congrArg _ (funext fun left => ?_)
      rw [coded_bind, coded_bind, ihr]

theorem bindProjections_folded (table : Option TableInfo) (projections : List SelectProjection) :
    coded (bindProjections table (projections.map SelectProjection.folded))
      = coded (bindProjections table projections) := by
  have hone : ∀ projection : SelectProjection,
      coded (bindProjection table projection.folded) = coded (bindProjection table projection) := by
    intro projection
    have hiff : projection.folded.expression = .star ↔ projection.expression = .star :=
      Expression.folded_eq_star
    unfold bindProjection
    by_cases hstar : projection.expression = .star
    · rw [if_pos hstar, if_pos (hiff.mpr hstar)]
    · rw [if_neg hstar, if_neg fun h => hstar (hiff.mp h), coded_bind, coded_bind]
      exact congrArg (· >>= _) (bindExpression_folded table projection.expression)
  induction projections with
  | nil => rfl
  | cons projection rest ih =>
      rw [List.map_cons, bindProjections, bindProjections, coded_bind, coded_bind, hone]
      refine congrArg _ (funext fun bound => ?_)
      rw [coded_bind, coded_bind, ih]

theorem bindPredicate_folded (table : Option TableInfo) (predicate : Option Expression) :
    coded (bindPredicate table (predicate.map Expression.folded))
      = coded (bindPredicate table predicate) := by
  cases predicate with
  | none => rfl
  | some e =>
      show coded (bindPredicate table (some e.folded)) = _
      rw [bindPredicate, bindPredicate, coded_bind, coded_bind, bindExpression_folded]

theorem bindInsertValues_folded (values : List Expression) (columns : List ColumnSchema) :
    coded (bindInsertValues (values.map Expression.folded) columns)
      = coded (bindInsertValues values columns) := by
  induction values generalizing columns with
  | nil => rfl
  | cons value values ih =>
      cases columns with
      | nil => rfl
      | cons column columns =>
          rw [List.map_cons, bindInsertValues, bindInsertValues, coded_bind, coded_bind,
            bindExpression_folded]
          refine congrArg _ (funext fun expression => ?_)
          rw [coded_bind, coded_bind]
          refine congrArg _ (funext fun coerced => ?_)
          rw [coded_bind, coded_bind, ih]

/-- **FOLDED NAMES** bind as the names they fold, when the catalog's lookup
    folds too. -/
theorem bind_folded {getTable : Bytes → Result TableInfo}
    (hget : ∀ name, getTable (foldIdentifierKey name) = getTable name) (statement : Statement) :
    coded (bind getTable statement.folded) = coded (bind getTable statement) := by
  cases statement with
  | select projections tableName predicate =>
      show coded (bindSelect getTable _ _ _) = coded (bindSelect getTable _ _ _)
      have hfrom : bindFrom getTable (foldIdentifierKey tableName) = bindFrom getTable tableName := by
        unfold bindFrom
        rw [hget]
        simp only [foldIdentifierKey_eq_nil]
      unfold bindSelect
      rw [hfrom, coded_bind, coded_bind]
      refine congrArg _ (funext fun table => ?_)
      rw [coded_bind, coded_bind, bindProjections_folded]
      refine congrArg _ (funext fun bounds => ?_)
      rw [coded_bind, coded_bind, bindPredicate_folded]
  | insert tableName values =>
      show coded (bindInsert getTable _ _) = coded (bindInsert getTable _ _)
      unfold bindInsert
      rw [hget, coded_bind, coded_bind]
      refine congrArg _ (funext fun table => ?_)
      rw [List.length_map]
      split
      · rfl
      · rw [coded_bind, coded_bind, bindInsertValues_folded]
  | createTable tableName columns => rfl

theorem InMemoryCatalog.getTable_fold (catalog : InMemoryCatalog) (name : Bytes) :
    catalog.getTable (foldIdentifierKey name) = catalog.getTable name := by
  unfold InMemoryCatalog.getTable
  rw [foldIdentifierKey_idem]

end MattSql
