import Mathlib.Data.List.Nodup
import MattSql.EngineProofs

/-! # The type system

    What the binder accepts, as rules on the statements as they were parsed:
    which column a reference speaks of (`Names`), which type an expression has
    (`Expression.HasType`), and which statements are well formed
    (`Statement.WellFormed`).

    The rules do not bind anything.  `bind_iff_wellFormed` says that the binder
    is a decision procedure for them, and that it finds the types. -/

namespace MattSql

open Fallible

/-! ## Names -/

/-- The reference speaks of the column: `column`, or `table.column`. -/
inductive Names (table : TableInfo) (column : ColumnSchema) : Bytes → Prop
  | plain {name : Bytes} (undotted : 46 ∉ name)
      (same : foldIdentifierKey column.name = foldIdentifierKey name) : Names table column name
  | qualified {qualifier name : Bytes} (given : qualifier ≠ []) (undotted : 46 ∉ qualifier)
      (undotted' : 46 ∉ name) (owner : foldIdentifierKey qualifier = foldIdentifierKey table.name)
      (same : foldIdentifierKey column.name = foldIdentifierKey name) :
      Names table column (qualifier ++ 46 :: name)

theorem findIdx?_undotted {name : Bytes} (h : 46 ∉ name) : name.findIdx? (· = 46) = none := by
  refine List.findIdx?_eq_none_iff.mpr fun c hc => decide_eq_false ?_
  rintro rfl
  exact h hc

theorem findIdx?_dot {qualifier part : Bytes} (h : 46 ∉ qualifier) :
    (qualifier ++ 46 :: part).findIdx? (· = 46) = some qualifier.length := by
  rw [List.findIdx?_append, findIdx?_undotted h, List.findIdx?_cons]
  simp

/-- A reference splits into one or two parts without dots. -/
theorem splitColumnName_ok_iff {name qualifier part : Bytes} :
    splitColumnName name = .ok (qualifier, part)
      ↔ (qualifier = [] ∧ part = name ∧ name ≠ [] ∧ 46 ∉ name)
        ∨ (qualifier ≠ [] ∧ 46 ∉ qualifier ∧ part ≠ [] ∧ 46 ∉ part
          ∧ name = qualifier ++ 46 :: part) := by
  rw [splitColumnName]
  constructor
  · intro h
    obtain ⟨hne, h⟩ := guard_ok_iff.mp h
    cases hdot : name.findIdx? (· = 46) with
    | none =>
        rw [hdot] at h
        cases h
        refine .inl ⟨rfl, rfl, hne, fun hmem => ?_⟩
        exact absurd (List.findIdx?_eq_none_iff.mp hdot 46 hmem) (by decide)
    | some dot =>
        rw [hdot] at h
        obtain ⟨hparts, h⟩ := guard_ok_iff.mp h
        cases h
        obtain ⟨hlt, hat, hbefore⟩ := List.findIdx?_eq_some_iff_getElem.mp hdot
        obtain ⟨hzero, hparts⟩ := not_or.mp hparts
        obtain ⟨hlast, hafter⟩ := not_or.mp hparts
        have hsplit : name = name.take dot ++ 46 :: name.drop (dot + 1) := by
          rw [← of_decide_eq_true hat, List.getElem_cons_drop, List.take_append_drop]
        refine .inr ⟨?_, ?_, ?_, hafter, hsplit⟩
        · rw [Ne, List.take_eq_nil_iff, not_or]
          exact ⟨hzero, hne⟩
        · intro hmem
          obtain ⟨i, hi, heq⟩ := List.getElem_of_mem hmem
          rw [List.length_take] at hi
          rw [List.getElem_take] at heq
          have hmiss := hbefore i (by omega)
          rw [heq] at hmiss
          exact hmiss (by decide)
        · rw [Ne, List.drop_eq_nil_iff]
          omega
  · rintro (⟨rfl, rfl, hne, hdot⟩ | ⟨hq, hdot, hp, hdot', rfl⟩)
    · rw [if_neg hne, findIdx?_undotted hdot]
    · have hpos := List.length_pos_iff.mpr hq
      have hpos' := List.length_pos_iff.mpr hp
      have htake : (qualifier ++ 46 :: part).take qualifier.length = qualifier :=
        List.take_left
      have hdrop : (qualifier ++ 46 :: part).drop (qualifier.length + 1) = part := by simp
      rw [if_neg (by simp), findIdx?_dot hdot]
      dsimp only
      rw [htake, hdrop, List.length_append, List.length_cons, if_neg]
      rintro (h | h | h)
      · omega
      · omega
      · exact hdot' h

/-- **NAME RESOLUTION** finds the column that the reference speaks of. -/
theorem resolveColumn_ok_iff {table : TableInfo} (hv : table.schema.Valid) {name : Bytes}
    {column : ColumnSchema} :
    resolveColumn table name = .ok column
      ↔ column ∈ table.schema.columns ∧ Names table column name := by
  -- folded names are distinct, so the first column of that name is the only one
  have hfind : ∀ part : Bytes, (table.schema.columns.find? fun c =>
        foldIdentifierKey c.name = foldIdentifierKey part) = some column
      ↔ column ∈ table.schema.columns
        ∧ foldIdentifierKey column.name = foldIdentifierKey part := by
    intro part
    constructor
    · intro h
      have hsame := List.find?_some h
      exact ⟨List.mem_of_find?_eq_some h, of_decide_eq_true hsame⟩
    · rintro ⟨hmem, hsame⟩
      cases hfound : table.schema.columns.find? fun c =>
          foldIdentifierKey c.name = foldIdentifierKey part with
      | none => exact absurd (decide_eq_true hsame) (List.find?_eq_none.mp hfound column hmem)
      | some found =>
          have hfold := List.find?_some hfound
          exact congrArg some (List.inj_on_of_nodup_map hv.distinct
            (List.mem_of_find?_eq_some hfound) hmem
            ((of_decide_eq_true hfold).trans hsame.symm))
  rw [resolveColumn, bind_ok_iff]
  constructor
  · rintro ⟨⟨qualifier, part⟩, hsplit, h⟩
    obtain ⟨howner, h⟩ := guard_ok_iff.mp h
    have hfound : (table.schema.columns.find? fun c =>
        foldIdentifierKey c.name = foldIdentifierKey part) = some column := by
      split at h
      · rename_i found hfound
        cases h
        exact hfound
      · cases h
    obtain ⟨hmem, hsame⟩ := (hfind part).mp hfound
    refine ⟨hmem, ?_⟩
    rcases splitColumnName_ok_iff.mp hsplit with
      ⟨-, rfl, -, hdot⟩ | ⟨hq, hdot, -, hdot', rfl⟩
    · exact .plain hdot hsame
    · exact .qualified hq hdot hdot' (not_not.mp fun hne => howner ⟨hq, hne⟩) hsame
  · rintro ⟨hmem, hnames⟩
    have hnamed : ∀ {part : Bytes}, foldIdentifierKey column.name = foldIdentifierKey part →
        part ≠ [] := by
      rintro part hsame rfl
      exact hv.named column hmem (List.map_eq_nil_iff.mp hsame)
    cases hnames with
    | plain hdot hsame =>
        refine ⟨([], name), splitColumnName_ok_iff.mpr (.inl ⟨rfl, rfl, hnamed hsame, hdot⟩), ?_⟩
        refine guard_ok_iff.mpr ⟨fun h => h.1 rfl, ?_⟩
        rw [(hfind name).mpr ⟨hmem, hsame⟩]
    | @qualified qualifier part hq hdot hdot' howner hsame =>
        refine ⟨(qualifier, part), splitColumnName_ok_iff.mpr
          (.inr ⟨hq, hdot, hnamed hsame, hdot', rfl⟩), ?_⟩
        refine guard_ok_iff.mpr ⟨fun h => h.2 howner, ?_⟩
        rw [(hfind part).mpr ⟨hmem, hsame⟩]

/-! ## Expressions -/

/-- The literals 0 and 1, which may stand for FALSE and TRUE. -/
def Expression.IsFlag (e : Expression) : Prop := e = .integerLiteral 0 ∨ e = .integerLiteral 1

/-- The operands of an equality comparison fit together. -/
inductive EqualityTyped (left right : Expression) : SqlType → SqlType → Prop
  | same (type : SqlType) : EqualityTyped left right type type
  | null_left (type : SqlType) : EqualityTyped left right .null type
  | null_right (type : SqlType) : EqualityTyped left right type .null
  | flag_left (flag : left.IsFlag) : EqualityTyped left right .integer .boolean
  | flag_right (flag : right.IsFlag) : EqualityTyped left right .boolean .integer

/-- The expression has the type, in the scope of the table of FROM. -/
inductive Expression.HasType (table : Option TableInfo) : Expression → SqlType → Prop
  | integerLiteral (value : Int64) : HasType table (.integerLiteral value) .integer
  | stringLiteral (value : Bytes) : HasType table (.stringLiteral value) .text
  | booleanLiteral (value : Bool) : HasType table (.booleanLiteral value) .boolean
  | nullLiteral : HasType table .nullLiteral .null
  | columnRef {source : TableInfo} {column : ColumnSchema} {name : Bytes}
      (scope : table = some source) (stored : column ∈ source.schema.columns)
      (names : Names source column name) : HasType table (.columnRef name) column.type
  | sign {op : UnaryOperator} {operand : Expression} (hop : op ≠ .not)
      (integer : HasType table operand .integer) : HasType table (.unary op operand) .integer
  | not {operand : Expression} (boolean : HasType table operand .boolean) :
      HasType table (.unary .not operand) .boolean
  | arithmetic {op : BinaryOperator} {left right : Expression} (hop : isArithmetic op = true)
      (integer : HasType table left .integer) (integer' : HasType table right .integer) :
      HasType table (.binary left op right) .integer
  | logical {op : BinaryOperator} {left right : Expression} (hop : isBooleanOperator op = true)
      (boolean : HasType table left .boolean) (boolean' : HasType table right .boolean) :
      HasType table (.binary left op right) .boolean
  | equality {op : BinaryOperator} {left right : Expression} {type type' : SqlType}
      (hop : isEqualityComparison op = true) (typed : HasType table left type)
      (typed' : HasType table right type') (fit : EqualityTyped left right type type') :
      HasType table (.binary left op right) .boolean
  | ordering {op : BinaryOperator} {left right : Expression} {type : SqlType}
      (hop : isOrderingComparison op = true) (ordered : type = .integer ∨ type = .text)
      (typed : HasType table left type) (typed' : HasType table right type) :
      HasType table (.binary left op right) .boolean

theorem bindUnary_ok_iff {op : UnaryOperator} {operand bound : BoundExpression} :
    bindUnary op operand = .ok bound
      ↔ ∃ type, bound = .unary type op operand ∧ UnaryTyped op operand.type type := by
  cases op <;>
    (rw [bindUnary, guard_ok_iff, not_not]
     constructor
     · rintro ⟨htype, h⟩
       cases h
       exact ⟨_, rfl, htype, rfl⟩
     · rintro ⟨type, rfl, htype, rfl⟩
       exact ⟨htype, rfl⟩)

theorem bindBinary_ok_iff {left right bound : BoundExpression} {op : BinaryOperator} :
    bindBinary left op right = .ok bound
      ↔ ∃ type, bound = .binary type left op right ∧ BinaryTyped left op right type := by
  cases op with
  | equal | notEqual | less | lessEqual | greater | greaterEqual =>
      constructor
      · intro h
        obtain ⟨hfit, h⟩ := guard_ok_iff.mp h
        cases h
        exact ⟨_, rfl, not_not.mp hfit, rfl⟩
      · rintro ⟨type, rfl, hfit, rfl⟩
        exact guard_ok_iff.mpr ⟨not_not_intro hfit, rfl⟩
  | _ =>
      constructor
      · intro h
        obtain ⟨htypes, h⟩ := guard_ok_iff.mp h
        cases h
        rw [not_or, not_not, not_not] at htypes
        exact ⟨_, rfl, htypes.1, htypes.2, rfl⟩
      · rintro ⟨type, rfl, hl, hr, rfl⟩
        exact guard_ok_iff.mpr ⟨not_or_intro (not_not_intro hl) (not_not_intro hr), rfl⟩

/-- Only the literals 0 and 1 bind to such literals. -/
theorem isBooleanIntegerLiteral_iff {table : Option TableInfo} {e : Expression}
    {bound : BoundExpression} (h : bindExpression table e = .ok bound) :
    isBooleanIntegerLiteral bound = true ↔ e.IsFlag := by
  rw [Expression.IsFlag]
  cases e with
  | integerLiteral value =>
      cases h
      rw [Expression.integerLiteral.injEq, Expression.integerLiteral.injEq]
      exact decide_eq_true_iff
  | columnRef name =>
      cases table with
      | none => cases h
      | some source =>
          obtain ⟨column, -, h⟩ := bind_ok_iff.mp h
          cases h
          exact iff_of_false Bool.false_ne_true (by rintro (h | h) <;> cases h)
  | unary op operand =>
      obtain ⟨_, -, h⟩ := bind_ok_iff.mp h
      obtain ⟨_, rfl, -⟩ := bindUnary_ok_iff.mp h
      exact iff_of_false Bool.false_ne_true (by rintro (h | h) <;> cases h)
  | binary left op right =>
      obtain ⟨_, -, h⟩ := bind_ok_iff.mp h
      obtain ⟨_, -, h⟩ := bind_ok_iff.mp h
      obtain ⟨_, rfl, -⟩ := bindBinary_ok_iff.mp h
      exact iff_of_false Bool.false_ne_true (by rintro (h | h) <;> cases h)
  | star => cases h
  | _ =>
      cases h
      exact iff_of_false Bool.false_ne_true (by rintro (h | h) <;> cases h)

/-- The binder's test of the operands is the rule. -/
theorem equalityComparable_iff {table : Option TableInfo} {left right : Expression}
    {l r : BoundExpression} (hl : bindExpression table left = .ok l)
    (hr : bindExpression table right = .ok r) :
    equalityComparable l r = true ↔ EqualityTyped left right l.type r.type := by
  have hflag : ∀ {e : Expression} {b : BoundExpression}, bindExpression table e = .ok b →
      e.IsFlag → b.type = .integer := by
    rintro e b hb (rfl | rfl) <;> cases hb <;> rfl
  rw [equalityComparable, decide_eq_true_iff, isBooleanIntegerLiteral_iff hl,
    isBooleanIntegerLiteral_iff hr]
  constructor
  · rintro (h | h | h | ⟨h, hf⟩ | ⟨h, hf⟩)
    · rw [h]
      exact .null_left _
    · rw [h]
      exact .null_right _
    · rw [h]
      exact .same _
    · rw [h, hflag hr hf]
      exact .flag_right hf
    · rw [h, hflag hl hf]
      exact .flag_left hf
  · generalize l.type = a, r.type = b
    rintro (_ | _ | _ | hf | hf)
    · exact .inr (.inr (.inl rfl))
    · exact .inl rfl
    · exact .inr (.inl rfl)
    · exact .inr (.inr (.inr (.inr ⟨rfl, hf⟩)))
    · exact .inr (.inr (.inr (.inl ⟨rfl, hf⟩)))

section

variable {table : Option TableInfo} {e : Expression} {type : SqlType}

/-- What is typed binds.  The induction is on the typing rules. -/
theorem Expression.HasType.binds (hv : ∀ t, table = some t → t.schema.Valid)
    (h : e.HasType table type) :
    ∃ bound, bindExpression table e = .ok bound ∧ bound.type = type := by
  have hunary : ∀ {op : UnaryOperator} {operand : Expression} {o : BoundExpression}
      {type : SqlType}, bindExpression table operand = .ok o → UnaryTyped op o.type type →
      ∃ bound, bindExpression table (.unary op operand) = .ok bound ∧ bound.type = type :=
    fun ho htyped => ⟨_, bind_ok_iff.mpr ⟨_, ho, bindUnary_ok_iff.mpr ⟨_, rfl, htyped⟩⟩, rfl⟩
  have hbinary : ∀ {op : BinaryOperator} {left right : Expression} {l r : BoundExpression}
      {type : SqlType}, bindExpression table left = .ok l → bindExpression table right = .ok r →
      BinaryTyped l op r type →
      ∃ bound, bindExpression table (.binary left op right) = .ok bound ∧ bound.type = type :=
    fun hl hr htyped => ⟨_, bind_ok_iff.mpr ⟨_, hl, bind_ok_iff.mpr ⟨_, hr,
      bindBinary_ok_iff.mpr ⟨_, rfl, htyped⟩⟩⟩, rfl⟩
  induction h with
  | integerLiteral value => exact ⟨_, rfl, rfl⟩
  | stringLiteral value => exact ⟨_, rfl, rfl⟩
  | booleanLiteral value => exact ⟨_, rfl, rfl⟩
  | nullLiteral => exact ⟨_, rfl, rfl⟩
  | @columnRef source column name scope stored names =>
      subst scope
      exact ⟨makeBoundColumn source column, bind_ok_iff.mpr
        ⟨column, (resolveColumn_ok_iff (hv source rfl)).mpr ⟨stored, names⟩, rfl⟩, rfl⟩
  | @sign op operand hop _ ih =>
      obtain ⟨o, ho, htype⟩ := ih
      refine hunary ho ?_
      cases op with
      | not => exact absurd rfl hop
      | _ => exact ⟨htype, rfl⟩
  | not _ ih =>
      obtain ⟨o, ho, htype⟩ := ih
      exact hunary ho ⟨htype, rfl⟩
  | @arithmetic op left right hop _ _ ihl ihr =>
      obtain ⟨l, hl, htype⟩ := ihl
      obtain ⟨r, hr, htype'⟩ := ihr
      refine hbinary hl hr ?_
      cases op with
      | add | subtract | multiply | divide => exact ⟨htype, htype', rfl⟩
      | _ => cases hop
  | @logical op left right hop _ _ ihl ihr =>
      obtain ⟨l, hl, htype⟩ := ihl
      obtain ⟨r, hr, htype'⟩ := ihr
      refine hbinary hl hr ?_
      cases op with
      | and | or => exact ⟨htype, htype', rfl⟩
      | _ => cases hop
  | @equality op left right type type' hop _ _ fit ihl ihr =>
      obtain ⟨l, hl, htype⟩ := ihl
      obtain ⟨r, hr, htype'⟩ := ihr
      rw [← htype, ← htype'] at fit
      have hfit := (equalityComparable_iff hl hr).mpr fit
      refine hbinary hl hr ?_
      cases op with
      | equal | notEqual => exact ⟨hfit, rfl⟩
      | _ => cases hop
  | @ordering op left right type hop ordered _ _ ihl ihr =>
      obtain ⟨l, hl, htype⟩ := ihl
      obtain ⟨r, hr, htype'⟩ := ihr
      have hfit : orderingComparable l.type r.type = true := by
        rw [htype, htype']
        exact decide_eq_true ⟨rfl, ordered⟩
      refine hbinary hl hr ?_
      cases op with
      | less | lessEqual | greater | greaterEqual => exact ⟨hfit, rfl⟩
      | _ => cases hop

/-- What binds is typed.  The induction is on the expression. -/
theorem hasType_of_bind (hv : ∀ t, table = some t → t.schema.Valid) {bound : BoundExpression}
    (h : bindExpression table e = .ok bound) : e.HasType table bound.type := by
  induction e generalizing bound with
  | integerLiteral value =>
      cases h
      exact .integerLiteral value
  | stringLiteral value =>
      cases h
      exact .stringLiteral value
  | booleanLiteral value =>
      cases h
      exact .booleanLiteral value
  | nullLiteral =>
      cases h
      exact .nullLiteral
  | columnRef name =>
      cases table with
      | none => cases h
      | some source =>
          obtain ⟨column, hcolumn, h⟩ := bind_ok_iff.mp h
          cases h
          obtain ⟨stored, names⟩ := (resolveColumn_ok_iff (hv source rfl)).mp hcolumn
          exact .columnRef rfl stored names
  | unary op operand ih =>
      obtain ⟨o, ho, h⟩ := bind_ok_iff.mp h
      obtain ⟨type, rfl, htyped⟩ := bindUnary_ok_iff.mp h
      have hoperand := ih ho
      cases op with
      | not =>
          obtain ⟨htype, rfl⟩ := htyped
          exact .not (htype ▸ hoperand)
      | _ =>
          obtain ⟨htype, rfl⟩ := htyped
          exact .sign nofun (htype ▸ hoperand)
  | binary left op right ihl ihr =>
      obtain ⟨l, hl, h⟩ := bind_ok_iff.mp h
      obtain ⟨r, hr, h⟩ := bind_ok_iff.mp h
      obtain ⟨type, rfl, htyped⟩ := bindBinary_ok_iff.mp h
      have hleft := ihl hl
      have hright := ihr hr
      cases op with
      | add | subtract | multiply | divide =>
          obtain ⟨htype, htype', rfl⟩ := htyped
          exact .arithmetic rfl (htype ▸ hleft) (htype' ▸ hright)
      | and | or =>
          obtain ⟨htype, htype', rfl⟩ := htyped
          exact .logical rfl (htype ▸ hleft) (htype' ▸ hright)
      | equal | notEqual =>
          obtain ⟨hfit, rfl⟩ := htyped
          exact .equality rfl hleft hright ((equalityComparable_iff hl hr).mp hfit)
      | less | lessEqual | greater | greaterEqual =>
          obtain ⟨hfit, rfl⟩ := htyped
          obtain ⟨hsame, ordered⟩ := of_decide_eq_true hfit
          exact .ordering rfl ordered hleft (hsame ▸ hright)
  | star => cases h

/-- **THE BINDER FINDS THE TYPE**, over every table with a valid schema and
    without a table. -/
theorem hasType_iff (hv : ∀ t, table = some t → t.schema.Valid) :
    e.HasType table type ↔ ∃ bound, bindExpression table e = .ok bound ∧ bound.type = type := by
  constructor
  · exact Expression.HasType.binds hv
  · rintro ⟨bound, h, rfl⟩
    exact hasType_of_bind hv h

end

/-! ## Statements -/

/-- What FROM puts in scope: nothing, or a table of the catalog. -/
inductive Sources (getTable : Bytes → Result TableInfo) : Bytes → Option TableInfo → Prop
  | nothing : Sources getTable [] none
  | table {name : Bytes} {source : TableInfo} (named : name ≠ [])
      (found : getTable name = .ok source) : Sources getTable name (some source)

/-- A projection is a star over a table, or an expression of some type. -/
inductive SelectProjection.WellFormed (table : Option TableInfo) : SelectProjection → Prop
  | star {source : TableInfo} {aliasName : Bytes} (scope : table = some source) :
      WellFormed table ⟨.star, aliasName⟩
  | expression {e : Expression} {aliasName : Bytes} {type : SqlType}
      (typed : e.HasType table type) : WellFormed table ⟨e, aliasName⟩

/-- A value of INSERT goes into the column: by its type, as NULL, or as a 0 or 1
    that stands for a BOOLEAN. -/
inductive GoesInto (column : ColumnSchema) (value : Expression) : Prop
  | same (typed : value.HasType none column.type)
  | null (typed : value.HasType none .null) (nullable : column.nullable = true)
  | flag (boolean : column.type = .boolean) (flag : value.IsFlag)

/-- The rules of the statements. -/
inductive Statement.WellFormed (getTable : Bytes → Result TableInfo) : Statement → Prop
  | select {projections : List SelectProjection} {tableName : Bytes}
      {predicate : Option Expression} {table : Option TableInfo}
      (source : Sources getTable tableName table)
      (projected : ∀ projection ∈ projections, projection.WellFormed table)
      (filtered : ∀ p, predicate = some p → p.HasType table .boolean) :
      WellFormed getTable (.select projections tableName predicate)
  | insert {tableName : Bytes} {values : List Expression} {table : TableInfo}
      (found : getTable tableName = .ok table)
      (fit : List.Forall₂ GoesInto table.schema.columns values) :
      WellFormed getTable (.insert tableName values)
  | createTable {tableName : Bytes} {columns : List ColumnDefinition} {st : Status}
      (named : tableName ≠ []) (fresh : getTable tableName = .error st)
      (absent : st.code = .notFound) (nonempty : columns ≠ [])
      (count : columns.length ≤ kMaxColumnId + 1)
      (columns_named : ∀ column ∈ columns, column.name ≠ [])
      (distinct : (columns.map fun column => foldIdentifierKey column.name).Nodup) :
      WellFormed getTable (.createTable tableName columns)

theorem Database.Consistent.schema_valid {db : Database} (hdb : db.Consistent) {name : Bytes}
    {table : TableInfo} (h : db.catalog.getTable name = .ok table) : table.schema.Valid := by
  obtain ⟨data, hstores⟩ := hdb.tables _ table (InMemoryCatalog.getTable_eq_ok.mp h)
  exact hstores.valid

section

variable {getTable : Bytes → Result TableInfo}

theorem bindFrom_ok_iff {tableName : Bytes} {table : Option TableInfo} :
    bindFrom getTable tableName = .ok table ↔ Sources getTable tableName table := by
  rw [bindFrom]
  constructor
  · intro h
    split at h
    · rename_i hname
      cases h
      rw [hname]
      exact .nothing
    · rename_i hname
      obtain ⟨source, hfound, h⟩ := bind_ok_iff.mp h
      cases h
      exact .table hname hfound
  · intro h
    cases h with
    | nothing => rfl
    | table named found =>
        rw [if_neg named]
        exact bind_ok_iff.mpr ⟨_, found, rfl⟩

theorem Sources.valid (hv : ∀ name t, getTable name = .ok t → t.schema.Valid) {tableName : Bytes}
    {table : Option TableInfo} (h : Sources getTable tableName table) :
    ∀ t, table = some t → t.schema.Valid := by
  cases h with
  | nothing =>
      rintro t ⟨⟩
  | table named found =>
      rintro t ⟨⟩
      exact hv _ _ found

section

variable {table : Option TableInfo}

theorem bindProjection_iff (hv : ∀ t, table = some t → t.schema.Valid)
    (projection : SelectProjection) :
    (∃ bounds, bindProjection table projection = .ok bounds) ↔ projection.WellFormed table := by
  obtain ⟨e, aliasName⟩ := projection
  unfold bindProjection
  by_cases hstar : e = .star
  · subst hstar
    rw [if_pos rfl]
    cases table with
    | none =>
        refine iff_of_false (by rintro ⟨_, ⟨⟩⟩) fun h => ?_
        cases h with
        | star scope => cases scope
        | expression typed => cases typed
    | some source => exact iff_of_true ⟨_, rfl⟩ (.star rfl)
  · rw [if_neg hstar]
    constructor
    · rintro ⟨bounds, h⟩
      obtain ⟨bound, hbound, -⟩ := bind_ok_iff.mp h
      exact .expression (hasType_of_bind hv hbound)
    · intro h
      cases h with
      | star scope => exact absurd rfl hstar
      | expression typed =>
          obtain ⟨bound, hbound, -⟩ := typed.binds hv
          exact ⟨_, bind_ok_iff.mpr ⟨bound, hbound, rfl⟩⟩

theorem bindProjections_iff (hv : ∀ t, table = some t → t.schema.Valid)
    (projections : List SelectProjection) :
    (∃ bounds, bindProjections table projections = .ok bounds)
      ↔ ∀ projection ∈ projections, projection.WellFormed table := by
  induction projections with
  | nil => exact iff_of_true ⟨_, rfl⟩ (List.forall_mem_nil _)
  | cons projection rest ih =>
      rw [List.forall_mem_cons, ← bindProjection_iff hv projection, ← ih]
      constructor
      · rintro ⟨bounds, h⟩
        obtain ⟨bound, hbound, h⟩ := bind_ok_iff.mp h
        obtain ⟨bounds', hrest, -⟩ := bind_ok_iff.mp h
        exact ⟨⟨bound, hbound⟩, bounds', hrest⟩
      · rintro ⟨⟨bound, hbound⟩, bounds, hrest⟩
        exact ⟨_, bind_ok_iff.mpr ⟨bound, hbound, bind_ok_iff.mpr ⟨bounds, hrest, rfl⟩⟩⟩

theorem bindPredicate_iff (hv : ∀ t, table = some t → t.schema.Valid)
    (predicate : Option Expression) :
    (∃ bound, bindPredicate table predicate = .ok bound)
      ↔ ∀ p, predicate = some p → p.HasType table .boolean := by
  cases predicate with
  | none => exact iff_of_true ⟨_, rfl⟩ (by rintro p ⟨⟩)
  | some p =>
      constructor
      · rintro ⟨bound, h⟩
        obtain ⟨b, hb, h⟩ := bind_ok_iff.mp h
        obtain ⟨htype, -⟩ := guard_ok_iff.mp h
        rintro _ ⟨⟩
        exact (hasType_iff hv).mpr ⟨b, hb, not_not.mp htype⟩
      · intro h
        obtain ⟨b, hb, htype⟩ := (hasType_iff hv).mp (h p rfl)
        exact ⟨_, bind_ok_iff.mpr ⟨b, hb, guard_ok_iff.mpr ⟨not_not_intro htype, rfl⟩⟩⟩

end

/-- Which bound values a column takes. -/
theorem coerceToColumn_iff {column : ColumnSchema} (storable : column.type ≠ .null)
    {value : Expression} {bound : BoundExpression} (h : bindExpression none value = .ok bound) :
    (∃ coerced, coerceToColumn bound column = .ok coerced) ↔ GoesInto column value := by
  have hnone : ∀ t : TableInfo, none = some t → t.schema.Valid := by
    rintro t ⟨⟩
  have htype : ∀ {type : SqlType}, value.HasType none type → bound.type = type := by
    intro type htyped
    obtain ⟨bound', h', rfl⟩ := htyped.binds hnone
    rw [h] at h'
    exact congrArg BoundExpression.type (Except.ok.inj h')
  have hflag : ∀ {literal : BoundExpression},
      coerceBooleanIntegerLiteral bound = some literal → value.IsFlag := by
    intro literal hliteral
    rw [← isBooleanIntegerLiteral_iff h]
    unfold coerceBooleanIntegerLiteral at hliteral
    split at hliteral
    · split at hliteral
      · exact decide_eq_true ‹_›
      · cases hliteral
    · cases hliteral
  unfold coerceToColumn
  constructor
  · rintro ⟨coerced, h'⟩
    split at h'
    · rename_i hnull
      split at h'
      · exact .null (hnull ▸ hasType_of_bind hnone h) ‹_›
      · cases h'
    · split at h'
      · rename_i hsame
        exact .same (hsame ▸ hasType_of_bind hnone h)
      · split at h'
        · split at h'
          · exact .flag ‹_› (hflag ‹_›)
          · cases h'
        · cases h'
  · intro hgoes
    cases hgoes with
    | same typed =>
        rw [htype typed, if_neg storable, if_pos rfl]
        exact ⟨_, rfl⟩
    | null typed nullable =>
        rw [htype typed, if_pos rfl, if_pos nullable]
        exact ⟨_, rfl⟩
    | flag boolean flag =>
        rcases flag with rfl | rfl <;>
          (cases h
           rw [boolean]
           exact ⟨_, rfl⟩)

theorem bindInsertValues_iff {columns : List ColumnSchema}
    (storable : ∀ column ∈ columns, column.type ≠ .null) {values : List Expression}
    (hlength : values.length = columns.length) :
    (∃ bounds, bindInsertValues values columns = .ok bounds)
      ↔ List.Forall₂ GoesInto columns values := by
  induction columns generalizing values with
  | nil =>
      obtain rfl := List.length_eq_zero_iff.mp hlength
      exact iff_of_true ⟨_, rfl⟩ .nil
  | cons column columns ih =>
      cases values with
      | nil => cases hlength
      | cons value values =>
          obtain ⟨hcolumn, hcolumns⟩ := List.forall_mem_cons.mp storable
          rw [List.forall₂_cons, ← ih hcolumns (Nat.succ_injective hlength)]
          constructor
          · rintro ⟨bounds, h⟩
            obtain ⟨bound, hbound, h⟩ := bind_ok_iff.mp h
            obtain ⟨coerced, hcoerced, h⟩ := bind_ok_iff.mp h
            obtain ⟨bounds', hrest, -⟩ := bind_ok_iff.mp h
            exact ⟨(coerceToColumn_iff hcolumn hbound).mp ⟨coerced, hcoerced⟩, bounds', hrest⟩
          · rintro ⟨hgoes, bounds, hrest⟩
            -- what goes into a column has a type, so it binds
            obtain ⟨bound, hbound⟩ : ∃ bound, bindExpression none value = .ok bound := by
              cases hgoes with
              | same typed | null typed =>
                  obtain ⟨bound, hbound, -⟩ := typed.binds (by rintro t ⟨⟩)
                  exact ⟨bound, hbound⟩
              | flag boolean flag => rcases flag with rfl | rfl <;> exact ⟨_, rfl⟩
            obtain ⟨coerced, hcoerced⟩ := (coerceToColumn_iff hcolumn hbound).mpr hgoes
            exact ⟨_, bind_ok_iff.mpr ⟨bound, hbound, bind_ok_iff.mpr ⟨coerced, hcoerced,
              bind_ok_iff.mpr ⟨bounds, hrest, rfl⟩⟩⟩⟩

/-- The column loop, from any column on and after any names. -/
theorem bindColumnDefinitions_iff (index : Nat) (names : List Bytes)
    (definitions : List ColumnDefinition) :
    (∃ columns, bindColumnDefinitions index names definitions = .ok columns)
      ↔ (definitions ≠ [] → index + definitions.length ≤ kMaxColumnId + 1)
        ∧ (∀ column ∈ definitions, column.name ≠ [])
        ∧ (definitions.map fun column => foldIdentifierKey column.name).Nodup
        ∧ ∀ column ∈ definitions, foldIdentifierKey column.name ∉ names := by
  induction definitions generalizing index names with
  | nil =>
      exact iff_of_true ⟨_, rfl⟩
        ⟨fun h => absurd rfl h, List.forall_mem_nil _, .nil, List.forall_mem_nil _⟩
  | cons definition rest ih =>
      have hstep : (∃ columns, bindColumnDefinitions index names (definition :: rest)
            = .ok columns)
          ↔ index ≤ kMaxColumnId ∧ definition.name ≠ []
            ∧ foldIdentifierKey definition.name ∉ names
            ∧ ∃ columns, bindColumnDefinitions (index + 1)
                (foldIdentifierKey definition.name :: names) rest = .ok columns := by
        constructor
        · rintro ⟨columns, h⟩
          obtain ⟨hindex, h⟩ := guard_ok_iff.mp h
          obtain ⟨hnamed, h⟩ := guard_ok_iff.mp h
          obtain ⟨hnew, h⟩ := guard_ok_iff.mp h
          obtain ⟨columns', hrest, -⟩ := bind_ok_iff.mp h
          exact ⟨not_lt.mp hindex, hnamed, hnew, columns', hrest⟩
        · rintro ⟨hindex, hnamed, hnew, columns, hrest⟩
          exact ⟨_, guard_ok_iff.mpr ⟨not_lt.mpr hindex, guard_ok_iff.mpr ⟨hnamed,
            guard_ok_iff.mpr ⟨hnew, bind_ok_iff.mpr ⟨columns, hrest, rfl⟩⟩⟩⟩⟩
      rw [hstep, ih, List.map_cons, List.nodup_cons, List.forall_mem_cons, List.forall_mem_cons,
        List.length_cons]
      -- a name is new when it is not among the earlier ones and not this one
      have hnew : (∀ column ∈ rest, foldIdentifierKey column.name
            ∉ foldIdentifierKey definition.name :: names)
          ↔ foldIdentifierKey definition.name
              ∉ rest.map (fun column => foldIdentifierKey column.name)
            ∧ ∀ column ∈ rest, foldIdentifierKey column.name ∉ names := by
        simp only [List.mem_cons, not_or, List.mem_map, not_exists, not_and]
        constructor
        · exact fun h => ⟨fun column hc => (h column hc).1, fun column hc => (h column hc).2⟩
        · exact fun h column hc => ⟨h.1 column hc, h.2 column hc⟩
      have hcount : (index ≤ kMaxColumnId
            ∧ (rest ≠ [] → index + 1 + rest.length ≤ kMaxColumnId + 1))
          ↔ index + (rest.length + 1) ≤ kMaxColumnId + 1 := by
        by_cases hrest : rest = []
        · subst hrest
          simp
        · have hpos := List.length_pos_iff.mpr hrest
          rw [imp_iff_right hrest]
          omega
      rw [hnew, imp_iff_right (List.cons_ne_nil _ _), ← hcount]
      tauto

/-- Over any catalog of valid schemas. -/
theorem Statement.wellFormed_iff (hv : ∀ name t, getTable name = .ok t → t.schema.Valid)
    (statement : Statement) :
    (∃ bound, bind getTable statement = .ok bound) ↔ statement.WellFormed getTable := by
  cases statement with
  | select projections tableName predicate =>
      constructor
      · rintro ⟨bound, h⟩
        obtain ⟨table, htable, h⟩ := bind_ok_iff.mp h
        obtain ⟨bounds, hbounds, h⟩ := bind_ok_iff.mp h
        obtain ⟨p, hp, -⟩ := bind_ok_iff.mp h
        have hsource := bindFrom_ok_iff.mp htable
        have hvalid := hsource.valid hv
        exact .select hsource ((bindProjections_iff hvalid projections).mp ⟨bounds, hbounds⟩)
          ((bindPredicate_iff hvalid predicate).mp ⟨p, hp⟩)
      · rintro (⟨hsource, projected, filtered⟩ | _ | _)
        have hvalid := hsource.valid hv
        obtain ⟨bounds, hbounds⟩ := (bindProjections_iff hvalid projections).mpr projected
        obtain ⟨p, hp⟩ := (bindPredicate_iff hvalid predicate).mpr filtered
        exact ⟨_, bind_ok_iff.mpr ⟨_, bindFrom_ok_iff.mpr hsource,
          bind_ok_iff.mpr ⟨bounds, hbounds, bind_ok_iff.mpr ⟨p, hp, rfl⟩⟩⟩⟩
  | insert tableName values =>
      constructor
      · rintro ⟨bound, h⟩
        obtain ⟨table, htable, h⟩ := bind_ok_iff.mp h
        obtain ⟨hlength, h⟩ := guard_ok_iff.mp h
        obtain ⟨bounds, hbounds, -⟩ := bind_ok_iff.mp h
        exact .insert htable ((bindInsertValues_iff (hv _ _ htable).storable
          (not_not.mp hlength)).mp ⟨bounds, hbounds⟩)
      · rintro (_ | ⟨found, fit⟩ | _)
        have hlength := fit.length_eq.symm
        obtain ⟨bounds, hbounds⟩ :=
          (bindInsertValues_iff (hv _ _ found).storable hlength).mpr fit
        exact ⟨_, bind_ok_iff.mpr ⟨_, found, guard_ok_iff.mpr ⟨not_not_intro hlength,
          bind_ok_iff.mpr ⟨bounds, hbounds, rfl⟩⟩⟩⟩
  | createTable tableName definitions =>
      constructor
      · rintro ⟨bound, h⟩
        obtain ⟨hnamed, h⟩ := guard_ok_iff.mp h
        obtain ⟨hne, h⟩ := guard_ok_iff.mp h
        cases hget : getTable tableName with
        | ok table =>
            rw [hget] at h
            cases h
        | error st =>
            rw [hget] at h
            obtain ⟨habsent, h⟩ := guard_ok_iff.mp h
            obtain ⟨columns, hcolumns, -⟩ := bind_ok_iff.mp h
            obtain ⟨hcount, hcolumns, hdistinct, -⟩ :=
              (bindColumnDefinitions_iff 0 [] definitions).mp ⟨columns, hcolumns⟩
            rw [Nat.zero_add] at hcount
            exact .createTable hnamed hget (not_not.mp habsent) hne (hcount hne) hcolumns
              hdistinct
      · rintro (_ | _ | ⟨named, fresh, absent, nonempty, count, columns_named, distinct⟩)
        obtain ⟨columns, hcolumns⟩ := (bindColumnDefinitions_iff 0 [] definitions).mpr
          ⟨fun _ => (Nat.zero_add _).trans_le count, columns_named, distinct,
            fun _ _ => List.not_mem_nil⟩
        refine ⟨.createTable ⟨tableName, ⟨columns⟩⟩, ?_⟩
        refine guard_ok_iff.mpr ⟨named, guard_ok_iff.mpr ⟨nonempty, ?_⟩⟩
        rw [fresh]
        exact guard_ok_iff.mpr ⟨not_not_intro absent, bind_ok_iff.mpr ⟨columns, hcolumns, rfl⟩⟩

/-- **THE BINDER DECIDES WELL-FORMEDNESS**: after any run it binds exactly the
    statements that are well formed over the catalog, and a text whose statement
    is not is refused and changes nothing. -/
theorem bind_iff_wellFormed (texts : List Bytes) (statement : Statement) :
    ((∃ bound, bind (engineAfter texts).catalog.getTable statement = .ok bound)
        ↔ statement.WellFormed (engineAfter texts).catalog.getTable)
      ∧ ∀ sql, parseSql sql = .ok statement →
        ¬ statement.WellFormed (engineAfter texts).catalog.getTable →
        ∃ st, execute (engineAfter texts) sql = (.error st, engineAfter texts) := by
  have hvalid : ∀ name t, (engineAfter texts).catalog.getTable name = .ok t → t.schema.Valid :=
    fun name t ht => (engineAfter_consistent texts).schema_valid ht
  have hbind := Statement.wellFormed_iff hvalid statement
  refine ⟨hbind, fun sql hparse hill => ?_⟩
  rw [← hbind] at hill
  cases h : bind (engineAfter texts).catalog.getTable statement with
  | ok bound => exact absurd ⟨bound, h⟩ hill
  | error st =>
      refine ⟨st, ?_⟩
      rw [execute, executeIn, hparse]
      dsimp only
      rw [h]

/-- An INTEGER is no predicate. -/
theorem bind_iff_wellFormed_integer :
    let texts := [ascii "CREATE TABLE t (a INT)"]
    ∃ st, execute (engineAfter texts) (ascii "SELECT * FROM t WHERE a")
      = (.error st, engineAfter texts) := by
  intro texts
  have hparse : parseSql (ascii "SELECT * FROM t WHERE a")
      = .ok (.select [⟨.star, []⟩] (ascii "t") (some (.columnRef (ascii "a")))) := by
    decide +kernel
  obtain ⟨hbind, hrefused⟩ := bind_iff_wellFormed texts
    (.select [⟨.star, []⟩] (ascii "t") (some (.columnRef (ascii "a"))))
  refine hrefused _ hparse fun hwell => ?_
  obtain ⟨bound, hbound⟩ := hbind.mpr hwell
  have herror : (bind (engineAfter texts).catalog.getTable
      (.select [⟨.star, []⟩] (ascii "t") (some (.columnRef (ascii "a"))))).toBool = false := by
    decide +kernel
  rw [hbound] at herror
  cases herror

end

end MattSql
