import MattSql.OptimizerProofs

/-! # The optimizer on arbitrary trees

    `foldExpression_spec` is used above on plans of bound statements.  Here the
    two rules meet every tree the plan types allow, well typed or not: folding
    an expression is faithful to the evaluator (`foldExpression_faithful`), and
    one pass over a plan leaves nothing for a second one
    (`optimize_normal_form`).

    Both rules treat the children of a node first and then the node.  That is
    made explicit by `foldPlan_eq` and `removeConstantFilters_eq`, and the
    results are inductions over `LogicalPlan.Everywhere`, the nodes of a
    tree. -/

namespace MattSql

open Fallible

/-! ## The type field -/

/-- The type field of an operator node is what its operator yields. -/
def BoundExpression.OperatorTyped : BoundExpression → Prop
  | .unary type op _ => type = op.resultType
  | .binary type _ op _ => type = op.resultType
  | _ => True

/-- A node that evaluates to a constant and is an operator node has the type of
    the constant. -/
theorem BoundExpression.OperatorTyped.type_eq {e : BoundExpression} (h : e.OperatorTyped)
    {context : EvaluationContext} {v : Value} (hev : evaluate context e = .ok v)
    (hfold : foldCurrentExpression e ≠ .ok e) : e.type = valueTypeOf v := by
  cases e with
  | unary type op operand =>
      obtain ⟨value, -, hev⟩ := bind_ok_iff.mp hev
      exact h.trans (evaluateUnary_type hev).symm
  | binary type left op right => exact h.trans (evaluateBinary_type hev).symm
  | literal type value => exact absurd rfl hfold
  | column type tableId columnId tableName columnName => exact absurd rfl hfold
  | star type => exact absurd rfl hfold

theorem foldCurrentExpression_type {e e' : BoundExpression} (h : e.OperatorTyped)
    (hf : foldCurrentExpression e = .ok e') : e'.type = e.type := by
  by_cases hsame : foldCurrentExpression e = .ok e
  · rw [hsame] at hf
    cases hf
    rfl
  · rcases foldCurrentExpression_spec e with hkeep | ⟨folded, hfold, -, -, hconst⟩
    · exact absurd hkeep hsame
    · rw [hfold] at hf
      cases hf
      exact (h.type_eq (hconst {}) hsame).symm

/-- Folding keeps the type field of such a node: the operands of the node that
    is left may be other ones, but its type field and its operator are not. -/
theorem foldExpression_type {e e' : BoundExpression} (h : e.OperatorTyped)
    (hf : foldExpression e = .ok e') : e'.type = e.type := by
  rw [foldExpression] at hf
  cases e with
  | unary type op operand =>
      obtain ⟨operand', -, hf⟩ := bind_ok_iff.mp hf
      exact foldCurrentExpression_type (e := .unary type op operand') h hf
  | binary type left op right =>
      obtain ⟨left', -, hf⟩ := bind_ok_iff.mp hf
      obtain ⟨right', -, hf⟩ := bind_ok_iff.mp hf
      exact foldCurrentExpression_type (e := .binary type left' op right') h hf
  | literal type value => exact foldCurrentExpression_type (e := .literal type value) h hf
  | column type tableId columnId tableName columnName =>
      cases hf
      rfl
  | star type => cases hf

theorem bindUnary_operatorTyped {op : UnaryOperator} {operand e : BoundExpression}
    (h : bindUnary op operand = .ok e) : e.OperatorTyped := by
  cases op <;>
    (obtain ⟨-, h⟩ := guard_ok_iff.mp h
     cases h
     rfl)

theorem bindBinary_operatorTyped {left right e : BoundExpression} {op : BinaryOperator}
    (h : bindBinary left op right = .ok e) : e.OperatorTyped := by
  cases op <;>
    (obtain ⟨-, h⟩ := guard_ok_iff.mp h
     cases h
     rfl)

/-- The binder gives operator nodes their operator's type, over any table, with
    a valid schema or not. -/
theorem bindExpression_operatorTyped {table : Option TableInfo} {source : Expression}
    {e : BoundExpression} (h : bindExpression table source = .ok e) : e.OperatorTyped := by
  cases source with
  | integerLiteral value =>
      cases h
      trivial
  | stringLiteral value =>
      cases h
      trivial
  | booleanLiteral value =>
      cases h
      trivial
  | nullLiteral =>
      cases h
      trivial
  | columnRef name =>
      cases table with
      | none => cases h
      | some t =>
          obtain ⟨column, -, h⟩ := bind_ok_iff.mp h
          cases h
          trivial
  | unary op operand =>
      obtain ⟨operand', -, h⟩ := bind_ok_iff.mp h
      exact bindUnary_operatorTyped h
  | binary left op right =>
      obtain ⟨left', -, h⟩ := bind_ok_iff.mp h
      obtain ⟨right', -, h⟩ := bind_ok_iff.mp h
      exact bindBinary_operatorTyped h
  | star => cases h

theorem coerceToColumn_operatorTyped {e e' : BoundExpression} {column : ColumnSchema}
    (he : e.OperatorTyped) (h : coerceToColumn e column = .ok e') : e'.OperatorTyped := by
  unfold coerceToColumn at h
  dsimp only at h
  split at h
  · split at h
    · cases h
      exact he
    · cases h
  · split at h
    · cases h
      exact he
    · split at h
      · split at h
        · rename_i literal hliteral
          cases h
          unfold coerceBooleanIntegerLiteral at hliteral
          split at hliteral
          · split at hliteral
            · cases hliteral
              trivial
            · cases hliteral
          · cases hliteral
        · cases h
      · cases h

/-- The expressions of a bound statement. -/
def BoundStatement.expressions : BoundStatement → List BoundExpression
  | .select projections _ _ predicate => projections ++ predicate.toList
  | .insert _ values => values
  | .createTable _ => []

theorem bindProjections_operatorTyped {table : Option TableInfo}
    {projections : List SelectProjection} {bounds : List (BoundExpression × Bytes)}
    (h : bindProjections table projections = .ok bounds) :
    ∀ bound ∈ bounds, bound.1.OperatorTyped := by
  induction projections generalizing bounds with
  | nil =>
      cases h
      exact fun _ hmem => absurd hmem List.not_mem_nil
  | cons projection rest ih =>
      obtain ⟨first, hfirst, h⟩ := bind_ok_iff.mp h
      obtain ⟨others, hothers, h⟩ := bind_ok_iff.mp h
      cases h
      intro bound hmem
      rcases List.mem_append.mp hmem with hmem | hmem
      · unfold bindProjection at hfirst
        split at hfirst
        · cases table with
          | none => cases hfirst
          | some t =>
              cases hfirst
              obtain ⟨column, -, rfl⟩ := List.mem_map.mp hmem
              trivial
        · obtain ⟨e, he, hfirst⟩ := bind_ok_iff.mp hfirst
          cases hfirst
          cases List.mem_singleton.mp hmem
          exact bindExpression_operatorTyped he
      · exact ih hothers bound hmem

theorem bindInsertValues_operatorTyped {values : List Expression}
    {columns : List ColumnSchema} {bound : List BoundExpression}
    (h : bindInsertValues values columns = .ok bound) : ∀ e ∈ bound, e.OperatorTyped := by
  induction values generalizing columns bound with
  | nil =>
      cases h
      exact fun _ hmem => absurd hmem List.not_mem_nil
  | cons value values ih =>
      cases columns with
      | nil => cases h
      | cons column columns =>
          obtain ⟨e, he, h⟩ := bind_ok_iff.mp h
          obtain ⟨e', he', h⟩ := bind_ok_iff.mp h
          obtain ⟨es, hes, h⟩ := bind_ok_iff.mp h
          cases h
          intro other hmem
          rcases List.mem_cons.mp hmem with rfl | hmem
          · exact coerceToColumn_operatorTyped (bindExpression_operatorTyped he) he'
          · exact ih hes other hmem

/-- Every expression of a bound statement, whatever the catalog answers. -/
theorem bind_operatorTyped {getTable : Bytes → Result TableInfo} {statement : Statement}
    {bound : BoundStatement} (h : bind getTable statement = .ok bound) :
    ∀ e ∈ bound.expressions, e.OperatorTyped := by
  cases statement with
  | select projections tableName predicate =>
      obtain ⟨table, -, h⟩ := bind_ok_iff.mp h
      obtain ⟨bounds, hbounds, h⟩ := bind_ok_iff.mp h
      obtain ⟨filter, hfilter, h⟩ := bind_ok_iff.mp h
      cases h
      intro e hmem
      rcases List.mem_append.mp hmem with hmem | hmem
      · obtain ⟨bound, hbound, rfl⟩ := List.mem_map.mp hmem
        exact bindProjections_operatorTyped hbounds bound hbound
      · cases predicate with
        | none =>
            cases hfilter
            exact absurd hmem List.not_mem_nil
        | some source =>
            obtain ⟨p, hp, hfilter⟩ := bind_ok_iff.mp hfilter
            obtain ⟨-, hfilter⟩ := guard_ok_iff.mp hfilter
            cases hfilter
            cases List.mem_singleton.mp hmem
            exact bindExpression_operatorTyped hp
  | insert tableName values =>
      obtain ⟨table, -, h⟩ := bind_ok_iff.mp h
      obtain ⟨-, h⟩ := guard_ok_iff.mp h
      obtain ⟨es, hes, h⟩ := bind_ok_iff.mp h
      cases h
      exact bindInsertValues_operatorTyped hes
  | createTable tableName columns =>
      obtain ⟨-, -, -, schema, -, rfl⟩ := bindCreateTable_bound h
      exact fun _ hmem => absurd hmem List.not_mem_nil

/-- The expressions the binder makes: of a whole statement, or of one source
    expression over an optional table. -/
inductive BoundExpression.FromBinder (e : BoundExpression) : Prop
  | expression {table : Option TableInfo} {source : Expression}
      (h : bindExpression table source = .ok e)
  | statement {getTable : Bytes → Result TableInfo} {source : Statement}
      {bound : BoundStatement} (h : bind getTable source = .ok bound)
      (mem : e ∈ bound.expressions)

theorem BoundExpression.FromBinder.operatorTyped {e : BoundExpression} (h : e.FromBinder) :
    e.OperatorTyped := by
  cases h with
  | expression h => exact bindExpression_operatorTyped h
  | statement h mem => exact bind_operatorTyped h e mem

/-- **FOLDING IS FAITHFUL TO THE EVALUATOR**: every star-free expression, typed
    or not, folds, and the folded one has the same outcome in every context,
    the same value or the same failure; what the binder made keeps its type
    field. -/
theorem foldExpression_faithful (e : BoundExpression) (h : e.StarFree) :
    ∃ folded, foldExpression e = .ok folded
      ∧ (∀ context, evaluate context folded = evaluate context e)
      ∧ (e.FromBinder → folded.type = e.type) := by
  obtain ⟨folded, hf, hto⟩ := foldExpression_spec h
  exact ⟨folded, hf, hto.evaluate_eq, fun hfrom => foldExpression_type hfrom.operatorTyped hf⟩

/-- `FALSE AND 1 / 0 = 1`: the division is left as it is, and the evaluator still
    never reaches it. -/
theorem foldExpression_faithful_guarded :
    ∃ folded, foldExpression (.binary .boolean (.literal .boolean (.boolean false)) .and
        (.binary .boolean (.binary .integer (.literal .integer (.integer 1)) .divide
          (.literal .integer (.integer 0))) .equal (.literal .integer (.integer 1)))) = .ok folded
      ∧ (∀ context, evaluate context folded = .ok (.boolean false)) ∧ folded.type = .boolean := by
  obtain ⟨folded, hf, hev, htype⟩ := foldExpression_faithful
    (.binary .boolean (.literal .boolean (.boolean false)) .and
      (.binary .boolean (.binary .integer (.literal .integer (.integer 1)) .divide
        (.literal .integer (.integer 0))) .equal (.literal .integer (.integer 1))))
    ⟨trivial, ⟨trivial, trivial⟩, trivial⟩
  refine ⟨folded, hf, hev, htype ?_⟩
  exact @BoundExpression.FromBinder.expression _ none
    (.binary (.booleanLiteral false) .and (.binary (.binary (.integerLiteral 1) .divide
      (.integerLiteral 0)) .equal (.integerLiteral 1))) rfl

/-! ## Plans as trees -/

/-- The inputs of a node. -/
def LogicalPlan.children : LogicalPlan → List LogicalPlan
  | .seqScan children _ => children
  | .filter children _ => children
  | .projection children _ _ => children
  | .values children _ => children
  | .insert children _ => children
  | .createTable children _ => children

/-- The node over other inputs. -/
def LogicalPlan.withChildren (children : List LogicalPlan) : LogicalPlan → LogicalPlan
  | .seqScan _ table => .seqScan children table
  | .filter _ predicate => .filter children predicate
  | .projection _ projections projectionNames =>
    .projection children projections projectionNames
  | .values _ rows => .values children rows
  | .insert _ table => .insert children table
  | .createTable _ request => .createTable children request

/-- The expressions of the node itself. -/
def LogicalPlan.expressions : LogicalPlan → List BoundExpression
  | .filter _ predicate => [predicate]
  | .projection _ projections _ => projections
  | .values _ rows => rows.flatten
  | _ => []

@[simp] theorem LogicalPlan.children_withChildren (children : List LogicalPlan)
    (plan : LogicalPlan) : (plan.withChildren children).children = children := by
  cases plan <;> rfl

@[simp] theorem LogicalPlan.expressions_withChildren (children : List LogicalPlan)
    (plan : LogicalPlan) : (plan.withChildren children).expressions = plan.expressions := by
  cases plan <;> rfl

@[simp] theorem LogicalPlan.withChildren_self (plan : LogicalPlan) :
    plan.withChildren plan.children = plan := by
  cases plan <;> rfl

/-- Every node of the tree, at any depth and below nodes of any kind. -/
inductive LogicalPlan.Everywhere (P : LogicalPlan → Prop) : LogicalPlan → Prop
  | node {plan : LogicalPlan} (own : P plan)
      (inputs : ∀ child ∈ plan.children, Everywhere P child) : Everywhere P plan

/-- What `fold_plan` does with a node whose inputs are done. -/
def foldNode : LogicalPlan → Result LogicalPlan
  | .filter children predicate => do
    let predicate ← foldExpression predicate
    .ok (.filter children predicate)
  | .projection children projections projectionNames => do
    let projections ← projections.mapM foldExpression
    .ok (.projection children projections projectionNames)
  | .values children rows => do
    let rows ← rows.mapM fun row => row.mapM foldExpression
    .ok (.values children rows)
  | plan => .ok plan

/-- What `remove_constant_filters` does with a node whose inputs are done. -/
def removeNode : LogicalPlan → Result LogicalPlan
  | .filter children predicate => removeFilter children predicate
  | plan => .ok plan

theorem foldPlans_eq (plans : List LogicalPlan) : foldPlans plans = plans.mapM foldPlan := by
  induction plans with
  | nil => rfl
  | cons plan plans ih =>
      rw [foldPlans, ih, List.mapM_cons]
      rfl

theorem foldPlan_eq (plan : LogicalPlan) :
    foldPlan plan
      = plan.children.mapM foldPlan >>= fun inputs => foldNode (plan.withChildren inputs) := by
  cases plan <;> (rw [foldPlan, foldPlans_eq]; rfl)

theorem removeAllConstantFilters_eq (plans : List LogicalPlan) :
    removeAllConstantFilters plans = plans.mapM removeConstantFilters := by
  induction plans with
  | nil => rfl
  | cons plan plans ih =>
      rw [removeAllConstantFilters, ih, List.mapM_cons]
      rfl

theorem removeConstantFilters_eq (plan : LogicalPlan) :
    removeConstantFilters plan
      = plan.children.mapM removeConstantFilters >>= fun inputs =>
          removeNode (plan.withChildren inputs) := by
  cases plan <;> (rw [removeConstantFilters, removeAllConstantFilters_eq]; rfl)

/-! ## Nothing left to fold -/

/-- No star occurs, and no operator over literals that the folding functions
    accept. -/
def BoundExpression.Folded : BoundExpression → Prop
  | .literal _ _ => True
  | .column _ _ _ _ _ => True
  | .unary _ op operand =>
    operand.Folded ∧ ∀ value, boundLiteralValue operand = some value → foldUnary op value = none
  | .binary _ left op right =>
    left.Folded ∧ right.Folded ∧ ∀ l r, boundLiteralValue left = some l →
      boundLiteralValue right = some r → foldBinary op l r = none
  | .star _ => False

/-- An operator over a folded operand folds to a folded expression. -/
theorem foldCurrentExpression_unary_folded {type : SqlType} {op : UnaryOperator}
    {operand : BoundExpression} (h : operand.Folded) :
    ∃ e, foldCurrentExpression (.unary type op operand) = .ok e ∧ e.Folded := by
  cases hf : boundLiteralValue operand >>= foldUnary op with
  | some folded =>
      refine ⟨makeBoundLiteral folded, ?_, trivial⟩
      rw [foldCurrentExpression, hf]
  | none =>
      refine ⟨.unary type op operand, ?_, h, fun value hvalue => ?_⟩
      · rw [foldCurrentExpression, hf]
      · rw [hvalue] at hf
        exact hf

/-- An operator over folded operands folds to a folded expression. -/
theorem foldCurrentExpression_binary_folded {type : SqlType} {op : BinaryOperator}
    {left right : BoundExpression} (hl : left.Folded) (hr : right.Folded) :
    ∃ e, foldCurrentExpression (.binary type left op right) = .ok e ∧ e.Folded := by
  by_cases hopen : ∀ l r, boundLiteralValue left = some l → boundLiteralValue right = some r →
      foldBinary op l r = none
  · refine ⟨.binary type left op right, ?_, hl, hr, hopen⟩
    rw [foldCurrentExpression]
    split
    · rename_i l r hleft hright
      rw [hopen l r hleft hright]
    · rfl
  · push Not at hopen
    obtain ⟨l, r, hleft, hright, hfold⟩ := hopen
    obtain ⟨folded, hfolded⟩ := Option.ne_none_iff_exists'.mp hfold
    refine ⟨makeBoundLiteral folded, ?_, trivial⟩
    rw [foldCurrentExpression, hleft, hright]
    dsimp only
    rw [hfolded]

/-- One pass, children first, leaves nothing to fold: a literal has no
    operands, and an operator that stays keeps operands that are done. -/
theorem foldExpression_folded {e : BoundExpression} (h : e.StarFree) :
    ∃ e', foldExpression e = .ok e' ∧ e'.Folded := by
  rw [foldExpression]
  induction e with
  | literal type value => exact ⟨.literal type value, rfl, trivial⟩
  | column type tableId columnId tableName columnName =>
      exact ⟨.column type tableId columnId tableName columnName, rfl, trivial⟩
  | unary type op operand ih =>
      obtain ⟨operand', hf, hfolded⟩ := ih h
      rw [transformBoundExpression, hf]
      exact foldCurrentExpression_unary_folded hfolded
  | binary type left op right ihl ihr =>
      obtain ⟨left', hfl, hl⟩ := ihl h.1
      obtain ⟨right', hfr, hr⟩ := ihr h.2
      rw [transformBoundExpression, hfl, ok_bind, hfr]
      exact foldCurrentExpression_binary_folded hl hr
  | star type => exact absurd h id

/-- A folded expression folds to itself. -/
theorem BoundExpression.Folded.foldExpression_eq {e : BoundExpression} (h : e.Folded) :
    foldExpression e = .ok e := by
  rw [foldExpression]
  induction e with
  | literal type value => rfl
  | column type tableId columnId tableName columnName => rfl
  | unary type op operand ih =>
      have hopen : boundLiteralValue operand >>= foldUnary op = none := by
        cases hvalue : boundLiteralValue operand with
        | none => rfl
        | some value => exact h.2 value hvalue
      rw [transformBoundExpression, ih h.1, ok_bind, foldCurrentExpression, hopen]
  | binary type left op right ihl ihr =>
      rw [transformBoundExpression, ihl h.1, ok_bind, ihr h.2.1, ok_bind, foldCurrentExpression]
      split
      · rename_i l r hleft hright
        rw [h.2.2 l r hleft hright]
      · rfl
  | star type => exact absurd h id

/-! ## The two rules over a tree -/

/-- A node whose own expressions all are of one kind, with one input if it is a
    filter. -/
structure LogicalPlan.NodeOver (Q : BoundExpression → Prop) (node : LogicalPlan) : Prop where
  expressions : ∀ e ∈ node.expressions, Q e
  one_input : ∀ children predicate, node = .filter children predicate → children.length = 1

/-- A node of an optimized plan: nothing to fold, and no filter on a boolean
    literal. -/
structure LogicalPlan.NormalNode (node : LogicalPlan) : Prop where
  folded : ∀ e ∈ node.expressions, e.Folded
  no_constant : ∀ children predicate, node = .filter children predicate →
    booleanLiteral predicate = none

/-- Folding a list of expressions. -/
theorem foldExpressions_folded {es : List BoundExpression} (h : ∀ e ∈ es, e.StarFree) :
    ∃ es', es.mapM foldExpression = .ok es' ∧ ∀ e ∈ es', e.Folded := by
  obtain ⟨es', hes, -, hfolded⟩ := mapM_forall_exists fun e he => foldExpression_folded (h e he)
  exact ⟨es', hes, hfolded⟩

/-- Folding the node itself: the inputs stay, the expressions are folded. -/
theorem foldNode_spec {node : LogicalPlan} (h : node.NodeOver BoundExpression.StarFree) :
    ∃ node', foldNode node = .ok node' ∧ node'.children = node.children
      ∧ node'.NodeOver BoundExpression.Folded := by
  cases node with
  | filter children predicate =>
      obtain ⟨predicate', hf, hfolded⟩ :=
        foldExpression_folded (h.expressions predicate List.mem_cons_self)
      refine ⟨.filter children predicate', ?_, rfl, ?_, ?_⟩
      · rw [foldNode, hf]
        rfl
      · exact List.forall_mem_singleton.mpr hfolded
      · intro others p heq
        cases heq
        exact h.one_input children predicate rfl
  | projection children projections projectionNames =>
      obtain ⟨projections', hf, hfolded⟩ :=
        @foldExpressions_folded projections h.expressions
      refine ⟨.projection children projections' projectionNames, ?_, rfl, hfolded, ?_⟩
      · rw [foldNode, hf]
        rfl
      · exact fun _ _ heq => by cases heq
  | values children rows =>
      obtain ⟨rows', hf, -, hfolded⟩ :=
        mapM_forall_exists fun row (hrow : row ∈ rows) =>
          foldExpressions_folded fun e he => h.expressions e (List.mem_flatten_of_mem hrow he)
      refine ⟨.values children rows', ?_, rfl, ?_, ?_⟩
      · rw [foldNode, hf]
        rfl
      · intro e he
        obtain ⟨row, hrow, he⟩ := List.mem_flatten.mp he
        exact hfolded row hrow e he
      · exact fun _ _ heq => by cases heq
  | seqScan children table =>
      exact ⟨.seqScan children table, rfl, rfl, fun _ he => absurd he List.not_mem_nil,
        fun _ _ heq => by cases heq⟩
  | insert children table =>
      exact ⟨.insert children table, rfl, rfl, fun _ he => absurd he List.not_mem_nil,
        fun _ _ heq => by cases heq⟩
  | createTable children request =>
      exact ⟨.createTable children request, rfl, rfl, fun _ he => absurd he List.not_mem_nil,
        fun _ _ heq => by cases heq⟩

/-- Other inputs, as many as before. -/
theorem LogicalPlan.NodeOver.withChildren {Q : BoundExpression → Prop} {node : LogicalPlan}
    (h : node.NodeOver Q) {inputs : List LogicalPlan}
    (hlen : inputs.length = node.children.length) : (node.withChildren inputs).NodeOver Q := by
  refine ⟨?_, ?_⟩
  · rw [LogicalPlan.expressions_withChildren]
    exact h.expressions
  · intro children predicate heq
    cases node with
    | filter others p =>
        cases heq
        exact hlen.trans (h.one_input others predicate rfl)
    | _ => cases heq

/-- Folding a whole plan. -/
theorem foldPlan_spec {plan : LogicalPlan}
    (h : plan.Everywhere (LogicalPlan.NodeOver BoundExpression.StarFree)) :
    ∃ plan', foldPlan plan = .ok plan'
      ∧ plan'.Everywhere (LogicalPlan.NodeOver BoundExpression.Folded) := by
  induction h with
  | @node plan own inputs ih =>
      obtain ⟨children, hchildren, hlen, hall⟩ := mapM_forall_exists ih
      obtain ⟨node, hnode, hsame, hown⟩ := foldNode_spec (own.withChildren hlen)
      refine ⟨node, ?_, .node hown ?_⟩
      · rw [foldPlan_eq, hchildren, ok_bind, hnode]
      · rw [hsame, LogicalPlan.children_withChildren]
        exact hall

/-- A plan with nothing to fold is left as it is. -/
theorem foldNode_eq {node : LogicalPlan} (h : ∀ e ∈ node.expressions, e.Folded) :
    foldNode node = .ok node := by
  cases node with
  | filter children predicate =>
      rw [foldNode, (h predicate List.mem_cons_self).foldExpression_eq]
      rfl
  | projection children projections projectionNames =>
      have hps : projections.mapM foldExpression = .ok projections :=
        mapM_eq_self fun e he => (h e he).foldExpression_eq
      rw [foldNode, hps]
      rfl
  | values children rows =>
      have hrows : (rows.mapM fun row => row.mapM foldExpression) = .ok rows :=
        mapM_eq_self fun row hrow => mapM_eq_self fun e he =>
          (h e (List.mem_flatten_of_mem hrow he)).foldExpression_eq
      rw [foldNode, hrows]
      rfl
  | seqScan children table => rfl
  | insert children table => rfl
  | createTable children request => rfl

theorem foldPlan_eq_self {plan : LogicalPlan} (h : plan.Everywhere LogicalPlan.NormalNode) :
    foldPlan plan = .ok plan := by
  induction h with
  | @node plan own inputs ih =>
      rw [foldPlan_eq, mapM_eq_self ih, ok_bind, LogicalPlan.withChildren_self]
      exact foldNode_eq own.folded

/-- Removing the node itself, over inputs in normal form: it stays, gives way
    to its one input, or gives way to no rows. -/
theorem removeNode_spec {node : LogicalPlan} (h : node.NodeOver BoundExpression.Folded)
    (hinputs : ∀ child ∈ node.children, child.Everywhere LogicalPlan.NormalNode) :
    ∃ plan, removeNode node = .ok plan ∧ plan.Everywhere LogicalPlan.NormalNode := by
  cases node with
  | filter children predicate =>
      show ∃ plan, removeFilter children predicate = .ok plan ∧ _
      unfold removeFilter
      cases hlit : booleanLiteral predicate with
      | none =>
          refine ⟨.filter children predicate, rfl, .node ⟨h.expressions, ?_⟩ hinputs⟩
          intro others p heq
          cases heq
          exact hlit
      | some b =>
          cases b with
          | false =>
              refine ⟨.values [] [], rfl, .node ⟨?_, ?_⟩ ?_⟩
              · exact fun _ he => absurd he List.not_mem_nil
              · exact fun _ _ heq => by cases heq
              · exact fun _ hchild => absurd hchild List.not_mem_nil
          | true =>
              obtain ⟨child, rfl⟩ := List.length_eq_one_iff.mp (h.one_input children predicate rfl)
              exact ⟨child, rfl, hinputs child List.mem_cons_self⟩
  | _ => exact ⟨_, rfl, .node ⟨h.expressions, fun _ _ heq => by cases heq⟩ hinputs⟩

/-- Removing the constant filters of a whole folded plan. -/
theorem removeConstantFilters_spec {plan : LogicalPlan}
    (h : plan.Everywhere (LogicalPlan.NodeOver BoundExpression.Folded)) :
    ∃ plan', removeConstantFilters plan = .ok plan'
      ∧ plan'.Everywhere LogicalPlan.NormalNode := by
  induction h with
  | @node plan own inputs ih =>
      obtain ⟨children, hchildren, hlen, hall⟩ := mapM_forall_exists ih
      have hnode : ∀ child ∈ (plan.withChildren children).children,
          child.Everywhere LogicalPlan.NormalNode := by
        rw [LogicalPlan.children_withChildren]
        exact hall
      rw [removeConstantFilters_eq, hchildren, ok_bind]
      exact removeNode_spec (own.withChildren hlen) hnode

theorem removeNode_eq {node : LogicalPlan} (h : node.NormalNode) : removeNode node = .ok node := by
  cases node with
  | filter children predicate =>
      show removeFilter children predicate = _
      unfold removeFilter
      rw [h.no_constant children predicate rfl]
  | _ => rfl

theorem removeConstantFilters_eq_self {plan : LogicalPlan}
    (h : plan.Everywhere LogicalPlan.NormalNode) : removeConstantFilters plan = .ok plan := by
  induction h with
  | @node plan own inputs ih =>
      rw [removeConstantFilters_eq, mapM_eq_self ih, ok_bind, LogicalPlan.withChildren_self]
      exact removeNode_eq own

/-- **ONE PASS REACHES THE NORMAL FORM**: every plan of star-free expressions
    whose filters have one input is optimized, no filter on a boolean literal
    and no operator the folding functions accept is left at any depth, and a
    second pass changes nothing. -/
theorem optimize_normal_form (plan : LogicalPlan)
    (h : plan.Everywhere (LogicalPlan.NodeOver BoundExpression.StarFree)) :
    ∃ optimized, optimize plan = .ok optimized
      ∧ optimized.Everywhere LogicalPlan.NormalNode
      ∧ optimize optimized = .ok optimized := by
  obtain ⟨folded, hfold, hfolded⟩ := foldPlan_spec h
  obtain ⟨optimized, hremove, hnormal⟩ := removeConstantFilters_spec hfolded
  refine ⟨optimized, ?_, hnormal, ?_⟩
  · rw [optimize_eq hfold, hremove]
  · rw [optimize_eq (foldPlan_eq_self hnormal), removeConstantFilters_eq_self hnormal]

example : optimize (.filter [.filter [.values [] [[]]]
      (.binary .boolean (.literal .integer (.integer 1)) .equal
        (.literal .integer (.integer 1)))]
      (.unary .boolean .not (.literal .boolean (.boolean false)))) = .ok (.values [] [[]]) :=
  rfl

/-- Two filters, one above the other, over one empty row. -/
theorem optimize_normal_form_two_filters :
    ∃ optimized, optimize (.filter [.filter [.values [] [[]]]
          (.binary .boolean (.literal .integer (.integer 1)) .equal
            (.literal .integer (.integer 1)))]
          (.unary .boolean .not (.literal .boolean (.boolean false)))) = .ok optimized
      ∧ optimized.Everywhere LogicalPlan.NormalNode
      ∧ optimize optimized = .ok optimized := by
  refine optimize_normal_form _ (.node ⟨?_, ?_⟩ ?_)
  · exact List.forall_mem_singleton.mpr trivial
  · intro children predicate heq
    cases heq
    rfl
  · refine List.forall_mem_singleton.mpr (.node ⟨?_, ?_⟩ ?_)
    · exact List.forall_mem_singleton.mpr ⟨trivial, trivial⟩
    · intro children predicate heq
      cases heq
      rfl
    · refine List.forall_mem_singleton.mpr (.node ⟨?_, ?_⟩ ?_)
      · exact fun _ he => absurd he List.not_mem_nil
      · exact fun _ _ heq => by cases heq
      · exact fun _ hchild => absurd hchild List.not_mem_nil

end MattSql
