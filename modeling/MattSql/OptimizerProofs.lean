import MattSql.EvaluatorProofs
import MattSql.PlannerProofs

/-! # The optimizer

    `optimizer/default_optimizer.cpp`: constant folding, then the removal of
    filters with a constant predicate.

    `evaluate_fold` says that folding an expression changes no outcome of its
    evaluation, in any context: neither the value nor the failure. -/

namespace MattSql

open Fallible

/-- `boolean_literal`. -/
def booleanLiteral (expression : BoundExpression) : Option Bool :=
  match boundLiteralValue expression with
  | some (.boolean b) => some b
  | _ => none

/-- The value of a computation that succeeds. -/
def okValue {α : Type} : Result α → Option α
  | .ok a => some a
  | .error _ => none

/-- `fold_unary`. -/
def foldUnary (op : UnaryOperator) (operand : Value) : Option Value :=
  match op, operand with
  | .plus, .integer i => some (.integer i)
  | .minus, .integer i => (okValue (checkedIntegerNegate i (ascii "unary minus"))).map .integer
  | .not, .boolean b => some (.boolean (!b))
  | _, _ => none

/-- `fold_arithmetic`. -/
def foldArithmetic (op : BinaryOperator) (left right : Value) : Option Value :=
  match left, right with
  | .integer l, .integer r =>
    match op with
    | .add => (okValue (checkedIntegerAdd l r (ascii "integer addition"))).map .integer
    | .subtract =>
      (okValue (checkedIntegerSubtract l r (ascii "integer subtraction"))).map .integer
    | .multiply =>
      (okValue (checkedIntegerMultiply l r (ascii "integer multiplication"))).map .integer
    | .divide => (okValue (checkedIntegerDivide l r (ascii "integer division"))).map .integer
    | _ => none
  | _, _ => none

/-- `fold_comparison`. -/
def foldComparison (op : BinaryOperator) (left right : Value) : Option Value :=
  match op with
  | .equal =>
    if isNull left ∨ isNull right then some (.boolean false)
    else (okValue (compareValues left right)).map fun c => .boolean (c = 0)
  | .notEqual =>
    if isNull left ∨ isNull right then some (.boolean false)
    else (okValue (compareValues left right)).map fun c => .boolean (c ≠ 0)
  | .less => (okValue (compareValues left right)).map fun c => .boolean (c < 0)
  | .lessEqual => (okValue (compareValues left right)).map fun c => .boolean (c ≤ 0)
  | .greater => (okValue (compareValues left right)).map fun c => .boolean (c > 0)
  | .greaterEqual => (okValue (compareValues left right)).map fun c => .boolean (c ≥ 0)
  | _ => none

/-- `fold_boolean`. -/
def foldBoolean (op : BinaryOperator) (left right : Value) : Option Value :=
  match left, right with
  | .boolean l, .boolean r =>
    match op with
    | .and => some (.boolean (l && r))
    | .or => some (.boolean (l || r))
    | _ => none
  | _, _ => none

/-- `fold_binary`. -/
def foldBinary (op : BinaryOperator) (left right : Value) : Option Value :=
  (foldArithmetic op left right).or
    ((foldComparison op left right).or (foldBoolean op left right))

/-- `fold_current_expression`. -/
def foldCurrentExpression (expression : BoundExpression) : Result BoundExpression :=
  match expression with
  | .unary _ op operand =>
    match boundLiteralValue operand >>= foldUnary op with
    | some folded => .ok (makeBoundLiteral folded)
    | none => .ok expression
  | .binary _ left op right =>
    match boundLiteralValue left, boundLiteralValue right with
    | some leftValue, some rightValue =>
      match foldBinary op leftValue rightValue with
      | some folded => .ok (makeBoundLiteral folded)
      | none => .ok expression
    | _, _ => .ok expression
  | _ => .ok expression

/-- `fold_expression`. -/
def foldExpression (expression : BoundExpression) : Result BoundExpression :=
  transformBoundExpression foldCurrentExpression expression

mutual

/-- `fold_plan`: children first, then the node's own expressions. -/
def foldPlan : LogicalPlan → Result LogicalPlan
  | .filter children predicate => do
    let children ← foldPlans children
    let predicate ← foldExpression predicate
    .ok (.filter children predicate)
  | .projection children projections projectionNames => do
    let children ← foldPlans children
    let projections ← projections.mapM foldExpression
    .ok (.projection children projections projectionNames)
  | .values children rows => do
    let children ← foldPlans children
    let rows ← rows.mapM fun row => row.mapM foldExpression
    .ok (.values children rows)
  | .createTable children request => do
    let children ← foldPlans children
    .ok (.createTable children request)
  | .insert children table => do
    let children ← foldPlans children
    .ok (.insert children table)
  | .seqScan children table => do
    let children ← foldPlans children
    .ok (.seqScan children table)

/-- The loop of `fold_plan` over the children. -/
def foldPlans : List LogicalPlan → Result (List LogicalPlan)
  | [] => .ok []
  | child :: children => do
    let child ← foldPlan child
    let children ← foldPlans children
    .ok (child :: children)

end

/-- What `remove_constant_filters` does with a filter whose inputs are done. -/
def removeFilter (children : List LogicalPlan) (predicate : BoundExpression) :
    Result LogicalPlan :=
  match booleanLiteral predicate with
  | none => .ok (.filter children predicate)
  | some true =>
    match children with
    | [child] => .ok child
    | _ => errorResult .planError (ascii "filter requires one input plan")
  | some false => .ok (.values [] [])

mutual

/-- `remove_constant_filters`. -/
def removeConstantFilters : LogicalPlan → Result LogicalPlan
  | .filter children predicate => do
    let children ← removeAllConstantFilters children
    removeFilter children predicate
  | .projection children projections projectionNames => do
    let children ← removeAllConstantFilters children
    .ok (.projection children projections projectionNames)
  | .values children rows => do
    let children ← removeAllConstantFilters children
    .ok (.values children rows)
  | .createTable children request => do
    let children ← removeAllConstantFilters children
    .ok (.createTable children request)
  | .insert children table => do
    let children ← removeAllConstantFilters children
    .ok (.insert children table)
  | .seqScan children table => do
    let children ← removeAllConstantFilters children
    .ok (.seqScan children table)

/-- The loop of `remove_constant_filters` over the children. -/
def removeAllConstantFilters : List LogicalPlan → Result (List LogicalPlan)
  | [] => .ok []
  | child :: children => do
    let child ← removeConstantFilters child
    let children ← removeAllConstantFilters children
    .ok (child :: children)

end

/-- An `OptimizerRule`: its name and its `Apply`. -/
structure OptimizerRule where
  name : Bytes
  apply : LogicalPlan → Result LogicalPlan

/-- The rules of a default `DefaultOptimizer`, in order. -/
def defaultRules : List OptimizerRule :=
  [⟨ascii "constant_folding", foldPlan⟩,
    ⟨ascii "remove_constant_filter", removeConstantFilters⟩]

/-- `DefaultOptimizer::Optimize` over a list of rules. -/
def applyRules : List OptimizerRule → LogicalPlan → Result LogicalPlan
  | [], plan => .ok plan
  | rule :: rules, plan => do
    let plan ← rule.apply plan
    applyRules rules plan

/-- `DefaultOptimizer::Optimize`. -/
def optimize (plan : LogicalPlan) : Result LogicalPlan := applyRules defaultRules plan

/-! ## Folding changes no outcome -/

theorem okValue_eq_some_iff {α : Type} {r : Result α} {a : α} :
    okValue r = some a ↔ r = .ok a := by
  cases r <;> simp [okValue]

/-- What a unary operator folds to is what it evaluates to. -/
theorem foldUnary_sound {op : UnaryOperator} {operand folded : Value}
    (h : foldUnary op operand = some folded) : evaluateUnary op operand = .ok folded := by
  unfold foldUnary at h
  split at h
  · cases h
    rfl
  · obtain ⟨n, hn, rfl⟩ := Option.map_eq_some_iff.mp h
    rw [okValue_eq_some_iff] at hn
    show (checkedIntegerNegate _ (ascii "unary minus") >>= _) = _
    rw [hn]
    rfl
  · cases h
    rfl
  · exact nomatch h

theorem foldArithmetic_sound {op : BinaryOperator} {left right folded : Value}
    (h : foldArithmetic op left right = some folded) :
    evaluateOperands op left right = .ok folded ∧ isArithmetic op := by
  unfold foldArithmetic at h
  split at h
  · rename_i l r
    have key : ∀ x : Result Int64, (okValue x).map Value.integer = some folded →
        (x >>= fun i => .ok (.integer i)) = (.ok folded : Result Value) := by
      intro x hx
      obtain ⟨i, hi, rfl⟩ := Option.map_eq_some_iff.mp hx
      rw [okValue_eq_some_iff.mp hi]
      rfl
    cases op with
    | add | subtract | multiply | divide => exact ⟨key _ h, rfl⟩
    | _ => exact nomatch h
  · exact nomatch h

theorem foldComparison_sound {op : BinaryOperator} {left right folded : Value}
    (h : foldComparison op left right = some folded) :
    evaluateOperands op left right = .ok folded
      ∧ (isEqualityComparison op ∨ isOrderingComparison op) := by
  -- folder and evaluator make the same test of the same comparison
  have key : ∀ test : Int → Bool,
      ((okValue (compareValues left right)).map fun c => Value.boolean (test c)) = some folded →
      (compareValues left right >>= fun c => .ok (.boolean (test c)))
        = (.ok folded : Result Value) := by
    intro test hx
    obtain ⟨c, hc, rfl⟩ := Option.map_eq_some_iff.mp hx
    rw [okValue_eq_some_iff.mp hc]
    rfl
  have keyNull : ∀ test : Int → Bool,
      (if isNull left ∨ isNull right then some (Value.boolean false)
        else (okValue (compareValues left right)).map fun c => Value.boolean (test c))
        = some folded →
      (if isNull left ∨ isNull right then .ok (.boolean false)
        else compareValues left right >>= fun c => .ok (.boolean (test c)))
        = (.ok folded : Result Value) := by
    intro test hx
    split
    · rename_i hn
      rw [if_pos hn] at hx
      cases hx
      rfl
    · rename_i hn
      rw [if_neg hn] at hx
      exact key test hx
  cases op with
  | equal => exact ⟨keyNull (fun c => c = 0) h, Or.inl rfl⟩
  | notEqual => exact ⟨keyNull (fun c => c ≠ 0) h, Or.inl rfl⟩
  | less => exact ⟨key (fun c => c < 0) h, Or.inr rfl⟩
  | lessEqual => exact ⟨key (fun c => c ≤ 0) h, Or.inr rfl⟩
  | greater => exact ⟨key (fun c => c > 0) h, Or.inr rfl⟩
  | greaterEqual => exact ⟨key (fun c => c ≥ 0) h, Or.inr rfl⟩
  | _ => exact nomatch h

theorem foldBoolean_sound {op : BinaryOperator} {left right folded : Value}
    (h : foldBoolean op left right = some folded) :
    evaluateBinary op (.ok left) (.ok right) = .ok folded := by
  unfold foldBoolean at h
  split at h
  · rename_i l r
    cases op with
    | and =>
        cases h
        cases l <;> rfl
    | or =>
        cases h
        cases l <;> rfl
    | _ => exact nomatch h
  · exact nomatch h

/-- What a binary operator folds to is what it evaluates to. -/
theorem foldBinary_sound {op : BinaryOperator} {left right folded : Value}
    (h : foldBinary op left right = some folded) :
    evaluateBinary op (.ok left) (.ok right) = .ok folded := by
  have key : evaluateOperands op left right = .ok folded →
      isBooleanOperator op = false → evaluateBinary op (.ok left) (.ok right) = .ok folded := by
    intro hev hop
    cases op with
    | and => exact nomatch hop
    | or => exact nomatch hop
    | _ => exact hev
  rw [foldBinary] at h
  rcases Option.or_eq_some_iff.mp h with h | ⟨-, h⟩
  · obtain ⟨hev, hop⟩ := foldArithmetic_sound h
    refine key hev ?_
    cases op <;> first | rfl | exact nomatch hop
  · rcases Option.or_eq_some_iff.mp h with h | ⟨-, h⟩
    · obtain ⟨hev, hop⟩ := foldComparison_sound h
      refine key hev ?_
      cases op with
      | and => exact nomatch h
      | or => exact nomatch h
      | _ => rfl
    · exact foldBoolean_sound h

private theorem foldCurrentExpression_unary (type : SqlType) (op : UnaryOperator)
    (operand : BoundExpression) :
    foldCurrentExpression (.unary type op operand)
      = match boundLiteralValue operand >>= foldUnary op with
        | some folded => .ok (makeBoundLiteral folded)
        | none => .ok (.unary type op operand) := rfl

private theorem foldCurrentExpression_literals (type tl tr : SqlType) (op : BinaryOperator)
    (l r : Value) :
    foldCurrentExpression (.binary type (.literal tl l) op (.literal tr r))
      = match foldBinary op l r with
        | some folded => .ok (makeBoundLiteral folded)
        | none => .ok (.binary type (.literal tl l) op (.literal tr r)) := rfl

/-- One node: it stays as it is, or it becomes the literal it evaluates to
    everywhere. -/
theorem foldCurrentExpression_spec (e : BoundExpression) :
    foldCurrentExpression e = .ok e
    ∨ ∃ folded, foldCurrentExpression e = .ok (makeBoundLiteral folded) ∧ folded ≠ .null
      ∧ (∀ index, projectionName e index = ascii "expr" ++ ascii (toString (index + 1)))
      ∧ ∀ context, evaluate context e = .ok folded := by
  cases e with
  | unary type op operand =>
      rw [foldCurrentExpression_unary]
      -- an operation that would fail is not folded, so its failure is still reported
      cases hf : boundLiteralValue operand >>= foldUnary op with
      | none => exact Or.inl rfl
      | some folded =>
          obtain ⟨value, hlit, hfold⟩ := Option.bind_eq_some_iff.mp hf
          have hev := foldUnary_sound hfold
          cases operand with
          | literal t v =>
              cases hlit
              exact Or.inr ⟨folded, rfl, evaluateUnary_ne_null hev, fun _ => rfl, fun _ => hev⟩
          | _ => exact nomatch hlit
  | binary type left op right =>
      cases left with
      | literal tl l =>
          cases right with
          | literal tr r =>
              rw [foldCurrentExpression_literals]
              cases hf : foldBinary op l r with
              | none => exact Or.inl rfl
              | some folded =>
                  have hev := foldBinary_sound hf
                  exact Or.inr ⟨folded, rfl, evaluateBinary_ne_null hev, fun _ => rfl,
                    fun _ => hev⟩
          | _ => exact Or.inl rfl
      | _ => exact Or.inl rfl
  | literal type value => exact Or.inl rfl
  | column type tableId columnId tableName columnName => exact Or.inl rfl
  | star type => exact Or.inl rfl

/-- The expressions an expression may be folded to: free of stars, with the
    same outcome in every context, the same output name, and the same type when
    the typing rules were kept. -/
structure FoldsTo (e e' : BoundExpression) : Prop where
  starFree : e'.StarFree
  evaluate_eq : ∀ context, evaluate context e' = evaluate context e
  name_eq : ∀ index, projectionName e' index = projectionName e index
  type_eq : ∀ columns, e.WellTyped columns → e'.type = e.type

theorem FoldsTo.refl {e : BoundExpression} (h : e.StarFree) : FoldsTo e e :=
  ⟨h, fun _ => rfl, fun _ => rfl, fun _ _ => rfl⟩

/-- A literal that an expression evaluates to everywhere has its type. -/
private theorem type_of_constant {e : BoundExpression} {value : Value} (hne : value ≠ .null)
    (hev : ∀ context, evaluate context e = .ok value) {columns : List ColumnSchema}
    (hw : e.WellTyped columns) : valueTypeOf value = e.type := by
  have hrow : RowFits ⟨columns⟩ (columns.map fun _ => .null) := by
    rw [RowFits]
    rw [List.forall₂_map_right_iff, List.forall₂_same]
    exact fun _ _ => Or.inl rfl
  have hout := evaluate_outcome hrow.context hw
  rw [hev] at hout
  exact hout.resolve_right fun h => hne h.1

/-- Folding a node whose children are folded. -/
private theorem foldsTo_node (e node : BoundExpression) (hfree : node.StarFree)
    (hev : ∀ context, evaluate context node = evaluate context e)
    (hname : ∀ index, projectionName node index = projectionName e index)
    (htype : node.type = e.type) :
    ∃ e', foldCurrentExpression node = .ok e' ∧ FoldsTo e e' := by
  rcases foldCurrentExpression_spec node with hf | ⟨folded, hf, hne, hexpr, hconst⟩
  · exact ⟨node, hf, hfree, hev, hname, fun _ _ => htype⟩
  · refine ⟨_, hf, trivial, fun context => (hconst context).symm.trans (hev context), ?_, ?_⟩
    · intro index
      rw [← hname, hexpr]
      rfl
    · intro columns hw
      exact type_of_constant hne (fun context => (hev context).symm.trans (hconst context)) hw

/-- **FOLDING**: every star-free expression folds, to an expression with the
    same outcome in every context. -/
theorem foldExpression_spec {e : BoundExpression} (h : e.StarFree) :
    ∃ e', foldExpression e = .ok e' ∧ FoldsTo e e' := by
  rw [foldExpression]
  induction e with
  | literal type value => exact ⟨_, rfl, FoldsTo.refl h⟩
  | column type tableId columnId tableName columnName => exact ⟨_, rfl, FoldsTo.refl h⟩
  | unary type op operand ih =>
      obtain ⟨operand', hf, hto⟩ := ih h
      rw [transformBoundExpression, hf]
      refine foldsTo_node _ (.unary type op operand') hto.starFree ?_ (fun _ => rfl) rfl
      intro context
      rw [evaluate, evaluate, hto.evaluate_eq]
  | binary type left op right ihl ihr =>
      obtain ⟨left', hfl, hl⟩ := ihl h.1
      obtain ⟨right', hfr, hr⟩ := ihr h.2
      rw [transformBoundExpression, hfl, ok_bind, hfr]
      refine foldsTo_node _ (.binary type left' op right') ⟨hl.starFree, hr.starFree⟩ ?_
        (fun _ => rfl) rfl
      intro context
      rw [evaluate, evaluate, hl.evaluate_eq, hr.evaluate_eq]
  | star type => exact absurd h id

/-- Folding a list of expressions folds each of them. -/
theorem foldExpressions_spec {es : List BoundExpression} (h : ∀ e ∈ es, e.StarFree) :
    ∃ es', es.mapM foldExpression = .ok es' ∧ List.Forall₂ FoldsTo es es' := by
  induction es with
  | nil => exact ⟨[], rfl, .nil⟩
  | cons e es ih =>
      obtain ⟨e', hf, hto⟩ := foldExpression_spec (h e List.mem_cons_self)
      obtain ⟨es', hfs, htos⟩ := ih fun a ha => h a (List.mem_cons_of_mem e ha)
      refine ⟨e' :: es', ?_, .cons hto htos⟩
      rw [List.mapM_cons, hf, hfs]
      rfl

theorem booleanLiteral_eq_some {e : BoundExpression} {b : Bool}
    (h : booleanLiteral e = some b) : ∃ type, e = .literal type (.boolean b) := by
  rw [booleanLiteral] at h
  cases e with
  | literal type value =>
      cases value with
      | boolean c =>
          cases h
          exact ⟨type, rfl⟩
      | _ => exact nomatch h
  | _ => exact nomatch h

/-! ## Optimized plans of bound statements -/

/-- What may stand where the input of a bound SELECT stood: the folded filter,
    or no filter when it folded to TRUE, or no rows when it folded to FALSE. -/
inductive OptimizedInput (table : TableInfo) : Option BoundExpression → LogicalPlan → Prop
  | source : OptimizedInput table none (logicalSource table)
  | filter {p p' : BoundExpression} (fold : FoldsTo p p') :
      OptimizedInput table (some p) (.filter [logicalSource table] p')
  | always {p : BoundExpression} {type : SqlType}
      (fold : FoldsTo p (.literal type (.boolean true))) :
      OptimizedInput table (some p) (logicalSource table)
  | never {p : BoundExpression} {type : SqlType}
      (fold : FoldsTo p (.literal type (.boolean false))) :
      OptimizedInput table (some p) (.values [] [])

theorem foldPlan_source (table : TableInfo) :
    foldPlan (logicalSource table) = .ok (logicalSource table) := by
  rw [logicalSource]
  split <;> rfl

theorem removeConstantFilters_source (table : TableInfo) :
    removeConstantFilters (logicalSource table) = .ok (logicalSource table) := by
  rw [logicalSource]
  split <;> rfl

/-- The two rules on the input of a SELECT. -/
theorem optimize_input (table : TableInfo) {predicate : Option BoundExpression}
    (h : ∀ p, predicate = some p → p.StarFree) :
    ∃ folded input, foldPlan (logicalInput table predicate) = .ok folded
      ∧ removeConstantFilters folded = .ok input ∧ OptimizedInput table predicate input := by
  cases predicate with
  | none =>
      exact ⟨_, _, foldPlan_source table, removeConstantFilters_source table, .source⟩
  | some p =>
      obtain ⟨p', hf, hto⟩ := foldExpression_spec (h p rfl)
      have hfold : foldPlan (logicalInput table (some p))
          = .ok (.filter [logicalSource table] p') := by
        rw [logicalInput, foldPlan, foldPlans, foldPlan_source, foldPlans, hf]
        rfl
      have hremove : removeConstantFilters (.filter [logicalSource table] p')
          = removeFilter [logicalSource table] p' := by
        rw [removeConstantFilters, removeAllConstantFilters, removeConstantFilters_source,
          removeAllConstantFilters]
        rfl
      rw [removeFilter] at hremove
      -- a predicate that folded to a constant is decided before any row is read
      cases hlit : booleanLiteral p' with
      | none =>
          rw [hlit] at hremove
          exact ⟨_, _, hfold, hremove, .filter hto⟩
      | some b =>
          obtain ⟨type, rfl⟩ := booleanLiteral_eq_some hlit
          cases b with
          | true => exact ⟨_, _, hfold, hremove, .always hto⟩
          | false => exact ⟨_, _, hfold, hremove, .never hto⟩

theorem optimize_eq {plan folded : LogicalPlan} (hfold : foldPlan plan = .ok folded) :
    optimize plan = removeConstantFilters folded := by
  show (foldPlan plan >>= fun plan => removeConstantFilters plan >>= fun plan => .ok plan) = _
  rw [hfold, ok_bind]
  cases removeConstantFilters folded <;> rfl

/-- A bound SELECT is optimized. -/
theorem optimize_select {projections : List BoundExpression} {projectionNames : List Bytes}
    {table : TableInfo} {predicate : Option BoundExpression}
    (h : SelectBound projections projectionNames table predicate) :
    ∃ input projections',
      optimize (.projection [logicalInput table predicate] projections projectionNames)
        = .ok (.projection [input] projections' projectionNames)
      ∧ OptimizedInput table predicate input
      ∧ List.Forall₂ FoldsTo projections projections' := by
  obtain ⟨folded, input, hfold, hremove, hinput⟩ :=
    optimize_input table fun p hp => (h.predicate_typed p hp).1.starFree
  obtain ⟨projections', hps, hto⟩ :=
    foldExpressions_spec fun e he => (h.projections_typed e he).starFree
  refine ⟨input, projections', ?_, hinput, hto⟩
  have hplan : foldPlan (.projection [logicalInput table predicate] projections projectionNames)
      = .ok (.projection [folded] projections' projectionNames) := by
    rw [foldPlan, foldPlans, hfold, foldPlans, hps]
    rfl
  rw [optimize_eq hplan, removeConstantFilters, removeAllConstantFilters, hremove,
    removeAllConstantFilters]
  rfl

/-- A bound INSERT is optimized. -/
theorem optimize_insert {table : TableInfo} {values : List BoundExpression}
    (h : ∀ e ∈ values, e.StarFree) :
    ∃ values', optimize (.insert [.values [] [values]] table)
        = .ok (.insert [.values [] [values']] table)
      ∧ List.Forall₂ FoldsTo values values' := by
  obtain ⟨values', hvs, hto⟩ := foldExpressions_spec h
  refine ⟨values', ?_, hto⟩
  have hplan : foldPlan (.insert [.values [] [values]] table)
      = .ok (.insert [.values [] [values']] table) := by
    rw [foldPlan, foldPlans, foldPlan, foldPlans]
    show ((([values].mapM fun row => row.mapM foldExpression) >>= _) >>= _) >>= _ = _
    rw [List.mapM_cons, hvs]
    rfl
  rw [optimize_eq hplan]
  rfl

theorem optimize_createTable (request : CreateTableRequest) :
    optimize (.createTable [] request) = .ok (.createTable [] request) := rfl

end MattSql
